import CardHost.Text

/-!
# Firmware status codes and host errors

Firmware services answer with a 64-bit status whose two top bits give its class.  Host operations
fail with one of six causes.  `ofStatus` turns a firmware status into a cause and `status` turns a
cause into a status; two causes share the timeout status, so only the first direction is one to one
(`status_ofStatus`).
-/

namespace CardHost

/-- A status code returned by a firmware service. -/
structure Status where
  code : UInt64
deriving DecidableEq

namespace Status

/-- The bits that hold the class of a status. -/
def classMask : UInt64 := 0xC000000000000000

/-- The class of the firmware's own errors. -/
def errorClass : UInt64 := 0x8000000000000000

def success : Status := ⟨0⟩
def invalidParameter : Status := ⟨0x8000000000000002⟩
def deviceError : Status := ⟨0x8000000000000007⟩
def outOfResources : Status := ⟨0x8000000000000009⟩
def notFound : Status := ⟨0x800000000000000E⟩
def accessDenied : Status := ⟨0x800000000000000F⟩
def timeout : Status := ⟨0x8000000000000012⟩

/-- Whether a status is an error of the firmware's own; a vendor's error is not. -/
def isError (status : Status) : Bool :=
  status.code &&& classMask == errorClass

/-- A status in writing, its code in decimal. -/
def render (status : Status) : String :=
  "Status(" ++ toString status.code.toNat ++ ")"

end Status

/-- Why a host operation failed. -/
inductive HostError where
  /-- A bad buffer, length or bus setting, or a data phase with no data command latched. -/
  | invalidArgument
  /-- No DMA pages, or a transfer with more segments than the ring has descriptors. -/
  | outOfResources
  /-- A command or data completion wait ran out of polls. -/
  | timeout
  /-- The controller reported an error in its raw interrupt status. -/
  | deviceError
  /-- A register handshake never completed. -/
  | handshakeTimeout
  /-- A firmware service failed with a status that has no closer cause. -/
  | firmware (status : Status)
deriving DecidableEq

namespace HostError

/-- The cause that a firmware status stands for; success is none. -/
def ofStatus (status : Status) : Except HostError Unit :=
  if status = .success then .ok ()
  else if status = .invalidParameter then .error .invalidArgument
  else if status = .outOfResources then .error .outOfResources
  else if status = .timeout then .error .timeout
  else if status = .deviceError then .error .deviceError
  else .error (.firmware status)

/-- The firmware status that a cause is reported as. -/
def status : HostError → Status
  | invalidArgument => .invalidParameter
  | outOfResources => .outOfResources
  | timeout => .timeout
  | deviceError => .deviceError
  | handshakeTimeout => .timeout
  | firmware status => status

/-- The cause in words. -/
def message : HostError → String
  | invalidArgument => "Invalid argument to eMMC host operation"
  | outOfResources => "Out of DMA resources"
  | timeout => "Command or data completion timed out"
  | deviceError => "Controller reported a command or data error"
  | handshakeTimeout => "Controller did not complete a register handshake"
  | firmware status => "Boot service failure: " ++ status.render

/-- A firmware status is reported unchanged when it comes back as a cause. -/
theorem status_ofStatus {s : Status} {e : HostError} (h : ofStatus s = .error e) :
    e.status = s := by
  unfold ofStatus at h
  split at h
  · cases h
  all_goals (repeat' split at h)
  all_goals (cases h; simp_all [status])

theorem ofStatus_eq_ok_iff (s : Status) : ofStatus s = .ok () ↔ s = .success := by
  unfold ofStatus
  by_cases h : s = .success
  · simp [h]
  · simp only [h, if_false, iff_false]
    repeat' split
    all_goals simp

end HostError

end CardHost
