import CardHost.Host.Call

/-!
# Loading and unloading

A slot holds the host that is loaded, if one is.  Loading checks the configuration and allocates the
ring; the controller itself is not touched.  A host is replaced only after the new one was made, and
its ring goes back to the allocator exactly once, when it is replaced or unloaded.
-/

namespace CardHost

namespace Host

/-- Makes a host and the state behind its lock. -/
def make (config : HostConfig) (services : Services) : Action σ (Host × HostState) :=
  match h : config.defect? with
  | some defect => do
    report (.configRefused config defect)
    throw defect.error
  | none => do
    let ring ← Ring.allocate services config.descriptorCount.toNat
    pure (⟨config, services, h⟩, ⟨ring, none⟩)

/-- Makes a host and says how that went. -/
def load (config : HostConfig) (services : Services) : Action σ (Host × HostState) := do
  let made ← (make config services).onError .loadFailed
  report (.loaded config.baseAddress made.1.limits)
  pure made

/-- Gives back what a host owns; a failure is only logged. -/
def retire (host : Host) (state : HostState) : Prog σ Unit := do
  match ← (state.ring.free host.services).run with
  | .ok () => pure ()
  | .error error => Prog.log (.ringNotFreed error)

end Host

/-- The place of the loaded host. -/
structure Slot where
  host : Option Host

namespace Slot

def empty : Slot := ⟨none⟩

/-- Takes the state of the loaded host out of its cell. -/
def detach (slot : Slot) : Prog HostState (Option (Host × HostState)) :=
  match slot.host with
  | none => pure none
  | some host => do
    let state ← Prog.request .take
    pure (state.map fun state => (host, state))

/-- Gives back what a detached host owns. -/
def retire : Option (Host × HostState) → Prog HostState Unit
  | none => pure ()
  | some (host, state) => host.retire state

/-- Loads a host in place of the one loaded so far, which stays if that fails. -/
def load (slot : Slot) (config : HostConfig) (services : Services) :
    Prog HostState (Except HostError Unit × Slot) := do
  match ← (Host.load config services).run with
  | .error error => pure (.error error, slot)
  | .ok (host, state) => do
    let former ← slot.detach
    Prog.request (.put state)
    retire former
    pure (.ok (), ⟨some host⟩)

/-- Loads a host on the firmware's services, if the firmware has its table. -/
def loadFirmware (slot : Slot) (config : HostConfig) (present : Bool) :
    Prog HostState (Except HostError Unit × Slot) := do
  if present then
    slot.load config .firmware
  else do
    Prog.log .firmwareMissing
    pure (.error .invalidArgument, slot)

/-- Unloads the host.  Unloading an empty slot does nothing. -/
def unload (slot : Slot) : Prog HostState Slot := do
  match slot.host with
  | none => pure slot
  | some host => do
    Prog.log (.unloaded host.config.baseAddress)
    retire (← slot.detach)
    pure empty

/-- Performs an operation of the loaded host. -/
def perform (slot : Slot) (call : Call) : Prog HostState Answer :=
  match slot.host with
  | none => pure .noHost
  | some host => host.perform call

end Slot

end CardHost
