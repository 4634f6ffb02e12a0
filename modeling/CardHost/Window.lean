import CardHost.Platform.Basic

/-!
# Access to a register window

Reads, writes and waits relative to the base of a window.  An address past the end of the address
space is a fault, never a wrapped access.

A wait with a bound of `b` microseconds samples the register once per microsecond and once more at
the end, so a condition that comes true during the last microsecond still counts.  A wait without a
bound samples without pause until the register answers.
-/

namespace CardHost.Window

/-- The value of a register. -/
def read (window : Window) (offset : Nat) : Prog σ UInt32 :=
  if window.base.toNat + offset < wordSpan then Prog.request (.read window offset) else .fault

/-- Sets a register. -/
def write (window : Window) (offset : Nat) (value : UInt32) : Prog σ Unit := do
  Prog.log (.registerWrite offset value)
  if window.base.toNat + offset < wordSpan then
    Prog.request (.write window offset value)
  else
    .fault

/-- Sets some bits of a register and keeps the others. -/
def setBits (window : Window) (offset : Nat) (bits : UInt32) : Prog σ Unit := do
  let value ← window.read offset
  window.write offset (value ||| bits)

/-- Clears some bits of a register and keeps the others. -/
def clearBits (window : Window) (offset : Nat) (bits : UInt32) : Prog σ Unit := do
  let value ← window.read offset
  window.write offset (without value bits)

/-! ## Waiting -/

/-- Samples a register until it is ready, at most `bound + 1` times, with a microsecond between two
samples. -/
def sample (window : Window) (services : Services) (offset : Nat) (ready : UInt32 → Bool) :
    Nat → Prog σ Bool
  | 0 => do
    let value ← window.read offset
    pure (ready value)
  | bound + 1 => do
    let value ← window.read offset
    if ready value then
      pure true
    else do
      services.stall 1
      window.sample services offset ready bound

/-- Samples a register until it is ready, without pause and as often as the platform has an answer
of its own. -/
def spin (window : Window) (offset : Nat) (ready : UInt32 → Bool) : Nat → Prog σ Bool
  | 0 => .stuck
  | patience + 1 => do
    let value ← window.read offset
    if ready value then pure true else window.spin offset ready patience

/-- Whether a register gets ready within a bound, in microseconds. -/
def awaits (window : Window) (services : Services) (offset : Nat) (ready : UInt32 → Bool)
    (bound : Option UInt32) : Prog σ Bool :=
  match bound with
  | some bound => window.sample services offset ready bound.toNat
  | none => do
    let patience ← Prog.request (.patience window offset)
    window.spin offset ready patience

/-- Waits until a register is ready, and fails with a message if it does not get ready within the
bound. -/
def handshake (window : Window) (services : Services) (offset : Nat) (ready : UInt32 → Bool)
    (missed : Message) (bound : Option UInt32) : Action σ Unit := do
  if ← (window.awaits services offset ready bound).lift then
    pure ()
  else do
    (Prog.log missed).lift
    throw .handshakeTimeout

/-- Waits until every bit of a mask reads as zero. -/
def awaitClear (window : Window) (services : Services) (offset : Nat) (mask : UInt32)
    (bound : Option UInt32) : Action σ Unit :=
  window.handshake services offset (fun value => !hasAny value mask) (.neverCleared offset mask)
    bound

/-- Waits until every bit of a mask reads as one. -/
def awaitSet (window : Window) (services : Services) (offset : Nat) (mask : UInt32)
    (bound : Option UInt32) : Action σ Unit :=
  window.handshake services offset (fun value => hasAll value mask) (.neverSet offset mask) bound

/-! ## Dump -/

/-- Logs the registers.  A register is read only if its line will show. -/
def dump (window : Window) : Prog σ Unit := do
  Prog.log (.dumpHeader window.base)
  Register.dumped.forM fun register => do
    if ← Prog.request (.shows .debug) then do
      let value ← window.read register.offset
      Prog.log (.dumpLine register value)
    else
      pure ()

def render (window : Window) : String :=
  Text.record "EmmcRegisters" [("base", Text.hex window.base.toNat)]

end CardHost.Window
