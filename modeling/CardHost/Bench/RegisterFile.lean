import CardHost.Command
import CardHost.Register
import CardHost.Table

/-!
# The register file of the bench

A register holds the value last written, except where the controller acts on a write: the raw
interrupt status is cleared by writing ones, reset bits and the start bit clear themselves.  On top
of that a register can be made to misbehave: sticky bits always read as set, busy bits for a number
of reads, and a script gives the values of the next reads as they are.
-/

namespace CardHost.Bench

/-- Register values and what disturbs their reads. -/
structure RegisterFile where
  values : Table UInt32
  sticky : Table UInt32
  busy : Table (UInt32 × Nat)
  scripts : Table (List UInt32)

namespace RegisterFile

/-- Every register zero, but the card interface clock stable. -/
def initial : RegisterFile where
  values := Table.empty.set Register.clockStatus.offset clockStatusReady
  sticky := .empty
  busy := .empty
  scripts := .empty

/-- The value held by a register. -/
def value (file : RegisterFile) (offset : Nat) : UInt32 :=
  (file.values.get? offset).getD 0

/-- The value held by a named register. -/
def held (file : RegisterFile) (register : Register) : UInt32 :=
  file.value register.offset

/-- Replaces the value of a register. -/
def poke (file : RegisterFile) (offset : Nat) (value : UInt32) : RegisterFile :=
  { file with values := file.values.set offset value }

theorem value_poke (file : RegisterFile) (offset other : Nat) (value : UInt32) :
    (file.poke offset value).value other = if other = offset then value else file.value other := by
  simp only [RegisterFile.value, poke, Table.get?_set]
  split <;> rfl

/-- The value of a register with its sticky bits. -/
def peek (file : RegisterFile) (offset : Nat) : UInt32 :=
  file.value offset ||| (file.sticky.get? offset).getD 0

/-- Reads a register: the script first, then the value with sticky and busy bits. -/
def read (file : RegisterFile) (offset : Nat) : UInt32 × RegisterFile :=
  match file.scripts.get? offset with
  | some (value :: rest) => (value, { file with scripts := file.scripts.set offset rest })
  | _ =>
    match file.busy.get? offset with
    | some (bits, reads + 1) =>
      (file.peek offset ||| bits, { file with busy := file.busy.set offset (bits, reads) })
    | _ => (file.peek offset, file)

/-- After how many reads a register has nothing new to say. -/
def patience (file : RegisterFile) (offset : Nat) : Nat :=
  ((file.scripts.get? offset).getD []).length + ((file.busy.get? offset).getD (0, 0)).2 + 1

/-- What a write leaves in the register itself. -/
def stored (file : RegisterFile) (offset : Nat) (value : UInt32) : UInt32 :=
  if offset = Register.rawInterrupt.offset then without (file.value offset) value
  else if offset = Register.control.offset then
    without value (Control.controllerReset ||| Control.fifoReset ||| Control.dmaReset)
  else if offset = Register.busMode.offset then without value BusMode.softReset
  else if offset = Register.command.offset then without value CommandFlags.start
  else value

/-- Writes a register. -/
def write (file : RegisterFile) (offset : Nat) (value : UInt32) : RegisterFile :=
  file.poke offset (file.stored offset value)

/-- Raises bits of the raw interrupt status. -/
def interrupt (file : RegisterFile) (bits : UInt32) : RegisterFile :=
  file.poke Register.rawInterrupt.offset (file.held .rawInterrupt ||| bits)

/-- Sets the response registers. -/
def respond (file : RegisterFile) (r0 r1 r2 r3 : UInt32) : RegisterFile :=
  (((file.poke Register.response0.offset r0).poke Register.response1.offset r1).poke
    Register.response2.offset r2).poke Register.response3.offset r3

end RegisterFile

end CardHost.Bench
