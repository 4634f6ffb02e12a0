import CardHost.Bench.Card
import CardHost.Bench.PageStore
import CardHost.Host.Call
import CardHost.Platform.Run

/-!
# The simulated platform

The bench gives the driver registers, pages, delays and a card, and can be told to misbehave.  It is
one `Machine`: registers of supplied services are the simulated controller, those of the firmware
are plain words of memory.  Calls armed on a register interrupt the next write of it, and timers
change a register or a word of memory after some stalls.

Where pages come from is not up to the simulated controller.  `machineWith` is the bench with any
allocator, and `machine` the one with its own.
-/

namespace CardHost.Bench

/-- What completes a command. -/
inductive Completion where
  /-- Nothing does. -/
  | never
  /-- The card, or command done without one. -/
  | auto
  /-- These bits. -/
  | bits (bits : UInt32)

/-- What a timer changes. -/
inductive Target where
  | register (offset : Nat)
  | memory (address : Nat)

/-- A change that is due at a number of stalls. -/
structure Timer where
  due : Nat
  target : Target
  value : UInt32

/-- The state of the bench apart from memory. -/
structure Device where
  registers : RegisterFile
  completion : Completion
  dataDone : Bool
  card : Option Card
  /-- The memory that the DMA engine reaches. -/
  reach : Reach
  /-- The commands the card executed, the latest first. -/
  commands : List (UInt32 × UInt32)
  /-- The sizes of the descriptors that the last data command followed. -/
  segments : List UInt32
  pages : PageStore
  stallStatus : Status
  stalls : Nat
  timers : List Timer
  /-- Calls that interrupt a write, with the register they wait for. -/
  armed : List (Nat × Call)

/-- The platform between the driver and the bench. -/
abbrev Platform := Shared Device

namespace Device

/-- A bench before anything happened. -/
def initial (base capacity : Nat) (fill : UInt8) : Device where
  registers := .initial
  completion := .auto
  dataDone := true
  card := none
  reach := .all
  commands := []
  segments := []
  pages := ⟨base, capacity, fill, [], none, none⟩
  stallStatus := .success
  stalls := 0
  timers := []
  armed := []

/-- The bits raised without a card: data is done too for a data command, unless data never ends or
the bits hold an error. -/
def raised (device : Device) (bits word : UInt32) : UInt32 :=
  if hasAll word CommandFlags.dataExpected && device.dataDone
      && !hasAny bits RawInterrupt.errors then
    bits ||| RawInterrupt.transferOver
  else
    bits

/-- Takes the first call armed on a register. -/
def takeArmed (offset : Nat) : List (Nat × Call) → Option (Call × List (Nat × Call))
  | [] => none
  | entry :: rest =>
    if entry.1 = offset then some (entry.2, rest)
    else (takeArmed offset rest).map fun taken => (taken.1, entry :: taken.2)

end Device

namespace Platform

/-- Changes the registers. -/
def mapRegisters (platform : Platform) (change : RegisterFile → RegisterFile) : Platform :=
  match platform with
  | ⟨device, memory⟩ => ⟨{ device with registers := change device.registers }, memory⟩

/-- A command was started. -/
def start (platform : Platform) (word : UInt32) : Platform :=
  match platform with
  | ⟨device, memory⟩ =>
    match device.completion, device.card with
    | .never, _ => ⟨device, memory⟩
    | .auto, some card =>
      let argument := device.registers.held .argument
      let bus : CardBus := ⟨device.registers, card, memory, device.reach, device.segments⟩
      let executed := bus.execute word
      ⟨{ device with
          registers := executed.2.registers.interrupt executed.1
          card := some executed.2.card
          segments := executed.2.segments
          commands := (word &&& CommandIndex.mask, argument) :: device.commands },
        executed.2.memory⟩
    | .auto, none =>
      ⟨{ device with
          registers := device.registers.interrupt (device.raised RawInterrupt.commandDone word) },
        memory⟩
    | .bits bits, _ =>
      ⟨{ device with registers := device.registers.interrupt (device.raised bits word) }, memory⟩

/-- Whether a write starts a command that completes. -/
def starts (offset : Nat) (value : UInt32) : Bool :=
  offset == Register.command.offset && hasAll value CommandFlags.start
    && !hasAny value CommandFlags.updateClockOnly

/-- Writes a simulated register; a call armed on it interrupts. -/
def writeRegister (offset : Nat) (value : UInt32) (platform : Platform) :
    Option Call × Platform :=
  let written := platform.mapRegisters (·.write offset value)
  match if starts offset value then written.start value else written with
  | ⟨device, memory⟩ =>
    match Device.takeArmed offset device.armed with
    | some (call, rest) => (some call, ⟨{ device with armed := rest }, memory⟩)
    | none => (none, ⟨device, memory⟩)

/-- Changes what a timer changes. -/
def fire (platform : Platform) (timer : Timer) : Platform :=
  match timer.target with
  | .register offset => platform.mapRegisters (·.poke offset timer.value)
  | .memory address =>
    match platform with
    | ⟨device, memory⟩ => ⟨device, memory.writeWord address timer.value⟩

/-- Lets time pass: counts the stall, then fires the timers that are due. -/
def stall (platform : Platform) : Platform :=
  match platform with
  | ⟨device, memory⟩ =>
    let stalls := device.stalls + 1
    match device.timers with
    | [] => ⟨{ device with stalls := stalls }, memory⟩
    | timers =>
      let due := timers.filter fun timer => timer.due ≤ stalls
      let later := timers.filter fun timer => stalls < timer.due
      due.foldl fire ⟨{ device with stalls := stalls, timers := later }, memory⟩

/-- Allocates pages and fills them. -/
def allocate (pages : Nat) (platform : Platform) : Grant × Platform :=
  match platform with
  | ⟨device, memory⟩ =>
    match device.pages.allocate pages with
    | (.ok address, store) =>
      (⟨.success, UInt64.ofNat address⟩,
        ⟨{ device with pages := store },
          memory.fill address (pages * pageSize) device.pages.fill⟩)
    | (.error status, store) => (⟨status, 0⟩, ⟨{ device with pages := store }, memory⟩)

/-- Frees pages; their bytes stay. -/
def free (address : UInt64) (pages : Nat) (platform : Platform) : Status × Platform :=
  match platform with
  | ⟨device, memory⟩ =>
    match device.pages.free address.toNat pages with
    | (status, store) => (status, ⟨{ device with pages := store }, memory⟩)

end Platform

/-! ## Allocators -/

/-- Nothing on the bench changes with time alone. -/
def Untimed (platform : Platform) : Prop :=
  platform.device.timers = []

/-- An allocator: what it answers and does is left open, but it sets no timers. -/
structure Allocator where
  allocate : Services → Nat → Platform → Grant × Platform
  free : Services → UInt64 → Nat → Platform → Status × Platform
  allocate_untimed : ∀ services count platform, Untimed platform →
    Untimed (allocate services count platform).2
  free_untimed : ∀ services address count platform, Untimed platform →
    Untimed (free services address count platform).2

/-- The allocator of the bench itself. -/
def Allocator.own : Allocator where
  allocate _ := Platform.allocate
  free _ := Platform.free
  allocate_untimed services count platform h := by
    obtain ⟨device, memory⟩ := platform
    unfold Platform.allocate
    dsimp only
    rcases device.pages.allocate count with ⟨_ | granted, store⟩ <;> exact h
  free_untimed services address count platform h := h

/-! ## The machine -/

/-- The bench with an allocator, as the platform of a driver. -/
def machineWith (allocator : Allocator) : Machine Call where
  State := Device
  read window offset platform :=
    match window.services with
    | .firmware => (platform.memory.readWord (window.base.toNat + offset), platform)
    | .supplied =>
      match platform with
      | ⟨device, memory⟩ =>
        match device.registers.read offset with
        | (value, registers) => (value, ⟨{ device with registers := registers }, memory⟩)
  write window offset value platform :=
    match window.services with
    | .firmware =>
      match platform with
      | ⟨device, memory⟩ =>
        (none, ⟨device, memory.writeWord (window.base.toNat + offset) value⟩)
    | .supplied => Platform.writeRegister offset value platform
  patience window offset platform :=
    match window.services with
    | .firmware => 1
    | .supplied => platform.device.registers.patience offset
  stall services _ platform :=
    match services with
    | .firmware => (platform.device.stallStatus, Platform.stall platform)
    | .supplied => (.success, Platform.stall platform)
  allocate := allocator.allocate
  free := allocator.free

/-- The bench with its own allocator. -/
def machine : Machine Call :=
  machineWith .own

end CardHost.Bench
