import CardHost.Bench.Session.Objects

/-!
# Scripts on the bench

A script is a list of steps on the bench itself, on the loaded host and on the other objects of a
session.  A step on the bench either changes it or answers what it sees of it, never both, so
performing one is a pair of a look and a change, and none of them runs the driver.

Each step of a script starts with an empty journal and is shown with what it answered and what
happened during it; a step that halts ends the script.
-/

namespace CardHost.Bench

/-! ## Steps that set up and look at the bench -/

/-- A step on the bench itself. -/
inductive BenchStep where
  | poke (offset : Nat) (value : UInt32)
  | peek (offset : Nat)
  | sticky (offset : Nat) (bits : UInt32)
  | busy (offset : Nat) (bits : UInt32) (reads : Nat)
  | script (offset : Nat) (values : List UInt32)
  | completion (completion : Completion)
  | dataDone (value : Bool)
  | failAllocate (failure : Failure)
  | failFree (failure : Failure)
  | failStall (status : Status)
  | onStall (after : Nat) (target : Target) (value : UInt32)
  | onWrite (offset : Nat) (call : Call)
  | fill (value : UInt8)
  | level
  | allocations
  | card (blocks : Nat)
  | cardLoad (block : Nat) (bytes : List UInt8)
  | cardDump (block blocks : Nat)
  | cardCommands
  | segments
  | memory (address count : Nat)
  | memoryWords (address count : Nat)
  | memoryPoke (address : Nat) (value : UInt32)
  | descriptors (address count : Nat)

/-- The words of memory from an address on. -/
def wordsAt (memory : Memory) (address count : Nat) : List Nat :=
  (List.range count).map fun i => (memory.readWord (address + 4 * i)).toNat

namespace Device

/-- Stores bytes on the card, if there is one. -/
def loadCard (device : Device) (block : Nat) (bytes : List UInt8) : Device :=
  match device with
  | ⟨registers, completion, dataDone, card, reach, commands, segments, pages, stallStatus, stalls,
      timers, armed⟩ =>
    let card := card.map fun card =>
      match card with
      | ⟨blocks, content⟩ => ⟨blocks, content.write (block * blockBytes) bytes⟩
    ⟨registers, completion, dataDone, card, reach, commands, segments, pages, stallStatus, stalls,
      timers, armed⟩

/-- The bytes of some blocks of the card. -/
def dumpCard (device : Device) (block blocks : Nat) : List UInt8 :=
  match device.card with
  | none => []
  | some card => card.bytes.read (block * blockBytes) (blocks * blockBytes)

end Device

/-- Whether the blocks that a step names lie on the card.  Without a card there are none. -/
def Device.reaches (device : Device) (block bytes : Nat) : Bool :=
  block * blockBytes + bytes ≤ (device.card.map Card.size).getD 0

/-- Whether a step stays on the card. -/
def Session.stays (session : Session) : BenchStep → Bool
  | .cardLoad block bytes => session.device.reaches block bytes.length
  | .cardDump block blocks => session.device.reaches block (blocks * blockBytes)
  | _ => true

/-- The session after a step that only sets something up. -/
def Session.setUp (session : Session) : BenchStep → Session
  | .poke offset value =>
    session.mapDevice fun d => { d with registers := d.registers.poke offset value }
  | .sticky offset bits =>
    session.mapDevice fun d =>
      { d with registers := { d.registers with sticky := d.registers.sticky.set offset bits } }
  | .busy offset bits reads =>
    session.mapDevice fun d =>
      { d with registers := { d.registers with busy := d.registers.busy.set offset (bits, reads) } }
  | .script offset values =>
    session.mapDevice fun d =>
      { d with registers := { d.registers with scripts := d.registers.scripts.set offset values } }
  | .completion completion => session.mapDevice fun d => { d with completion := completion }
  | .dataDone value => session.mapDevice fun d => { d with dataDone := value }
  | .failAllocate failure =>
    session.mapDevice fun d => { d with pages := { d.pages with allocateFailure := some failure } }
  | .failFree failure =>
    session.mapDevice fun d => { d with pages := { d.pages with freeFailure := some failure } }
  | .failStall status => session.mapDevice fun d => { d with stallStatus := status }
  | .onStall after target value =>
    session.mapDevice fun d => { d with timers := d.timers ++ [⟨d.stalls + after, target, value⟩] }
  | .onWrite offset call =>
    session.mapDevice fun d => { d with armed := d.armed ++ [(offset, call)] }
  | .fill value => session.mapDevice fun d => { d with pages := { d.pages with fill := value } }
  | .card blocks => session.mapDevice fun d => { d with card := some (.blank blocks) }
  | .cardLoad block bytes => session.mapDevice fun d => d.loadCard block bytes
  | .memoryPoke address value => session.mapMemory fun m => m.writeWord address value
  | _ => session

/-- What a step on the bench answers. -/
def Session.look (session : Session) : BenchStep → Reply
  | .peek offset => .number (session.device.registers.peek offset).toNat
  | .level => .number session.system.level.toNat
  | .allocations => .rows (session.device.pages.live.map fun entry => [entry.1, entry.2])
  | .cardDump block blocks => .digest (.ofBytes (session.device.dumpCard block blocks))
  | .cardCommands =>
    .rows (session.device.commands.reverse.map fun entry => [entry.1.toNat, entry.2.toNat])
  | .segments => .numbers (session.device.segments.map UInt32.toNat)
  | .memory address count => .digest (.ofBytes (session.memory.read address count))
  | .memoryWords address count => .numbers (wordsAt session.memory address count)
  | .descriptors address count =>
    .rows ((List.range count).map fun i => wordsAt session.memory (address + descriptorSize * i) 8)
  | _ => .ok

/-- Performs a step on the bench; blocks past the end of the card are a fault. -/
def Session.benchStep (session : Session) (step : BenchStep) : Except Halt (Reply × Session) :=
  if session.stays step then .ok (session.look step, session.setUp step) else .error .fault

/-! ## Running a script -/

/-- A step of a script. -/
inductive Step where
  | bench (step : BenchStep)
  | host (step : HostStep)
  | window (step : WindowStep)
  | ring (step : RingStep)
  | makePages (count : Nat)
  | pages (number : Nat) (step : PagesStep)
  | lock (step : LockStep)

/-- Performs a step. -/
def Session.perform (session : Session) : Step → Except Halt (Reply × Session)
  | .bench step => session.benchStep step
  | .host step => session.hostStep step
  | .window step => session.windowStep step
  | .ring step => session.ringStep step
  | .makePages count => session.makePages count
  | .pages number step => session.pagesStep number step
  | .lock step => session.lockStep step

/-- What is shown of a step. -/
inductive Shown where
  | step (reply : Reply) (entries : List (Entry Answer)) (stalls : Nat × Nat) (lines : List String)
  | halted (halt : Halt)

/-- Performs a script, up to its end or the first step that halts. -/
def Session.script : List Step → Session → List Shown
  | [], _ => []
  | step :: steps, session =>
    match session.fresh.perform step with
    | .error halt => [.halted halt]
    | .ok (reply, session) =>
      let journal := session.system.journal
      .step reply (Journal.entries journal) (Journal.stalls journal)
        (Journal.lines session.system.verbosity (Journal.messages journal))
        :: Session.script steps session

end CardHost.Bench
