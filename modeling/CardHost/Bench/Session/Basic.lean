import CardHost.Bench.Device
import CardHost.Host.Slot
import CardHost.Platform.Journal

/-!
# Sessions on the bench

A session is one bench with the objects that a script of steps works on: the loaded host, and a
register window, a ring, DMA pages and a lock of their own.  Each step answers a `Reply`; running a
program of the driver goes through `Session.run`, where calls armed on registers interrupt it with
operations of the loaded host.

A byte string in a reply is a `Digest`: a short one is shown whole, a long one by its length, a hash
of all of it and its two ends.
-/

namespace CardHost.Bench

/-! ## Byte strings in replies -/

/-- The FNV-1a hash of 32 bits. -/
def fnv (bytes : List UInt8) : UInt32 :=
  bytes.foldl (fun hash byte => (hash ^^^ byte.toUInt32) * 0x01000193) 0x811C9DC5

/-- What is shown of a byte string. -/
inductive Digest where
  | whole (bytes : List UInt8)
  | ends (length : Nat) (hash : UInt32) (head tail : List UInt8)

/-- The digest of a byte string: all of it up to sixty-four bytes, else sixteen bytes of each
end. -/
def Digest.ofBytes (bytes : List UInt8) : Digest :=
  let length := bytes.length
  if length ≤ 64 then .whole bytes
  else .ends length (fnv bytes) (bytes.take 16) (bytes.drop (length - 16))

/-- A byte string made up from a seed: byte `i` is `31 * i + seed`. -/
def pattern (length seed : Nat) : List UInt8 :=
  (List.range length).map fun i => UInt8.ofNat (i * 31 + seed)

theorem length_pattern (length seed : Nat) : (pattern length seed).length = length := by
  simp [pattern]

/-! ## Sessions -/

/-- A lock that a script works on, with the guard it may hold. -/
structure HeldLock where
  lock : Lock
  cell : Option UInt64
  guard : Option (Guard UInt64)

/-- The bench with everything a script works on. -/
structure Session where
  system : System machine HostState Answer
  slot : Slot
  window : Option Window
  ring : Option Ring
  pages : Table Pages
  /-- The number the next pages get. -/
  nextPages : Nat
  lock : Option HeldLock

/-- What a step answers. -/
inductive Reply where
  | ok
  /-- The object of the step does not exist. -/
  | absent
  | outcome (outcome : Except HostError Unit)
  | answer (answer : Answer)
  | number (value : Nat)
  | numbers (values : List Nat)
  | rows (rows : List (List Nat))
  | flag (value : Bool)
  | text (text : String)
  | digest (digest : Digest)
  | ring (ring : Ring)
  | descriptor (descriptor : Option Descriptor)
  | geometry (outcome : Except HostError Geometry)
  | pages (pages : Pages)
  | pagesNumber (outcome : Except HostError Nat)
  | acquired (free : Bool)
  /-- The lock is held. -/
  | held

namespace Session

/-- The task priority of applications, where every session starts. -/
def applicationLevel : UInt64 := 4

/-- The first address of the memory that a session has. -/
def arenaStart : Nat := 0x1F0000000

/-- The address behind the memory that a session has. -/
def arenaEnd : Nat := 0x210000000

/-- A session in which nothing happened.  There is no memory for DMA outside the arena. -/
def initial (verbosity : Verbosity) (base capacity : Nat) (fill : UInt8) : Session where
  system :=
    { shared :=
        ⟨{ Device.initial base capacity fill with reach := .range arenaStart arenaEnd }, .blank⟩
      level := applicationLevel
      cell := none
      verbosity := verbosity
      journal := [] }
  slot := .empty
  window := none
  ring := none
  pages := .empty
  nextPages := 0
  lock := none

/-- Runs a program of the driver.  Every armed call fires at most once, so their number bounds the
nesting. -/
def run (session : Session) (program : Prog HostState α) : Except Halt (α × Session) :=
  match session with
  | ⟨system, slot, window, ring, pages, nextPages, lock⟩ =>
    let depth := system.shared.device.armed.length
    match program.run slot.perform depth system with
    | .ok (value, system) => .ok (value, ⟨system, slot, window, ring, pages, nextPages, lock⟩)
    | .error halt => .error halt

/-- Runs a program and answers what it gives. -/
def runFor (session : Session) (program : Prog HostState α) (reply : α → Reply) :
    Except Halt (Reply × Session) := do
  let (value, session) ← session.run program
  pure (reply value, session)

/-- Changes the bench. -/
def mapDevice (session : Session) (change : Device → Device) : Session :=
  match session with
  | ⟨⟨⟨device, memory⟩, level, cell, verbosity, journal⟩, slot, window, ring, pages, next, lock⟩ =>
    ⟨⟨⟨change device, memory⟩, level, cell, verbosity, journal⟩, slot, window, ring, pages, next,
      lock⟩

/-- Changes memory. -/
def mapMemory (session : Session) (change : Memory → Memory) : Session :=
  match session with
  | ⟨⟨⟨device, memory⟩, level, cell, verbosity, journal⟩, slot, window, ring, pages, next, lock⟩ =>
    ⟨⟨⟨device, change memory⟩, level, cell, verbosity, journal⟩, slot, window, ring, pages, next,
      lock⟩

def device (session : Session) : Device :=
  session.system.shared.device

def memory (session : Session) : Memory :=
  session.system.shared.memory

/-- The session with an empty journal. -/
def fresh (session : Session) : Session :=
  match session with
  | ⟨⟨shared, level, cell, verbosity, _⟩, slot, window, ring, pages, next, lock⟩ =>
    ⟨⟨shared, level, cell, verbosity, []⟩, slot, window, ring, pages, next, lock⟩

end Session

end CardHost.Bench
