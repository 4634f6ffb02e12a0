import CardHost.Memory
import CardHost.Platform.Basic

/-!
# Running a program on a platform

A `Machine` is the behaviour of everything outside the driver: registers, delays and the page
allocator, all of which may also change memory.  It is arbitrary; the bench is one instance.  What
is not up to the machine is kept in `System`: memory returns what was stored, the task priority is a
level that is raised and restored, and the guarded state is in its cell or held.

A machine may answer a register write with an interruption: a call into the host that happens before
the write returns.  `runWith` takes what to do then, and `run` serves interruptions by running a
program for each, up to a nesting depth; a run at depth zero is a run without interruptions.

The journal records what happened, the latest first.  `runWith_bind` says that a run of a sequence
is a sequence of runs.
-/

namespace CardHost

/-- What a machine owns, and the memory it shares with the driver. -/
structure Shared (State : Type) where
  device : State
  memory : Memory

/-- The behaviour of the platform around the driver.  `ι` are the calls that may interrupt a
register write. -/
structure Machine (ι : Type) where
  State : Type
  read : Window → Nat → Shared State → UInt32 × Shared State
  write : Window → Nat → UInt32 → Shared State → Option ι × Shared State
  patience : Window → Nat → Shared State → Nat
  stall : Services → Nat → Shared State → Status × Shared State
  allocate : Services → Nat → Shared State → Grant × Shared State
  free : Services → UInt64 → Nat → Shared State → Status × Shared State

/-- What happened during a run.  `ρ` is the answer of an interrupting call. -/
inductive Event (ρ : Type) where
  | read (window : Window) (offset : Nat) (value : UInt32)
  | wrote (window : Window) (offset : Nat) (value : UInt32)
  | stalled (services : Services) (microseconds : Nat) (status : Status)
  | allocated (services : Services) (pages : Nat) (grant : Grant)
  | freed (services : Services) (address : UInt64) (pages : Nat) (status : Status)
  | raised (level : UInt64)
  | restored (level : UInt64)
  | taken (free : Bool)
  | returned
  | logged (message : Message)
  | entered
  | left (answer : ρ)

/-- The state of a machine, of memory, of the task priority and of the guarded cell, with the
journal of what happened so far, the latest first. -/
structure System (machine : Machine ι) (σ ρ : Type) where
  shared : Shared machine.State
  level : UInt64
  cell : Option σ
  verbosity : Verbosity
  journal : List (Event ρ)

namespace System

variable {machine : Machine ι}

/-- The system with one more event. -/
def note (system : System machine σ ρ) (event : Event ρ) : System machine σ ρ :=
  match system with
  | ⟨shared, level, cell, verbosity, journal⟩ => ⟨shared, level, cell, verbosity, event :: journal⟩

/-- The reply to a request, with an interruption if the machine asks for one. -/
def answer (request : Request σ) (system : System machine σ ρ) :
    request.Reply × Option ι × System machine σ ρ :=
  match system, request with
  | ⟨shared, level, cell, verbosity, journal⟩, .read window offset =>
    match machine.read window offset shared with
    | (value, shared) =>
      (value, none, ⟨shared, level, cell, verbosity, .read window offset value :: journal⟩)
  | ⟨shared, level, cell, verbosity, journal⟩, .write window offset value =>
    match machine.write window offset value shared with
    | (interruption, shared) =>
      ((), interruption,
        ⟨shared, level, cell, verbosity, .wrote window offset value :: journal⟩)
  | system, .patience window offset =>
    (machine.patience window offset system.shared, none, system)
  | ⟨shared, level, cell, verbosity, journal⟩, .stall services microseconds =>
    match machine.stall services microseconds shared with
    | (status, shared) =>
      (status, none,
        ⟨shared, level, cell, verbosity, .stalled services microseconds status :: journal⟩)
  | ⟨shared, level, cell, verbosity, journal⟩, .allocate services pages =>
    match machine.allocate services pages shared with
    | (grant, shared) =>
      (grant, none, ⟨shared, level, cell, verbosity, .allocated services pages grant :: journal⟩)
  | ⟨shared, level, cell, verbosity, journal⟩, .free services address pages =>
    match machine.free services address pages shared with
    | (status, shared) =>
      (status, none,
        ⟨shared, level, cell, verbosity, .freed services address pages status :: journal⟩)
  | system, .load address count =>
    (system.shared.memory.read address count, none, system)
  | ⟨⟨device, memory⟩, level, cell, verbosity, journal⟩, .store address bytes =>
    ((), none, ⟨⟨device, memory.write address bytes⟩, level, cell, verbosity, journal⟩)
  | ⟨shared, old, cell, verbosity, journal⟩, .raise level =>
    (old, none, ⟨shared, level, cell, verbosity, .raised level :: journal⟩)
  | ⟨shared, _, cell, verbosity, journal⟩, .restore level =>
    ((), none, ⟨shared, level, cell, verbosity, .restored level :: journal⟩)
  | ⟨shared, level, cell, verbosity, journal⟩, .take =>
    (cell, none, ⟨shared, level, none, verbosity, .taken cell.isSome :: journal⟩)
  | ⟨shared, level, _, verbosity, journal⟩, .put state =>
    ((), none, ⟨shared, level, some state, verbosity, .returned :: journal⟩)
  | system, .shows level => (system.verbosity.shows level, none, system)
  | system, .log message => ((), none, system.note (.logged message))

end System

/-- Why a run ended without a value. -/
inductive Halt where
  | fault | stuck
deriving DecidableEq

namespace Prog

variable {machine : Machine ι}

/-- Runs a program.  `serve` is what an interruption does. -/
def runWith (serve : ι → System machine σ ρ → Except Halt (System machine σ ρ)) :
    Prog σ α → System machine σ ρ → Except Halt (α × System machine σ ρ)
  | done value, system => .ok (value, system)
  | fault, _ => .error .fault
  | stuck, _ => .error .stuck
  | ask request next, system =>
    match system.answer request with
    | (reply, none, system) => (next reply).runWith serve system
    | (reply, some call, system) =>
      match serve call system with
      | .ok system => (next reply).runWith serve system
      | .error halt => .error halt

/-- What an interruption does when calls may interrupt each other up to a depth: at depth zero
nothing, else the program of the call runs at the depth below. -/
def serveAt (handler : ι → Prog σ ρ) :
    Nat → ι → System machine σ ρ → Except Halt (System machine σ ρ)
  | 0, _, system => .ok system
  | depth + 1, call, system =>
    match (handler call).runWith (serveAt handler depth) (system.note .entered) with
    | .ok (answer, system) => .ok (system.note (.left answer))
    | .error halt => .error halt

/-- Runs a program with interruptions nested up to a depth. -/
def run (handler : ι → Prog σ ρ) (depth : Nat) (program : Prog σ α)
    (system : System machine σ ρ) : Except Halt (α × System machine σ ρ) :=
  program.runWith (serveAt handler depth) system

/-- A run of a sequence is a sequence of runs. -/
theorem runWith_bind (serve : ι → System machine σ ρ → Except Halt (System machine σ ρ))
    (program : Prog σ α) (next : α → Prog σ β) (system : System machine σ ρ) :
    (program.bind next).runWith serve system =
      match program.runWith serve system with
      | .ok (value, system) => (next value).runWith serve system
      | .error halt => .error halt := by
  induction program generalizing system with
  | done value => rfl
  | fault => rfl
  | stuck => rfl
  | ask request reply ih =>
      simp only [bind, runWith]
      split
      · exact ih _ _
      · split
        · exact ih _ _
        · rfl

theorem run_bind (handler : ι → Prog σ ρ) (depth : Nat) (program : Prog σ α)
    (next : α → Prog σ β) (system : System machine σ ρ) :
    (program.bind next).run handler depth system =
      match program.run handler depth system with
      | .ok (value, system) => (next value).run handler depth system
      | .error halt => .error halt :=
  runWith_bind _ program next system

end Prog

end CardHost
