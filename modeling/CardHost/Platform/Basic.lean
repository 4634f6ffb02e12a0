import CardHost.Log

/-!
# What the driver asks of its platform

The driver reaches registers, memory, pages, time and task priority only by asking for them.  A
program is therefore a tree: it is done, or it asks one request and goes on with the reply.  Nothing
about the platform is fixed here; `CardHost.Platform.Run` says how a program runs on one.

A program can also end without a value.  It *faults* where its arithmetic leaves the range of its
words, and it is *stuck* where a wait without a bound outlasts every answer the platform has to
give.

Main definitions: `Request`, `Prog`, and the programs that ask one request each.  `bind_assoc` and
`bind_done` make `Prog` a monad, so a program is taken apart along its sequencing.
-/

namespace CardHost

/-- Where a host gets registers, delays, pages and task priority from: services handed to it, or the
firmware's table of boot services with registers at their physical addresses. -/
inductive Services where
  | supplied | firmware
deriving DecidableEq

/-- A register window. -/
structure Window where
  base : UInt64
  services : Services
deriving DecidableEq

/-- The answer to a request for pages: the address counts if the status is success. -/
structure Grant where
  status : Status
  address : UInt64
deriving DecidableEq

/-- One request to the platform.  `σ` is the state kept behind the lock. -/
inductive Request (σ : Type) where
  /-- Read a register. -/
  | read (window : Window) (offset : Nat)
  /-- Write a register. -/
  | write (window : Window) (offset : Nat) (value : UInt32)
  /-- How many more samples of a register a wait without a bound is given. -/
  | patience (window : Window) (offset : Nat)
  /-- Let time pass. -/
  | stall (services : Services) (microseconds : Nat)
  /-- Allocate pages. -/
  | allocate (services : Services) (pages : Nat)
  /-- Give pages back. -/
  | free (services : Services) (address : UInt64) (pages : Nat)
  /-- Read memory. -/
  | load (address count : Nat)
  /-- Write memory. -/
  | store (address : Nat) (bytes : List UInt8)
  /-- Raise the task priority; the reply is the level before. -/
  | raise (level : UInt64)
  /-- Set the task priority back. -/
  | restore (level : UInt64)
  /-- Take the guarded state; there is none while it is held. -/
  | take
  /-- Put the guarded state back. -/
  | put (state : σ)
  /-- Whether a level is logged. -/
  | shows (level : Level)
  /-- Log a message. -/
  | log (message : Message)

/-- What the platform answers. -/
@[reducible]
def Request.Reply : Request σ → Type
  | .read .. => UInt32
  | .write .. => Unit
  | .patience .. => Nat
  | .stall .. => Status
  | .allocate .. => Grant
  | .free .. => Status
  | .load .. => List UInt8
  | .store .. => Unit
  | .raise .. => UInt64
  | .restore .. => Unit
  | .take => Option σ
  | .put .. => Unit
  | .shows .. => Bool
  | .log .. => Unit

/-- A program over a platform. -/
inductive Prog (σ : Type) (α : Type) where
  | done (value : α)
  | fault
  | stuck
  | ask (request : Request σ) (next : request.Reply → Prog σ α)

namespace Prog

/-- Runs one program, then the one its value selects. -/
def bind : Prog σ α → (α → Prog σ β) → Prog σ β
  | done value, next => next value
  | fault, _ => fault
  | stuck, _ => stuck
  | ask request reply, next => ask request fun answer => (reply answer).bind next

instance : Monad (Prog σ) where
  pure := done
  bind := bind

@[simp]
theorem pure_eq (value : α) : (pure value : Prog σ α) = done value := rfl

@[simp]
theorem bind_eq (program : Prog σ α) (next : α → Prog σ β) :
    program >>= next = program.bind next := rfl

@[simp]
theorem bind_done (program : Prog σ α) : program.bind done = program := by
  induction program with
  | done value => rfl
  | fault => rfl
  | stuck => rfl
  | ask request next ih => simp only [bind, ih]

theorem bind_assoc (program : Prog σ α) (first : α → Prog σ β) (second : β → Prog σ γ) :
    (program.bind first).bind second = program.bind fun value => (first value).bind second := by
  induction program with
  | done value => rfl
  | fault => rfl
  | stuck => rfl
  | ask request next ih => simp only [bind, ih]

instance : LawfulMonad (Prog σ) :=
  LawfulMonad.mk' (Prog σ) (fun program => bind_done program) (fun _ _ => rfl) bind_assoc

/-- A program of one request. -/
def request (request : Request σ) : Prog σ request.Reply :=
  ask request done

def log (message : Message) : Prog σ Unit :=
  request (.log message)

/-- Goes on with a value that arithmetic may fail to give. -/
def require : Option α → Prog σ α
  | some value => done value
  | none => fault

end Prog

/-- A program that may fail with a host error. -/
abbrev Action (σ : Type) := ExceptT HostError (Prog σ)

/-- A program that cannot fail, as an action. -/
def Prog.lift (program : Prog σ α) : Action σ α :=
  ExceptT.lift program

namespace Action

/-- The action with the outcome of a program. -/
def ofProg (program : Prog σ (Except HostError α)) : Action σ α :=
  ExceptT.mk program

/-- Logs on failure and leaves the outcome as it is. -/
def onError (action : Action σ α) (message : HostError → Message) : Action σ α :=
  ExceptT.mk do
    match ← action.run with
    | .ok value => pure (.ok value)
    | .error error => do
      Prog.log (message error)
      pure (.error error)

/-! ### The program of an action -/

theorem run_pure (value : α) : (pure value : Action σ α).run = .done (.ok value) := rfl

theorem run_throw (error : HostError) : (throw error : Action σ α).run = .done (.error error) := rfl

theorem run_lift (program : Prog σ α) :
    program.lift.run = program.bind fun value => .done (.ok value) := rfl

theorem run_ofProg (program : Prog σ (Except HostError α)) : (ofProg program).run = program := rfl

/-- A sequence of actions stops at the first that fails. -/
theorem run_bind (action : Action σ α) (next : α → Action σ β) :
    (action >>= next).run = action.run.bind fun outcome =>
      match outcome with
      | .ok value => (next value).run
      | .error error => .done (.error error) := by
  change action.run.bind (ExceptT.bindCont next) = _
  congr 1
  funext outcome
  cases outcome <;> rfl

theorem run_onError (action : Action σ α) (message : HostError → Message) :
    (action.onError message).run = action.run.bind fun outcome =>
      match outcome with
      | .ok value => .done (.ok value)
      | .error error => (Prog.log (message error)).bind fun _ => .done (.error error) := rfl

end Action

/-- Lets time pass.  The firmware reports how that went, and a failure is only logged. -/
def Services.stall (services : Services) (microseconds : Nat) : Prog σ Unit := do
  let status ← Prog.request (.stall services microseconds)
  match services with
  | .supplied => pure ()
  | .firmware =>
    if status.isError then
      Prog.log (.stallFailed microseconds status)
    else
      pure ()

end CardHost
