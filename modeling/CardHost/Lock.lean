import CardHost.Platform.Basic

/-!
# A lock that raises the task priority

State shared by the operations of a host sits behind a lock.  Taking the lock raises the task
priority first; if the state is held already, the caller is refused and the priority goes back to
where it was.  Giving the lock back puts the state in its cell before the priority drops.

`holding` is the only bracket used by the host: whatever the body answers, the state is put back and
the priority restored.
-/

namespace CardHost

/-- A lock: its name in the log and the priority held with it. -/
structure Lock where
  name : String
  level : UInt64
deriving DecidableEq

/-- A lock that is held: the state behind it and the priority to go back to. -/
structure Guard (σ : Type) where
  state : σ
  previous : UInt64

namespace Lock

/-- Takes the lock if it is free. -/
def acquire? (lock : Lock) : Prog σ (Option (Guard σ)) := do
  let previous ← Prog.request (.raise lock.level)
  match ← Prog.request .take with
  | some state => pure (some ⟨state, previous⟩)
  | none => do
    Prog.log (.lockRefused lock.name)
    Prog.request (.restore previous)
    pure none

end Lock

/-- Gives a lock back. -/
def Guard.release (guard : Guard σ) : Prog σ Unit := do
  Prog.request (.put guard.state)
  Prog.request (.restore guard.previous)

namespace Lock

/-- Runs a body on the guarded state and puts back the state it leaves.  A caller that finds the
lock held is refused access. -/
def holding (lock : Lock) (body : σ → Prog σ (Except HostError α × σ)) :
    Prog σ (Except HostError α) := do
  match ← lock.acquire? with
  | none => pure (.error (.firmware .accessDenied))
  | some guard => do
    let outcome ← body guard.state
    Guard.release ⟨outcome.2, guard.previous⟩
    pure outcome.1

/-- Runs an action that leaves the guarded state as it is. -/
def during (lock : Lock) (action : Action σ α) : Prog σ (Except HostError α) :=
  lock.holding fun state => do
    let outcome ← action.run
    pure (outcome, state)

end Lock

end CardHost
