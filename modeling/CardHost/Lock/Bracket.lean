import CardHost.Lock
import CardHost.Platform.Run

/-!
# What a lock does to a run

Two equations say everything about `Lock.holding`.  Where the cell is empty the body does not run,
nothing but priority and journal changes, and the priority ends where it began.  Where the cell is
full the body runs with an empty cell at the level of the lock, and afterwards the cell holds what
the body left and the priority is back.  `returned_of_run` is the second one read from the end.
-/

namespace CardHost.Lock

variable {machine : Machine ι}

/-- A refused caller changes nothing but the journal. -/
theorem run_holding_of_held (handler : ι → Prog σ ρ) (depth : Nat) (lock : Lock)
    (body : σ → Prog σ (Except HostError α × σ)) (system : System machine σ ρ)
    (held : system.cell = none) :
    (lock.holding body).run handler depth system =
      .ok (.error (.firmware .accessDenied),
        { system with
          journal := .restored system.level :: .logged (.lockRefused lock.name) :: .taken false
            :: .raised lock.level :: system.journal }) := by
  obtain ⟨shared, level, cell, verbosity, journal⟩ := system
  cases held
  rfl

/-- The system in which the body of a lock starts. -/
def entered (lock : Lock) (system : System machine σ ρ) : System machine σ ρ :=
  { system with
    level := lock.level
    cell := none
    journal := .taken true :: .raised lock.level :: system.journal }

/-- The body of a lock that is free runs inside its bracket. -/
theorem run_holding_of_free (handler : ι → Prog σ ρ) (depth : Nat) (lock : Lock)
    (body : σ → Prog σ (Except HostError α × σ)) (system : System machine σ ρ) (state : σ)
    (free : system.cell = some state) :
    (lock.holding body).run handler depth system =
      match (body state).run handler depth
          { system with
            level := lock.level
            cell := none
            journal := .taken true :: .raised lock.level :: system.journal } with
      | .ok ((outcome, state), after) =>
        .ok (outcome,
          { after with
            level := system.level
            cell := some state
            journal := .restored system.level :: .returned :: after.journal })
      | .error halt => .error halt := by
  obtain ⟨shared, level, cell, verbosity, journal⟩ := system
  cases free
  have acquired :
      lock.acquire?.run handler depth
          (⟨shared, level, some state, verbosity, journal⟩ : System machine σ ρ) =
        .ok (some ⟨state, level⟩,
          ⟨shared, lock.level, none, verbosity, .taken true :: .raised lock.level :: journal⟩) :=
    rfl
  simp only [holding, Prog.bind_eq, Prog.run_bind, acquired]
  cases (body state).run handler depth
      (⟨shared, lock.level, none, verbosity, .taken true :: .raised lock.level :: journal⟩ :
        System machine σ ρ) with
  | error halt => rfl
  | ok result =>
      obtain ⟨⟨outcome, left⟩, after⟩ := result
      rfl

/-- Where an operation ends under a lock that was free, its body ended with that outcome, and all
that is changed afterwards is that the lock is given back. -/
theorem returned_of_run {handler : ι → Prog σ ρ} {depth : Nat} {lock : Lock}
    {body : σ → Prog σ (Except HostError α × σ)} {system after : System machine σ ρ} {state : σ}
    {outcome : Except HostError α} (free : system.cell = some state)
    (ran : (lock.holding body).run handler depth system = .ok (outcome, after)) :
    ∃ left last, (body state).run handler depth (lock.entered system) =
        .ok ((outcome, left), last)
      ∧ after = { last with
          level := system.level
          cell := some left
          journal := .restored system.level :: .returned :: last.journal } := by
  rw [run_holding_of_free handler depth lock body system state free] at ran
  split at ran
  · rename_i ended left last hbody
    cases ran
    exact ⟨left, last, hbody, rfl⟩
  · cases ran

end CardHost.Lock
