import CardHost.Platform.Run

/-!
# What a program may ask

A program is a tree of requests, so what it can do to its platform is read off the tree: `Obeys`
says that every request a program may make is allowed and that every value it may end with meets a
condition.  The rules follow the sequencing of programs and actions, and `Obeys.runWith_inv` turns
one step of a platform into a statement about whole runs: an invariant that every allowed request
keeps holds at the end.

Requests made under a lock are `Inner`: they leave the guarded state and the priority to the lock
(`answer_inner`).  `OnRegisters` is narrower and says which registers of a window are written.
-/

namespace CardHost

/-! ## Obeying programs -/

/-- Every request a program may make, whatever it is answered, is allowed, and every value it may
end with satisfies `post`. -/
def Prog.Obeys (allowed : Request σ → Prop) (post : α → Prop) : Prog σ α → Prop
  | .done value => post value
  | .fault => True
  | .stuck => True
  | .ask request next => allowed request ∧ ∀ reply, (next reply).Obeys allowed post

/-- Every request a program may make is allowed. -/
def Prog.Asks (allowed : Request σ → Prop) (program : Prog σ α) : Prop :=
  program.Obeys allowed fun _ => True

namespace Prog

variable {allowed wider : Request σ → Prop}

theorem Obeys.bind {post : α → Prop} {goal : β → Prop} {next : α → Prog σ β}
    {program : Prog σ α} (first : program.Obeys allowed post)
    (rest : ∀ value, post value → (next value).Obeys allowed goal) :
    (program.bind next).Obeys allowed goal := by
  induction program with
  | done value => exact rest value first
  | fault => trivial
  | stuck => trivial
  | ask request reply ih => exact ⟨first.1, fun answer => ih answer (first.2 answer)⟩

theorem Obeys.mono {post goal : α → Prop} {program : Prog σ α} (h : program.Obeys allowed post)
    (widens : ∀ request, allowed request → wider request)
    (reaches : ∀ value, post value → goal value) : program.Obeys wider goal := by
  induction program with
  | done value => exact reaches value h
  | fault => trivial
  | stuck => trivial
  | ask request reply ih => exact ⟨widens request h.1, fun answer => ih answer (h.2 answer)⟩

theorem Asks.bind {next : α → Prog σ β} {program : Prog σ α} (first : program.Asks allowed)
    (rest : ∀ value, (next value).Asks allowed) : (program.bind next).Asks allowed :=
  Obeys.bind first fun value _ => rest value

/-- What a sequence may ask bounds its first part. -/
theorem Asks.first {program : Prog σ α} {next : α → Prog σ β}
    (h : (program.bind next).Asks allowed) : program.Asks allowed := by
  induction program with
  | done value => trivial
  | fault => trivial
  | stuck => trivial
  | ask request reply ih => exact ⟨h.1, fun answer => ih answer (h.2 answer)⟩

theorem Asks.and {program : Prog σ α} (h : program.Asks allowed) (h' : program.Asks wider) :
    program.Asks fun request => allowed request ∧ wider request := by
  induction program with
  | done value => trivial
  | fault => trivial
  | stuck => trivial
  | ask request next ih => exact ⟨⟨h.1, h'.1⟩, fun reply => ih reply (h.2 reply) (h'.2 reply)⟩

theorem Asks.mono {program : Prog σ α} (h : program.Asks allowed)
    (widens : ∀ request, allowed request → wider request) : program.Asks wider :=
  Obeys.mono h widens fun _ _ => trivial

/-- What is done with the value of a program does not show in its requests. -/
theorem Asks.obeys_bind {post : β → Prop} {next : α → Prog σ β} {program : Prog σ α}
    (first : program.Asks allowed) (rest : ∀ value, (next value).Obeys allowed post) :
    (program.bind next).Obeys allowed post :=
  Obeys.bind first fun value _ => rest value

theorem asks_done (value : α) : (done value : Prog σ α).Asks allowed := trivial

theorem asks_request {request : Request σ} (h : allowed request) :
    (Prog.request request).Asks allowed :=
  ⟨h, fun _ => trivial⟩

theorem asks_require (value : Option α) : (require value : Prog σ α).Asks allowed := by
  cases value <;> trivial

theorem asks_anything (program : Prog σ α) : program.Asks fun _ => True := by
  induction program with
  | done value => trivial
  | fault => trivial
  | stuck => trivial
  | ask request next ih => exact ⟨trivial, ih⟩

end Prog

/-- Every request an action may make is allowed, and if it succeeds its value satisfies `post`. -/
def Action.Obeys (allowed : Request σ → Prop) (post : α → Prop) (action : Action σ α) : Prop :=
  action.run.Obeys allowed fun outcome =>
    match outcome with
    | .ok value => post value
    | .error _ => True

/-- Every request an action may make is allowed. -/
def Action.Asks (allowed : Request σ → Prop) (action : Action σ α) : Prop :=
  action.run.Asks allowed

namespace Action

variable {allowed : Request σ → Prop}

/-- A program in front of an action. -/
theorem run_lift_bind (program : Prog σ α) (next : α → Action σ β) :
    (program.lift >>= next).run = program.bind fun value => (next value).run := by
  rw [run_bind, run_lift, Prog.bind_assoc]
  rfl

theorem Obeys.bind {post : α → Prop} {goal : β → Prop} {action : Action σ α}
    {next : α → Action σ β} (first : Obeys allowed post action)
    (rest : ∀ value, post value → Obeys allowed goal (next value)) :
    Obeys allowed goal (action >>= next) := by
  unfold Obeys
  rw [run_bind]
  refine Prog.Obeys.bind first fun outcome hpost => ?_
  cases outcome with
  | ok value => exact rest value hpost
  | error error => trivial

theorem asks_pure (value : α) : Asks allowed (pure value : Action σ α) := trivial

theorem asks_throw (error : HostError) : Asks allowed (throw error : Action σ α) := trivial

theorem asks_lift {program : Prog σ α} (h : program.Asks allowed) : Asks allowed program.lift :=
  h.bind fun _ => trivial

theorem Asks.bind {action : Action σ α} {next : α → Action σ β} (first : Asks allowed action)
    (rest : ∀ value, Asks allowed (next value)) : Asks allowed (action >>= next) := by
  unfold Asks
  rw [run_bind]
  refine Prog.Asks.bind first fun outcome => ?_
  cases outcome with
  | ok value => exact rest value
  | error error => trivial

/-- What is done with the value of an action does not show in its requests. -/
theorem Asks.obeys_bind {post : β → Prop} {action : Action σ α} {next : α → Action σ β}
    (first : Asks allowed action) (rest : ∀ value, Obeys allowed post (next value)) :
    Obeys allowed post (action >>= next) := by
  unfold Obeys
  rw [run_bind]
  refine Prog.Obeys.bind first fun outcome _ => ?_
  cases outcome with
  | ok value => exact rest value
  | error error => trivial

theorem Obeys.onError {post : α → Prop} {action : Action σ α} (h : Obeys allowed post action)
    (message : HostError → Message) (logs : ∀ message, allowed (.log message)) :
    Obeys allowed post (action.onError message) := by
  unfold Obeys
  rw [run_onError]
  refine Prog.Obeys.bind h fun outcome hpost => ?_
  cases outcome with
  | ok value => exact hpost
  | error error => exact (Prog.asks_request (logs _)).obeys_bind fun _ => trivial

theorem Asks.onError {action : Action σ α} (h : Asks allowed action)
    (message : HostError → Message) (logs : ∀ message, allowed (.log message)) :
    Asks allowed (action.onError message) := by
  unfold Asks
  rw [run_onError]
  refine Prog.Asks.bind h fun outcome => ?_
  cases outcome with
  | ok value => trivial
  | error error => exact (Prog.asks_request (logs _)).bind fun _ => trivial

end Action

/-! ## Runs of obeying programs -/

section Runs

variable {machine : Machine ι}

/-- A run of a sequence that ends has run both parts. -/
theorem Prog.run_bind_ok {handler : ι → Prog σ ρ} {depth : Nat} {program : Prog σ α}
    {next : α → Prog σ β} {system after : System machine σ ρ} {value : β}
    (ran : (program.bind next).run handler depth system = .ok (value, after)) :
    ∃ first middle, program.run handler depth system = .ok (first, middle)
      ∧ (next first).run handler depth middle = .ok (value, after) := by
  rw [Prog.run_bind] at ran
  split at ran
  · rename_i first middle hfirst
    exact ⟨first, middle, hfirst, ran⟩
  · cases ran

theorem Prog.run_bind_done (program : Prog σ α) (finish : α → β) (handler : ι → Prog σ ρ)
    (depth : Nat) (system : System machine σ ρ) :
    (program.bind fun value => .done (finish value)).run handler depth system =
      (program.run handler depth system).map fun ended => (finish ended.1, ended.2) := by
  rw [Prog.run_bind]
  cases program.run handler depth system <;> rfl

/-- A property holds after a request once an interruption, if there is one, was served. -/
def Settled (serve : ι → System machine σ ρ → Except Halt (System machine σ ρ))
    (holds : System machine σ ρ → Prop) : Option ι × System machine σ ρ → Prop
  | (none, system) => holds system
  | (some call, system) => ∀ after, serve call system = .ok after → holds after

/-- An invariant that every allowed request keeps is kept by a run, and the value of the run meets
the condition of the program. -/
theorem Prog.Obeys.runWith_inv {serve : ι → System machine σ ρ → Except Halt (System machine σ ρ)}
    {allowed : Request σ → Prop} {post : α → Prop} (holds : System machine σ ρ → Prop)
    (step : ∀ request system, allowed request → holds system →
      Settled serve holds (system.answer request).2)
    {program : Prog σ α} {system after : System machine σ ρ} {value : α}
    (h : program.Obeys allowed post) (before : holds system)
    (ran : program.runWith serve system = .ok (value, after)) : post value ∧ holds after := by
  induction program generalizing system with
  | done v =>
      cases ran
      exact ⟨h, before⟩
  | fault => cases ran
  | stuck => cases ran
  | ask request next ih =>
      have settled := step request system h.1 before
      rw [Prog.runWith] at ran
      split at ran
      · rename_i reply next' heq
        rw [heq] at settled
        exact ih reply (h.2 reply) settled ran
      · rename_i reply call next' heq
        rw [heq] at settled
        split at ran
        · rename_i served hs
          exact ih reply (h.2 reply) (settled served hs) ran
        · cases ran

/-- The value of a run meets the condition of its program. -/
theorem Prog.Obeys.post_of_run {allowed : Request σ → Prop} {post : α → Prop}
    {program : Prog σ α} (h : program.Obeys allowed post) {handler : ι → Prog σ ρ} {depth : Nat}
    {system after : System machine σ ρ} {value : α}
    (ran : program.run handler depth system = .ok (value, after)) : post value := by
  have hsettled (request : Request σ) (system : System machine σ ρ) :
      Settled (Prog.serveAt handler depth) (fun _ => True) (system.answer request).2 := by
    rcases (system.answer request).2 with ⟨_ | call, asked⟩
    · trivial
    · exact fun _ _ => trivial
  exact (h.runWith_inv (fun _ => True) (fun request system _ _ => hsettled request system) trivial
    ran).1

end Runs

/-! ## Requests under a lock -/

/-- A request that leaves the guarded state and the priority alone. -/
def Request.Inner : Request σ → Prop
  | .take => False
  | .put _ => False
  | .raise _ => False
  | .restore _ => False
  | _ => True

/-- An inner request that neither allocates nor frees pages. -/
def Request.Unpaged : Request σ → Prop
  | .allocate .. => False
  | .free .. => False
  | request => request.Inner

theorem Request.Unpaged.inner {request : Request σ} (h : request.Unpaged) : request.Inner := by
  cases request with
  | allocate => exact h.elim
  | free => exact h.elim
  | _ => exact h

/-- Inner requests change neither the guarded state nor the priority, and no request changes the
verbosity. -/
theorem answer_inner {machine : Machine ι} {request : Request σ} (h : request.Inner)
    (system : System machine σ ρ) :
    (system.answer request).2.2.cell = system.cell
      ∧ (system.answer request).2.2.level = system.level := by
  cases request with
  | take => exact h.elim
  | put => exact h.elim
  | raise => exact h.elim
  | restore => exact h.elim
  | _ => exact ⟨rfl, rfl⟩

/-- Only register writes are interrupted. -/
theorem answer_not_interrupted {machine : Machine ι} {request : Request σ}
    (h : ∀ window offset value, request ≠ .write window offset value)
    (system : System machine σ ρ) : (system.answer request).2.1 = none := by
  cases request with
  | write window offset value => exact (h window offset value rfl).elim
  | _ => rfl

/-- Requests on the registers of a window: any register is read, `writes` says which values are
written where, time passes, and messages are logged.  Memory and pages are left alone. -/
def Request.OnRegisters (window : Window) (writes : Register → UInt32 → Prop) :
    Request σ → Prop
  | .read w _ => w = window
  | .write w offset value =>
    w = window ∧ ∃ register, offset = register.offset ∧ writes register value
  | .patience .. => True
  | .stall .. => True
  | .shows _ => True
  | .log _ => True
  | _ => False

theorem Request.OnRegisters.unpaged {window : Window} {writes : Register → UInt32 → Prop}
    {request : Request σ} (h : request.OnRegisters window writes) : request.Unpaged := by
  cases request <;> trivial

theorem Request.OnRegisters.inner {window : Window} {writes : Register → UInt32 → Prop}
    {request : Request σ} (h : request.OnRegisters window writes) : request.Inner :=
  h.unpaged.inner

/-- Requests on memory, and messages. -/
def Request.OnMemory : Request σ → Prop
  | .load .. => True
  | .store .. => True
  | .log _ => True
  | _ => False

theorem Request.OnMemory.unpaged {request : Request σ} (h : request.OnMemory) :
    request.Unpaged := by
  cases request <;> trivial

/-- Requests on memory and on the registers of a window. -/
def Request.OnBoard (window : Window) (writes : Register → UInt32 → Prop) (request : Request σ) :
    Prop :=
  request.OnMemory ∨ request.OnRegisters window writes

theorem Request.OnBoard.unpaged {window : Window} {writes : Register → UInt32 → Prop}
    {request : Request σ} (h : request.OnBoard window writes) : request.Unpaged := by
  rcases h with h | h
  · exact h.unpaged
  · exact h.unpaged

theorem Request.OnRegisters.mono {window : Window} {writes wider : Register → UInt32 → Prop}
    (widens : ∀ register value, writes register value → wider register value)
    {request : Request σ} (h : request.OnRegisters window writes) :
    request.OnRegisters window wider := by
  cases request with
  | write w offset value =>
      obtain ⟨hw, register, hoffset, hwrites⟩ := h
      exact ⟨hw, register, hoffset, widens register value hwrites⟩
  | _ => exact h

end CardHost
