import CardHost.Proofs.HostRequests
import CardHost.Proofs.Moments

/-!
# Monitors

Some rules about a driver depend on what it did and heard before: a register may be read only after
another was written, a command follows only on a sample that was clear.  A `Monitor` follows the
requests of a program with their replies and says at each point what may be asked next.

`Prog.Heeds` says that a program keeps to a monitor whatever it is answered, and what the monitor
has seen where the program ends.  Its rules follow the sequencing of programs.  Of a run it says
that each moment is allowed after those before it (`Heeds.of_moments`).
-/

namespace CardHost

/-- An observer of requests and replies. -/
structure Monitor (σ : Type) where
  /-- What it remembers. -/
  State : Type
  /-- What may be asked next. -/
  allows : State → Request σ → Prop
  /-- What it remembers after a request was answered. -/
  next : State → (request : Request σ) → request.Reply → State

/-- A request that is allowed as long as something holds, and keeps it so. -/
def Monitor.Keeps (monitor : Monitor σ) (holds : monitor.State → Prop) (request : Request σ) :
    Prop :=
  ∀ seen, holds seen →
    monitor.allows seen request ∧ ∀ reply, holds (monitor.next seen request reply)

/-- After what the monitor has seen, the program asks only what it allows, whatever it is answered,
and `post` holds where it ends. -/
def Prog.Heeds (monitor : Monitor σ) (post : α → monitor.State → Prop) :
    Prog σ α → monitor.State → Prop
  | .done value, seen => post value seen
  | .fault, _ => True
  | .stuck, _ => True
  | .ask request next, seen =>
    monitor.allows seen request
      ∧ ∀ reply, (next reply).Heeds monitor post (monitor.next seen request reply)

/-- An action that heeds a monitor; where it fails, anything may have been seen. -/
def Action.Heeds (monitor : Monitor σ) (post : α → monitor.State → Prop) (action : Action σ α)
    (seen : monitor.State) : Prop :=
  action.run.Heeds monitor (fun outcome seen => ∀ value, outcome = .ok value → post value seen) seen

variable {monitor : Monitor σ} {seen : monitor.State}

namespace Prog

theorem Heeds.bind {mid : α → monitor.State → Prop} {post : β → monitor.State → Prop}
    {program : Prog σ α} {next : α → Prog σ β} (first : program.Heeds monitor mid seen)
    (rest : ∀ value later, mid value later → (next value).Heeds monitor post later) :
    (program.bind next).Heeds monitor post seen := by
  induction program generalizing seen with
  | done value => exact rest value seen first
  | fault => trivial
  | stuck => trivial
  | ask request reply ih => exact ⟨first.1, fun answer => ih answer (first.2 answer)⟩

theorem Heeds.mono {post goal : α → monitor.State → Prop} {program : Prog σ α}
    (h : program.Heeds monitor post seen)
    (reaches : ∀ value later, post value later → goal value later) :
    program.Heeds monitor goal seen := by
  rw [← bind_done program]
  exact h.bind reaches

/-- What every allowed request brings about holds where the program ends, too. -/
theorem Heeds.holding {post : α → monitor.State → Prop} {program : Prog σ α}
    (h : program.Heeds monitor post seen) {holds : monitor.State → Prop} (hseen : holds seen)
    (brings : ∀ seen request reply, monitor.allows seen request →
      holds (monitor.next seen request reply)) :
    program.Heeds monitor (fun value later => post value later ∧ holds later) seen := by
  induction program generalizing seen with
  | done value => exact ⟨h, hseen⟩
  | fault => trivial
  | stuck => trivial
  | ask request next ih =>
      exact ⟨h.1, fun reply => ih reply (h.2 reply) (brings seen request reply h.1)⟩

theorem heeds_request {request : Request σ} (h : monitor.allows seen request) :
    (Prog.request request).Heeds monitor
      (fun reply later => later = monitor.next seen request reply) seen :=
  ⟨h, fun _ => rfl⟩

/-- What every request keeps, the program keeps. -/
theorem Asks.heeds {holds : monitor.State → Prop} {program : Prog σ α}
    (h : program.Asks (monitor.Keeps holds)) (hseen : holds seen) :
    program.Heeds monitor (fun _ => holds) seen := by
  induction program generalizing seen with
  | done value => exact hseen
  | fault => trivial
  | stuck => trivial
  | ask request next ih =>
      obtain ⟨hallowed, hkept⟩ := h.1 seen hseen
      exact ⟨hallowed, fun reply => ih reply (h.2 reply) (hkept reply)⟩

end Prog

namespace Action

theorem heeds_lift {post : α → monitor.State → Prop} {program : Prog σ α}
    (h : program.Heeds monitor post seen) : program.lift.Heeds monitor post seen := by
  unfold Heeds
  rw [run_lift]
  apply h.bind
  rintro value later hpost _ ⟨⟩
  exact hpost

theorem Heeds.bind {mid : α → monitor.State → Prop} {post : β → monitor.State → Prop}
    {action : Action σ α} {next : α → Action σ β} (first : action.Heeds monitor mid seen)
    (rest : ∀ value later, mid value later → (next value).Heeds monitor post later) :
    (action >>= next).Heeds monitor post seen := by
  unfold Heeds
  rw [run_bind]
  apply Prog.Heeds.bind first
  intro outcome later hmid
  cases outcome with
  | ok value => exact rest value later (hmid value rfl)
  | error error => rintro _ ⟨⟩

/-- What every request keeps, the action keeps. -/
theorem Asks.heeds {holds : monitor.State → Prop} {action : Action σ α}
    (h : action.Asks (monitor.Keeps holds)) (hseen : holds seen) :
    action.Heeds monitor (fun _ => holds) seen :=
  (Prog.Asks.heeds h hseen).mono fun _ _ hkept _ _ => hkept

end Action

/-! ## Locks and pages -/

section Wrapped

variable {holds before after : monitor.State → Prop}

/-- A lock keeps what its own requests keep, before its body and after it. -/
theorem Lock.heeds_holding_between (lock : Lock)
    {body : σ → Prog σ (Except HostError α × σ)}
    (outer : ∀ request, ¬ request.Inner →
      monitor.Keeps before request ∧ monitor.Keeps after request)
    (logs : ∀ message, monitor.Keeps before (.log message))
    (unchanged : ∀ seen, before seen → after seen)
    (h : ∀ state seen, before seen → (body state).Heeds monitor (fun _ => after) seen)
    (hseen : before seen) : (lock.holding body).Heeds monitor (fun _ => after) seen := by
  unfold holding
  apply ((lock.asks_acquire (fun request h => (outer request h).1) logs).heeds hseen).bind
  intro guard seen hseen
  cases guard with
  | none => exact unchanged seen hseen
  | some guard =>
      apply (h guard.state seen hseen).bind
      intro outcome seen hseen
      apply ((Guard.asks_release _ fun request h => (outer request h).2).heeds hseen).bind
      intro _ seen hseen
      exact hseen

/-- A lock keeps what its own requests and its body keep. -/
theorem Lock.heeds_holding (lock : Lock) {body : σ → Prog σ (Except HostError α × σ)}
    (outer : ∀ request, ¬ request.Inner → monitor.Keeps holds request)
    (logs : ∀ message, monitor.Keeps holds (.log message))
    (h : ∀ state seen, holds seen → (body state).Heeds monitor (fun _ => holds) seen)
    (hseen : holds seen) : (lock.holding body).Heeds monitor (fun _ => holds) seen :=
  lock.heeds_holding_between (fun request hinner => ⟨outer request hinner, outer request hinner⟩)
    logs (fun _ => id) h hseen

/-- Work with borrowed pages keeps what the allocator's requests keep, before it and after it. -/
theorem Pages.heeds_borrow_between {services : Services} {count : Nat}
    {refused : HostError → Message} {work : Pages → Action σ α}
    (allocates : monitor.Keeps before (.allocate services count))
    (frees : ∀ services address count, monitor.Keeps after (.free services address count))
    (logs : ∀ message, monitor.Keeps before (.log message) ∧ monitor.Keeps after (.log message))
    (unchanged : ∀ seen, before seen → after seen)
    (h : ∀ pages seen, before seen → (work pages).run.Heeds monitor (fun _ => after) seen)
    (hseen : before seen) :
    (Pages.borrow services count refused work).run.Heeds monitor (fun _ => after) seen := by
  unfold borrow
  rw [Action.run_bind]
  apply (Prog.Asks.heeds (asks_allocate refused allocates fun message => (logs message).1)
    hseen).bind
  intro outcome seen hseen
  cases outcome with
  | error error => exact unchanged seen hseen
  | ok pages =>
      apply (h pages seen hseen).bind
      intro worked seen hseen
      apply ((pages.asks_release (frees _ _ _) fun message => (logs message).2).heeds hseen).bind
      intro _ seen hseen
      exact hseen

/-- Work with borrowed pages keeps what the allocator's requests and the work keep. -/
theorem Pages.heeds_borrow {services : Services} {count : Nat} {refused : HostError → Message}
    {work : Pages → Action σ α} (allocates : monitor.Keeps holds (.allocate services count))
    (frees : ∀ services address count, monitor.Keeps holds (.free services address count))
    (logs : ∀ message, monitor.Keeps holds (.log message))
    (h : ∀ pages seen, holds seen → (work pages).run.Heeds monitor (fun _ => holds) seen)
    (hseen : holds seen) :
    (Pages.borrow services count refused work).run.Heeds monitor (fun _ => holds) seen :=
  Pages.heeds_borrow_between allocates frees (fun message => ⟨logs message, logs message⟩)
    (fun _ => id) h hseen

end Wrapped

/-! ## Runs -/

section Runs

variable {machine : Machine ι}

/-- What a monitor has seen after some moments. -/
def Monitor.along (monitor : Monitor σ) (seen : monitor.State) :
    List (Moment machine σ ρ) → monitor.State
  | [] => seen
  | moment :: rest =>
    monitor.along (monitor.next seen moment.request (moment.system.answer moment.request).1) rest

theorem Monitor.along_append (front back : List (Moment machine σ ρ)) (seen : monitor.State) :
    monitor.along seen (front ++ back) = monitor.along (monitor.along seen front) back := by
  induction front generalizing seen with
  | nil => rfl
  | cons moment rest ih => exact ih _

/-- Each moment of a run is allowed after those before it. -/
theorem Prog.Heeds.of_moments {handler : ι → Prog σ ρ} {depth : Nat}
    {post : α → monitor.State → Prop} {program : Prog σ α}
    (h : program.Heeds monitor post seen) {system : System machine σ ρ}
    {front back : List (Moment machine σ ρ)} {moment : Moment machine σ ρ}
    (hmoments : program.moments handler depth system = front ++ moment :: back) :
    monitor.allows (monitor.along seen front) moment.request := by
  unfold moments at hmoments
  induction program generalizing seen system front with
  | done value => simp [momentsWith] at hmoments
  | fault => simp [momentsWith] at hmoments
  | stuck => simp [momentsWith] at hmoments
  | ask request next ih =>
      rw [momentsWith] at hmoments
      cases front with
      | nil =>
          obtain ⟨rfl, -⟩ := List.cons.inj hmoments
          exact h.1
      | cons first front =>
          obtain ⟨rfl, hrest⟩ := List.cons.inj hmoments
          rw [Monitor.along]
          rcases hanswer : system.answer request with ⟨reply, _ | call, after⟩
          · rw [hanswer] at hrest
            exact ih reply (h.2 reply) hrest
          · rw [hanswer] at hrest
            dsimp only at hrest
            cases hserved : serveAt handler depth call after with
            | ok served =>
                rw [hserved] at hrest
                exact ih reply (h.2 reply) hrest
            | error halt =>
                rw [hserved] at hrest
                simp at hrest

/-- What every allowed request brings about holds after all moments of a run. -/
theorem Prog.Heeds.along_moments {handler : ι → Prog σ ρ} {depth : Nat}
    {post : α → monitor.State → Prop} {program : Prog σ α}
    (h : program.Heeds monitor post seen) {holds : monitor.State → Prop} (hseen : holds seen)
    (brings : ∀ seen request reply, monitor.allows seen request →
      holds (monitor.next seen request reply)) (system : System machine σ ρ) :
    holds (monitor.along seen (program.moments handler depth system)) := by
  -- The last moment of the run brings it about.
  rcases List.eq_nil_or_concat (program.moments handler depth system) with
    hnone | ⟨front, last, hmoments⟩
  · rw [hnone]
    exact hseen
  · rw [List.concat_eq_append] at hmoments
    rw [hmoments, Monitor.along_append]
    exact brings _ _ _ (h.of_moments hmoments)

end Runs

end CardHost
