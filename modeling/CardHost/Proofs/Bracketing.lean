import CardHost.Proofs.Ownership

/-!
# Operations inside the bracket of their lock

Everything an operation does to the platform it does while it holds the lock and at the priority of
the lock: `Lock.Guards` says so of a system, and `Lock.Keeps` of a run with its trace.  Under the
lock a program keeps it if the interruptions do (`Prog.Asks.keeps`), and interruptions by operations
of the host keep it because the lock refuses them (`Host.serveAt_keeps`).

`Bracketed` is about the order of events.  A raise is answered by the restore of the level it found,
brackets nest, and the page calls inside a bracket settle to nothing outstanding, so pages go back
before the priority does.
-/

namespace CardHost

/-- A request that reaches the platform: its registers, time, pages or memory.  What is left is
about priority, the guarded state and the log. -/
def Request.Reaches : Request σ → Prop
  | .read .. => True
  | .write .. => True
  | .patience .. => True
  | .stall .. => True
  | .allocate .. => True
  | .free .. => True
  | .load .. => True
  | .store .. => True
  | _ => False

/-- A request that changes the priority. -/
def Request.Shifts : Request σ → Prop
  | .raise _ => True
  | .restore _ => True
  | _ => False

/-- Whether a request is an attempt on the lock. -/
def Request.isTake : Request σ → Bool
  | .take => true
  | _ => false

theorem Request.Inner.not_shifts {request : Request σ} (h : request.Inner) : ¬ request.Shifts := by
  intro hshifts
  cases request with
  | raise => exact h
  | restore => exact h
  | _ => exact hshifts

variable {machine : Machine ι}

/-! ## Brackets -/

/-- The lock is held, at its priority. -/
structure Lock.Guards (lock : Lock) (system : System machine σ ρ) : Prop where
  held : system.cell = none
  level : system.level = lock.level

theorem Lock.guards_entered (lock : Lock) (system : System machine σ ρ) :
    lock.Guards (lock.entered system) :=
  ⟨rfl, rfl⟩

/-- A trace in which priority changes nest: a raise goes to `level`, the restore that belongs to it
to the level which the raise found, and all pages granted in between are freed in between. -/
inductive Bracketed (level : UInt64) : List (Moment machine σ ρ) → Prop
  | nil : Bracketed level []
  | aside {moment : Moment machine σ ρ} {rest : List (Moment machine σ ρ)}
      (h : ¬ moment.request.Shifts) (hrest : Bracketed level rest) :
      Bracketed level (moment :: rest)
  | bracket {first last : Moment machine σ ρ} {inner rest : List (Moment machine σ ρ)}
      (hfirst : first.request = .raise level) (hinner : Bracketed level inner)
      (paid : outstanding (inner.filterMap Moment.pageCall?) = some [])
      (hlast : last.request = .restore first.system.level) (hrest : Bracketed level rest) :
      Bracketed level (first :: (inner ++ last :: rest))

theorem Bracketed.append {level : UInt64} {front back : List (Moment machine σ ρ)}
    (hfront : Bracketed level front) (hback : Bracketed level back) :
    Bracketed level (front ++ back) := by
  induction hfront with
  | nil => exact hback
  | aside h _ ih => exact .aside h ih
  | bracket hfirst hinner paid hlast _ _ ih =>
      rw [List.cons_append, List.append_assoc, List.cons_append]
      exact .bracket hfirst hinner paid hlast ih

theorem Bracketed.of_asides {level : UInt64} {trace : List (Moment machine σ ρ)}
    (h : ∀ moment ∈ trace, ¬ moment.request.Shifts) : Bracketed level trace := by
  induction trace with
  | nil => exact .nil
  | cons moment rest ih =>
      obtain ⟨hfirst, hrest⟩ := List.forall_mem_cons.mp h
      exact .aside hfirst (ih hrest)

/-- A run with its trace keeps to the lock: every request is guarded, and if the run ends the lock
still is, with priority changes in brackets. -/
structure Lock.Keeps (lock : Lock) (trace : List (Moment machine σ ρ))
    (ran : Except Halt (System machine σ ρ)) : Prop where
  guarded : ∀ moment ∈ trace, lock.Guards moment.system
  ends : ∀ after, ran = .ok after → lock.Guards after ∧ Bracketed lock.level trace

/-! ## Under the lock -/

section Programs

variable {lock : Lock}

/-- The step for programs: under the lock a program keeps to it if the interruptions do. -/
theorem Prog.Asks.keeps {serve : ι → System machine σ ρ → Except Halt (System machine σ ρ)}
    {traced : ι → System machine σ ρ → List (Moment machine σ ρ)}
    (hserve : ∀ call system, lock.Guards system →
      lock.Keeps (traced call system) (serve call system))
    {program : Prog σ α} (h : program.Asks Request.Inner) {system : System machine σ ρ}
    (guards : lock.Guards system) :
    lock.Keeps (program.traceWith serve traced system)
      ((program.runWith serve system).map Prod.snd) := by
  induction program generalizing system with
  | done value =>
      refine ⟨by simp [traceWith], ?_⟩
      intro after hran
      cases hran
      exact ⟨guards, .nil⟩
  | fault =>
      refine ⟨by simp [traceWith], ?_⟩
      intro after hran
      cases hran
  | stuck =>
      refine ⟨by simp [traceWith], ?_⟩
      intro after hran
      cases hran
  | ask request next ih =>
      have hshifts := h.1.not_shifts
      obtain ⟨hcell, hlevel⟩ := answer_inner h.1 system
      simp only [traceWith, runWith]
      rcases hanswer : system.answer request with ⟨reply, _ | call, asked⟩
      · rw [hanswer] at hcell hlevel
        have hasked : lock.Guards asked := ⟨hcell.trans guards.held, hlevel.trans guards.level⟩
        obtain ⟨hguarded, hends⟩ := ih reply (h.2 reply) hasked
        refine ⟨List.forall_mem_cons.mpr ⟨guards, hguarded⟩, ?_⟩
        intro after hran
        obtain ⟨hafter, hrest⟩ := hends after hran
        exact ⟨hafter, .aside hshifts hrest⟩
      · rw [hanswer] at hcell hlevel
        have hasked : lock.Guards asked := ⟨hcell.trans guards.held, hlevel.trans guards.level⟩
        obtain ⟨hserving, hserved⟩ := hserve call asked hasked
        dsimp only
        cases hcall : serve call asked with
        | error halt =>
            rw [List.append_nil]
            refine ⟨List.forall_mem_cons.mpr ⟨guards, hserving⟩, ?_⟩
            intro after hran
            cases hran
        | ok served =>
            obtain ⟨hkept, hinner⟩ := hserved served hcall
            obtain ⟨hguarded, hends⟩ := ih reply (h.2 reply) hkept
            refine ⟨List.forall_mem_cons.mpr ⟨guards,
              List.forall_mem_append.mpr ⟨hserving, hguarded⟩⟩, ?_⟩
            intro after hran
            obtain ⟨hafter, hrest⟩ := hends after hran
            exact ⟨hafter, .aside hshifts (hinner.append hrest)⟩

/-- A sequence keeps to the lock if its parts do. -/
theorem Lock.Keeps.bind {handler : ι → Prog σ ρ} {depth : Nat} {program : Prog σ α}
    {next : α → Prog σ β} {system : System machine σ ρ}
    (first : lock.Keeps (program.trace handler depth system)
      ((program.run handler depth system).map Prod.snd))
    (rest : ∀ value (after : System machine σ ρ), lock.Guards after →
      lock.Keeps ((next value).trace handler depth after)
        (((next value).run handler depth after).map Prod.snd)) :
    lock.Keeps ((program.bind next).trace handler depth system)
      (((program.bind next).run handler depth system).map Prod.snd) := by
  obtain ⟨hguarded, hends⟩ := first
  rw [Prog.trace_bind, Prog.run_bind]
  cases hran : program.run handler depth system with
  | error halt =>
      dsimp only
      rw [List.append_nil]
      refine ⟨hguarded, ?_⟩
      intro after hhalted
      cases hhalted
  | ok ended =>
      obtain ⟨value, middle⟩ := ended
      obtain ⟨hmiddle, hfirst⟩ := hends middle (by rw [hran]; rfl)
      obtain ⟨hlater, hlast⟩ := rest value middle hmiddle
      refine ⟨List.forall_mem_append.mpr ⟨hguarded, hlater⟩, ?_⟩
      intro after hafter
      obtain ⟨hkept, hrest⟩ := hlast after hafter
      exact ⟨hkept, hfirst.append hrest⟩

end Programs

namespace Lock

variable (handler : ι → Prog σ ρ) (depth : Nat) (lock : Lock)
  (body : σ → Prog σ (Except HostError α × σ))

/-- The trace of a refused caller. -/
theorem trace_refused {system : System machine σ ρ} (held : system.cell = none) :
    ∃ raised refused logged : System machine σ ρ,
      (lock.holding body).trace handler depth system =
          [⟨.raise lock.level, system⟩, ⟨.take, raised⟩, ⟨.log (.lockRefused lock.name), refused⟩,
            ⟨.restore system.level, logged⟩]
        ∧ lock.Guards raised ∧ lock.Guards refused ∧ lock.Guards logged := by
  obtain ⟨shared, level, cell, verbosity, journal⟩ := system
  cases held
  exact ⟨_, _, _, rfl, ⟨rfl, rfl⟩, ⟨rfl, rfl⟩, ⟨rfl, rfl⟩⟩

/-- A refused caller raises the priority and puts it back. -/
theorem bracketed_holding_of_held {system : System machine σ ρ} (held : system.cell = none) :
    Bracketed lock.level ((lock.holding body).trace handler depth system) := by
  obtain ⟨raised, refused, logged, htrace, -⟩ := trace_refused handler depth lock body held
  rw [htrace]
  exact .bracket rfl (.aside id (.aside id .nil)) rfl rfl .nil

/-- Where the body ends the bracket is closed. -/
theorem trace_holding_of_ended {system last : System machine σ ρ} {state left : σ}
    {outcome : Except HostError α} (free : system.cell = some state)
    (ran : (body state).run handler depth (lock.entered system) =
      .ok ((outcome, left), last)) :
    (lock.holding body).trace handler depth system =
      ⟨.raise lock.level, system⟩ ::
        ((⟨.take, (system.answer (.raise lock.level : Request σ)).2.2⟩ ::
          ((body state).trace handler depth (lock.entered system) ++ [⟨.put left, last⟩])) ++
        [⟨.restore system.level, (last.answer (.put left)).2.2⟩]) := by
  rw [trace_holding_eq handler depth lock body free, ran]
  simp only [List.cons_append, List.append_assoc, List.nil_append]

/-- The first attempt on a lock finds it as it is. -/
theorem find_take_holding (system : System machine σ ρ) :
    ((lock.holding body).trace handler depth system).find? (fun moment => moment.request.isTake) =
      some ⟨.take, (system.answer (.raise lock.level : Request σ)).2.2⟩ :=
  rfl

end Lock

/-! ## Operations -/

namespace Host

variable (host : Host) {handler : ι → Prog HostState ρ} {depth : Nat}

/-- An operation that does not take the lock only logs. -/
theorem of_mem_remarks (allowed : Request HostState → Prop) (h : ∀ message, allowed (.log message))
    (remarks : List Message) (answer : Answer) (system : System machine HostState ρ) :
    ∀ moment ∈ ((Prog.logAll remarks).bind fun _ => .done answer).trace handler depth system,
      allowed moment.request := by
  have hsilent : ((Prog.logAll remarks).bind fun _ =>
      .done answer : Prog HostState Answer).Asks Request.Silent :=
    (asks_logAll remarks fun _ => trivial).bind fun _ => Prog.asks_done _
  have hasks : ((Prog.logAll remarks).bind fun _ =>
      .done answer : Prog HostState Answer).Asks allowed :=
    (asks_logAll remarks h).bind fun _ => Prog.asks_done _
  rw [hsilent.trace_eq_moments]
  exact hasks.of_mem_moments handler depth system

/-- Where it finds the lock held at its priority, an operation keeps to it, a dump included. -/
theorem perform_keeps
    (hserve : ∀ i (system : System machine HostState ρ), host.lock.Guards system →
      host.lock.Keeps (Prog.traceAt handler depth i system) (Prog.serveAt handler depth i system))
    (call : Call) {system : System machine HostState ρ} (guards : host.lock.Guards system) :
    host.lock.Keeps ((host.perform call).trace handler depth system)
      (((host.perform call).run handler depth system).map Prod.snd) := by
  by_cases hdump : call = .dump
  · subst hdump
    have hasks := host.asks_perform_dump.mono fun _ => Request.OnRegisters.inner
    exact hasks.keeps hserve guards
  · have hform := host.perform_form hdump
    generalize host.perform call = program at hform
    cases hform with
    | unlocked answer remarks h =>
        have hasks : ((Prog.logAll remarks).bind fun _ =>
            .done answer : Prog HostState Answer).Asks Request.Inner :=
          (asks_logAll remarks fun _ => trivial).bind fun _ => Prog.asks_done _
        exact hasks.keeps hserve guards
    | locked body finish h refuses settles =>
        constructor
        · obtain ⟨raised, refused, logged, htrace, hraised, hrefused, hlogged⟩ :=
            Lock.trace_refused handler depth host.lock body guards.held
          rw [Prog.trace_bind_done, htrace]
          simp only [List.forall_mem_cons]
          exact ⟨guards, hraised, hrefused, hlogged, by simp⟩
        · intro after hran
          rw [Prog.run_bind_done,
            Lock.run_holding_of_held handler depth host.lock body system guards.held] at hran
          cases hran
          rw [Prog.trace_bind_done]
          exact ⟨⟨guards.held, guards.level⟩,
            Lock.bracketed_holding_of_held handler depth host.lock body guards.held⟩

/-- Operations that interrupt a register write find the lock held and keep to it. -/
theorem serveAt_keeps (calls : ι → List Call) (depth : Nat) (i : ι)
    {system : System machine HostState (List Answer)} (guards : host.lock.Guards system) :
    host.lock.Keeps (Prog.traceAt (fun i => host.performAll (calls i)) depth i system)
      (Prog.serveAt (fun i => host.performAll (calls i)) depth i system) := by
  induction depth generalizing i system with
  | zero =>
      refine ⟨by simp [Prog.traceAt], ?_⟩
      intro after hran
      cases hran
      exact ⟨guards, .nil⟩
  | succ depth ih =>
      have hall (pending : List Call) {entered : System machine HostState (List Answer)}
          (h : host.lock.Guards entered) :
          host.lock.Keeps
            ((host.performAll pending).trace (fun i => host.performAll (calls i)) depth entered)
            (((host.performAll pending).run (fun i => host.performAll (calls i)) depth
              entered).map Prod.snd) := by
        induction pending generalizing entered with
        | nil =>
            have hasks : (host.performAll []).Asks Request.Inner := Prog.asks_done _
            exact hasks.keeps (fun i _ => ih i) h
        | cons call rest ihrest =>
            refine Lock.Keeps.bind (host.perform_keeps (fun i _ => ih i) call h) ?_
            intro answer after hafter
            refine (ihrest hafter).bind fun answers last hlast => ?_
            have hasks : (Prog.done (answer :: answers) : Prog HostState _).Asks Request.Inner :=
              Prog.asks_done _
            exact hasks.keeps (fun i _ => ih i) hlast
      have hentered : host.lock.Guards (system.note .entered) := ⟨guards.held, guards.level⟩
      obtain ⟨hguarded, hends⟩ := hall (calls i) hentered
      refine ⟨hguarded, ?_⟩
      intro after hran
      simp only [Prog.serveAt] at hran
      split at hran
      · rename_i answers last hlast
        cases hran
        obtain ⟨⟨hheld, hlevel⟩, hbrackets⟩ := hends last (congrArg (Except.map Prod.snd) hlast)
        exact ⟨⟨hheld, hlevel⟩, hbrackets⟩
      · cases hran

/-- The body of an operation leaves guarded state and priority to the lock. -/
theorem asks_inner {call : Call}
    {body : HostState → Prog HostState (Except HostError α × HostState)}
    (settles : ∀ state, (body state).Obeys (host.Permits call)
      fun result => result.2 = call.settle state) (state : HostState) :
    (body state).Asks Request.Inner :=
  (settles state).mono (fun _ => Permits.inner) fun _ _ => trivial

variable (calls : ι → List Call)

/-- What an operation asks it asks under the lock that it got, or it does not reach the platform
and finds the lock as the operation does. -/
theorem placed_of_mem_trace (depth : Nat) {call : Call} (hdump : call ≠ .dump)
    (system : System machine HostState (List Answer)) :
    ∀ moment ∈ (host.perform call).trace (fun i => host.performAll (calls i)) depth system,
      (system.cell.isSome = true ∧ host.lock.Guards moment.system)
        ∨ ¬ moment.request.Reaches
          ∧ (moment.request.isTake = true → moment.system.cell = system.cell) := by
  have hform := host.perform_form hdump
  generalize host.perform call = program at hform
  cases hform with
  | unlocked answer remarks h =>
      intro moment hmem
      exact .inr (of_mem_remarks (fun request => ¬ request.Reaches
        ∧ (request.isTake = true → moment.system.cell = system.cell)) (fun _ => ⟨id, nofun⟩) remarks
        answer system moment hmem)
  | locked body finish h refuses settles =>
      rw [Prog.trace_bind_done]
      cases hcell : system.cell with
      | none =>
          obtain ⟨raised, refused, logged, htrace, hraised, -⟩ :=
            Lock.trace_refused (fun i => host.performAll (calls i)) depth host.lock body hcell
          rw [htrace]
          simp only [List.forall_mem_cons]
          exact ⟨.inr ⟨id, nofun⟩, .inr ⟨id, fun _ => hraised.held⟩, .inr ⟨id, nofun⟩,
            .inr ⟨id, nofun⟩, by simp⟩
      | some state =>
          have hkeeps := (host.asks_inner settles state).keeps
            (fun i _ => host.serveAt_keeps calls depth i) (host.lock.guards_entered system)
          rw [Lock.trace_holding_eq _ depth host.lock body hcell]
          simp only [List.forall_mem_cons, List.forall_mem_append]
          refine ⟨.inr ⟨id, nofun⟩, .inr ⟨id, fun _ => hcell⟩, ?_, ?_⟩
          · intro moment hmem
            exact .inl ⟨rfl, hkeeps.guarded moment hmem⟩
          · split
            · simp only [List.forall_mem_cons]
              exact ⟨.inr ⟨id, nofun⟩, .inr ⟨id, nofun⟩, by simp⟩
            · simp

/-- The pages that an operation has while it runs are freed when it ends. -/
theorem perform_paid {depth : Nat} {call : Call} {answer : Answer}
    {system after : System machine HostState (List Answer)}
    (ran : (host.perform call).run (fun i => host.performAll (calls i)) depth system =
      .ok (answer, after)) :
    outstanding (((host.perform call).trace (fun i => host.performAll (calls i)) depth
      system).filterMap Moment.pageCall?) = some [] := by
  obtain ⟨booked, hcalls, -, hbooked⟩ :=
    host.booked_perform (host.idles_performAll calls depth) ran
  have htrace := Prog.run_booked ran
  unfold Booked at hbooked htrace
  rw [List.append_cancel_left (htrace.symm.trans hbooked)]
  exact hcalls.settles []

/-- An operation that ends has changed the priority in brackets only. -/
theorem perform_bracketed {depth : Nat} {call : Call} (hdump : call ≠ .dump) {answer : Answer}
    {system after : System machine HostState (List Answer)}
    (ran : (host.perform call).run (fun i => host.performAll (calls i)) depth system =
      .ok (answer, after)) :
    Bracketed host.lock.level
      ((host.perform call).trace (fun i => host.performAll (calls i)) depth system) := by
  have hpaid := host.perform_paid calls ran
  have hform := host.perform_form hdump
  generalize host.perform call = program at hform hpaid ran
  cases hform with
  | unlocked answer remarks h =>
      exact .of_asides (of_mem_remarks (fun request => ¬ request.Shifts) (fun _ => id)
        remarks answer system)
  | locked body finish h refuses settles =>
      rw [Prog.trace_bind_done] at hpaid ⊢
      cases hcell : system.cell with
      | none => exact Lock.bracketed_holding_of_held _ depth host.lock body hcell
      | some state =>
          obtain ⟨outcome, middle, hheld, -⟩ := Prog.run_bind_ok ran
          obtain ⟨left, last, hbody, -⟩ := Lock.returned_of_run hcell hheld
          have hkeeps := (host.asks_inner settles state).keeps
            (fun i _ => host.serveAt_keeps calls depth i) (host.lock.guards_entered system)
          obtain ⟨-, hbrackets⟩ := hkeeps.ends last (congrArg (Except.map Prod.snd) hbody)
          rw [Lock.trace_holding_of_ended _ depth host.lock body hcell hbody] at hpaid ⊢
          refine .bracket rfl (.aside id (hbrackets.append (.aside id .nil))) ?_ rfl .nil
          rw [List.filterMap_cons_none rfl, List.filterMap_append] at hpaid
          rw [List.filterMap_cons_none rfl] at hpaid ⊢
          rw [List.filterMap_cons_none rfl, List.filterMap_nil, List.append_nil] at hpaid
          exact hpaid

/-- When an operation ends, the priority is what it was, and the lock is free if it was. -/
theorem perform_restores {depth : Nat} {call : Call} {answer : Answer}
    {system after : System machine HostState (List Answer)}
    (ran : (host.perform call).run (fun i => host.performAll (calls i)) depth system =
      .ok (answer, after)) :
    after.level = system.level ∧ after.cell.isSome = system.cell.isSome := by
  by_cases hdump : call = .dump
  · subst hdump
    have hsilent := host.asks_perform_dump.mono fun _ => Request.OnRegisters.silent
    obtain ⟨-, hcell, hlevel⟩ := hsilent.run_silent ran
    exact ⟨hlevel, congrArg _ hcell⟩
  · cases hcell : system.cell with
    | none =>
        rw [run_perform_of_held host _ depth hdump hcell] at ran
        cases ran
        exact ⟨rfl, congrArg _ hcell⟩
    | some state =>
        have hform := host.perform_form hdump
        generalize hprogram : host.perform call = program at hform ran
        cases hform with
        | unlocked answer' remarks h =>
            rw [← hprogram, run_perform_of_unlocked host _ depth hdump h] at ran
            cases ran
            exact ⟨rfl, congrArg _ hcell⟩
        | locked body finish h refuses settles =>
            obtain ⟨outcome, middle, hheld, hdone⟩ := Prog.run_bind_ok ran
            cases hdone
            obtain ⟨left, last, -, rfl⟩ := Lock.returned_of_run hcell hheld
            exact ⟨rfl, rfl⟩

/-- However operations before it ended, none leaves the priority raised or the lock held. -/
theorem performAll_restores {depth : Nat} {earlier : List Call} {answers : List Answer}
    {system after : System machine HostState (List Answer)}
    (ran : (host.performAll earlier).run (fun i => host.performAll (calls i)) depth system =
      .ok (answers, after)) :
    after.level = system.level ∧ after.cell.isSome = system.cell.isSome := by
  induction earlier generalizing system answers with
  | nil =>
      cases ran
      exact ⟨rfl, rfl⟩
  | cons call rest ih =>
      obtain ⟨answer, middle, hfirst, hrest⟩ := Prog.run_bind_ok ran
      obtain ⟨later, last, hlater, hdone⟩ := Prog.run_bind_ok hrest
      cases hdone
      obtain ⟨hlevel, hcell⟩ := host.perform_restores calls hfirst
      obtain ⟨hlast, hfree⟩ := ih hlater
      exact ⟨hlast.trans hlevel, hfree.trans hcell⟩

/-- The first attempt on the lock finds it as the operation does. -/
theorem find_take_perform {depth : Nat} {call : Call} (hdump : call ≠ .dump)
    {system : System machine HostState (List Answer)}
    {attempt : Moment machine HostState (List Answer)}
    (first : ((host.perform call).trace (fun i => host.performAll (calls i)) depth system).find?
      (fun moment => moment.request.isTake) = some attempt) :
    attempt.system.cell = system.cell := by
  have hform := host.perform_form hdump
  generalize host.perform call = program at hform first
  cases hform with
  | unlocked answer remarks h =>
      have hnone : attempt.request.isTake = false :=
        of_mem_remarks (fun request => request.isTake = false) (fun _ => rfl) remarks
          answer system attempt (List.mem_of_find?_eq_some first)
      rw [List.find?_some first] at hnone
      cases hnone
  | locked body finish h refuses settles =>
      rw [Prog.trace_bind_done, Lock.find_take_holding] at first
      cases first
      rfl

/-- Everything that an operation does to its platform, and everything that interrupting operations
do meanwhile, happens while the lock is held, at the priority of the lock, and only if the operation
got the lock.  If the operation ends, whatever it answers, it has changed the priority in brackets,
with the pages it had freed inside them, the priority is back where it was, and the lock is free if
it was.  So after any operations that ended, on any platform, the next one does not find the lock
held because of them. -/
theorem operations_bracketed (depth : Nat) {earlier : List Call} {answers : List Answer}
    {start system : System machine HostState (List Answer)}
    (ran : (host.performAll earlier).run (fun i => host.performAll (calls i)) depth start =
      .ok (answers, system)) {call : Call} (hdump : call ≠ .dump) :
    (system.level = start.level ∧ system.cell.isSome = start.cell.isSome)
    ∧ (∀ attempt, ((host.perform call).trace (fun i => host.performAll (calls i)) depth
        system).find? (fun moment => moment.request.isTake) = some attempt →
          attempt.system.cell.isSome = start.cell.isSome)
    ∧ (∀ moment ∈ (host.perform call).trace (fun i => host.performAll (calls i)) depth system,
        moment.request.Reaches → system.cell.isSome = true ∧ host.lock.Guards moment.system)
    ∧ ∀ answer after, (host.perform call).run (fun i => host.performAll (calls i)) depth system =
        .ok (answer, after) →
          Bracketed host.config.lockLevel
            ((host.perform call).trace (fun i => host.performAll (calls i)) depth system)
          ∧ after.level = system.level ∧ after.cell.isSome = system.cell.isSome := by
  have hrestored := host.performAll_restores calls ran
  refine ⟨hrestored, ?_, ?_, ?_⟩
  · intro attempt hfirst
    rw [host.find_take_perform calls hdump hfirst]
    exact hrestored.2
  · intro moment hmem hreaches
    rcases host.placed_of_mem_trace calls depth hdump system moment hmem with hguarded | ⟨hidle, -⟩
    · exact hguarded
    · exact (hidle hreaches).elim
  · intro answer after hran
    exact ⟨host.perform_bracketed calls hdump hran, host.perform_restores calls hran⟩

/-- A bench whose data phases never end, where a look at the pending command interrupts the first
two commands that are started. -/
@[irreducible]
def interruptedBench : System Bench.machine HostState (List Answer) :=
  match latchedBench false with
  | ⟨⟨device, memory⟩, level, cell, verbosity, journal⟩ =>
    ⟨⟨{ device with
        armed := [(Register.command.offset, .pending), (Register.command.offset, .pending)] },
      memory⟩, level, cell, verbosity, journal⟩

/-- A write that timed out, and the latch of the next one. -/
def timedOut : List Call :=
  [.writeData 1 [7], .sendCommand 24 0]

/-- The second of two writes that time out. -/
def secondWrite :
    Except Halt (List Answer × System Bench.machine HostState (List Answer)) →
      Except Halt (Answer × System Bench.machine HostState (List Answer))
  | .ok (_, system) => (hastyHost.perform (.writeData 1 [7])).run
      (fun call => hastyHost.performAll [call]) 1 system
  | .error halt => .error halt

/-- Whether an operation timed out on a bench where all interruptions happened. -/
def hasTimedOut : Except Halt (Answer × System Bench.machine HostState (List Answer)) → Bool
  | .ok (.outcome (.error .timeout), after) => after.shared.device.armed.isEmpty
  | _ => false

/-- Two writes time out one after the other, both interrupted, and at the end of the second the lock
is free and the priority is back at its first level. -/
theorem lock_free_after_timeouts :
    ∃ answers system after,
      (hastyHost.performAll timedOut).run (fun call => hastyHost.performAll [call]) 1
          interruptedBench = .ok (answers, system)
      ∧ (hastyHost.perform (.writeData 1 [7])).run (fun call => hastyHost.performAll [call]) 1
          system = .ok (.outcome (.error .timeout), after)
      ∧ after.level = interruptedBench.level ∧ after.cell.isSome = interruptedBench.cell.isSome
      ∧ Bracketed hastyHost.config.lockLevel ((hastyHost.perform (.writeData 1 [7])).trace
          (fun call => hastyHost.performAll [call]) 1 system) := by
  have htimed : hasTimedOut (secondWrite ((hastyHost.performAll timedOut).run
      (fun call => hastyHost.performAll [call]) 1 interruptedBench)) = true := by
    decide +kernel
  have hwrite : Call.writeData 1 [7] ≠ .dump := nofun
  cases hearlier : (hastyHost.performAll timedOut).run (fun call => hastyHost.performAll [call]) 1
      interruptedBench with
  | error halt =>
      rw [hearlier] at htimed
      cases htimed
  | ok ended =>
      obtain ⟨answers, system⟩ := ended
      rw [hearlier, secondWrite] at htimed
      obtain ⟨⟨hlevel, hfree⟩, -, -, hends⟩ :=
        operations_bracketed hastyHost (fun call => [call]) 1 hearlier hwrite
      unfold hasTimedOut at htimed
      split at htimed
      · rename_i after hran
        obtain ⟨hbrackets, hlast, hleft⟩ := hends _ after hran
        exact ⟨answers, system, after, rfl, hran, hlast.trans hlevel, hleft.trans hfree, hbrackets⟩
      · cases htimed

end Host

end CardHost
