import CardHost.Proofs.Held
import CardHost.Proofs.Moments

/-!
# Traces

`Prog.moments` leaves out what interrupting calls ask.  A trace has that too: `Prog.trace` lists
every request of a run in the order the platform sees them, those of interrupting calls right after
the register write they interrupt, and it stops where the run halts.

Three facts carry what is said about traces.  A relation that every answer keeps up holds along the
whole run, interruptions included (`trace_carries`).  The platform of each request is so the one
that the request before left (`linked_of_trace`), and what changes between two moments is what the
requests between them did.  And a program that writes no register has its moments for a trace
(`trace_eq_moments`), since nothing else is interrupted.

At a held lock an interrupting call only reads, logs and is refused (`trace_interruption`): its
requests are `Idle`, and they neither change a register nor memory nor pages.
-/

namespace CardHost

variable {machine : Machine ι}

namespace Prog

/-- The requests of a run in order.  `traced` are the requests of an interruption. -/
def traceWith (serve : ι → System machine σ ρ → Except Halt (System machine σ ρ))
    (traced : ι → System machine σ ρ → List (Moment machine σ ρ)) :
    Prog σ α → System machine σ ρ → List (Moment machine σ ρ)
  | done _, _ => []
  | fault, _ => []
  | stuck, _ => []
  | ask request next, system =>
    ⟨request, system⟩ ::
      match system.answer request with
      | (reply, none, after) => (next reply).traceWith serve traced after
      | (reply, some call, after) =>
        traced call after ++
          match serve call after with
          | .ok served => (next reply).traceWith serve traced served
          | .error _ => []

/-- The requests of an interruption, whose program may be interrupted at the depth below. -/
def traceAt (handler : ι → Prog σ ρ) :
    Nat → ι → System machine σ ρ → List (Moment machine σ ρ)
  | 0, _, _ => []
  | depth + 1, call, system =>
    (handler call).traceWith (serveAt handler depth) (traceAt handler depth) (system.note .entered)

/-- The requests of a run with interruptions nested up to a depth, theirs included. -/
def trace (handler : ι → Prog σ ρ) (depth : Nat) (program : Prog σ α)
    (system : System machine σ ρ) : List (Moment machine σ ρ) :=
  program.traceWith (serveAt handler depth) (traceAt handler depth) system

variable (handler : ι → Prog σ ρ) (depth : Nat)

/-- The trace of a sequence is that of its parts. -/
theorem trace_bind (program : Prog σ α) (next : α → Prog σ β) (system : System machine σ ρ) :
    (program.bind next).trace handler depth system =
      program.trace handler depth system ++
        match program.run handler depth system with
        | .ok (value, after) => (next value).trace handler depth after
        | .error _ => [] := by
  unfold trace run
  induction program generalizing system with
  | done value => rfl
  | fault => rfl
  | stuck => rfl
  | ask request reply ih =>
      simp only [bind, traceWith, runWith, List.cons_append, List.cons.injEq, true_and]
      rcases system.answer request with ⟨answer, _ | call, after⟩
      · exact ih answer after
      · dsimp only
        cases serveAt handler depth call after with
        | ok served =>
            rw [List.append_assoc]
            exact congrArg _ (ih answer served)
        | error halt => simp only [List.append_nil]

/-- The trace of a sequence whose first part ends. -/
theorem trace_bind_of_run {program : Prog σ α} {next : α → Prog σ β}
    {system after : System machine σ ρ} {value : α}
    (ran : program.run handler depth system = .ok (value, after)) :
    (program.bind next).trace handler depth system =
      program.trace handler depth system ++ (next value).trace handler depth after := by
  rw [trace_bind, ran]

/-- Shaping the value of a program adds nothing to its trace. -/
theorem trace_bind_done (program : Prog σ α) (shape : α → β) (system : System machine σ ρ) :
    (program.bind fun value => done (shape value)).trace handler depth system =
      program.trace handler depth system := by
  rw [trace_bind]
  cases program.run handler depth system with
  | ok ended => exact List.append_nil _
  | error halt => exact List.append_nil _

/-- The moments of a program are in its trace. -/
theorem mem_trace_of_mem_moments {program : Prog σ α} {system : System machine σ ρ}
    {moment : Moment machine σ ρ} (h : moment ∈ program.moments handler depth system) :
    moment ∈ program.trace handler depth system := by
  unfold moments at h
  unfold trace
  induction program generalizing system with
  | done value => exact h
  | fault => exact h
  | stuck => exact h
  | ask request next ih =>
      simp only [momentsWith, traceWith, List.mem_cons] at h ⊢
      refine h.imp_right fun hlater => ?_
      rcases hanswer : system.answer request with ⟨reply, _ | call, after⟩
      · rw [hanswer] at hlater
        exact ih reply hlater
      · rw [hanswer] at hlater
        dsimp only at hlater ⊢
        cases hserved : serveAt handler depth call after with
        | ok served =>
            rw [hserved] at hlater
            exact List.mem_append_right _ (ih reply hlater)
        | error halt =>
            rw [hserved] at hlater
            cases hlater

/-- A program that writes no register is not interrupted. -/
theorem Obeys.trace_eq_moments_of {allowed : Request σ → Prop} {post : α → Prop}
    {program : Prog σ α}
    (unwritten : ∀ window offset value, ¬ allowed (.write window offset value))
    (h : program.Obeys allowed post) (system : System machine σ ρ) :
    program.trace handler depth system = program.moments handler depth system := by
  unfold trace moments
  induction program generalizing system with
  | done value => rfl
  | fault => rfl
  | stuck => rfl
  | ask request next ih =>
      have hwrite : ∀ window offset value, request ≠ .write window offset value := by
        rintro window offset value rfl
        exact unwritten window offset value h.1
      have hnone := answer_not_interrupted hwrite system
      simp only [traceWith, momentsWith]
      rcases hanswer : system.answer request with ⟨reply, interruption, after⟩
      rw [hanswer] at hnone
      cases hnone
      exact congrArg _ (ih reply (h.2 reply) after)

theorem Obeys.trace_eq_moments {post : α → Prop} {program : Prog σ α}
    (h : program.Obeys Request.Silent post) (system : System machine σ ρ) :
    program.trace handler depth system = program.moments handler depth system :=
  h.trace_eq_moments_of handler depth (fun _ _ _ => id) system

end Prog

/-! ## The platform along a trace -/

/-- The platform that a request leaves. -/
def Moment.after (moment : Moment machine σ ρ) : Shared machine.State :=
  (moment.system.answer moment.request).2.2.shared

/-- Moments one after another, from one platform to another: each is asked on the platform that the
one before left. -/
def Linked : Shared machine.State → List (Moment machine σ ρ) → Shared machine.State → Prop
  | before, [], after => before = after
  | before, moment :: rest, after => moment.system.shared = before ∧ Linked moment.after rest after

theorem linked_append {before after : Shared machine.State}
    {front back : List (Moment machine σ ρ)} :
    Linked before (front ++ back) after ↔
      ∃ middle, Linked before front middle ∧ Linked middle back after := by
  induction front generalizing before with
  | nil =>
      constructor
      · intro hback
        exact ⟨before, rfl, hback⟩
      · rintro ⟨middle, rfl, hback⟩
        exact hback
  | cons moment rest ih =>
      simp only [List.cons_append, Linked, ih]
      constructor
      · rintro ⟨hasked, middle, hrest, hback⟩
        exact ⟨middle, ⟨hasked, hrest⟩, hback⟩
      · rintro ⟨middle, ⟨hasked, hrest⟩, hback⟩
        exact ⟨hasked, middle, hrest, hback⟩

/-! ## What a trace carries along -/

/-- A relation between the requests so far and the system that they led to: every answer keeps it
up, and so do the notes around an interruption. -/
structure Along (holds : List (Moment machine σ ρ) → System machine σ ρ → Prop) : Prop where
  answer : ∀ {past : List (Moment machine σ ρ)} {system : System machine σ ρ}
    (request : Request σ), holds past system →
      holds (past ++ [⟨request, system⟩]) (system.answer request).2.2
  entered : ∀ {past : List (Moment machine σ ρ)} {system : System machine σ ρ},
    holds past system → holds past (system.note .entered)
  left : ∀ {past : List (Moment machine σ ρ)} {system : System machine σ ρ} (answer : ρ),
    holds past system → holds past (system.note (.left answer))

/-- From some past on the relation holds at every moment of a trace, and where the run ends. -/
structure Carries (holds : List (Moment machine σ ρ) → System machine σ ρ → Prop)
    (past trace : List (Moment machine σ ρ)) (ran : Except Halt (System machine σ ρ)) : Prop where
  moments : ∀ front moment back, trace = front ++ moment :: back →
    holds (past ++ front) moment.system
  ends : ∀ after, ran = .ok after → holds (past ++ trace) after

namespace Carries

variable {holds : List (Moment machine σ ρ) → System machine σ ρ → Prop}
  {past : List (Moment machine σ ρ)} {ran : Except Halt (System machine σ ρ)}

theorem nil (h : ∀ after, ran = .ok after → holds past after) : Carries holds past [] ran where
  moments front moment back hsplit := by simp at hsplit
  ends after hran := by
    rw [List.append_nil]
    exact h after hran

theorem cons {moment : Moment machine σ ρ} {trace : List (Moment machine σ ρ)}
    (h : holds past moment.system) (rest : Carries holds (past ++ [moment]) trace ran) :
    Carries holds past (moment :: trace) ran where
  moments front other back hsplit := by
    cases front with
    | nil =>
        cases hsplit
        rw [List.append_nil]
        exact h
    | cons first front =>
        obtain ⟨rfl, hrest⟩ := List.cons.inj hsplit
        rw [List.append_cons]
        exact rest.moments front other back hrest
  ends after hran := by
    rw [List.append_cons]
    exact rest.ends after hran

theorem append {front back : List (Moment machine σ ρ)} {middle : Except Halt (System machine σ ρ)}
    (first : Carries holds past front middle) (rest : Carries holds (past ++ front) back ran) :
    Carries holds past (front ++ back) ran where
  moments before moment after hsplit := by
    rcases split_append hsplit with ⟨between, rfl, hback⟩ | ⟨between, hfront, -⟩
    · rw [← List.append_assoc]
      exact rest.moments between moment after hback
    · exact first.moments before moment between hfront
  ends after hran := by
    rw [← List.append_assoc]
    exact rest.ends after hran

end Carries

namespace Prog

variable {holds : List (Moment machine σ ρ) → System machine σ ρ → Prop}

/-- The step of `trace_carries`: if the interruptions carry the relation along, so does the program
they interrupt. -/
theorem runWith_carries (along : Along holds)
    {serve : ι → System machine σ ρ → Except Halt (System machine σ ρ)}
    {traced : ι → System machine σ ρ → List (Moment machine σ ρ)}
    (hserve : ∀ call past system, holds past system →
      Carries holds past (traced call system) (serve call system))
    (program : Prog σ α) {past : List (Moment machine σ ρ)} {system : System machine σ ρ}
    (h : holds past system) :
    Carries holds past (program.traceWith serve traced system)
      ((program.runWith serve system).map Prod.snd) := by
  have halted {past : List (Moment machine σ ρ)} (halt : Halt) :
      Carries holds past [] (.error halt) := .nil fun after hran => by cases hran
  induction program generalizing past system with
  | done value =>
      refine .nil fun after hran => ?_
      cases hran
      exact h
  | fault => exact halted .fault
  | stuck => exact halted .stuck
  | ask request next ih =>
      have hasked := along.answer request h
      simp only [traceWith, runWith]
      rcases hanswer : system.answer request with ⟨reply, _ | call, asked⟩
      · rw [hanswer] at hasked
        exact .cons h (ih reply hasked)
      · rw [hanswer] at hasked
        have hserved := hserve call _ asked hasked
        dsimp only
        refine .cons h ?_
        cases hran : serve call asked with
        | ok served =>
            rw [hran] at hserved
            exact hserved.append (ih reply (hserved.ends served rfl))
        | error halt => exact hserved.append (halted halt)

theorem serveAt_carries (along : Along holds) (handler : ι → Prog σ ρ) (depth : Nat) (call : ι)
    (past : List (Moment machine σ ρ)) (system : System machine σ ρ) (h : holds past system) :
    Carries holds past (traceAt handler depth call system)
      (serveAt handler depth call system) := by
  induction depth generalizing call past system with
  | zero =>
      refine .nil fun after hran => ?_
      cases hran
      exact h
  | succ depth ih =>
      have hcalled := runWith_carries along ih (handler call) (along.entered h)
      refine ⟨hcalled.moments, ?_⟩
      intro after hran
      simp only [serveAt] at hran
      split at hran
      · rename_i answer left hleft
        cases hran
        exact along.left answer (hcalled.ends left (by rw [hleft]; rfl))
      · cases hran

variable {handler : ι → Prog σ ρ} {depth : Nat} {program : Prog σ α} {system : System machine σ ρ}

/-- A relation that answers and notes keep up holds along every run, its interruptions included. -/
theorem trace_carries (along : Along holds) (h : holds [] system) :
    Carries holds [] (program.trace handler depth system)
      ((program.run handler depth system).map Prod.snd) :=
  runWith_carries along (serveAt_carries along handler depth) program h

/-- What is carried along holds at each moment, of the requests before it. -/
theorem carried_at (along : Along holds) (h : holds [] system)
    {front back : List (Moment machine σ ρ)} {moment : Moment machine σ ρ}
    (htrace : program.trace handler depth system = front ++ moment :: back) :
    holds front moment.system :=
  (trace_carries along h).moments front moment back htrace

/-- What is carried along holds at the end, of the whole trace. -/
theorem carried_to_end (along : Along holds) (h : holds [] system)
    {after : System machine σ ρ} {value : α}
    (ran : program.run handler depth system = .ok (value, after)) :
    holds (program.trace handler depth system) after :=
  (trace_carries along h).ends after (by rw [ran]; rfl)

end Prog

/-- The requests so far link the platform at the start with the present one. -/
theorem along_linked (start : Shared machine.State) :
    Along fun (past : List (Moment machine σ ρ)) (system : System machine σ ρ) =>
      Linked start past system.shared where
  answer _ h := linked_append.mpr ⟨_, h, rfl, rfl⟩
  entered h := h
  left _ h := h

/-- Up to any of its moments a trace is linked. -/
theorem Prog.linked_of_trace {handler : ι → Prog σ ρ} {depth : Nat} {program : Prog σ α}
    {system : System machine σ ρ} {front back : List (Moment machine σ ρ)}
    {moment : Moment machine σ ρ}
    (htrace : program.trace handler depth system = front ++ moment :: back) :
    Linked system.shared front moment.system.shared :=
  carried_at (along_linked system.shared) rfl htrace

/-! ## Interruptions at a held lock -/

/-- A request that reads, waits, logs, or tries the lock: it changes neither memory nor pages, and
no register is written. -/
def Request.Idle : Request σ → Prop
  | .write .. => False
  | .store .. => False
  | .load .. => False
  | .allocate .. => False
  | .free .. => False
  | .put _ => False
  | _ => True

theorem Request.OnRegisters.idle {window : Window} {request : Request σ}
    (h : request.OnRegisters window fun _ _ => False) : request.Idle := by
  cases request with
  | write w offset value =>
      obtain ⟨-, register, -, hwrites⟩ := h
      exact hwrites
  | allocate => exact h.elim
  | free => exact h.elim
  | load => exact h.elim
  | store => exact h.elim
  | put => exact h.elim
  | _ => trivial

/-- Interruptions that make only idle requests at a held lock, and leave it held. -/
structure Idles (machine : Machine ι) (handler : ι → Prog σ ρ) (depth : Nat) : Prop where
  keeps : KeepsHeld machine handler depth
  idle : ∀ call (system : System machine σ ρ), system.cell = none →
    ∀ moment ∈ Prog.traceAt handler depth call system, moment.request.Idle

/-- Under the lock the trace of a program holds what it may ask, and idle requests. -/
theorem Prog.Asks.of_mem_trace {handler : ι → Prog σ ρ} {depth : Nat}
    (idles : Idles machine handler depth) {allowed : Request σ → Prop}
    (inner : ∀ request, allowed request → request.Inner) {program : Prog σ α}
    (h : program.Asks allowed) {system : System machine σ ρ} (held : system.cell = none) :
    ∀ moment ∈ program.trace handler depth system,
      allowed moment.request ∨ moment.request.Idle := by
  unfold trace
  induction program generalizing system with
  | done value => simp [traceWith]
  | fault => simp [traceWith]
  | stuck => simp [traceWith]
  | ask request next ih =>
      intro moment hmem
      have hcell := (answer_inner (inner request h.1) system).1
      rw [traceWith] at hmem
      rcases List.mem_cons.mp hmem with rfl | hlater
      · exact .inl h.1
      · rcases hanswer : system.answer request with ⟨reply, _ | call, after⟩
        · rw [hanswer] at hcell hlater
          exact ih reply (h.2 reply) (hcell.trans held) moment hlater
        · rw [hanswer] at hcell hlater
          rcases List.mem_append.mp hlater with hserved | hlater
          · exact .inr (idles.idle call after (hcell.trans held) moment hserved)
          · split at hlater
            · rename_i served hserved
              have hkept := idles.keeps call after served (hcell.trans held) hserved
              exact ih reply (h.2 reply) hkept moment hlater
            · cases hlater

/-- The step of `Asks.of_mem_trace_of_handler`. -/
theorem Prog.Asks.of_mem_traceWith
    {serve : ι → System machine σ ρ → Except Halt (System machine σ ρ)}
    {traced : ι → System machine σ ρ → List (Moment machine σ ρ)} {allowed : Request σ → Prop}
    (interrupting : ∀ call system, ∀ moment ∈ traced call system, allowed moment.request)
    {program : Prog σ α} (h : program.Asks allowed) (system : System machine σ ρ) :
    ∀ moment ∈ program.traceWith serve traced system, allowed moment.request := by
  induction program generalizing system with
  | done value => simp [traceWith]
  | fault => simp [traceWith]
  | stuck => simp [traceWith]
  | ask request next ih =>
      intro moment hmem
      rw [traceWith] at hmem
      rcases List.mem_cons.mp hmem with rfl | hlater
      · exact h.1
      · rcases hanswer : system.answer request with ⟨reply, _ | call, after⟩
        · rw [hanswer] at hlater
          exact ih reply (h.2 reply) after moment hlater
        · rw [hanswer] at hlater
          rcases List.mem_append.mp hlater with hserved | hlater
          · exact interrupting call after moment hserved
          · split at hlater
            · exact ih reply (h.2 reply) _ moment hlater
            · cases hlater

/-- Whether or not a lock is held, the trace of a program holds what it may ask and what the
programs that interrupt may. -/
theorem Prog.Asks.of_mem_trace_of_handler {handler : ι → Prog σ ρ} {allowed : Request σ → Prop}
    (interrupting : ∀ call, (handler call).Asks allowed) (depth : Nat) {program : Prog σ α}
    (h : program.Asks allowed) (system : System machine σ ρ) :
    ∀ moment ∈ program.trace handler depth system, allowed moment.request := by
  refine h.of_mem_traceWith (fun call system => ?_) system
  clear h
  induction depth generalizing call system with
  | zero =>
      intro moment hmem
      cases hmem
  | succ depth ih => exact (interrupting call).of_mem_traceWith ih _

namespace Lock

variable (handler : ι → Prog σ ρ) (depth : Nat) (lock : Lock)
  (body : σ → Prog σ (Except HostError α × σ))

/-- A refused caller tries the lock and says so. -/
theorem trace_holding_of_held {system : System machine σ ρ} (held : system.cell = none) :
    ((lock.holding body).trace handler depth system).map Moment.request =
      [.raise lock.level, .take, .log (.lockRefused lock.name), .restore system.level] := by
  obtain ⟨shared, level, cell, verbosity, journal⟩ := system
  cases held
  rfl

/-- The trace of a body under a lock that is free. -/
theorem trace_holding_eq {system : System machine σ ρ} {state : σ}
    (free : system.cell = some state) :
    (lock.holding body).trace handler depth system =
      ⟨.raise lock.level, system⟩ ::
        ⟨.take, (system.answer (.raise lock.level : Request σ)).2.2⟩ ::
          ((body state).trace handler depth (lock.entered system) ++
            match (body state).run handler depth (lock.entered system) with
            | .ok ((_, left), last) =>
              [⟨.put left, last⟩, ⟨.restore system.level, (last.answer (.put left)).2.2⟩]
            | .error _ => []) := by
  obtain ⟨shared, level, cell, verbosity, journal⟩ := system
  cases free
  have acquired :
      lock.acquire?.run handler depth
          (⟨shared, level, some state, verbosity, journal⟩ : System machine σ ρ) =
        .ok (some ⟨state, level⟩, lock.entered ⟨shared, level, some state, verbosity, journal⟩) :=
    rfl
  unfold holding
  rw [Prog.bind_eq, Prog.trace_bind_of_run handler depth acquired]
  dsimp only
  rw [Prog.bind_eq, Prog.trace_bind]
  cases (body state).run handler depth
      (lock.entered ⟨shared, level, some state, verbosity, journal⟩) with
  | error halt => rfl
  | ok ended => rfl

/-- Around its body a lock that is free raises the priority and takes the state, and gives both
back. -/
theorem trace_holding_of_free {system : System machine σ ρ} {state : σ}
    (free : system.cell = some state) :
    ∃ lead tail : List (Moment machine σ ρ),
      (lock.holding body).trace handler depth system =
          lead ++ ((body state).trace handler depth (lock.entered system) ++ tail)
        ∧ lead.map Moment.request = [.raise lock.level, .take]
        ∧ (∀ moment ∈ tail, (∃ left, moment.request = .put left)
            ∨ moment.request = .restore system.level) := by
  refine ⟨[⟨.raise lock.level, system⟩,
    ⟨.take, (system.answer (.raise lock.level : Request σ)).2.2⟩], _,
    trace_holding_eq handler depth lock body free, rfl, ?_⟩
  intro moment hmem
  split at hmem
  · rename_i ended left last hran
    simp only [List.mem_cons, List.not_mem_nil, or_false] at hmem
    rcases hmem with rfl | rfl
    · exact .inl ⟨left, rfl⟩
    · exact .inr rfl
  · cases hmem

end Lock

namespace Host

variable (host : Host)

/-- An operation is idle wherever it runs, or runs one body under the lock. -/
theorem idle_or_locks (handler : ι → Prog HostState ρ) (depth : Nat) (call : Call) :
    (∀ system : System machine HostState ρ,
        ∀ moment ∈ (host.perform call).trace handler depth system, moment.request.Idle)
      ∨ ∃ (α : Type) (body : HostState → Prog HostState (Except HostError α × HostState))
          (finish : Except HostError α → Answer),
        host.perform call = ((host.lock.holding body).bind fun outcome => .done (finish outcome))
          ∧ ∀ state, (body state).Asks (host.Permits call) := by
  have quiet {program : Prog HostState Answer}
      (hasks : program.Asks (Request.OnRegisters host.window fun _ _ => False))
      (system : System machine HostState ρ) :
      ∀ moment ∈ program.trace handler depth system, moment.request.Idle := by
    intro moment hmem
    have hsilent := hasks.mono fun _ => Request.OnRegisters.silent
    rw [hsilent.trace_eq_moments] at hmem
    exact (hasks.of_mem_moments handler depth system moment hmem).idle
  by_cases hdump : call = .dump
  · subst hdump
    exact .inl (quiet host.asks_perform_dump)
  · have hform := host.perform_form hdump
    generalize host.perform call = program at hform
    cases hform with
    | unlocked answer remarks h =>
        left
        apply quiet
        exact Prog.Asks.bind (asks_logAll remarks fun _ => trivial) fun _ => Prog.asks_done answer
    | locked body finish h refuses settles =>
        right
        have hasks (state : HostState) := (settles state).mono (fun _ => id) fun _ _ => trivial
        exact ⟨_, body, finish, rfl, hasks⟩

/-- At a held lock an operation makes only idle requests. -/
theorem idle_of_mem_trace (handler : ι → Prog HostState ρ) (depth : Nat) (call : Call)
    {system : System machine HostState ρ} (held : system.cell = none) :
    ∀ moment ∈ (host.perform call).trace handler depth system, moment.request.Idle := by
  rcases host.idle_or_locks handler depth call with hidle | ⟨α, body, finish, hprogram, -⟩
  · exact hidle system
  · intro moment hmem
    rw [hprogram, Prog.trace_bind_done] at hmem
    have hrequest : moment.request ∈ List.map Moment.request _ := List.mem_map_of_mem hmem
    rw [Lock.trace_holding_of_held handler depth host.lock body held] at hrequest
    simp only [List.mem_cons, List.not_mem_nil, or_false] at hrequest
    rcases hrequest with h | h | h | h
    all_goals (rw [h]; trivial)

/-- What an operation asks is idle, gives the lock back, or is permitted to its body and within any
bound on what the operation may ask. -/
theorem asked_of_mem_trace {handler : ι → Prog HostState ρ} {depth : Nat}
    (idles : Idles machine handler depth) {call : Call} {allowed : Request HostState → Prop}
    (bound : (host.perform call).Asks allowed) (system : System machine HostState ρ) :
    ∀ moment ∈ (host.perform call).trace handler depth system, moment.request.Idle
      ∨ (∃ left, moment.request = .put left)
      ∨ host.Permits call moment.request ∧ allowed moment.request := by
  intro moment hmem
  cases hcell : system.cell with
  | none => exact .inl (host.idle_of_mem_trace handler depth call hcell moment hmem)
  | some state =>
      rcases host.idle_or_locks handler depth call with hidle | ⟨α, body, finish, hprogram, hasks⟩
      · exact .inl (hidle system moment hmem)
      · obtain ⟨lead, tail, htrace, hlead, htail⟩ :=
          Lock.trace_holding_of_free handler depth host.lock body hcell
        rw [hprogram] at bound
        have hbody := (hasks state).and (Lock.asks_body bound.first state)
        rw [hprogram, Prog.trace_bind_done, htrace] at hmem
        rcases List.mem_append.mp hmem with hmem | hmem
        · have hrequest : moment.request ∈ List.map Moment.request _ := List.mem_map_of_mem hmem
          rw [hlead] at hrequest
          simp only [List.mem_cons, List.not_mem_nil, or_false] at hrequest
          left
          rcases hrequest with h | h
          all_goals (rw [h]; trivial)
        · rcases List.mem_append.mp hmem with hmem | hmem
          · rcases hbody.of_mem_trace idles (fun _ h => h.1.inner) rfl moment hmem with h | h
            · exact .inr (.inr h)
            · exact .inl h
          · rcases htail moment hmem with h | h
            · exact .inr (.inl h)
            · left
              rw [h]
              trivial

/-- What an operation asks is idle, gives the lock back, or is permitted to its body. -/
theorem permits_of_mem_trace {handler : ι → Prog HostState ρ} {depth : Nat}
    (idles : Idles machine handler depth) (call : Call) (system : System machine HostState ρ) :
    ∀ moment ∈ (host.perform call).trace handler depth system, moment.request.Idle
      ∨ (∃ left, moment.request = .put left) ∨ host.Permits call moment.request := by
  intro moment hmem
  rcases host.asked_of_mem_trace idles (Prog.asks_anything _) system moment hmem with h | h | h
  · exact .inl h
  · exact .inr (.inl h)
  · exact .inr (.inr h.1)

/-- Operations of the host that interrupt it are idle at a held lock. -/
theorem idles_performAll (calls : ι → List Call) (depth : Nat) :
    Idles machine (fun i => host.performAll (calls i)) depth where
  keeps := host.serveAt_keeps_held calls depth
  idle i system held := by
    cases depth with
    | zero =>
        intro moment hmem
        cases hmem
    | succ depth =>
        have hkeeps : KeepsHeld machine (fun i => host.performAll (calls i)) depth :=
          host.serveAt_keeps_held calls depth
        have hnote : (system.note .entered).cell = none := held
        rw [Prog.traceAt]
        generalize system.note .entered = system at hnote
        show ∀ moment ∈ (host.performAll (calls i)).trace _ depth system, _
        induction calls i generalizing system with
        | nil =>
            intro moment hmem
            cases hmem
        | cons call rest ih =>
            intro moment hmem
            rw [performAll, Prog.trace_bind] at hmem
            rcases List.mem_append.mp hmem with hfirst | hrest
            · exact host.idle_of_mem_trace _ depth call hnote moment hfirst
            · split at hrest
              · rename_i answer after hran
                rw [Prog.trace_bind_done] at hrest
                exact ih after (perform_keeps_held host hkeeps hnote hran) moment hrest
              · cases hrest

end Host

end CardHost
