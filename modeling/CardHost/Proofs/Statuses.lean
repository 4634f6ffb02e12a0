import CardHost.Bench.Session.Objects
import CardHost.Proofs.Engine
import CardHost.Proofs.Loading

/-!
# What a free reports

The driver only remarks on the status that a free reports.  On two machines that differ in nothing
else a run therefore ends with the same value, on the same platform, behind the same lock, and after
the same calls: `Prog.Alike.run`.

`Prog.Alike` relates the programs themselves.  They ask the same, may log what the other does not,
and after a free they stay alike whatever each of them was told.  A program that frees nothing is
alike to itself (`Asks.alike`), so only the two places that free pages need an argument
(`Services.alike_free`).
-/

namespace CardHost

/-! ## Alike programs -/

/-- Programs that ask the same but for messages, however their frees end. -/
inductive Prog.Alike : Prog σ α → Prog σ α → Prop
  | done (value : α) : Alike (.done value) (.done value)
  | fault : Alike .fault .fault
  | stuck : Alike .stuck .stuck
  | ask {request : Request σ} {next other : request.Reply → Prog σ α} (keeps : ¬ request.Frees)
      (h : ∀ reply, Alike (next reply) (other reply)) :
      Alike (.ask request next) (.ask request other)
  | free {services : Services} {address : UInt64} {count : Nat} {next other : Status → Prog σ α}
      (h : ∀ status reported, Alike (next status) (other reported)) :
      Alike (.ask (.free services address count) next) (.ask (.free services address count) other)
  | logs {message : Message} {next : Unit → Prog σ α} {other : Prog σ α}
      (h : Alike (next ()) other) : Alike (.ask (.log message) next) other
  | logged {message : Message} {program : Prog σ α} {next : Unit → Prog σ α}
      (h : Alike program (next ())) : Alike program (.ask (.log message) next)

namespace Prog

theorem Alike.bind {program other : Prog σ α} {next rest : α → Prog σ β}
    (first : program.Alike other) (h : ∀ value, (next value).Alike (rest value)) :
    (program.bind next).Alike (other.bind rest) := by
  induction first with
  | done value => exact h value
  | fault => exact .fault
  | stuck => exact .stuck
  | ask keeps _ ih => exact .ask keeps ih
  | free _ ih => exact .free ih
  | logs _ ih => exact .logs ih
  | logged _ ih => exact .logged ih

/-- A program that frees nothing. -/
theorem Asks.alike {program : Prog σ α} (h : program.Asks fun request => ¬ request.Frees) :
    program.Alike program := by
  induction program with
  | done value => exact .done value
  | fault => exact .fault
  | stuck => exact .stuck
  | ask request next ih => exact .ask h.1 fun reply => ih reply (h.2 reply)

end Prog

/-! ## Alike systems -/

/-- The machine with other statuses reported of frees; what a free does stays. -/
def Machine.reporting (machine : Machine ι)
    (report : Services → UInt64 → Nat → Shared machine.State → Status) : Machine ι :=
  { machine with
    free := fun services address count shared =>
      (report services address count shared, (machine.free services address count shared).2) }

/-- An event without the status of a free.  Messages are left out. -/
def Event.plain? : Event ρ → Option (Event ρ)
  | .freed services address count _ => some (.freed services address count .success)
  | .logged _ => none
  | event => some event

section Runs

variable {machine : Machine ι} {report : Services → UInt64 → Nat → Shared machine.State → Status}

/-- Two systems that differ in messages and in the statuses of frees. -/
structure System.Alike (one : System machine σ ρ) (other : System (machine.reporting report) σ ρ) :
    Prop where
  shared : other.shared = one.shared
  level : other.level = one.level
  cell : other.cell = one.cell
  verbosity : other.verbosity = one.verbosity
  journal : other.journal.filterMap Event.plain? = one.journal.filterMap Event.plain?

/-- A system on the machine with other statuses. -/
def System.reporting (system : System machine σ ρ)
    (report : Services → UInt64 → Nat → Shared machine.State → Status) :
    System (machine.reporting report) σ ρ :=
  ⟨system.shared, system.level, system.cell, system.verbosity, system.journal⟩

theorem System.alike_reporting (system : System machine σ ρ)
    (report : Services → UInt64 → Nat → Shared machine.State → Status) :
    system.Alike (system.reporting report) :=
  ⟨rfl, rfl, rfl, rfl, rfl⟩

/-- Events that are plainly the same keep journals the same. -/
theorem filterMap_plain_cons {event recorded : Event ρ} (h : recorded.plain? = event.plain?)
    {journal other : List (Event ρ)}
    (hjournal : other.filterMap Event.plain? = journal.filterMap Event.plain?) :
    (recorded :: other).filterMap Event.plain? = (event :: journal).filterMap Event.plain? := by
  rw [List.filterMap_cons, List.filterMap_cons, h, hjournal]

/-- A request other than a free is answered alike. -/
theorem System.Alike.answer {one : System machine σ ρ}
    {other : System (machine.reporting report) σ ρ} (h : one.Alike other) {request : Request σ}
    (keeps : ¬ request.Frees) :
    (other.answer request).1 = (one.answer request).1
      ∧ (other.answer request).2.1 = (one.answer request).2.1
      ∧ (one.answer request).2.2.Alike (other.answer request).2.2 := by
  obtain ⟨shared, level, cell, verbosity, journal⟩ := one
  obtain ⟨shared', level', cell', verbosity', journal'⟩ := other
  obtain ⟨hshared, hlevel, hcell, hverbosity, hjournal⟩ := h
  dsimp only at hshared hlevel hcell hverbosity hjournal
  subst hshared hlevel hcell hverbosity
  have hnoted (event : Event ρ) := filterMap_plain_cons (Eq.refl event.plain?) hjournal
  cases request with
  | free => exact (keeps trivial).elim
  | store => exact ⟨rfl, rfl, rfl, rfl, rfl, rfl, hjournal⟩
  | patience => exact ⟨rfl, rfl, rfl, rfl, rfl, rfl, hjournal⟩
  | load => exact ⟨rfl, rfl, rfl, rfl, rfl, rfl, hjournal⟩
  | shows => exact ⟨rfl, rfl, rfl, rfl, rfl, rfl, hjournal⟩
  | _ => exact ⟨rfl, rfl, rfl, rfl, rfl, rfl, hnoted _⟩

/-- A free is answered alike but for its status. -/
theorem System.Alike.answer_free {one : System machine σ ρ}
    {other : System (machine.reporting report) σ ρ} (h : one.Alike other) (services : Services)
    (address : UInt64) (count : Nat) :
    (one.answer (.free services address count)).2.2.Alike
      (other.answer (.free services address count)).2.2 := by
  obtain ⟨shared, level, cell, verbosity, journal⟩ := one
  obtain ⟨shared', level', cell', verbosity', journal'⟩ := other
  obtain ⟨hshared, hlevel, hcell, hverbosity, hjournal⟩ := h
  dsimp only at hshared hlevel hcell hverbosity hjournal
  subst hshared hlevel hcell hverbosity
  exact ⟨rfl, rfl, rfl, rfl, filterMap_plain_cons rfl hjournal⟩

/-- A note that is plainly the same, if there is one at all. -/
theorem System.Alike.note {one : System machine σ ρ}
    {other : System (machine.reporting report) σ ρ} (h : one.Alike other) (event : Event ρ) :
    (one.note event).Alike (other.note event) := by
  obtain ⟨shared, level, cell, verbosity, journal⟩ := one
  obtain ⟨shared', level', cell', verbosity', journal'⟩ := other
  exact ⟨h.shared, h.level, h.cell, h.verbosity, filterMap_plain_cons rfl h.journal⟩

theorem System.Alike.log_left {one : System machine σ ρ}
    {other : System (machine.reporting report) σ ρ} (h : one.Alike other) (message : Message) :
    (one.note (.logged message)).Alike other := by
  obtain ⟨shared, level, cell, verbosity, journal⟩ := one
  exact ⟨h.shared, h.level, h.cell, h.verbosity, h.journal⟩

theorem System.Alike.log_right {one : System machine σ ρ}
    {other : System (machine.reporting report) σ ρ} (h : one.Alike other) (message : Message) :
    one.Alike (other.note (.logged message)) := by
  obtain ⟨shared, level, cell, verbosity, journal⟩ := other
  exact ⟨h.shared, h.level, h.cell, h.verbosity, h.journal⟩

namespace Prog

/-- Interruptions that end alike. -/
def ServeAlike (serve : ι → System machine σ ρ → Except Halt (System machine σ ρ))
    (serving : ι → System (machine.reporting report) σ ρ →
      Except Halt (System (machine.reporting report) σ ρ)) : Prop :=
  ∀ call one other, one.Alike other → ∀ after, serve call one = .ok after →
    ∃ last, serving call other = .ok last ∧ after.Alike last

/-- The step of `Alike.run`: if the interruptions end alike, so do the programs they interrupt. -/
theorem Alike.runWith {serve : ι → System machine σ ρ → Except Halt (System machine σ ρ)}
    {serving : ι → System (machine.reporting report) σ ρ →
      Except Halt (System (machine.reporting report) σ ρ)} (hserve : ServeAlike serve serving)
    {program rest : Prog σ α} (h : program.Alike rest) {one : System machine σ ρ}
    {other : System (machine.reporting report) σ ρ} (hsystem : one.Alike other) {value : α}
    {after : System machine σ ρ} (ran : program.runWith serve one = .ok (value, after)) :
    ∃ last, rest.runWith serving other = .ok (value, last) ∧ after.Alike last := by
  induction h generalizing one other with
  | done v =>
      cases ran
      exact ⟨other, rfl, hsystem⟩
  | fault => cases ran
  | stuck => cases ran
  | @ask request next following keeps _ ih =>
      obtain ⟨hreply, hinterruption, hafter⟩ := hsystem.answer keeps
      unfold Prog.runWith at ran ⊢
      rcases hanswer : one.answer request with ⟨reply, _ | call, asked⟩
      all_goals rcases hother : other.answer request with ⟨reply', interruption, asked'⟩
      all_goals rw [hanswer, hother] at hreply hinterruption hafter
      all_goals dsimp only at hreply hinterruption hafter
      all_goals subst hreply hinterruption
      · rw [hanswer] at ran
        exact ih _ hafter ran
      · rw [hanswer] at ran
        dsimp only at ran ⊢
        cases hserved : serve call asked with
        | error halt =>
            rw [hserved] at ran
            cases ran
        | ok served =>
            rw [hserved] at ran
            obtain ⟨last, hlast, halike⟩ := hserve call asked asked' hafter served hserved
            rw [hlast]
            exact ih _ halike ran
  | free _ ih => exact ih _ _ (hsystem.answer_free _ _ _) ran
  | @logs message next following _ ih => exact ih (hsystem.log_left message) ran
  | @logged message following next _ ih => exact ih (hsystem.log_right message) ran

theorem serveAt_alike {handler : ι → Prog σ ρ}
    (hhandler : ∀ call, (handler call).Alike (handler call)) (depth : Nat) :
    ServeAlike
      (serveAt handler depth : ι → System machine σ ρ → Except Halt (System machine σ ρ))
      (serveAt handler depth : ι → System (machine.reporting report) σ ρ →
        Except Halt (System (machine.reporting report) σ ρ)) := by
  induction depth with
  | zero =>
      intro call one other hsystem after hran
      cases hran
      exact ⟨other, rfl, hsystem⟩
  | succ depth ih =>
      intro call one other hsystem after hran
      simp only [serveAt] at hran ⊢
      split at hran
      · rename_i answer left hleft
        cases hran
        obtain ⟨last, hlast, halike⟩ :=
          (hhandler call).runWith ih (hsystem.note .entered) hleft
        rw [hlast]
        exact ⟨_, rfl, halike.note (.left answer)⟩
      · cases hran

/-- Alike programs end alike on machines that differ in what frees report. -/
theorem Alike.run {handler : ι → Prog σ ρ} (hhandler : ∀ call, (handler call).Alike (handler call))
    {depth : Nat} {program rest : Prog σ α} (h : program.Alike rest) {one : System machine σ ρ}
    {other : System (machine.reporting report) σ ρ} (hsystem : one.Alike other) {value : α}
    {after : System machine σ ρ} (ran : program.run handler depth one = .ok (value, after)) :
    ∃ last, rest.run handler depth other = .ok (value, last) ∧ after.Alike last :=
  h.runWith (serveAt_alike hhandler depth) hsystem ran

end Prog

end Runs

/-! ## The programs of the driver -/

/-- What follows a free does not depend on its status. -/
theorem Services.alike_free {next : Except HostError Unit → Prog σ α}
    (h : ∀ one other, (next one).Alike (next other)) (services : Services) (address : UInt64)
    (count : Nat) :
    ((services.free address count).run.bind next).Alike
      ((services.free address count).run.bind next) := by
  unfold free
  rw [Action.run_ofProg, Prog.bind_eq, Prog.bind_assoc]
  exact .free fun status reported => h _ _

theorem Prog.Alike.of_unpaged {program : Prog σ α} (h : program.Asks Request.Unpaged) :
    program.Alike program :=
  Asks.alike (h.mono fun _ => Request.Unpaged.not_frees)

/-- Remarks on a failure. -/
theorem alike_remarks (remark : HostError → Message) (one other : Except HostError Unit) :
    (match one with
      | .ok () => pure ()
      | .error error => Prog.log (remark error) : Prog σ Unit).Alike
    (match other with
      | .ok () => pure ()
      | .error error => Prog.log (remark error)) := by
  cases one with
  | ok value =>
      cases other with
      | ok value => exact .done ()
      | error error => exact .logged (.done ())
  | error error =>
      cases other with
      | ok value => exact .logs (.done ())
      | error error => exact .logs (.logged (.done ()))

theorem Pages.alike_release (pages : Pages) :
    (pages.release : Prog σ Unit).Alike pages.release :=
  Services.alike_free (alike_remarks _) _ _ _

theorem Pages.alike_allocate (services : Services) (count : Nat) (refused : HostError → Message) :
    ((Pages.allocate services count : Action σ Pages).onError refused).run.Alike
      ((Pages.allocate services count).onError refused).run := by
  have hasks : ((Pages.allocate services count : Action σ Pages).onError refused).Asks
      fun request => ¬ request.Frees := asks_allocate refused id fun _ => id
  exact Prog.Asks.alike hasks

theorem Pages.alike_borrow {services : Services} {count : Nat} {refused : HostError → Message}
    {work : Pages → Action σ α} (hwork : ∀ pages, (work pages).Asks Request.Unpaged) :
    (Pages.borrow services count refused work).run.Alike
      (Pages.borrow services count refused work).run := by
  unfold borrow
  rw [Action.run_bind]
  apply (Pages.alike_allocate services count refused).bind
  intro outcome
  cases outcome with
  | error error => exact .done _
  | ok pages =>
      apply (Prog.Alike.of_unpaged (hwork pages)).bind
      intro worked
      apply pages.alike_release.bind
      intro _
      exact .done worked

theorem Lock.alike_holding (lock : Lock) {body : σ → Prog σ (Except HostError α × σ)}
    (h : ∀ state, (body state).Alike (body state)) :
    (lock.holding body).Alike (lock.holding body) := by
  have hacquire : (lock.acquire? : Prog σ (Option (Guard σ))).Asks
      fun request => ¬ request.Frees :=
    lock.asks_acquire Request.not_frees_of_outer fun _ => id
  unfold holding
  apply hacquire.alike.bind
  intro guard
  cases guard with
  | none => exact .done _
  | some guard =>
      apply (h guard.state).bind
      intro outcome
      have hrelease := Guard.asks_release ⟨outcome.2, guard.previous⟩ Request.not_frees_of_outer
      apply hrelease.alike.bind
      intro _
      exact .done outcome.1

namespace Host

variable (host : Host)

theorem alike_runLatched (ring : Ring) (latch : Latch) (length : Nat) (buffer : DataBuffer) :
    (host.runLatched ring latch length buffer : Action σ (List UInt8)).run.Alike
      (host.runLatched ring latch length buffer).run := by
  have hform := host.runLatched_form (σ := σ) ring latch length buffer
  generalize (host.runLatched ring latch length buffer : Action σ _).run = phase at hform ⊢
  cases hform with
  | refused message error => exact .ask id fun _ => .done _
  | unsplit => exact .fault
  | moves =>
      exact Pages.alike_borrow fun pages =>
        asks_moveThrough host ring latch length buffer pages

theorem alike_runPhase (length : Nat) (buffer : DataBuffer) (state : HostState) :
    (host.runPhase length buffer state :
      Prog σ (Except HostError (List UInt8) × HostState)).Alike
        (host.runPhase length buffer state) := by
  unfold runPhase
  split
  · exact .ask id fun _ => .done _
  · apply (host.alike_runLatched _ _ length buffer).bind
    intro outcome
    exact .done _

theorem alike_perform (call : Call) : (host.perform call).Alike (host.perform call) := by
  by_cases hdump : call = .dump
  · subst hdump
    exact .of_unpaged (host.asks_perform_dump.mono fun _ => Request.OnRegisters.unpaged)
  · cases hphase : call.phase? with
    | some phase =>
        obtain ⟨length, buffer⟩ := phase
        rw [host.perform_phase hphase]
        apply (Lock.alike_holding host.lock (host.alike_runPhase length buffer)).bind
        intro outcome
        exact .done _
    | none =>
        have hform := host.perform_form hdump
        generalize host.perform call = program at hform
        cases hform with
        | unlocked answer remarks h =>
            have hremarks : (Prog.logAll remarks : Prog HostState Unit).Asks Request.Unpaged :=
              asks_logAll remarks fun _ => trivial
            apply (Prog.Alike.of_unpaged hremarks).bind
            intro _
            exact .done answer
        | locked body finish h refuses settles =>
            apply Prog.Alike.bind (Lock.alike_holding host.lock ?_) fun outcome => .done _
            intro state
            apply Prog.Alike.of_unpaged
            apply Prog.Obeys.mono (settles state) _ fun _ _ => trivial
            intro request hpermits
            exact (Permits.of_not_phase hpermits hphase).unpaged

theorem alike_performAll (calls : List Call) :
    (host.performAll calls).Alike (host.performAll calls) := by
  induction calls with
  | nil => exact .done []
  | cons call rest ih =>
      unfold performAll
      apply (host.alike_perform call).bind
      intro answer
      exact ih.bind fun answers => .done _

theorem alike_retire (state : HostState) :
    (host.retire state : Prog σ Unit).Alike (host.retire state) := by
  unfold retire Ring.free
  split
  · exact .done ()
  · exact Services.alike_free (alike_remarks _) _ _ _

end Host

/-! ## Loading and unloading -/

theorem Slot.alike_retire (former : Option (Host × HostState)) :
    (Slot.retire former).Alike (Slot.retire former) := by
  cases former with
  | none => exact .done ()
  | some made => exact made.1.alike_retire made.2

theorem Slot.alike_detach (slot : Slot) : slot.detach.Alike slot.detach := by
  unfold detach
  split
  · exact .done none
  · exact .ask id fun _ => .done _

theorem Ring.alike_allocate (services : Services) (count : Nat) :
    (Ring.allocate services count : Action σ Ring).run.Alike
      (Ring.allocate services count).run := by
  have memory {program : Prog σ Unit} (h : program.Asks Request.OnMemory) : program.Alike program :=
    .of_unpaged (h.mono fun _ => Request.OnMemory.unpaged)
  unfold allocate
  split
  · exact .done _
  · split
    · exact .fault
    · rw [Action.run_bind]
      apply (Pages.alike_allocate services _ _).bind
      intro outcome
      cases outcome with
      | error error => exact .done _
      | ok pages =>
          dsimp only
          rw [Action.run_lift_bind]
          apply (memory (asks_reset _)).bind
          intro _
          rw [Action.run_lift_bind]
          apply (memory (asks_log _ trivial)).bind
          intro _
          exact .done _

theorem Host.alike_load (config : HostConfig) (services : Services) :
    (Host.load config services : Action σ (Host × HostState)).run.Alike
      (Host.load config services).run := by
  have hmake : (Host.make config services : Action σ (Host × HostState)).run.Alike
      (Host.make config services).run := by
    unfold make
    split
    · exact .ask id fun _ => .done _
    · rw [Action.run_bind]
      apply (Ring.alike_allocate services _).bind
      intro outcome
      cases outcome with
      | error error => exact .done _
      | ok ring => exact .done _
  unfold load
  rw [Action.run_bind, Action.run_onError]
  apply Prog.Alike.bind
  · apply hmake.bind
    intro outcome
    cases outcome with
    | ok made => exact .done _
    | error error => exact .ask id fun _ => .done _
  · intro outcome
    cases outcome with
    | ok made => exact .ask id fun _ => .done _
    | error error => exact .done _

theorem Slot.alike_load (slot : Slot) (config : HostConfig) (services : Services) :
    (slot.load config services).Alike (slot.load config services) := by
  unfold load
  apply (Host.alike_load config services).bind
  intro outcome
  cases outcome with
  | error error => exact .done _
  | ok made =>
      apply slot.alike_detach.bind
      intro former
      apply Prog.Alike.ask id
      intro _
      apply (Slot.alike_retire former).bind
      intro _
      exact .done _

theorem Slot.alike_unload (slot : Slot) : slot.unload.Alike slot.unload := by
  unfold unload
  split
  · exact .done slot
  · apply Prog.Alike.ask id
    intro _
    apply slot.alike_detach.bind
    intro former
    apply (Slot.alike_retire former).bind
    intro _
    exact .done _

theorem Bench.Source.alike_load (source : Bench.Source) (slot : Slot) (config : HostConfig) :
    (source.load slot config).Alike (source.load slot config) := by
  cases source with
  | supplied => exact slot.alike_load config .supplied
  | firmware => exact slot.alike_load config .firmware
  | missing => exact .ask id fun _ => .done _

theorem Slot.alike_perform (slot : Slot) (call : Call) :
    (slot.perform call).Alike (slot.perform call) := by
  unfold perform
  split
  · exact .done _
  · exact Host.alike_perform _ call

end CardHost
