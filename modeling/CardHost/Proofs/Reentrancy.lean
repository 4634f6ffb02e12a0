import CardHost.Proofs.Loading

/-!
# Re-entrant operations do not interfere

A register write may be interrupted by operations of the same host.  Such a run is compared with the
run in which nothing interrupts: `Agrees` says that two systems differ at most in interludes of the
first journal, each right after a register write, and `run_agrees` is the simulation of one program
by itself, carried by the invariant that the cell is empty and the priority is that of the lock.
What an interlude holds is computed in advance (`Host.interlude`), so there is nothing about the
interrupting operations left to compare.
-/

namespace CardHost

/-! ## Journals with interludes -/

/-- The first journal is the second with interludes, each right after a register write. -/
inductive Punctuated (interlude : ι → List (Event ρ)) : List (Event ρ) → List (Event ρ) → Prop
  | refl (journal : List (Event ρ)) : Punctuated interlude journal journal
  | event (event : Event ρ) (h : Punctuated interlude full plain) :
      Punctuated interlude (event :: full) (event :: plain)
  | interrupted (window : Window) (offset : Nat) (value : UInt32) (i : ι)
      (h : Punctuated interlude full plain) :
      Punctuated interlude (interlude i ++ .wrote window offset value :: full)
        (.wrote window offset value :: plain)

section Agreement

variable {machine : Machine ι} {interlude : ι → List (Event ρ)}

/-- Two systems that differ at most in interludes of the first. -/
structure Agrees (interlude : ι → List (Event ρ)) (full plain : System machine σ ρ) : Prop where
  shared : full.shared = plain.shared
  level : full.level = plain.level
  cell : full.cell = plain.cell
  verbosity : full.verbosity = plain.verbosity
  journal : Punctuated interlude full.journal plain.journal

theorem Agrees.refl (system : System machine σ ρ) : Agrees interlude system system :=
  ⟨rfl, rfl, rfl, rfl, .refl _⟩

/-- Two ends of runs that differ at most in interludes: the same value, or the same halt. -/
def EndsAgree (interlude : ι → List (Event ρ)) :
    Except Halt (α × System machine σ ρ) → Except Halt (α × System machine σ ρ) → Prop
  | .ok full, .ok plain => full.1 = plain.1 ∧ Agrees interlude full.2 plain.2
  | .error full, .error plain => full = plain
  | _, _ => False

theorem EndsAgree.refl (ran : Except Halt (α × System machine σ ρ)) :
    EndsAgree interlude ran ran := by
  cases ran with
  | ok result => exact ⟨rfl, .refl _⟩
  | error halt => rfl

/-- Systems that agree answer alike. -/
theorem Agrees.answer {full plain : System machine σ ρ} (h : Agrees interlude full plain)
    (request : Request σ) :
    (full.answer request).1 = (plain.answer request).1
      ∧ (full.answer request).2.1 = (plain.answer request).2.1
      ∧ Agrees interlude (full.answer request).2.2 (plain.answer request).2.2 := by
  obtain ⟨shared, level, cell, verbosity, journal⟩ := full
  obtain ⟨shared', level', cell', verbosity', journal'⟩ := plain
  obtain ⟨hshared, hlevel, hcell, hverbosity, hjournal⟩ := h
  cases hshared
  cases hlevel
  cases hcell
  cases hverbosity
  cases request with
  | patience => exact ⟨rfl, rfl, rfl, rfl, rfl, rfl, hjournal⟩
  | load => exact ⟨rfl, rfl, rfl, rfl, rfl, rfl, hjournal⟩
  | store => exact ⟨rfl, rfl, rfl, rfl, rfl, rfl, hjournal⟩
  | shows => exact ⟨rfl, rfl, rfl, rfl, rfl, rfl, hjournal⟩
  | _ => exact ⟨rfl, rfl, rfl, rfl, rfl, rfl, .event _ hjournal⟩

/-- A program without register writes runs the same whatever interruptions would do. -/
theorem Prog.Obeys.run_eq {handler : ι → Prog σ ρ} {post : α → Prop} {program : Prog σ α}
    (h : program.Obeys Request.Silent post) (depth : Nat) (system : System machine σ ρ) :
    program.run handler depth system = program.run handler 0 system := by
  unfold run
  induction program generalizing system with
  | done value => rfl
  | fault => rfl
  | stuck => rfl
  | ask request next ih =>
      have hwrite : ∀ window offset value, request ≠ .write window offset value := by
        intro window offset value heq
        subst heq
        exact h.1
      have hnone := answer_not_interrupted hwrite system
      simp only [runWith]
      rcases hanswer : system.answer request with ⟨reply, interruption, after⟩
      rw [hanswer] at hnone
      cases hnone
      exact ih reply (h.2 reply) after

/-- Only a register write is interrupted, so the last event then is that write. -/
theorem answer_interrupted {request : Request σ} {system : System machine σ ρ} {i : ι}
    (h : (system.answer request).2.1 = some i) :
    ∃ window offset value, ∀ other : System machine σ ρ,
      (other.answer request).2.2.journal = .wrote window offset value :: other.journal := by
  cases request with
  | write window offset value => exact ⟨window, offset, value, fun _ => rfl⟩
  | _ => cases h

end Agreement

/-! ## Interludes -/

namespace Host

variable (host : Host) {machine : Machine ι}

/-- What an interruption by some operations leaves in the journal, the latest first. -/
def interlude (calls : List Call) : List (Event (List Answer)) :=
  .left (calls.map host.heldAnswer) :: (host.heldTrace host.lock.level calls ++ [.entered])

/-- At a held lock, serving an interruption leaves an interlude and nothing else. -/
theorem serveAt_of_held {calls : ι → List Call} (hdump : ∀ i, ∀ call ∈ calls i, call ≠ .dump)
    (depth : Nat) (i : ι) {system : System machine HostState (List Answer)}
    (held : system.cell = none) (level : system.level = host.lock.level) :
    Prog.serveAt (fun i => host.performAll (calls i)) (depth + 1) i system =
      .ok (system.extend (host.interlude (calls i))) := by
  have hnote : (system.note .entered).cell = none := held
  have hrun := run_performAll_of_held host (fun i => host.performAll (calls i)) depth (hdump i)
    hnote
  rw [show (system.note .entered).level = host.lock.level from level] at hrun
  rw [Prog.serveAt, show (host.performAll (calls i)).runWith
      (Prog.serveAt (fun i => host.performAll (calls i)) depth) (system.note .entered) = _
    from hrun]
  simp only [System.note_eq_extend, System.extend_extend, interlude, List.cons_append,
    List.nil_append]

/-- Under the lock a program runs the same with interruptions as without. -/
theorem run_agrees {calls : ι → List Call} (hdump : ∀ i, ∀ call ∈ calls i, call ≠ .dump)
    (depth : Nat) {post : α → Prop} {program : Prog HostState α}
    (h : program.Obeys Request.Inner post)
    {full plain : System machine HostState (List Answer)}
    (agrees : Agrees (fun i => host.interlude (calls i)) full plain) (held : full.cell = none)
    (level : full.level = host.lock.level) :
    EndsAgree (fun i => host.interlude (calls i))
      (program.run (fun i => host.performAll (calls i)) depth full)
      (program.run (fun i => host.performAll (calls i)) 0 plain) := by
  induction program generalizing full plain with
  | done value => exact ⟨rfl, agrees⟩
  | fault => rfl
  | stuck => rfl
  | ask request next ih =>
      have hsame := answer_inner h.1 full
      obtain ⟨hreply, hinterruption, hafter⟩ := agrees.answer request
      have hheld := hsame.1.trans held
      have hlevel := hsame.2.trans level
      unfold Prog.run at ih ⊢
      simp only [Prog.runWith]
      rcases hfull : full.answer request with ⟨reply, interruption, after⟩
      rcases hplain : plain.answer request with ⟨reply', interruption', after'⟩
      rw [hfull] at hreply hinterruption hafter hheld hlevel
      rw [hplain] at hreply hinterruption hafter
      cases hreply
      cases hinterruption
      cases interruption with
      | none => exact ih reply (h.2 reply) hafter hheld hlevel
      | some i =>
          -- Without interruptions the call is skipped; else its interlude follows the write.
          cases depth with
          | zero => exact ih reply (h.2 reply) hafter hheld hlevel
          | succ depth =>
              have hserved := serveAt_of_held host hdump depth i hheld hlevel
              have hsome : (full.answer request).2.1 = some i := by rw [hfull]
              obtain ⟨window, offset, value, hwrote⟩ := answer_interrupted hsome
              have hjournal := hwrote full
              have hjournal' := hwrote plain
              rw [hfull] at hjournal
              rw [hplain] at hjournal'
              dsimp only at hserved hjournal hjournal' ⊢
              rw [hserved]
              refine ih reply (h.2 reply) ⟨hafter.1, hafter.2, hafter.3, hafter.4, ?_⟩ hheld hlevel
              rw [hjournal', System.extend, hjournal]
              exact .interrupted window offset value i agrees.journal

/-- A whole operation ends the same with interruptions as without. -/
theorem perform_agrees {calls : ι → List Call} (hdump : ∀ i, ∀ call ∈ calls i, call ≠ .dump)
    (call : Call) (depth : Nat) (system : System machine HostState (List Answer)) :
    EndsAgree (fun i => host.interlude (calls i))
      ((host.perform call).run (fun i => host.performAll (calls i)) depth system)
      ((host.perform call).run (fun i => host.performAll (calls i)) 0 system) := by
  by_cases houter : call = .dump
  · subst houter
    have hsilent := host.asks_perform_dump.mono fun _ => Request.OnRegisters.silent
    rw [hsilent.run_eq depth system]
    exact .refl _
  · have hform := host.perform_form houter
    generalize hprogram : host.perform call = program at hform
    cases hform with
    | unlocked answer remarks h =>
        rw [← hprogram, run_perform_of_unlocked host _ depth houter h,
          run_perform_of_unlocked host _ 0 houter h]
        exact .refl _
    | locked body finish h refuses settles =>
        rw [Prog.run_bind, Prog.run_bind]
        cases hcell : system.cell with
        | none =>
            rw [Lock.run_holding_of_held _ depth host.lock body system hcell,
              Lock.run_holding_of_held _ 0 host.lock body system hcell]
            exact ⟨rfl, .refl _⟩
        | some state =>
            rw [Lock.run_holding_of_free _ depth host.lock body system state hcell,
              Lock.run_holding_of_free _ 0 host.lock body system state hcell]
            have hinner := (settles state).mono (fun _ => Permits.inner) fun _ => id
            have hbody := run_agrees host hdump depth hinner (.refl
              { system with
                level := host.lock.level
                cell := none
                journal := .taken true :: .raised host.lock.level :: system.journal }) rfl rfl
            revert hbody
            generalize (body state).run (fun i => host.performAll (calls i)) depth _ = full
            generalize (body state).run (fun i => host.performAll (calls i)) 0 _ = plain
            intro hbody
            obtain error | ⟨⟨outcome, left⟩, after⟩ := full
            · obtain error' | plain := plain
              · exact hbody
              · exact hbody.elim
            · obtain error' | ⟨⟨outcome', left'⟩, after'⟩ := plain
              · exact hbody.elim
              · obtain ⟨hvalue, hafter⟩ := hbody
                cases hvalue
                exact ⟨rfl, hafter.shared, rfl, rfl, hafter.verbosity,
                  .event _ (.event _ hafter.journal)⟩

end Host

/-! ## Non-interference -/

/-- An event that touches neither registers nor pages nor the guarded state. -/
def Event.IsIdle : Event ρ → Prop
  | .raised _ => True
  | .restored _ => True
  | .taken free => free = false
  | .logged _ => True
  | _ => False

/-- The caller's buffer comes back as it was given. -/
def Call.LeavesBuffer : Call → Answer → Prop
  | .readData _ buffer, answer => ∃ outcome, answer = .data outcome buffer
  | .receiveResponse _ buffer, answer => ∃ outcome, answer = .response outcome buffer
  | _, _ => True

/-- What an operation does where it interrupts another one: an operation that tries to take the lock
is denied access, any other answers what it answers everywhere, and neither does more than change
the priority for a while and log.  Buffers stay as they are. -/
structure Host.Harmless (host : Host) (machine : Machine ι) (call : Call) : Prop where
  held (handler : ι → Prog HostState (List Answer)) (depth : Nat)
    (system : System machine HostState (List Answer)) (held : system.cell = none) :
    (host.perform call).run handler depth system =
      .ok (host.heldAnswer call, system.extend (host.heldEvents system.level call))
  idle (level : UInt64) :
    ∀ event ∈ (host.heldEvents level call : List (Event (List Answer))), event.IsIdle
  buffer : call.LeavesBuffer (host.heldAnswer call)
  denied (locks : host.unlocked? call = none) : host.heldAnswer call = call.denied
  unlocked (answer : Answer) (remarks : List Message)
    (fixed : host.unlocked? call = some (answer, remarks)) :
    host.heldAnswer call = answer ∧
      ∀ (handler : ι → Prog HostState (List Answer)) (depth : Nat)
        (system : System machine HostState (List Answer)),
        (host.perform call).run handler depth system =
          .ok (answer, system.extend (loggedEvents remarks))

namespace Host

variable (host : Host) {machine : Machine ι}

theorem mem_loggedEvents {messages : List Message} {event : Event ρ}
    (h : event ∈ (loggedEvents messages : List (Event ρ))) : event.IsIdle := by
  rw [loggedEvents, List.mem_reverse, List.mem_map] at h
  obtain ⟨message, -, rfl⟩ := h
  trivial

theorem harmless {call : Call} (hdump : call ≠ .dump) : host.Harmless machine call where
  held handler depth system held := run_perform_of_held host handler depth hdump held
  idle level event hmem := by
    unfold heldEvents at hmem
    split at hmem
    · exact mem_loggedEvents hmem
    · simp only [List.mem_cons, List.not_mem_nil, or_false] at hmem
      obtain rfl | rfl | rfl | rfl := hmem
      · trivial
      · trivial
      · rfl
      · trivial
  buffer := by
    cases call with
    | readData length buffer => exact ⟨_, rfl⟩
    | receiveResponse type buffer =>
        show ∃ outcome, heldAnswer host (.receiveResponse type buffer) = .response outcome buffer
        unfold heldAnswer unlocked?
        by_cases hshort : buffer.length < type.wordCount
        · exact ⟨.error .invalidArgument, by simp only [if_pos hshort]⟩
        · exact ⟨.error (.firmware .accessDenied), by simp only [if_neg hshort]; rfl⟩
    | _ => trivial
  denied locks := by
    rw [heldAnswer, locks]
  unlocked answer remarks fixed := by
    constructor
    · rw [heldAnswer, fixed]
    · intro handler depth system
      exact run_perform_of_unlocked host handler depth hdump fixed system

/-- Whatever operations but dumps interrupt the register writes of an operation, on whatever
platform: its answer, its accesses and the state it ends in are those of the run in which nothing
interrupts, and the interrupting operations are harmless. -/
theorem interruptions_do_not_interfere {calls : ι → List Call}
    (hdump : ∀ i, ∀ call ∈ calls i, call ≠ .dump) (call : Call) (depth : Nat)
    (system : System machine HostState (List Answer)) :
    EndsAgree (fun i => host.interlude (calls i))
        ((host.perform call).run (fun i => host.performAll (calls i)) depth system)
        ((host.perform call).run (fun i => host.performAll (calls i)) 0 system)
      ∧ ∀ i, ∀ inner ∈ calls i, host.Harmless machine inner :=
  ⟨perform_agrees host hdump call depth system,
    fun i inner hmem => harmless host (hdump i inner hmem)⟩

/-- The bench with a query of the latch and a clock change waiting on the card type register. -/
def armedBench : System Bench.machine HostState (List Answer) :=
  { smallBench with
    shared := ⟨{ Bench.Device.initial 0x1F0000000 16 0 with
      armed := [(Register.cardType.offset, .pending)] }, .blank⟩
    cell := some ⟨⟨0x1F0000000, 1, 1⟩, none⟩ }

/-- A bus width is set with two calls from within, and the one interlude is all that differs. -/
theorem setBus_interrupted :
    (∀ _ : Call, ∀ call ∈ [Call.pending, .setClock 0], call ≠ .dump)
      ∧ EndsAgree (fun _ : Call => smallHost.interlude [.pending, .setClock 0])
          ((smallHost.perform (.setBus 0 1 .backward)).run
            (fun _ => smallHost.performAll [.pending, .setClock 0]) 1 armedBench)
          ((smallHost.perform (.setBus 0 1 .backward)).run
            (fun _ => smallHost.performAll [.pending, .setClock 0]) 0 armedBench) := by
  have hdump : ∀ _ : Call, ∀ call ∈ [Call.pending, .setClock 0], call ≠ .dump := by
    intro _ call hmem heq
    subst heq
    simp at hmem
  exact ⟨hdump, (interruptions_do_not_interfere smallHost hdump _ 1 armedBench).1⟩

end Host

end CardHost
