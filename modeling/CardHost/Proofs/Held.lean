import CardHost.Lock.Bracket
import CardHost.Proofs.Operations

/-!
# Operations at a held lock

While an operation runs, the guarded state is out of its cell, so every operation that a register
write is interrupted by finds the lock held.  `run_perform_of_held` computes such a run outright:
the answer and the events depend on the call and the priority alone, and nothing but the journal
changes.
A dump is the one operation that still reaches the controller, and it too leaves the cell alone
(`performAll_keeps_held`).
-/

namespace CardHost

namespace System

variable {machine : Machine ι}

/-- The system with more events, the latest first. -/
def extend (system : System machine σ ρ) (events : List (Event ρ)) : System machine σ ρ :=
  { system with journal := events ++ system.journal }

@[simp]
theorem extend_extend (system : System machine σ ρ) (events later : List (Event ρ)) :
    (system.extend events).extend later = system.extend (later ++ events) := by
  simp only [extend, List.append_assoc]

@[simp]
theorem extend_level (system : System machine σ ρ) (events : List (Event ρ)) :
    (system.extend events).level = system.level := rfl

theorem note_eq_extend (system : System machine σ ρ) (event : Event ρ) :
    system.note event = system.extend [event] := rfl

end System

/-- The events of logging messages in order. -/
def loggedEvents (messages : List Message) : List (Event ρ) :=
  (messages.map .logged).reverse

/-- Logging leaves its messages in the journal and changes nothing else. -/
theorem run_logAll {machine : Machine ι} (handler : ι → Prog σ ρ) (depth : Nat)
    (messages : List Message) (system : System machine σ ρ) :
    (Prog.logAll messages).run handler depth system =
      .ok ((), system.extend (loggedEvents messages)) := by
  induction messages generalizing system with
  | nil => rfl
  | cons message rest ih =>
      have hlog : (Prog.log message).run handler depth system =
          .ok ((), system.extend [.logged message]) := rfl
      unfold Prog.logAll
      rw [Prog.run_bind, hlog]
      dsimp only
      rw [ih, System.extend_extend]
      simp only [loggedEvents, List.map_cons, List.reverse_cons]

namespace Host

variable (host : Host)

/-! ## One operation -/

/-- What an operation answers while the lock is held. -/
def heldAnswer (call : Call) : Answer :=
  match host.unlocked? call with
  | some fixed => fixed.1
  | none => call.denied

/-- The events of an operation while the lock is held, the latest first: its remarks, or the
priority raised, the lock found held, and the priority put back to where it was. -/
def heldEvents (level : UInt64) (call : Call) : List (Event ρ) :=
  match host.unlocked? call with
  | some fixed => loggedEvents fixed.2
  | none =>
    [.restored level, .logged (.lockRefused host.lock.name), .taken false, .raised host.lock.level]

/-- An operation that does not take the lock answers the same wherever it runs. -/
theorem run_perform_of_unlocked {machine : Machine ι} (handler : ι → Prog HostState ρ)
    (depth : Nat) {call : Call} (hdump : call ≠ .dump) {answer : Answer} {remarks : List Message}
    (h : host.unlocked? call = some (answer, remarks)) (system : System machine HostState ρ) :
    (host.perform call).run handler depth system =
      .ok (answer, system.extend (loggedEvents remarks)) := by
  have hform := host.perform_form hdump
  generalize host.perform call = program at hform
  cases hform with
  | unlocked answer' remarks' h' =>
      rw [h] at h'
      cases h'
      rw [Prog.run_bind, run_logAll]
      rfl
  | locked body finish h' =>
      rw [h] at h'
      cases h'

/-- At a held lock an operation answers `heldAnswer` and leaves `heldEvents`, whatever the platform
does. -/
theorem run_perform_of_held {machine : Machine ι} (handler : ι → Prog HostState ρ) (depth : Nat)
    {call : Call} (hdump : call ≠ .dump) {system : System machine HostState ρ}
    (held : system.cell = none) :
    (host.perform call).run handler depth system =
      .ok (host.heldAnswer call, system.extend (host.heldEvents system.level call)) := by
  have hform := host.perform_form hdump
  generalize host.perform call = program at hform
  unfold heldAnswer heldEvents
  cases hform with
  | unlocked answer remarks h =>
      rw [h, Prog.run_bind, run_logAll]
      rfl
  | locked body finish h refuses =>
      rw [h, Prog.run_bind, Lock.run_holding_of_held handler depth host.lock body system held,
        ← refuses]
      rfl

/-! ## Several operations -/

/-- The events of several operations while the lock is held, the latest first. -/
def heldTrace (level : UInt64) : List Call → List (Event ρ)
  | [] => []
  | call :: calls => heldTrace level calls ++ host.heldEvents level call

theorem run_performAll_of_held {machine : Machine ι} (handler : ι → Prog HostState ρ)
    (depth : Nat) {calls : List Call} (hdump : ∀ call ∈ calls, call ≠ .dump)
    {system : System machine HostState ρ} (held : system.cell = none) :
    (host.performAll calls).run handler depth system =
      .ok (calls.map host.heldAnswer, system.extend (host.heldTrace system.level calls)) := by
  induction calls generalizing system with
  | nil => rfl
  | cons call calls ih =>
      have hfirst : call ≠ .dump := hdump call List.mem_cons_self
      have hrest : ∀ later ∈ calls, later ≠ .dump := fun later hmem =>
        hdump later (List.mem_cons_of_mem _ hmem)
      have hheld : (system.extend (host.heldEvents system.level call)).cell = none := held
      unfold performAll
      rw [Prog.run_bind, run_perform_of_held host handler depth hfirst held]
      dsimp only
      rw [Prog.run_bind, ih hrest hheld, System.extend_extend, System.extend_level]
      rfl

end Host

/-! ## What leaves the cell alone -/

/-- A request that leaves the guarded state and the priority alone and cannot be interrupted. -/
def Request.Silent : Request σ → Prop
  | .write .. => False
  | request => request.Inner

theorem Request.OnRegisters.silent {window : Window} {request : Request σ}
    (h : request.OnRegisters window fun _ _ => False) : request.Silent := by
  cases request with
  | write w offset value =>
      obtain ⟨-, register, -, hwrites⟩ := h
      exact hwrites
  | _ => trivial

theorem Request.OnMemory.silent {request : Request σ} (h : request.OnMemory) :
    request.Silent := by
  cases request with
  | load => trivial
  | store => trivial
  | log => trivial
  | _ => exact h.elim

section Keeps

variable {machine : Machine ι}

/-- A program that is never interrupted leaves the guarded state and the priority alone. -/
theorem Prog.Obeys.run_silent {handler : ι → Prog σ ρ} {depth : Nat} {post : α → Prop}
    {program : Prog σ α} (h : program.Obeys Request.Silent post)
    {system after : System machine σ ρ} {value : α}
    (ran : program.run handler depth system = .ok (value, after)) :
    post value ∧ after.cell = system.cell ∧ after.level = system.level := by
  refine h.runWith_inv (fun later => later.cell = system.cell ∧ later.level = system.level) ?_
    ⟨rfl, rfl⟩ ran
  intro request later hsilent hlater
  have hinner : request.Inner := by
    cases request with
    | write => exact hsilent.elim
    | _ => exact hsilent
  have hwrite : ∀ window offset value, request ≠ .write window offset value := by
    intro window offset value heq
    subst heq
    exact hsilent
  have hsame := answer_inner hinner later
  have hnone := answer_not_interrupted hwrite later
  rcases hanswer : (later.answer request).2 with ⟨_ | call, next⟩
  · rw [hanswer] at hsame
    exact ⟨hsame.1.trans hlater.1, hsame.2.trans hlater.2⟩
  · rw [hanswer] at hnone
    cases hnone

/-- Serving an interruption leaves an empty cell empty. -/
def KeepsHeld (machine : Machine ι) (handler : ι → Prog σ ρ) (depth : Nat) : Prop :=
  ∀ call (system after : System machine σ ρ), system.cell = none →
    Prog.serveAt handler depth call system = .ok after → after.cell = none

/-- A program that leaves the guarded state to the lock leaves an empty cell empty. -/
theorem Prog.Obeys.run_held {handler : ι → Prog σ ρ} {depth : Nat}
    (hserve : KeepsHeld machine handler depth) {post : α → Prop}
    {program : Prog σ α} (h : program.Obeys Request.Inner post) {system after : System machine σ ρ}
    {value : α} (held : system.cell = none)
    (ran : program.run handler depth system = .ok (value, after)) :
    post value ∧ after.cell = none := by
  refine h.runWith_inv (fun system => system.cell = none) ?_ held ran
  intro request system hinner held
  have hcell := (answer_inner hinner system).1
  rcases hanswer : (system.answer request).2 with ⟨_ | call, next⟩
  · rw [hanswer] at hcell
    exact hcell.trans held
  · rw [hanswer] at hcell
    intro served hserved
    exact hserve call next served (hcell.trans held) hserved

namespace Host

variable (host : Host)

/-- A dump reads and logs, so it needs no lock. -/
theorem asks_perform_dump : (host.perform .dump).Asks
    (Request.OnRegisters host.window fun _ _ => False) :=
  Window.asks_dump.bind fun _ => trivial

theorem perform_keeps_held {handler : ι → Prog HostState ρ} {depth : Nat}
    (hserve : KeepsHeld machine handler depth) {call : Call}
    {system after : System machine HostState ρ} {answer : Answer} (held : system.cell = none)
    (ran : (host.perform call).run handler depth system = .ok (answer, after)) :
    after.cell = none := by
  by_cases hdump : call = .dump
  · subst hdump
    have hinner := host.asks_perform_dump.mono fun _ => Request.OnRegisters.inner
    exact (Prog.Obeys.run_held hserve hinner held ran).2
  · rw [run_perform_of_held host handler depth hdump held] at ran
    cases ran
    exact held

theorem performAll_keeps_held {handler : ι → Prog HostState ρ} {depth : Nat}
    (hserve : KeepsHeld machine handler depth) {calls : List Call}
    {system after : System machine HostState ρ} {answers : List Answer} (held : system.cell = none)
    (ran : (host.performAll calls).run handler depth system = .ok (answers, after)) :
    after.cell = none := by
  induction calls generalizing system answers with
  | nil =>
      cases ran
      exact held
  | cons call calls ih =>
      obtain ⟨answer, middle, hfirst, hrest⟩ := Prog.run_bind_ok ran
      obtain ⟨later, last, hlater, hdone⟩ := Prog.run_bind_ok hrest
      have hmiddle : middle.cell = none := perform_keeps_held host hserve held hfirst
      cases hdone
      exact ih hmiddle hlater

/-- Operations of the host that interrupt it never touch the guarded state, at any depth. -/
theorem serveAt_keeps_held (calls : ι → List Call) (depth : Nat) :
    KeepsHeld machine (fun i => host.performAll (calls i)) depth := by
  induction depth with
  | zero =>
      intro call system after held hserved
      cases hserved
      exact held
  | succ depth ih =>
      intro call system after held hserved
      rw [Prog.serveAt] at hserved
      split at hserved
      · rename_i answers last hran
        cases hserved
        have hheld : (system.note .entered).cell = none := held
        have hlast : last.cell = none := performAll_keeps_held host ih hheld hran
        exact hlast
      · cases hserved

end Host

end Keeps

end CardHost
