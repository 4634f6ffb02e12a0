import CardHost.Proofs.Loading

/-!
# The latch over a history of operations

A data command waits in the latch for its data phase.  Which one waits is decided by the history
alone: of the operations that got the lock, the last data command or data phase decides, and nothing
the platform answered along the way matters.

The step lemma is `perform_settles`, for one operation on a full cell; `Host.After` collects steps
into histories, in which an operation may also find the lock held elsewhere, and
`After.latch_eq` is the run lemma.
-/

namespace CardHost

/-! ## One operation -/

/-- An operation that does not take the lock leaves the shared state as it is. -/
theorem Call.settle_of_unlocked {host : Host} {call : Call} {fixed : Answer × List Message}
    (h : host.unlocked? call = some fixed) (state : HostState) : call.settle state = state := by
  cases call with
  | sendCommand => cases h
  | readData => cases h
  | writeData => cases h
  | _ => rfl

namespace Host

variable (host : Host) {machine : Machine ι}

/-- An operation that finds the lock free settles the shared state, whatever the platform answers
and whatever operations interrupt it. -/
theorem perform_settles (calls : ι → List Call) {depth : Nat} {call : Call}
    {system after : System machine HostState (List Answer)} {state : HostState} {answer : Answer}
    (free : system.cell = some state)
    (ran : (host.perform call).run (fun i => host.performAll (calls i)) depth system =
      .ok (answer, after)) : after.cell = some (call.settle state) := by
  by_cases hdump : call = .dump
  · subst hdump
    have hsilent := host.asks_perform_dump.mono fun _ => Request.OnRegisters.silent
    exact (hsilent.run_silent ran).2.1.trans free
  · have hform := host.perform_form hdump
    generalize hprogram : host.perform call = program at hform ran
    cases hform with
    | unlocked answer' remarks h =>
        rw [← hprogram, run_perform_of_unlocked host _ depth hdump h] at ran
        cases ran
        rw [Call.settle_of_unlocked h]
        exact free
    | locked body finish h refuses settles =>
        obtain ⟨outcome, middle, hheld, hdone⟩ := Prog.run_bind_ok ran
        cases hdone
        obtain ⟨left, last, hbody, rfl⟩ := Lock.returned_of_run free hheld
        have hinner := (settles state).mono (fun _ => Permits.inner) fun _ => id
        have hleft : left = call.settle state :=
          (hinner.run_held (host.serveAt_keeps_held calls depth) rfl hbody).1
        rw [hleft]

end Host

/-! ## Histories -/

/-- An operation, and whether it found the lock free. -/
structure Attempt where
  call : Call
  admitted : Bool

/-- What an operation leaves in the latch if it decides about it. -/
def Call.latches? : Call → Option Latch
  | .sendCommand index argument => some ⟨.ofCommand index argument, argument⟩
  | _ => none

/-- Whether an attempt decides about the latch: it got the lock, and is a data command or a data
phase. -/
def Attempt.decides (attempt : Attempt) : Bool :=
  attempt.admitted &&
    match attempt.call with
    | .sendCommand index argument => (CommandWord.ofCommand index argument).isData
    | .readData .. => true
    | .writeData .. => true
    | _ => false

/-- The data command that waits after a history, from nothing latched: that of the last attempt
which decides. -/
def latchAfter (history : List Attempt) : Option Latch :=
  (history.filter Attempt.decides).getLast?.bind fun attempt => attempt.call.latches?

/-- One attempt.  Where the lock is held elsewhere, the shared state is out of its cell for the time
of the operation. -/
inductive Host.Attempted (host : Host) {machine : Machine ι} (handler : ι → Prog HostState ρ)
    (depth : Nat) (before : System machine HostState ρ) :
    Attempt → Answer → System machine HostState ρ → Prop
  | admitted (ran : (host.perform call).run handler depth before = .ok (answer, after)) :
      Attempted host handler depth before ⟨call, true⟩ answer after
  | refused (ran : (host.perform call).run handler depth { before with cell := none } =
        .ok (answer, after)) :
      Attempted host handler depth before ⟨call, false⟩ answer { after with cell := before.cell }

/-- A history of attempts, from one system to another. -/
inductive Host.After (host : Host) {machine : Machine ι} (handler : ι → Prog HostState ρ)
    (depth : Nat) : System machine HostState ρ → List Attempt → System machine HostState ρ → Prop
  | none : After host handler depth system [] system
  | next (first : host.Attempted handler depth system attempt answer middle)
      (rest : After host handler depth middle history now) :
      After host handler depth system (attempt :: history) now

/-- The latch after one more attempt. -/
def Attempt.passOn (attempt : Attempt) (latch : Option Latch) : Option Latch :=
  if attempt.decides then attempt.call.latches? else latch

theorem Call.settle_eq_passOn (call : Call) (state : HostState) :
    call.settle state =
      { state with latch := (Attempt.mk call true).passOn state.latch } := by
  unfold Call.settle Attempt.passOn Attempt.decides Call.latches?
  cases call with
  | sendCommand index argument =>
      cases hdata : (CommandWord.ofCommand index argument).isData <;> simp [hdata]
  | _ => rfl

/-- Attempts pass the latch on from one to the next, and the last that decides wins. -/
theorem foldl_passOn (history : List Attempt) (latch : Option Latch) :
    history.foldl (fun latch attempt => attempt.passOn latch) latch =
      match (history.filter Attempt.decides).getLast? with
      | some attempt => attempt.call.latches?
      | none => latch := by
  induction history generalizing latch with
  | nil => rfl
  | cons attempt history ih =>
      rw [List.foldl_cons, ih]
      cases hdecides : attempt.decides with
      | false => simp [Attempt.passOn, hdecides]
      | true =>
          rw [List.filter_cons_of_pos hdecides, List.getLast?_cons]
          cases (history.filter Attempt.decides).getLast? <;> simp [Attempt.passOn, hdecides]

theorem latchAfter_eq_foldl (history : List Attempt) :
    latchAfter history = history.foldl (fun latch attempt => attempt.passOn latch) none := by
  rw [foldl_passOn, latchAfter]
  cases (history.filter Attempt.decides).getLast? <;> rfl

/-- What waits is the word of a data command for its own argument. -/
theorem isData_of_latchAfter {history : List Attempt} {latch : Latch}
    (h : latchAfter history = some latch) :
    latch.word.isData = true ∧
      ∃ index, latch.word = CommandWord.ofCommand index latch.argument := by
  unfold latchAfter at h
  rw [Option.bind_eq_some_iff] at h
  obtain ⟨attempt, hlast, hlatches⟩ := h
  have hmem := List.mem_of_getLast? hlast
  have hdecides := (List.mem_filter.mp hmem).2
  obtain ⟨call, admitted⟩ := attempt
  cases call with
  | sendCommand index argument =>
      cases hlatches
      rw [Attempt.decides, Bool.and_eq_true] at hdecides
      exact ⟨hdecides.2, index, rfl⟩
  | _ => cases hlatches

namespace Host

variable {host : Host} {machine : Machine ι}

/-- One attempt passes the latch on and leaves the ring alone. -/
theorem Attempted.cell_eq (calls : ι → List Call) {depth : Nat} {attempt : Attempt}
    {answer : Answer} {system after : System machine HostState (List Answer)} {state : HostState}
    (free : system.cell = some state)
    (ran : host.Attempted (fun i => host.performAll (calls i)) depth system attempt answer after) :
    after.cell = some { state with latch := attempt.passOn state.latch } := by
  cases ran with
  | admitted ran => rw [perform_settles host calls free ran, Call.settle_eq_passOn]
  | refused ran => exact free

/-- Over a history the ring stays and the latch is passed on. -/
theorem After.cell_eq (calls : ι → List Call) {depth : Nat} {history : List Attempt}
    {system now : System machine HostState (List Answer)} {state : HostState}
    (free : system.cell = some state)
    (ran : host.After (fun i => host.performAll (calls i)) depth system history now) :
    now.cell = some { state with
      latch := history.foldl (fun latch attempt => attempt.passOn latch) state.latch } := by
  induction ran generalizing state with
  | none => exact free
  | next first rest ih => exact ih (Attempted.cell_eq calls free first)

theorem run_pending (handler : ι → Prog HostState ρ) (depth : Nat)
    {system : System machine HostState ρ} {state : HostState} (free : system.cell = some state) :
    host.pending.run handler depth system =
      .ok (.ok state.latch, system.extend
        [.restored system.level, .returned, .taken true, .raised host.lock.level]) := by
  unfold pending
  rw [Lock.run_holding_of_free handler depth host.lock _ system state free]
  obtain ⟨shared, level, cell, verbosity, journal⟩ := system
  cases free
  rfl

/-- After a load and any history of operations, with any platform, any operations interrupting them
and any of them refused the lock, the pending command is that of the last attempt which decides, and
it is a data command. -/
theorem pending_eq_latchAfter (calls : ι → List Call) {slot : Slot} {config : HostConfig}
    {services : Services} {earlier : ι → Prog HostState (List Answer)} {loadDepth depth : Nat}
    {before start now : System machine HostState (List Answer)} {history : List Attempt}
    (loaded : (slot.load config services).run earlier loadDepth before =
      .ok ((.ok (), ⟨some host⟩), start))
    (ran : host.After (fun i => host.performAll (calls i)) depth start history now) :
    (∃ after, host.pending.run (fun i => host.performAll (calls i)) depth now =
      .ok (.ok (latchAfter history), after))
    ∧ ∀ latch, latchAfter history = some latch →
      hasAll latch.word.bits CommandFlags.dataExpected = true
        ∧ ∃ index, latch.word = CommandWord.ofCommand index latch.argument := by
  obtain ⟨host', state, hhost, hcell, -, -, -, hlatch⟩ := Slot.load_run loaded
  have hnow := After.cell_eq calls hcell ran
  rw [show state.latch = none from hlatch, ← latchAfter_eq_foldl] at hnow
  constructor
  · exact ⟨_, run_pending _ depth hnow⟩
  · intro latch hlast
    have hdata := isData_of_latchAfter hlast
    rw [CommandWord.isData_eq] at hdata
    exact hdata

/-- A latched read is used up by a data phase that fails, a write is latched after it, and a command
that is refused the lock does not replace the write. -/
theorem pending_after_failed_read :
    ∃ start now after,
      (Slot.empty.load smallConfig .supplied).run (fun call => smallHost.performAll [call]) 1
          smallBench = .ok ((.ok (), ⟨some smallHost⟩), start)
      ∧ smallHost.After (fun call => smallHost.performAll [call]) 1 start
          [⟨.sendCommand 17 5, true⟩, ⟨.readData 0 [], true⟩, ⟨.sendCommand 24 7, true⟩,
            ⟨.sendCommand 18 1, false⟩] now
      ∧ smallHost.pending.run (fun call => smallHost.performAll [call]) 1 now =
          .ok (.ok (some ⟨CommandWord.ofCommand 24 7, 7⟩), after) := by
  obtain ⟨start, loaded⟩ : ∃ start,
      (Slot.empty.load smallConfig .supplied).run (fun call => smallHost.performAll [call]) 1
        smallBench = .ok ((.ok (), ⟨some smallHost⟩), start) := ⟨_, rfl⟩
  obtain ⟨now, ran⟩ : ∃ now, smallHost.After (fun call => smallHost.performAll [call]) 1 start
      [⟨.sendCommand 17 5, true⟩, ⟨.readData 0 [], true⟩, ⟨.sendCommand 24 7, true⟩,
        ⟨.sendCommand 18 1, false⟩] now := by
    cases loaded
    exact ⟨_, .next (.admitted rfl) (.next (.admitted rfl) (.next (.admitted rfl)
      (.next (.refused rfl) .none)))⟩
  obtain ⟨⟨after, pending⟩, -⟩ := pending_eq_latchAfter (fun call => [call]) loaded ran
  have hlast : latchAfter [⟨.sendCommand 17 5, true⟩, ⟨.readData 0 [], true⟩,
      ⟨.sendCommand 24 7, true⟩, ⟨.sendCommand 18 1, false⟩] =
        some ⟨CommandWord.ofCommand 24 7, 7⟩ := by decide
  rw [hlast] at pending
  exact ⟨start, now, after, loaded, ran, pending⟩

end Host

end CardHost
