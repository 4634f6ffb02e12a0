import CardHost.Proofs.Budgets

/-!
# What a usable configuration is good for

On a platform that favours the driver every wait ends at its first sample.  The poll for a
completion is the exception: it takes as many samples as its timeout has room for, and where the
timeout is shorter than the poll interval that is none at all.  The check of a configuration does
not compare the two.

So a configuration that passes its check is good for an operation exactly if the poll interval fits
the timeouts that the operation polls under (`moved_iff_polls_fit`).  One direction adds up the
waits with nothing allowed to fail; the other is a property of the program, whatever the platform
answers: an action that polls zero times never succeeds.
-/

namespace CardHost

/-! ## A platform at its best -/

/-- The replies of a platform on which nothing goes wrong: the controller is never busy, takes every
command at once and shows the signals, and no error, at every sample; and pages that are asked for
are granted inside the address space. -/
def Host.Favours (host : Host) (signals : UInt32) : Replies σ := fun request =>
  match request with
  | .read window offset => fun value => window = host.window →
    (offset = Register.status.offset → hasAny value ControllerStatus.dataBusy = false
      ∧ hasAny value ControllerStatus.cardBusy = false)
    ∧ (offset = Register.command.offset → hasAny value CommandFlags.start = false)
    ∧ (offset = Register.rawInterrupt.offset → hasAny value RawInterrupt.errors = false
      ∧ hasAll value signals = true)
  | .patience _ _ => fun patience => 0 < patience
  | .allocate services count => fun grant =>
    grant.status = .success ∧ (Pages.mk services grant.address count).Fits
  | _ => fun _ => True

instance (host : Host) (signals : UInt32) (request : Request σ) (reply : request.Reply) :
    Decidable (host.Favours signals request reply) :=
  match request with
  | .read window _ => inferInstanceAs (Decidable (window = host.window → _ ∧ _ ∧ _))
  | .patience _ _ => inferInstanceAs (Decidable (_ < _))
  | .allocate _ _ => inferInstanceAs (Decidable (_ ∧ _ < _))
  | .write .. => inferInstanceAs (Decidable True)
  | .stall .. => inferInstanceAs (Decidable True)
  | .free .. => inferInstanceAs (Decidable True)
  | .load .. => inferInstanceAs (Decidable True)
  | .store .. => inferInstanceAs (Decidable True)
  | .raise _ => inferInstanceAs (Decidable True)
  | .restore _ => inferInstanceAs (Decidable True)
  | .take => inferInstanceAs (Decidable True)
  | .put _ => inferInstanceAs (Decidable True)
  | .shows _ => inferInstanceAs (Decidable True)
  | .log _ => inferInstanceAs (Decidable True)

variable {possible : Replies σ}

namespace Window

variable {window : Window} {register : Register} {ready : UInt32 → Bool}

theorem finishes_sample_at_once (fits : window.Fits) (services : Services)
    (hready : ∀ value, possible (.read window register.offset) value → ready value = true)
    (bound : Nat) :
    (window.sample services register.offset ready bound : Prog σ Bool).Finishes possible
      (fun ended => ended = true) 0 := by
  cases bound with
  | zero => exact (finishes_read fits register).step hready
  | succ bound =>
      refine (finishes_read fits register).step fun value hvalue => ?_
      rw [if_pos (hready value hvalue)]
      exact rfl

theorem finishes_spin_at_once (fits : window.Fits)
    (hready : ∀ value, possible (.read window register.offset) value → ready value = true)
    {patience : Nat} (patient : 0 < patience) :
    (window.spin register.offset ready patience : Prog σ Bool).Finishes possible
      (fun ended => ended = true) 0 := by
  obtain ⟨patience, rfl⟩ := Nat.exists_eq_add_one.mpr patient
  refine (finishes_read fits register).step fun value hvalue => ?_
  rw [if_pos (hready value hvalue)]
  exact rfl

/-- A register that reads as clear ends a wait at its first sample, with or without a bound. -/
theorem finishes_awaitClear_at_once (fits : window.Fits) (services : Services) {mask : UInt32}
    (bound : Option UInt32)
    (clear : ∀ value, possible (.read window register.offset) value → hasAny value mask = false)
    (patient : ∀ patience, possible (.patience window register.offset) patience → 0 < patience) :
    (window.awaitClear services register.offset mask bound : Action σ Unit).Finishes possible False
      (fun _ => True) 0 := by
  have hready : ∀ value, possible (.read window register.offset) value →
      (!hasAny value mask) = true := by
    intro value hvalue
    rw [clear value hvalue]
    rfl
  have hawaits : (window.awaits services register.offset (fun value => !hasAny value mask) bound :
      Prog σ Bool).Finishes possible (fun ended => ended = true) 0 := by
    cases bound with
    | some bound => exact finishes_sample_at_once fits services hready bound.toNat
    | none =>
        refine (Prog.finishes_request _).step fun patience hpatience => ?_
        exact finishes_spin_at_once fits hready (patient patience hpatience)
  refine (Action.finishes_lift hawaits).step fun ended hended => ?_
  rw [if_pos hended]
  exact trivial

end Window

namespace Host

variable {host : Host} {signals : UInt32}

/-- A poll that may take a sample ends with it, where every sample is finished and shows no
error. -/
theorem finishes_poll_at_once (fits : host.window.Fits) {finished : UInt32 → Bool} {polls : Nat}
    (some : 0 < polls) (hfinished : ∀ status, hasAll status signals = true →
      finished status = true) :
    (host.poll finished polls : Prog σ Poll).Finishes (host.Favours signals)
      (fun ended => ended = .finished) 0 := by
  obtain ⟨polls, rfl⟩ := Nat.exists_eq_add_one.mpr some
  refine (Window.finishes_read fits .rawInterrupt).step fun status hstatus => ?_
  obtain ⟨hquiet, hsignals⟩ := (hstatus rfl).2.2 rfl
  rw [if_neg (by rw [hquiet]; exact Bool.false_ne_true), if_pos (hfinished status hsignals)]
  exact rfl

/-- With room for a poll a command succeeds at once. -/
theorem favoured_waits (fits : host.window.Fits)
    (hdone : signals &&& RawInterrupt.commandDone = RawInterrupt.commandDone)
    (polls : 0 < host.config.commandPolls) :
    host.Waits (σ := σ) (host.Favours signals) False 0 0 where
  fits := fits
  dataIdle := Window.finishes_awaitClear_at_once fits _ _
    (fun _ hvalue => ((hvalue rfl).1 rfl).1) fun _ => id
  cardIdle := Window.finishes_awaitClear_at_once fits _ _
    (fun _ hvalue => ((hvalue rfl).1 rfl).2) fun _ => id
  accepted := Window.finishes_awaitClear_at_once fits _ _
    (fun _ hvalue => (hvalue rfl).2.1 rfl) fun _ => id
  completes word := by
    have hfinished (status : UInt32) (h : hasAll status signals = true) :
        commandFinished status = true :=
      hasAny_of_part (hasAll_of_part h hdone) (by decide) (by decide)
    refine (Action.finishes_lift (finishes_poll_at_once fits polls hfinished)).step
      fun ended hended => ?_
    subst hended
    exact trivial

/-- With room for a poll of the data a data phase succeeds at once. -/
theorem favoured_phaseWaits (fits : host.window.Fits)
    (hdone : signals &&& RawInterrupt.commandDone = RawInterrupt.commandDone)
    (hover : signals &&& RawInterrupt.transferOver = RawInterrupt.transferOver)
    (polls : 0 < host.config.commandPolls) (dataPolls : 0 < host.config.dataPolls) :
    host.PhaseWaits (σ := σ) (host.Favours signals) False 0 0 0 where
  toWaits := favoured_waits fits hdone polls
  transfers := by
    have hfinished (status : UInt32) (h : hasAll status signals = true) :
        dataFinished status = true :=
      hasAll_of_part h hover
    refine (Action.finishes_lift (finishes_poll_at_once fits dataPolls hfinished)).step
      fun ended hended => ?_
    subst hended
    exact trivial
  grants services count grant hgrant := by
    rw [if_pos hgrant.1]
    exact hgrant.2

end Host

/-! ## No poll at all -/

/-- An action that never succeeds, whatever it is answered. -/
def Action.Fails (action : Action σ α) : Prop :=
  action.Obeys (fun _ => True) fun _ => False

namespace Action

theorem throw_fails (error : HostError) : (throw error : Action σ α).Fails := trivial

theorem Fails.bind {action : Action σ α} (h : action.Fails) (next : α → Action σ β) :
    (action >>= next).Fails :=
  Obeys.bind h fun _ => False.elim

theorem Fails.after {next : α → Action σ β} (h : ∀ value, (next value).Fails)
    (action : Action σ α) : (action >>= next).Fails :=
  Asks.obeys_bind (Prog.asks_anything action.run) h

end Action

theorem Pages.borrow_fails {work : Pages → Action σ α} (h : ∀ pages, (work pages).Fails)
    (services : Services) (count : Nat) (refused : HostError → Message) :
    (Pages.borrow services count refused work).Fails := by
  refine Action.Fails.after (fun pages => ?_) _
  refine Prog.Obeys.bind (h pages) fun outcome hfails => ?_
  exact (Prog.asks_anything _).obeys_bind fun _ => hfails

namespace Host

variable (host : Host)

theorem completion_fails {polls : Nat} (h : polls = 0) (finished : UInt32 → Bool)
    (failed : UInt32 → Message) (timedOut : Message) :
    (host.completion finished polls failed timedOut : Action σ Unit).Fails := by
  rw [h]
  exact ⟨trivial, fun _ => trivial⟩

theorem issue_fails (h : host.config.commandPolls = 0) (word : CommandWord) (argument : UInt32) :
    (host.issue word argument : Action σ Unit).Fails := by
  unfold issue
  iterate 5 refine Action.Fails.after (fun _ => ?_) _
  exact host.completion_fails h _ _ _

/-- Without a poll for the command or for the data, no data moves. -/
theorem moveThrough_fails (h : host.config.commandPolls = 0 ∨ host.config.dataPolls = 0)
    (ring : Ring) (latch : Latch) (length : Nat) (buffer : DataBuffer) (pages : Pages) :
    (host.moveThrough ring latch length buffer pages : Action σ (List UInt8)).Fails := by
  unfold moveThrough
  iterate 4 refine Action.Fails.after (fun _ => ?_) _
  rcases h with hcommand | hdata
  · exact (host.issue_fails hcommand _ _).bind _
  · refine Action.Fails.after (fun _ => ?_) _
    exact (host.completion_fails hdata _ _ _).bind _

/-- So a data phase never succeeds, at whichever of its steps it stops. -/
theorem runLatched_fails (h : host.config.commandPolls = 0 ∨ host.config.dataPolls = 0)
    (ring : Ring) (latch : Latch) (length : Nat) (buffer : DataBuffer) :
    (host.runLatched ring latch length buffer : Action σ (List UInt8)).Fails := by
  have hform := host.runLatched_form (σ := σ) ring latch length buffer
  unfold Action.Fails Action.Obeys
  generalize (host.runLatched ring latch length buffer : Action σ _).run = phase at hform ⊢
  cases hform with
  | refused message error =>
      have hrefuses : (do report message; throw error : Action σ (List UInt8)).Fails :=
        Action.Fails.after (fun _ => Action.throw_fails error) _
      exact hrefuses
  | unsplit => trivial
  | moves => exact Pages.borrow_fails (host.moveThrough_fails h ring latch length buffer) _ _ _

end Host

/-! ## Operations -/

section Runs

variable {machine : Machine ι}

namespace Lock

variable {lock : Lock} {body : σ → Prog σ (Except HostError α × σ)} {handler : ι → Prog σ ρ}
  {depth : Nat} {system : System machine σ ρ} {state : σ}

/-- The moments of a body are among those of its operation. -/
theorem mem_moments_holding (free : system.cell = some state) {moment : Moment machine σ ρ}
    (h : moment ∈ (body state).moments handler depth (lock.entered system)) :
    moment ∈ (lock.holding body).moments handler depth system := by
  obtain ⟨shared, level, cell, verbosity, journal⟩ := system
  cases free
  have acquired :
      lock.acquire?.run handler depth
          (⟨shared, level, some state, verbosity, journal⟩ : System machine σ ρ) =
        .ok (some ⟨state, level⟩, lock.entered ⟨shared, level, some state, verbosity, journal⟩) :=
    rfl
  unfold holding
  rw [Prog.bind_eq, Prog.moments_bind_of_run handler depth acquired]
  dsimp only
  rw [Prog.bind_eq, Prog.moments_bind]
  exact List.mem_append_right _ (List.mem_append_left _ h)

/-- At a free lock an operation ends as its body does on the state behind the lock. -/
theorem run_finishing {possible : Replies σ} {post : Except HostError α → Prop} {budget : Nat}
    (free : system.cell = some state)
    (h : (body state).Finishes possible (fun result => post result.1) budget)
    (answered : ∀ moment ∈ (lock.holding body).moments handler depth system,
      possible moment.request (moment.system.answer moment.request).1)
    (served : ∀ moment ∈ (lock.holding body).moments handler depth system, ∀ i after,
      (moment.system.answer moment.request).2 = (some i, after) →
        ∃ last, Prog.serveAt handler depth i after = .ok last ∧ last.stalled ≤ after.stalled) :
    ∃ outcome after, (lock.holding body).run handler depth system = .ok (outcome, after)
      ∧ post outcome := by
  obtain ⟨⟨outcome, left⟩, last, hran, hpost, -⟩ :=
    h.run (fun moment hmem => answered moment (mem_moments_holding free hmem))
      (fun moment hmem => served moment (mem_moments_holding free hmem))
  unfold entered at hran
  rw [run_holding_of_free handler depth lock body system state free, hran]
  exact ⟨outcome, _, rfl, hpost⟩

/-- At a free lock an operation that ends has run its body to the same outcome. -/
theorem body_of_run (free : system.cell = some state) {outcome : Except HostError α}
    {after : System machine σ ρ}
    (ran : (lock.holding body).run handler depth system = .ok (outcome, after)) :
    ∃ left last, (body state).run handler depth (lock.entered system) =
      .ok ((outcome, left), last) := by
  obtain ⟨left, last, hbody, -⟩ := returned_of_run free ran
  exact ⟨left, last, hbody⟩

end Lock

end Runs

namespace Host

/-- What a usable setup is there for, on a state of the host: commands, and data phases that their
checks let pass.  With it come the status bits that the controller raises when it is done, and the
timeouts that the operation polls under. -/
inductive Serves (host : Host) (state : HostState) : Call → UInt32 → List UInt32 → Prop
  | latching {index argument : UInt32}
      (data : (CommandWord.ofCommand index argument).isData = true) :
      Serves host state (.sendCommand index argument) RawInterrupt.commandDone []
  | command {index argument : UInt32}
      (plain : (CommandWord.ofCommand index argument).isData = false) :
      Serves host state (.sendCommand index argument) RawInterrupt.commandDone
        [host.config.commandTimeout]
  | phase {call : Call} {length : Nat} {buffer : DataBuffer} {latch : Latch}
      (moves : call.phase? = some (length, buffer)) (latched : state.latch = some latch)
      (matching : latch.word.isWrite = buffer.isWrite) (positive : 0 < length)
      (bounded : length ≤ host.config.maxRequest.toNat) (supplied : length ≤ buffer.size)
      (sliced : buffer.size < sliceLimit) :
      Serves host state call (RawInterrupt.commandDone ||| RawInterrupt.transferOver)
        [host.config.commandTimeout, host.config.dataTimeout]

variable {host : Host}

/-- The ring of a host has room for every request up to the largest. -/
theorem room_of_sized {ring : Ring} (sized : ring.Sized host.config) {length : Nat}
    (bounded : length ≤ host.config.maxRequest.toNat) :
    (host.split length).segments ≤ ring.count := by
  obtain ⟨⟨hsegment, -⟩, -, hring, -⟩ := (HostConfig.usable_iff _).mp host.usable
  rw [sized.1]
  unfold HostConfig.ringBytes at hring
  refine (ceilDiv_le_iff hsegment).mpr ?_
  omega

/-- Room for a poll is what the poll interval leaves of the timeout. -/
theorem commandPolls_pos_iff :
    0 < host.config.commandPolls ↔ host.config.pollInterval ≤ host.config.commandTimeout := by
  obtain ⟨-, -, -, hinterval, -⟩ := (HostConfig.usable_iff _).mp host.usable
  unfold HostConfig.commandPolls
  rw [Nat.div_pos_iff, UInt32.le_iff_toNat_le]
  exact and_iff_right hinterval

theorem dataPolls_pos_iff :
    0 < host.config.dataPolls ↔ host.config.pollInterval ≤ host.config.dataTimeout := by
  obtain ⟨-, -, -, hinterval, -⟩ := (HostConfig.usable_iff _).mp host.usable
  unfold HostConfig.dataPolls
  rw [Nat.div_pos_iff, UInt32.le_iff_toNat_le]
  exact and_iff_right hinterval

/-- A program that runs one body under the lock: on a favouring platform the body succeeds on a
state if `fit` holds, and on no platform does it succeed if not. -/
inductive Decided (host : Host) (state : HostState) (signals : UInt32) (fit : Prop) :
    Prog HostState Answer → Prop
  | intro {α : Type} (body : HostState → Prog HostState (Except HostError α × HostState))
      (finish : Except HostError α → Answer)
      (moved : ∀ outcome, (finish outcome).Moved ↔ ∃ value, outcome = .ok value)
      (succeeds : fit → (body state).Finishes (host.Favours signals)
        (fun result => Outcome False (fun _ => True) result.1) 0)
      (fails : ¬ fit → (body state).Obeys (fun _ => True) fun result =>
        ¬ ∃ value, result.1 = .ok value) :
      Decided host state signals fit
        ((host.lock.holding body).bind fun outcome => .done (finish outcome))

theorem moved_outcome_iff (outcome : Except HostError Unit) :
    (Answer.outcome outcome).Moved ↔ ∃ value, outcome = .ok value := by
  constructor
  · intro h
    exact ⟨(), h⟩
  · rintro ⟨_, h⟩
    exact h

theorem moved_phaseAnswer_iff {call : Call} {length : Nat} {buffer : DataBuffer}
    (moves : call.phase? = some (length, buffer)) (outcome : Except HostError (List UInt8)) :
    (call.phaseAnswer outcome).Moved ↔ ∃ arrived, outcome = .ok arrived := by
  constructor
  · exact Call.ok_of_moved
  · rintro ⟨arrived, rfl⟩
    cases call with
    | readData => rfl
    | writeData => rfl
    | _ => cases moves

/-- A failing action, with the state left behind the lock. -/
theorem fails_beside {action : Action HostState α} (h : action.Fails) (left : HostState) :
    (action.run.bind fun outcome => .done (outcome, left)).Obeys (fun _ => True) fun result =>
      ¬ ∃ value, result.1 = .ok value := by
  refine Prog.Obeys.bind h fun outcome hpost => ?_
  rintro ⟨value, hvalue⟩
  rw [show outcome = .ok value from hvalue] at hpost
  exact hpost

/-- What decides over an operation is whether the poll interval fits the timeouts. -/
theorem Serves.decided {state : HostState} {call : Call} {signals : UInt32}
    {timeouts : List UInt32} (serves : host.Serves state call signals timeouts)
    (fits : host.window.Fits) (reached : host.Reached state)
    (ring : (state.ring.owned host.services).Fits) :
    host.Decided state signals (∀ timeout ∈ timeouts, host.config.pollInterval ≤ timeout)
      (host.perform call) := by
  cases serves with
  | @latching index argument data =>
      show Decided _ _ _ _ ((host.lock.holding (host.commandBody index argument)).bind _)
      refine .intro _ _ moved_outcome_iff (fun _ => finishes_latching data state) fun hunfit => ?_
      exact (hunfit (by simp)).elim
  | @command index argument plain =>
      show Decided _ _ _ _ ((host.lock.holding (host.commandBody index argument)).bind _)
      rw [List.forall_mem_singleton, ← commandPolls_pos_iff]
      refine .intro _ _ moved_outcome_iff ?_ ?_
      · intro hpolls
        exact (favoured_waits fits (by decide) hpolls).finishes_commandBody index argument state
      · intro hnone
        have hissue := fails_beside (host.issue_fails (Nat.eq_zero_of_not_pos hnone)
          (.ofCommand index argument) argument) state
        obtain ⟨remarks, hbody⟩ := host.commandBody_issuing plain state
        rw [hbody]
        exact (Prog.asks_anything _).obeys_bind fun _ => hissue
  | @phase _ length buffer latch moves latched matching positive bounded supplied sliced =>
      rw [host.perform_phase moves]
      have hfit : (∀ timeout ∈ [host.config.commandTimeout, host.config.dataTimeout],
          host.config.pollInterval ≤ timeout) ↔
            0 < host.config.commandPolls ∧ 0 < host.config.dataPolls := by
        rw [List.forall_mem_cons, List.forall_mem_singleton, commandPolls_pos_iff,
          dataPolls_pos_iff]
      rw [hfit]
      refine .intro _ _ (moved_phaseAnswer_iff moves) ?_ ?_
      · rintro ⟨hcommand, hdata⟩
        have hroom := room_of_sized reached.sized_proper.1 bounded
        exact (favoured_phaseWaits fits (by decide) (by decide) hcommand hdata).finishes_runPhase
          (place_lt_of_fits reached ring) sliced
          (.inr ⟨latch, latched, matching, positive, supplied, hroom⟩)
      · intro hunfit
        have hnone : host.config.commandPolls = 0 ∨ host.config.dataPolls = 0 := by omega
        unfold runPhase
        rw [latched]
        exact fails_beside (host.runLatched_fails hnone state.ring latch length buffer) _

variable {machine : Machine ι}

/-- On a platform that favours it, with the window, the ring and the granted pages inside the
address space, an operation that the setup is there for succeeds exactly if the poll interval fits
the timeouts that the operation polls under.  That the configuration passed its check is not
enough. -/
theorem moved_iff_polls_fit (fits : host.window.Fits) (calls : ι → List Call) (depth : Nat)
    {state : HostState} {system : System machine HostState (List Answer)}
    (free : system.cell = some state) (reached : host.Reached state)
    (ring : (state.ring.owned host.services).Fits) {call : Call} {signals : UInt32}
    {timeouts : List UInt32} (serves : host.Serves state call signals timeouts)
    (favoured : ∀ moment ∈ (host.perform call).moments (fun i => host.performAll (calls i)) depth
      system, host.Favours signals moment.request (moment.system.answer moment.request).1) :
    (∃ answer after, (host.perform call).run (fun i => host.performAll (calls i)) depth system =
        .ok (answer, after) ∧ answer.Moved)
      ↔ ∀ timeout ∈ timeouts, host.config.pollInterval ≤ timeout := by
  have hdump : call ≠ .dump := by
    rintro rfl
    cases serves with
    | phase moves => cases moves
  have hserved := interruptions_return fits calls depth hdump system
  have hdecided := serves.decided fits reached ring
  generalize host.perform call = program at favoured hserved hdecided
  obtain @⟨α, body, finish, moved, succeeds, fails⟩ := hdecided
  constructor
  · rintro ⟨answer, after, ran, hmoved⟩
    obtain ⟨outcome, last, hheld, hdone⟩ := Prog.run_bind_ok ran
    cases hdone
    obtain ⟨left, middle, hbody⟩ := Lock.body_of_run free hheld
    refine Classical.byContradiction fun hunfit => ?_
    exact (fails hunfit).post_of_run hbody ((moved outcome).mp hmoved)
  · intro hfit
    rw [Prog.moments_bind_done] at favoured
    rw [Prog.trace_bind_done] at hserved
    obtain ⟨outcome, after, hran, hok⟩ : ∃ outcome after, (host.lock.holding body).run _ depth
        system = .ok (outcome, after) ∧ Outcome False (fun _ => True) outcome :=
      Lock.run_finishing free (succeeds hfit) favoured fun moment hmem =>
        hserved moment (Prog.mem_trace_of_mem_moments _ _ hmem)
    refine ⟨finish outcome, after, ?_, (moved outcome).mpr ?_⟩
    · rw [Prog.run_bind_done, hran]
      rfl
    · cases outcome with
      | ok value => exact ⟨value, rfl⟩
      | error error => exact hok.elim

/-- A single poll is enough for a write of one byte. -/
theorem single_poll_suffices :
    ∃ answer after, (hastyHost.perform (.writeData 1 [7])).run
        (fun call => hastyHost.performAll [call]) 1 (latchedBench true) = .ok (answer, after)
      ∧ answer.Moved := by
  have hcell : (latchedBench true).cell = some latchedState := by
    decide +kernel
  have hfavoured : ∀ moment ∈ (hastyHost.perform (.writeData 1 [7])).moments
      (fun call => hastyHost.performAll [call]) 1 (latchedBench true),
      hastyHost.Favours (RawInterrupt.commandDone ||| RawInterrupt.transferOver) moment.request
        (moment.system.answer moment.request).1 := by
    decide +kernel
  have hserves : hastyHost.Serves latchedState (.writeData 1 [7])
      (RawInterrupt.commandDone ||| RawInterrupt.transferOver)
      [hastyHost.config.commandTimeout, hastyHost.config.dataTimeout] :=
    .phase rfl rfl (by decide) (by decide) (by decide) (by decide) (by decide)
  refine (moved_iff_polls_fit hastyHost_bounded.fits (fun call => [call]) 1 hcell
    latchedState_reached (by unfold Pages.Fits; decide) hserves hfavoured).mpr ?_
  exact List.forall_mem_cons.mpr ⟨by decide, List.forall_mem_singleton.mpr (by decide)⟩

end Host

/-! ### A setup that is not usable -/

/-- The small host with a command timeout below its poll interval. -/
def shortHost : Host where
  config := { smallConfig with commandTimeout := 100 }
  services := .supplied
  usable := by decide

/-- The small bench with the short host loaded. -/
@[irreducible]
def shortStart : System Bench.machine HostState (List Answer) :=
  match (Slot.empty.load shortHost.config .supplied).run undisturbed 0 smallBench with
  | .ok (_, start) => start
  | .error _ => smallBench

/-- Whether an operation timed out where the controller shows that the command is done. -/
def hasOverslept : Except Halt (Answer × System Bench.machine HostState (List Answer)) → Bool
  | .ok (.outcome (.error .timeout), after) =>
    after.shared.device.registers.held .rawInterrupt == RawInterrupt.commandDone
  | _ => false

namespace Host

/-- A command of a host that was loaded times out on a bench that favours it, while the controller
shows the command done. -/
theorem short_timeout_expires :
    (Slot.empty.load shortHost.config .supplied).run undisturbed 0 smallBench =
        .ok ((.ok (), ⟨some shortHost⟩), shortStart)
      ∧ (∀ moment ∈ (shortHost.perform (.sendCommand 13 0)).moments undisturbed 0 shortStart,
        shortHost.Favours RawInterrupt.commandDone moment.request
          (moment.system.answer moment.request).1)
      ∧ hasOverslept ((shortHost.perform (.sendCommand 13 0)).run undisturbed 0 shortStart) =
        true := by
  refine ⟨?_, ?_, ?_⟩
  · rw [shortStart]
    rfl
  · decide +kernel
  · decide +kernel

end Host

end CardHost
