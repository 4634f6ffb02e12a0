import CardHost.Proofs.Budgets
import CardHost.Proofs.Preparation

/-!
# Data phases that cannot start

Before a data phase reaches the board it looks for a reason not to start.  `Host.refusal?` is the
first reason that needs no platform to see, in the order of the checks; after these the allocator
may have no pages.  `Host.TurnedAway` says what a phase leaves that does not start: its error, the
priority as it was, and no other change than an empty latch, which a held lock keeps from it.

`Host.turned_away_or_through` puts both together.  A phase is turned away for its first reason, or
with the error of the allocator, and gets through otherwise (`Host.GetsThrough`).  Length and room
are checked once more when the descriptors are prepared, and there the checks cannot fail.
-/

namespace CardHost

/-- The state once its latch was taken. -/
def HostState.spent (state : HostState) : HostState :=
  { state with latch := none }

/-- Why a data phase cannot start, as far as it shows before pages are asked for, from what the cell
of the lock holds.  Of several reasons it is the one that is checked first. -/
def Host.refusal? (host : Host) (length : Nat) (buffer : DataBuffer) :
    Option HostState → Option HostError
  | none => some (.firmware .accessDenied)
  | some ⟨_, none⟩ => some .invalidArgument
  | some ⟨ring, some latch⟩ =>
    if latch.word.isWrite ≠ buffer.isWrite ∨ length = 0 ∨ buffer.size < length then
      some .invalidArgument
    else if ring.count < ceilDiv length host.config.segmentSize.toNat then
      some .outOfResources
    else
      none

section Phases

variable {machine : Machine ι}

/-- A data phase ends with an error, which leaves the buffer of its caller alone, and reaches
neither registers nor memory.  It makes some page calls, leaves a platform, puts the priority back,
and uses up the latch if the lock was free. -/
structure Host.TurnedAway (host : Host) (call : Call) (handler : ι → Prog HostState ρ) (depth : Nat)
    (system : System machine HostState ρ) (error : HostError) (calls : List (Event ρ))
    (left : Shared machine.State) : Prop where
  answered : ∃ after, (host.perform call).run handler depth system =
      .ok (call.phaseAnswer (.error error), after)
    ∧ after.shared = left ∧ after.level = system.level
    ∧ after.cell = system.cell.map HostState.spent
  offBoard : ∀ moment ∈ (host.perform call).trace handler depth system, moment.request.OffBoard
  called : ((host.perform call).trace handler depth system).filterMap Moment.pageCall? = calls

/-- A data phase with staging pages at an address starts: its descriptors are prepared, whatever
the platform holds, and the controller is given them.  Where registers lie beyond the address space
it does not end. -/
structure Host.GetsThrough (host : Host) (call : Call) (handler : ι → Prog HostState ρ)
    (depth : Nat) (system : System machine HostState ρ) (length : Nat) (ring : Ring)
    (address : UInt64) : Prop where
  prepares : ∀ before : Shared machine.State, (ring.prepare length address
    host.config.segmentSize.toNat host.config.blockSize.toNat : Action HostState Geometry).Succeeds
      machine before fun geometry _ => geometry = host.split length
  reaches : host.window.base.toNat + Register.listLow.offset < wordSpan
      ∨ (∃ answer after, (host.perform call).run handler depth system = .ok (answer, after)) →
    ∃ moment ∈ (host.perform call).trace handler depth system,
      moment.request = .write host.window Register.listLow.offset (Bytes.lowHalf ring.base)

/-! ## Writes in a trace -/

/-- The trace of a sequence has that of its first part. -/
theorem Prog.mem_trace_bind {handler : ι → Prog σ ρ} {depth : Nat} {program : Prog σ α}
    {next : α → Prog σ β} {system : System machine σ ρ} {moment : Moment machine σ ρ}
    (h : moment ∈ program.trace handler depth system) :
    moment ∈ (program.bind next).trace handler depth system := by
  rw [trace_bind]
  exact List.mem_append_left _ h

namespace Window

variable (handler : ι → Prog σ ρ) (depth : Nat) (window : Window) (offset : Nat) (value : UInt32)

/-- A register inside the address space is written. -/
theorem mem_trace_write (system : System machine σ ρ)
    (fits : window.base.toNat + offset < wordSpan) :
    ⟨.write window offset value, system.note (.logged (.registerWrite offset value))⟩ ∈
      (window.write offset value : Prog σ Unit).trace handler depth system := by
  unfold write
  rw [if_pos fits]
  simp [Prog.log, Prog.request, Prog.bind, Prog.trace, Prog.traceWith, System.answer]

/-- Any other faults. -/
theorem fits_of_run_write {handler : ι → Prog σ ρ} {depth : Nat} {window : Window} {offset : Nat}
    {value : UInt32} {system after : System machine σ ρ} {written : Unit}
    (ran : (window.write offset value).run handler depth system = .ok (written, after)) :
    window.base.toNat + offset < wordSpan := by
  by_cases hfits : window.base.toNat + offset < wordSpan
  · exact hfits
  · unfold write at ran
    rw [if_neg hfits] at ran
    cases ran

end Window

/-! ## Being turned away -/

/-- A reason that is seen in the guarded state is reported, and the phase ends. -/
theorem Host.runPhase_refused (host : Host) {length : Nat} {buffer : DataBuffer}
    (sliced : buffer.size < sliceLimit) {state : HostState} {error : HostError}
    (h : host.refusal? length buffer (some state) = some error) :
    ∃ message, (host.runPhase length buffer state : Prog σ _) =
      (Prog.log message).bind fun _ => .done (.error error, state.spent) := by
  obtain ⟨ring, latch⟩ := state
  cases latch with
  | none =>
      cases h
      exact ⟨.nothingLatched, rfl⟩
  | some latch =>
      unfold runPhase runLatched
      dsimp only
      simp only [refusal?] at h
      by_cases hdirection : latch.word.isWrite ≠ buffer.isWrite
      · rw [if_pos (.inl hdirection)] at h
        cases h
        rw [if_pos hdirection]
        exact ⟨_, rfl⟩
      · rw [if_neg hdirection]
        by_cases hlength : length = 0 ∨ buffer.size < length
        · rw [if_pos (.inr hlength)] at h
          cases h
          rw [if_pos hlength]
          exact ⟨_, rfl⟩
        · rw [if_neg (by simp [hdirection, hlength])] at h
          have hsliced : length < sliceLimit := by omega
          rw [if_neg hlength, host.splits_of_lt hsliced]
          have hsegments : ceilDiv length host.config.segmentSize.toNat =
              (host.split length).segments := rfl
          rw [hsegments] at h
          by_cases hroom : ring.count < (host.split length).segments
          · rw [if_pos hroom] at h
            cases h
            simp only [Action.run_lift_bind, Prog.require, Prog.bind, if_pos hroom]
            exact ⟨_, rfl⟩
          · rw [if_neg hroom] at h
            cases h

/-- Without such a reason a command is latched, and its transfer passes every check. -/
theorem Host.cleared_of_not_refused {host : Host} {length : Nat} {buffer : DataBuffer}
    (sliced : buffer.size < sliceLimit) {cell : Option HostState}
    (h : host.refusal? length buffer cell = none) :
    ∃ ring latch, cell = some ⟨ring, some latch⟩ ∧ ∀ address,
      host.Cleared ring latch length buffer
        ⟨host.services, address, (host.split length).stagingPages⟩ := by
  unfold refusal? at h
  split at h
  · cases h
  · cases h
  · rename_i ring latch
    split at h
    · cases h
    · rename_i hfits
      split at h
      · cases h
      · rename_i hroom
        simp only [not_or, Decidable.not_not] at hfits
        obtain ⟨hdirection, hlength, hsize⟩ := hfits
        have hsliced : length < sliceLimit := by omega
        exact ⟨ring, latch, rfl, fun address =>
          { direction := hdirection
            positive := Nat.pos_of_ne_zero hlength
            supplied := Nat.not_lt.mp hsize
            splits := host.splits_of_lt hsliced
            room := Nat.not_lt.mp hroom
            services := rfl
            staged := rfl }⟩

section Calls

variable {host : Host} {call : Call} {length : Nat} {buffer : DataBuffer}
  {handler : ι → Prog HostState ρ} {depth : Nat} {system : System machine HostState ρ}

/-- A caller that finds the lock held is turned away. -/
theorem turnedAway_of_held (phase : call.phase? = some (length, buffer))
    (held : system.cell = none) :
    host.TurnedAway call handler depth system (.firmware .accessDenied) [] system.shared := by
  have hquiet := Lock.aside_of_held handler depth host.lock (host.runPhase length buffer) held
  constructor
  · have hran := Lock.run_holding_of_held handler depth host.lock (host.runPhase length buffer)
      system held
    rw [host.perform_phase phase, Prog.run_bind, hran]
    exact ⟨_, rfl, rfl, rfl, by rw [held]; rfl⟩
  · rw [host.perform_phase phase, Prog.trace_bind_done]
    exact fun moment hmem => (hquiet moment hmem).1.offBoard
  · rw [host.perform_phase phase, Prog.trace_bind_done]
    exact filterMap_pageCall_of_keepsPages fun moment hmem => (hquiet moment hmem).2

/-- Under a free lock a phase is turned away if its body is. -/
theorem turnedAway_of_body (phase : call.phase? = some (length, buffer)) {state : HostState}
    (free : system.cell = some state) {error : HostError} {calls : List (Event ρ)}
    {after : System machine HostState ρ}
    (ran : (host.runPhase length buffer state).run handler depth (host.lock.entered system) =
      .ok ((.error error, state.spent), after))
    (offBoard : ∀ moment ∈ (host.runPhase length buffer state).trace handler depth
      (host.lock.entered system), moment.request.OffBoard)
    (called : ((host.runPhase length buffer state).trace handler depth
      (host.lock.entered system)).filterMap Moment.pageCall? = calls) :
    host.TurnedAway call handler depth system error calls after.shared := by
  obtain ⟨lead, tail, htrace, hlead, htail⟩ :=
    Lock.aside_of_free handler depth host.lock (host.runPhase length buffer) free
  rw [← Prog.trace_bind_done handler depth _ call.phaseAnswer, ← host.perform_phase phase] at htrace
  constructor
  · have hlocked := Lock.run_holding_of_free handler depth host.lock (host.runPhase length buffer)
      system state free
    unfold Lock.entered at ran
    rw [ran] at hlocked
    rw [host.perform_phase phase, Prog.run_bind, hlocked]
    exact ⟨_, rfl, rfl, rfl, by rw [free]; rfl⟩
  · intro moment hmem
    rw [htrace, List.mem_append, List.mem_append] at hmem
    rcases hmem with hmem | hmem | hmem
    · exact (hlead moment hmem).1.offBoard
    · exact offBoard moment hmem
    · exact (htail moment hmem).1.offBoard
  · rw [htrace, List.filterMap_append, List.filterMap_append, called,
      filterMap_pageCall_of_keepsPages fun moment hmem => (hlead moment hmem).2,
      filterMap_pageCall_of_keepsPages fun moment hmem => (htail moment hmem).2,
      List.nil_append, List.append_nil]

/-- A phase with a reason not to start is turned away before it asks for pages. -/
theorem turnedAway_of_refused (phase : call.phase? = some (length, buffer))
    (sliced : buffer.size < sliceLimit) {error : HostError}
    (h : host.refusal? length buffer system.cell = some error) :
    host.TurnedAway call handler depth system error [] system.shared := by
  cases hcell : system.cell with
  | none =>
      rw [hcell] at h
      cases h
      exact turnedAway_of_held phase hcell
  | some state =>
      rw [hcell] at h
      obtain ⟨message, hbody⟩ := host.runPhase_refused sliced h
      have hran : (host.runPhase length buffer state).run handler depth (host.lock.entered system) =
          .ok ((.error error, state.spent),
            (host.lock.entered system).note (.logged message)) := by
        rw [hbody]
        rfl
      apply turnedAway_of_body phase hcell hran
      · rw [hbody]
        intro moment hmem
        rcases List.mem_cons.mp hmem with rfl | hmem
        · trivial
        · cases hmem
      · rw [hbody]
        rfl

/-- Where the allocator has no pages a phase that passes its checks is turned away with the error of
the allocator, which was asked once. -/
theorem turnedAway_of_unallocated (phase : call.phase? = some (length, buffer)) {ring : Ring}
    {latch : Latch} (free : system.cell = some ⟨ring, some latch⟩) {pages : Pages}
    (cleared : host.Cleared ring latch length buffer pages) {error : HostError}
    (refused : HostError.ofStatus (machine.allocate host.services (host.split length).stagingPages
      system.shared).1.status = .error error) :
    host.TurnedAway call handler depth system error
      [.allocated host.services (host.split length).stagingPages
        (machine.allocate host.services (host.split length).stagingPages system.shared).1]
      (machine.allocate host.services (host.split length).stagingPages system.shared).2 := by
  have hbody : (host.runPhase length buffer ⟨ring, some latch⟩ : Prog HostState _) =
      (host.runLatched ring latch length buffer).run.bind fun outcome =>
        .done (outcome, ⟨ring, none⟩) := rfl
  rw [host.runLatched_moves cleared.direction cleared.positive cleared.supplied cleared.splits
    cleared.room, Pages.borrow, Action.run_bind] at hbody
  rcases Pages.trace_allocate handler depth host.services (host.split length).stagingPages
    .stagingNotAllocated (host.lock.entered system) with
      ⟨seen, after, hstatus, hran, hshared, -, hquiet, hcalled⟩ |
      ⟨pages, after, -, -, -, -, -, hgranted⟩
  · have hseen : seen = error := Except.error.inj (hstatus.symm.trans refused)
    subst hseen
    have hphase : (host.runPhase length buffer ⟨ring, some latch⟩).run handler depth
        (host.lock.entered system) = .ok ((.error seen, ⟨ring, none⟩), after) := by
      rw [hbody, Prog.run_bind, Prog.run_bind, hran]
      rfl
    have htrace : (host.runPhase length buffer ⟨ring, some latch⟩).trace handler depth
        (host.lock.entered system) = ((Pages.allocate host.services
          (host.split length).stagingPages : Action HostState Pages).onError
            .stagingNotAllocated).run.trace handler depth (host.lock.entered system) := by
      rw [hbody, Prog.trace_bind_done, Prog.trace_bind_of_run handler depth hran]
      exact List.append_nil _
    rw [← htrace] at hquiet hcalled
    have hshared' : after.shared =
        (machine.allocate host.services (host.split length).stagingPages system.shared).2 := hshared
    rw [← hshared']
    exact turnedAway_of_body phase free hphase hquiet hcalled
  · have hsuccess : (machine.allocate host.services (host.split length).stagingPages
        system.shared).1.status = .success := by
      simp only [Moment.granted?] at hgranted
      split at hgranted
      · assumption
      · cases hgranted
    rw [hsuccess, (HostError.ofStatus_eq_ok_iff _).mpr rfl] at refused
    cases refused

/-! ## Starting -/

/-- A transfer that passed the checks has its descriptors prepared. -/
theorem succeeds_prepare_of_cleared {ring : Ring} {latch : Latch} {pages : Pages}
    (cleared : host.Cleared ring latch length buffer pages) (fits : pages.Fits)
    (places : ring.place ring.count < wordSpan) (before : Shared machine.State) :
    (ring.prepare length pages.address host.config.segmentSize.toNat
      host.config.blockSize.toNat : Action HostState Geometry).Succeeds machine before
        fun geometry _ => geometry = host.split length := by
  have hbuffers := host.last_segment_fits cleared.positive cleared.staged fits
  have hplaces := cleared.places_le
  apply Ring.succeeds_prepare cleared.positive cleared.splits cleared.room
  · unfold Ring.chain?
    rw [if_pos ⟨hbuffers, by omega⟩]
  · rfl

variable (handler depth) in
/-- Once descriptors are prepared a transfer writes to the controller, or does not end. -/
theorem moveThrough_reaches {ring : Ring} {latch : Latch} {pages : Pages}
    (prepares : ∀ before : Shared machine.State, (ring.prepare length pages.address
      host.config.segmentSize.toNat host.config.blockSize.toNat :
        Action HostState Geometry).Succeeds machine before fun geometry _ =>
          geometry = host.split length)
    (borrowed : System machine HostState ρ)
    (h : host.window.base.toNat + Register.listLow.offset < wordSpan
      ∨ ∃ outcome last, (host.moveThrough ring latch length buffer pages).run.run handler depth
        borrowed = .ok (outcome, last)) :
    ∃ moment ∈ (host.moveThrough ring latch length buffer pages).run.trace handler depth borrowed,
      moment.request = .write host.window Register.listLow.offset (Bytes.lowHalf ring.base) := by
  obtain ⟨staged, hstaged⟩ : ∃ staged, (Host.stage pages length buffer).lift.run.run handler depth
      borrowed = .ok (.ok (), staged) := by
    cases buffer with
    | incoming size => exact ⟨_, rfl⟩
    | outgoing bytes => exact ⟨_, rfl⟩
  obtain ⟨outcome, after, ⟨geometry, rfl, -⟩, hends⟩ := prepares staged.shared
  obtain ⟨journal, hprepared⟩ := hends _ handler depth staged rfl
  have hwrite := Window.mem_trace_write handler depth host.window Register.listLow.offset
    (Bytes.lowHalf ring.base) { staged with shared := after, journal := journal }
  unfold Host.moveThrough Ring.program at h ⊢
  rw [Action.run_bind, Prog.run_bind, hstaged] at h
  rw [Action.run_bind, Prog.trace_bind_of_run handler depth hstaged]
  dsimp only at h ⊢
  rw [Action.run_bind, Prog.run_bind, hprepared] at h
  rw [Action.run_bind, Prog.trace_bind_of_run handler depth hprepared]
  dsimp only at h ⊢
  rw [Action.run_bind, Action.run_lift] at h
  rw [Action.run_bind, Action.run_lift]
  have hfits : host.window.base.toNat + Register.listLow.offset < wordSpan := by
    rcases h with hfits | ⟨outcome, last, ran⟩
    · exact hfits
    · obtain ⟨_, _, hprogram, -⟩ := Prog.run_bind_ok ran
      obtain ⟨_, _, hlists, -⟩ := Prog.run_bind_ok hprogram
      obtain ⟨_, _, hlow, -⟩ := Prog.run_bind_ok hlists
      exact Window.fits_of_run_write hlow
  apply Exists.intro
  constructor
  · apply List.mem_append_right
    apply List.mem_append_right
    apply Prog.mem_trace_bind
    apply Prog.mem_trace_bind
    exact Prog.mem_trace_bind (hwrite hfits)
  · rfl

/-- A data phase that is granted pages after its checks gets through to the controller. -/
theorem getsThrough_of_granted (phase : call.phase? = some (length, buffer)) {ring : Ring}
    {latch : Latch} (free : system.cell = some ⟨ring, some latch⟩) {address : UInt64}
    (cleared : host.Cleared ring latch length buffer
      ⟨host.services, address, (host.split length).stagingPages⟩)
    (granted : (machine.allocate host.services (host.split length).stagingPages
      system.shared).1 = ⟨.success, address⟩)
    (fits : (Pages.mk host.services address (host.split length).stagingPages).Fits)
    (places : ring.place ring.count < wordSpan) :
    host.GetsThrough call handler depth system length ring address := by
  have hprepares (before : Shared machine.State) :=
    succeeds_prepare_of_cleared cleared fits places before
  obtain ⟨borrowed, -, hmoments, hends⟩ := host.transfer_of_granted phase handler depth free
    cleared.direction cleared.positive cleared.supplied cleared.splits cleared.room granted
  refine ⟨hprepares, fun h => ?_⟩
  have hmoves := h.imp_right fun ⟨answer, after, ran⟩ => hends answer after ran
  obtain ⟨moment, hmem, hrequest⟩ := moveThrough_reaches handler depth hprepares borrowed hmoves
  exact ⟨moment, hmoments moment hmem, hrequest⟩

end Calls

end Phases

/-- Whether a data phase starts, and what it leaves where it does not.  Its first reason not to
start turns it away before it asks for pages; without one it asks for its staging pages, and a
refusal of these turns it away with the allocator's error; once it has pages it starts. -/
theorem Host.turned_away_or_through (host : Host) {call : Call} {length : Nat} {buffer : DataBuffer}
    (phase : call.phase? = some (length, buffer)) (sliced : buffer.size < sliceLimit)
    {machine : Machine ι} (handler : ι → Prog HostState ρ) (depth : Nat)
    (system : System machine HostState ρ) :
    let count := (host.split length).stagingPages
    let grant := machine.allocate host.services count system.shared
    (∀ error, host.refusal? length buffer system.cell = some error →
      host.TurnedAway call handler depth system error [] system.shared)
    ∧ (host.refusal? length buffer system.cell = none →
      (∀ error, HostError.ofStatus grant.1.status = .error error →
        host.TurnedAway call handler depth system error
          [.allocated host.services count grant.1] grant.2)
      ∧ (grant.1.status = .success → ∃ ring latch, system.cell = some ⟨ring, some latch⟩
        ∧ ((Pages.mk host.services grant.1.address count).Fits →
          ring.place ring.count < wordSpan →
          host.GetsThrough call handler depth system length ring grant.1.address))) := by
  intro count grant
  refine ⟨fun error => turnedAway_of_refused phase sliced, fun h => ?_⟩
  obtain ⟨ring, latch, free, cleared⟩ := host.cleared_of_not_refused sliced h
  constructor
  · intro error refused
    exact turnedAway_of_unallocated phase free (cleared grant.1.address) refused
  · intro success
    refine ⟨ring, latch, free, fun fits places => ?_⟩
    exact getsThrough_of_granted phase free (cleared grant.1.address)
      (congrArg (Grant.mk · grant.1.address) success) fits places

/-- The bench with a write latched, where the next request for pages fails. -/
@[irreducible]
def strandedBench : System Bench.machine HostState (List Answer) :=
  let bench := latchedBench true
  let device := bench.shared.device
  let pages := { device.pages with allocateFailure := some ⟨.notFound, 1⟩ }
  { bench with shared := ⟨{ device with pages := pages }, bench.shared.memory⟩ }

/-- With a write latched an empty write is turned away, and so is one of a byte if no pages are
granted for it; else it gets through. -/
theorem Host.one_byte_gets_through :
    hastyHost.TurnedAway (.writeData 0 [7]) undisturbed 0 (latchedBench true) .invalidArgument []
        (latchedBench true).shared
      ∧ (∃ grant left, hastyHost.TurnedAway (.writeData 1 [7]) undisturbed 0 strandedBench
        (.firmware .notFound) [.allocated .supplied 1 grant] left)
      ∧ ∃ ring address, hastyHost.GetsThrough (.writeData 1 [7]) undisturbed 0 (latchedBench true)
        1 ring address := by
  have hlatched : (latchedBench true).cell = some latchedState := by decide +kernel
  have hstranded : strandedBench.cell = some latchedState := by decide +kernel
  have hrefused : (Bench.machine.allocate hastyHost.services (hastyHost.split 1).stagingPages
      strandedBench.shared).1.status = .notFound := by decide +kernel
  have hsuccess : (Bench.machine.allocate hastyHost.services (hastyHost.split 1).stagingPages
      (latchedBench true).shared).1.status = .success := by decide +kernel
  have hfits : (Pages.mk hastyHost.services (Bench.machine.allocate hastyHost.services
      (hastyHost.split 1).stagingPages (latchedBench true).shared).1.address
        (hastyHost.split 1).stagingPages).Fits := by
    unfold Pages.Fits
    decide +kernel
  have hempty := hastyHost.turned_away_or_through
    (show (Call.writeData 0 [7]).phase? = some (0, .outgoing [7]) from rfl) (by decide) undisturbed
    0 (latchedBench true)
  have hfailed := hastyHost.turned_away_or_through
    (show (Call.writeData 1 [7]).phase? = some (1, .outgoing [7]) from rfl) (by decide) undisturbed
    0 strandedBench
  have hgranted := hastyHost.turned_away_or_through
    (show (Call.writeData 1 [7]).phase? = some (1, .outgoing [7]) from rfl) (by decide) undisturbed
    0 (latchedBench true)
  refine ⟨hempty.1 _ ?_, ?_, ?_⟩
  · rw [hlatched]
    rfl
  · exact ⟨_, _, (hfailed.2 (by rw [hstranded]; rfl)).1 _ (by rw [hrefused]; rfl)⟩
  · obtain ⟨ring, latch, free, through⟩ := (hgranted.2 (by rw [hlatched]; rfl)).2 hsuccess
    rw [hlatched] at free
    cases free
    exact ⟨_, _, through hfits (by decide)⟩

end CardHost
