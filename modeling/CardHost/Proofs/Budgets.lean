import CardHost.Proofs.Bracketing
import CardHost.Proofs.Bench.Refinement
import CardHost.Proofs.Finishing
import CardHost.Proofs.Reentrancy
import CardHost.Proofs.Transfers

/-!
# The time that operations take

With a bound on handshakes every operation returns, whatever the registers read, and the time it
stalls is bounded by the waits on its path: a handshake takes its bound at most, and polling a
completion takes at most the timeout that the number of polls was computed from.  `bounded_waits`
says so of the waits, and `perform_finishes` adds them up over every operation.

For a run it remains that what interrupts the operation returns too (`serveAt_returns`), and that
the replies are possible ones: pages that are granted end inside the address space, and so does the
ring behind the lock.
-/

namespace CardHost

variable {possible : Replies σ}

/-! ## Waits -/

namespace Window

variable {window : Window}

/-- A bounded wait stalls once per microsecond. -/
theorem finishes_sample (fits : window.Fits) (services : Services) (register : Register)
    (ready : UInt32 → Bool) (bound : Nat) :
    (window.sample services register.offset ready bound : Prog σ Bool).Finishes possible
      (fun _ => True) bound := by
  induction bound with
  | zero => exact (finishes_read fits register).step fun _ _ => trivial
  | succ bound ih =>
      refine (finishes_read fits register).step fun value _ => ?_
      split
      · exact trivial
      · exact (services.finishes_stall 1).bind (Nat.le_add_left 1 bound) fun _ _ => ih

/-- A bounded wait ends within its bound, and may fail. -/
theorem finishes_handshake (fits : window.Fits) (services : Services) (register : Register)
    (ready : UInt32 → Bool) (missed : Message) (bound : UInt32) :
    (window.handshake services register.offset ready missed (some bound) : Action σ Unit).Finishes
      possible True (fun _ => True) bound.toNat := by
  refine (Action.finishes_lift (finishes_sample fits services register ready bound.toNat)).bind
    (Nat.le_refl _) fun shown _ => ?_
  split
  · exact trivial
  · refine (Action.finishes_lift (Prog.finishes_log _)).bind (Nat.zero_le _) fun _ _ => ?_
    exact Action.finishes_throw trivial _ _

/-- A dump does not stall. -/
theorem finishes_dump (fits : window.Fits) :
    (window.dump : Prog σ Unit).Finishes possible (fun _ => True) 0 := by
  refine (Prog.finishes_log _).step fun _ _ => ?_
  generalize Register.dumped = registers
  induction registers with
  | nil => exact trivial
  | cons register rest ih =>
      refine Prog.Finishes.step (show Prog.Finishes possible (fun _ => True) _ 0 from ?_)
        fun _ _ => ih
      refine (Prog.finishes_request _).step fun shows _ => ?_
      split
      · exact (finishes_read fits register).step fun _ _ => Prog.finishes_log _
      · exact trivial

end Window

/-- The caller's side of a data phase is a slice of memory. -/
def Call.Sliced (call : Call) : Prop :=
  ∀ length buffer, call.phase? = some (length, buffer) → buffer.size < sliceLimit

namespace Host

variable {host : Host}

/-- Polling stalls once per poll. -/
theorem finishes_poll (fits : host.window.Fits) (finished : UInt32 → Bool) (polls : Nat) :
    (host.poll finished polls : Prog σ Poll).Finishes possible (fun _ => True)
      (polls * host.config.pollInterval.toNat) := by
  induction polls with
  | zero => exact trivial
  | succ polls ih =>
      rw [Nat.succ_mul]
      refine (Window.finishes_read fits .rawInterrupt).step fun status _ => ?_
      split
      · exact trivial
      · split
        · exact trivial
        · refine (host.services.finishes_stall _).bind (Nat.le_add_left _ _) fun _ _ => ?_
          rw [Nat.add_sub_cancel]
          exact ih

/-- Waiting for a completion takes no longer than its polls. -/
theorem finishes_completion (fits : host.window.Fits) (finished : UInt32 → Bool) {polls : Nat}
    (failed : UInt32 → Message) (timedOut : Message) {timeout : Nat}
    (within : polls * host.config.pollInterval.toNat ≤ timeout) :
    (host.completion finished polls failed timedOut : Action σ Unit).Finishes possible True
      (fun _ => True) timeout := by
  refine (Action.finishes_lift (finishes_poll fits _ _)).bind within fun ended _ => ?_
  cases ended with
  | finished => exact trivial
  | failed status =>
      exact (finishes_report _).step fun _ _ => Action.finishes_throw trivial _ _
  | exhausted => exact (finishes_report _).step fun _ _ => Action.finishes_throw trivial _ _

/-- A host whose handshakes are bounded, on a window that fits. -/
structure Bounded (host : Host) (handshake : UInt32) : Prop where
  fits : host.window.Fits
  bound : host.config.handshakeTimeout = some handshake

variable {handshake : UInt32}

theorem Bounded.finishes_handshake (h : host.Bounded handshake) (register : Register)
    (ready : UInt32 → Bool) (missed : Message) :
    (host.window.handshake host.services register.offset ready missed
      host.config.handshakeTimeout : Action σ Unit).Finishes possible True (fun _ => True)
      handshake.toNat := by
  rw [h.bound]
  exact Window.finishes_handshake h.fits host.services register ready missed handshake

/-- Replies in which pages that are granted end inside the address space. -/
def GrantsFit (possible : Replies σ) : Prop :=
  ∀ services count grant, possible (.allocate services count) grant → grant.status = .success →
    (Pages.mk services grant.address count).Fits

/-- The waits of a command and a data phase take no longer than they are bounded by. -/
theorem Bounded.waits (h : host.Bounded handshake) (grants : GrantsFit possible) :
    host.PhaseWaits possible True handshake.toNat host.config.commandTimeout.toNat
      host.config.dataTimeout.toNat where
  fits := h.fits
  dataIdle := h.finishes_handshake .status _ _
  cardIdle := h.finishes_handshake .status _ _
  accepted := h.finishes_handshake .command _ _
  completes word := finishes_completion h.fits _ _ _ (Nat.div_mul_le_self _ _)
  transfers := finishes_completion h.fits _ _ _ (Nat.div_mul_le_self _ _)
  grants services count grant hgrant := by
    by_cases hsuccess : grant.status = .success
    · rw [if_pos hsuccess]
      exact grants services count grant hgrant hsuccess
    · rw [if_neg hsuccess]
      trivial

/-! ## Clock and bring-up -/

theorem finishes_setBits (fits : host.window.Fits) (register : Register) (bits : UInt32) :
    (host.setBits register bits : Action σ Unit).Finishes possible True (fun _ => True) 0 :=
  Action.finishes_lift (Window.finishes_setBits fits register bits)

theorem finishes_clearBits (fits : host.window.Fits) (register : Register) (bits : UInt32) :
    (host.clearBits register bits : Action σ Unit).Finishes possible True (fun _ => True) 0 :=
  Action.finishes_lift (Window.finishes_clearBits fits register bits)

namespace Bounded

variable (h : host.Bounded handshake)
include h

theorem finishes_loadProfile (profile : UInt32) :
    (host.loadProfile profile : Action σ Unit).Finishes possible True (fun _ => True)
      handshake.toNat := by
  refine (finishes_write h.fits .clockExtension 0).step fun _ _ => ?_
  refine (finishes_write h.fits .clockExtension profile).step fun _ _ => ?_
  exact h.finishes_handshake .clockStatus _ _

theorem finishes_updateClock :
    (host.updateClock : Action σ Unit).Finishes possible True (fun _ => True)
      (2 * handshake.toNat) := by
  refine (finishes_write h.fits .argument 0).step fun _ _ => ?_
  refine (h.finishes_handshake .status _ _).bind (by omega) fun _ _ => ?_
  refine (finishes_write h.fits .command _).step fun _ _ => ?_
  exact (h.finishes_handshake .command _ _).mono (by omega) fun _ => id

/-- A clock change waits for the profile, and twice for a clock update. -/
theorem finishes_programClock (frequency : UInt32) :
    (host.programClock frequency : Action σ Unit).Finishes possible True (fun _ => True)
      (5 * handshake.toNat) := by
  unfold programClock
  split
  · refine (finishes_clearBits h.fits .clockEnable _).step fun _ _ => ?_
    refine (finishes_clearBits h.fits .clockExtension _).step fun _ _ => ?_
    exact (finishes_report _).mono (Nat.zero_le _) fun _ => id
  · have hdivider (profile : UInt32) : (host.divider profile frequency : Action σ Divider).Finishes
        possible True (fun _ => True) 0 := by
      unfold divider
      split
      · exact (finishes_report _).step fun _ _ => trivial
      · exact trivial
    refine (h.finishes_loadProfile _).bind (by omega) fun _ _ => ?_
    refine (finishes_clearBits h.fits .clockEnable _).step fun _ _ => ?_
    refine h.finishes_updateClock.bind (by omega) fun _ _ => ?_
    refine (hdivider _).step fun divider _ => ?_
    refine (finishes_write h.fits .clockDivider _).step fun _ _ => ?_
    refine (finishes_setBits h.fits .clockEnable _).step fun _ _ => ?_
    refine h.finishes_updateClock.bind (by omega) fun _ _ => ?_
    exact (finishes_report _).mono (Nat.zero_le _) fun _ => id

/-- A bring-up waits for the profile, for the resets, and for one clock update. -/
theorem finishes_bringUpController :
    (host.bringUpController : Action σ Unit).Finishes possible True (fun _ => True)
      (4 * handshake.toNat) := by
  refine (finishes_write h.fits .fifoThreshold _).step fun _ _ => ?_
  refine (finishes_write h.fits .cardThreshold _).step fun _ _ => ?_
  refine (finishes_clearBits h.fits .clockEnable _).step fun _ _ => ?_
  refine (h.finishes_loadProfile _).bind (by omega) fun _ _ => ?_
  refine (finishes_write h.fits .power _).step fun _ _ => ?_
  refine (finishes_setBits h.fits .clockEnable _).step fun _ _ => ?_
  refine (finishes_setBits h.fits .clockExtension _).step fun _ _ => ?_
  refine (finishes_clearBits h.fits .uhs _).step fun _ _ => ?_
  refine (finishes_setBits h.fits .control _).step fun _ _ => ?_
  refine (h.finishes_handshake .control _ _).bind (by omega) fun _ _ => ?_
  refine h.finishes_updateClock.bind (by omega) fun _ _ => ?_
  refine Action.Finishes.mono ?_ (Nat.zero_le _) fun _ => id
  refine (finishes_setBits h.fits .cardReset _).step fun _ _ => ?_
  refine (finishes_write h.fits .interruptMask _).step fun _ _ => ?_
  refine (finishes_write h.fits .rawInterrupt _).step fun _ _ => ?_
  refine (finishes_write h.fits .dmaInterrupt _).step fun _ _ => ?_
  refine (finishes_setBits h.fits .control _).step fun _ _ => ?_
  refine (finishes_write h.fits .timeouts _).step fun _ _ => ?_
  exact finishes_report _

end Bounded

theorem finishes_readRegisters (fits : host.window.Fits) (registers : List Register) :
    (host.readRegisters registers : Prog σ (List UInt32)).Finishes possible (fun _ => True) 0 := by
  induction registers with
  | nil => exact trivial
  | cons register rest ih =>
      refine (Window.finishes_read fits register).step fun value _ => ?_
      exact ih.step fun _ _ => trivial

/-! ## Operations -/

/-- The microseconds that an operation may stall when every handshake may take `handshake`. -/
def stallBudget (host : Host) (handshake : Nat) : Call → Nat
  | .sendCommand .. => 3 * handshake + host.config.commandTimeout.toNat
  | .readData .. =>
    3 * handshake + host.config.commandTimeout.toNat + host.config.dataTimeout.toNat
  | .writeData .. =>
    3 * handshake + host.config.commandTimeout.toNat + host.config.dataTimeout.toNat
  | .setBus .. => 5 * handshake
  | .setClock _ => 5 * handshake
  | .bringUp => 4 * handshake
  | .notify _ => 9 * handshake
  | _ => 0

/-- Replies in which the ring behind the lock ends inside the address space. -/
def RingsFit (possible : Replies HostState) : Prop :=
  ∀ state, possible .take (some state) → state.ring.place state.ring.count < wordSpan

/-- An action under the lock takes its own time. -/
theorem finishes_during {possible : Replies HostState} {action : Action HostState α} {budget : Nat}
    (h : action.Finishes possible True (fun _ => True) budget) :
    (host.lock.during action).Finishes possible (fun _ => True) budget :=
  Lock.finishes_holding (fun _ => trivial) fun _ _ =>
    Prog.Finishes.bind h (Nat.le_refl _) fun _ _ => trivial

/-- Every operation finishes within its budget. -/
theorem Bounded.perform_finishes {possible : Replies HostState} (bounded : host.Bounded handshake)
    (grants : GrantsFit possible) (rings : RingsFit possible) {call : Call} (sliced : call.Sliced) :
    (host.perform call).Finishes possible (fun _ => True)
      (host.stallBudget handshake.toNat call) := by
  have answers {α : Type} {program : Prog HostState α} {finish : α → Answer}
      {budget : Nat} (h : program.Finishes possible (fun _ => True) budget) :
      (program.bind fun value => .done (finish value)).Finishes possible (fun _ => True) budget :=
    h.bind (Nat.le_refl _) fun _ _ => trivial
  have phase {length : Nat} {buffer : DataBuffer} (hphase : call.phase? = some (length, buffer)) :
      (host.perform call).Finishes possible (fun _ => True) (3 * handshake.toNat
        + host.config.commandTimeout.toNat + host.config.dataTimeout.toNat) := by
    rw [host.perform_phase hphase]
    refine answers (Lock.finishes_holding (fun _ => trivial) fun state hstate => ?_)
    exact ((bounded.waits grants).finishes_runPhase (rings state hstate) (sliced _ _ hphase)
      (.inl trivial)).mono (Nat.le_refl _) fun _ _ => trivial
  cases call with
  | sendCommand index argument =>
      show ((host.lock.holding (host.commandBody index argument)).bind _).Finishes _ _ _
      refine answers (Lock.finishes_holding (fun _ => trivial) fun state _ => ?_)
      exact ((bounded.waits grants).toWaits.finishes_commandBody index argument state).mono
        (Nat.le_refl _) fun _ _ => trivial
  | readData length buffer => exact phase rfl
  | writeData length source => exact phase rfl
  | receiveResponse type buffer =>
      show ((host.receiveResponse type buffer).bind _).Finishes _ _ _
      unfold receiveResponse
      split
      · exact answers ((Prog.finishes_log _).step fun _ _ => trivial)
      · refine answers (Prog.Finishes.step (finishes_during (Action.finishes_lift
          (finishes_readRegisters bounded.fits _))) fun outcome _ => ?_)
        cases outcome <;> exact trivial
  | setBus frequency lines timing =>
      show ((host.setBus frequency lines timing).bind _).Finishes _ _ _
      unfold setBus
      split
      · exact answers ((Prog.finishes_log _).step fun _ _ => trivial)
      · refine answers (finishes_during ?_)
        refine (finishes_report _).step fun _ _ => ?_
        refine (finishes_write bounded.fits .cardType _).step fun _ _ => ?_
        split
        · exact trivial
        · exact bounded.finishes_programClock frequency
  | setClock frequency =>
      exact answers (finishes_during (bounded.finishes_programClock frequency))
  | bringUp => exact answers (finishes_during bounded.finishes_bringUpController)
  | notify state =>
      cases state with
      | hardwareInit =>
          refine answers (finishes_during ?_)
          show Action.Finishes possible True (fun _ => True) _ (9 * handshake.toNat)
          refine bounded.finishes_bringUpController.bind (by omega) fun _ _ => ?_
          exact (bounded.finishes_programClock _).mono (by omega) fun _ => id
      | _ => exact answers ((Prog.finishes_log _).step fun _ _ => trivial)
  | pending => exact answers (Lock.finishes_holding (fun _ => trivial) fun _ _ => trivial)
  | dump => exact answers (Window.finishes_dump bounded.fits)
  | limits => exact trivial
  | config => exact trivial
  | facts => exact trivial

end Host

/-! ## Runs -/

section Runs

variable {machine : Machine ι}

/-- Events that neither touch registers nor pages do not stall. -/
theorem System.stalled_extend_of_idle {events : List (Event ρ)} (h : ∀ event ∈ events, event.IsIdle)
    (system : System machine σ ρ) : (system.extend events).stalled = system.stalled := by
  unfold System.stalled System.extend
  induction events with
  | nil => rfl
  | cons event rest ih =>
      have hspent : event.stalls = 0 := by
        have hidle := h event List.mem_cons_self
        cases event with
        | stalled => exact hidle.elim
        | _ => rfl
      have hrest := ih fun other hmem => h other (List.mem_cons_of_mem _ hmem)
      rw [List.cons_append, Journal.stalls_cons, hspent, Nat.zero_add]
      exact hrest

/-- A program that writes no register is not interrupted. -/
theorem Prog.Obeys.not_interrupted {handler : ι → Prog σ ρ} {depth : Nat} {post : α → Prop}
    {program : Prog σ α} (h : program.Obeys Request.Silent post) (system : System machine σ ρ) :
    ∀ moment ∈ program.moments handler depth system, ∀ i after,
      (moment.system.answer moment.request).2 ≠ (some i, after) := by
  intro moment hmem i after hinterrupted
  have hsilent := h.of_mem_moments handler depth system moment hmem
  have hnone : (moment.system.answer moment.request).2.1 = none := by
    apply answer_not_interrupted
    intro window offset value heq
    rw [heq] at hsilent
    exact hsilent
  rw [hinterrupted] at hnone
  cases hnone

namespace Host

variable {host : Host} {handler : ι → Prog HostState ρ} {depth : Nat}

/-- A dump ends and does not stall. -/
theorem run_dump (fits : host.window.Fits) (system : System machine HostState ρ) :
    ∃ answer after, (host.perform .dump).run handler depth system = .ok (answer, after)
      ∧ after.cell = system.cell ∧ after.level = system.level ∧ after.stalled ≤ system.stalled := by
  have hsilent := host.asks_perform_dump.mono fun _ => Request.OnRegisters.silent
  have hfinishes : (host.perform .dump).Finishes (fun _ _ => True) (fun _ => True) 0 :=
    (Window.finishes_dump fits).step fun _ _ => trivial
  have hserved : ∀ moment ∈ (host.perform .dump).moments handler depth system, ∀ i after,
      (moment.system.answer moment.request).2 = (some i, after) →
        ∃ last, Prog.serveAt handler depth i after = .ok last ∧ last.stalled ≤ after.stalled :=
    fun moment hmem i after hinterrupted =>
      (hsilent.not_interrupted system moment hmem i after hinterrupted).elim
  obtain ⟨answer, after, hran, -, hstalled⟩ := hfinishes.run (fun _ _ => trivial) hserved
  obtain ⟨-, hcell, hlevel⟩ := hsilent.run_silent hran
  exact ⟨answer, after, hran, hcell, hlevel, hstalled⟩

/-- At a held lock an operation ends and does not stall. -/
theorem run_guarded (fits : host.window.Fits) (call : Call)
    {system : System machine HostState (List Answer)} (guards : host.lock.Guards system)
    (handler : ι → Prog HostState (List Answer)) (depth : Nat) :
    ∃ answer after, (host.perform call).run handler depth system = .ok (answer, after)
      ∧ host.lock.Guards after ∧ after.stalled ≤ system.stalled := by
  by_cases hdump : call = .dump
  · subst hdump
    obtain ⟨answer, after, hran, hcell, hlevel, hstalled⟩ := run_dump fits system
    exact ⟨answer, after, hran, ⟨hcell.trans guards.held, hlevel.trans guards.level⟩, hstalled⟩
  · have harmless : host.Harmless machine call := host.harmless hdump
    have hidle := harmless.idle system.level
    exact ⟨_, _, run_perform_of_held host handler depth hdump guards.held,
      ⟨guards.held, guards.level⟩, Nat.le_of_eq (System.stalled_extend_of_idle hidle system)⟩

/-- Operations that interrupt a register write return, and do not stall. -/
theorem serveAt_returns (fits : host.window.Fits) (calls : ι → List Call) (depth : Nat) (i : ι)
    {system : System machine HostState (List Answer)} (guards : host.lock.Guards system) :
    ∃ last, Prog.serveAt (fun i => host.performAll (calls i)) depth i system = .ok last
      ∧ last.stalled ≤ system.stalled := by
  cases depth with
  | zero => exact ⟨system, rfl, Nat.le_refl _⟩
  | succ depth =>
      have hall (pending : List Call) {entered : System machine HostState (List Answer)}
          (h : host.lock.Guards entered) :
          ∃ answers after, (host.performAll pending).run (fun i => host.performAll (calls i)) depth
            entered = .ok (answers, after) ∧ after.stalled ≤ entered.stalled := by
        induction pending generalizing entered with
        | nil => exact ⟨[], entered, rfl, Nat.le_refl _⟩
        | cons call rest ih =>
            obtain ⟨answer, middle, hfirst, hmiddle, hle⟩ :=
              run_guarded fits call h (fun i => host.performAll (calls i)) depth
            obtain ⟨answers, after, hrest, hlast⟩ := ih hmiddle
            refine ⟨answer :: answers, after, ?_, Nat.le_trans hlast hle⟩
            rw [performAll, Prog.run_bind, hfirst]
            dsimp only
            rw [Prog.run_bind, hrest]
            rfl
      have hentered : host.lock.Guards (system.note .entered) := ⟨guards.held, guards.level⟩
      obtain ⟨answers, after, hran, hle⟩ := hall (calls i) hentered
      have hnote (noted : System machine HostState (List Answer)) {event : Event (List Answer)}
          (h : event.stalls = 0) : (noted.note event).stalled = noted.stalled := by
        unfold System.stalled System.note
        rw [Journal.stalls_cons, h, Nat.zero_add]
      refine ⟨after.note (.left answers), ?_, ?_⟩
      · rw [Prog.serveAt, show (host.performAll (calls i)).runWith _ (system.note .entered) = _
          from hran]
      · rw [hnote after rfl]
        rw [hnote system rfl] at hle
        exact hle

/-- Replies in which all addresses that come up end inside the address space. -/
def Fitting : Replies HostState := fun request =>
  match request with
  | .allocate services count => fun grant =>
    grant.status = .success → (Pages.mk services grant.address count).Fits
  | .take => fun taken =>
    ∀ state, taken = some state → state.ring.place state.ring.count < wordSpan
  | _ => fun _ => True

/-- A ring that ends inside the address space has all its places there. -/
theorem place_lt_of_fits {state : HostState} (hreached : host.Reached state)
    (fits : (state.ring.owned host.services).Fits) :
    state.ring.place state.ring.count < wordSpan := by
  obtain ⟨⟨-, hpages⟩, -⟩ := hreached.sized_proper
  have hle := le_pagesFor (state.ring.count * descriptorSize)
  rw [← hpages] at hle
  unfold Pages.Fits Ring.owned at fits
  unfold Ring.place
  dsimp only at fits
  omega

/-- The replies of a run fit if the ring and the pages that are granted do. -/
theorem fitting_of_mem_trace (calls : ι → List Call) (depth : Nat) {call : Call}
    (hdump : call ≠ .dump) {system : System machine HostState (List Answer)}
    (rings : ∀ state, system.cell = some state →
      host.Reached state ∧ (state.ring.owned host.services).Fits)
    (grants : ∀ pages ∈ ((host.perform call).trace (fun i => host.performAll (calls i)) depth
      system).filterMap Moment.granted?, pages.Fits) :
    ∀ moment ∈ (host.perform call).trace (fun i => host.performAll (calls i)) depth system,
      Fitting moment.request (moment.system.answer moment.request).1 := by
  intro moment hmem
  have hplaced := host.placed_of_mem_trace calls depth hdump system moment hmem
  have hgranted := fun pages h => grants pages (List.mem_filterMap.mpr ⟨moment, hmem, h⟩)
  obtain ⟨request, asked⟩ := moment
  cases request with
  | allocate services count =>
      intro hsuccess
      exact hgranted _ (if_pos hsuccess)
  | take =>
      intro state htaken
      have hcell : asked.cell = some state := htaken
      rcases hplaced with ⟨-, hguards⟩ | ⟨-, hsame⟩
      · rw [hguards.held] at hcell
        cases hcell
      · obtain ⟨hreached, hfits⟩ := rings state ((hsame rfl).symm.trans hcell)
        exact place_lt_of_fits hreached hfits
  | _ => trivial

/-- What interrupts an operation returns, and does not stall. -/
theorem interruptions_return (fits : host.window.Fits) (calls : ι → List Call) (depth : Nat)
    {call : Call} (hdump : call ≠ .dump) (system : System machine HostState (List Answer)) :
    ∀ moment ∈ (host.perform call).trace (fun i => host.performAll (calls i)) depth system,
      ∀ i after, (moment.system.answer moment.request).2 = (some i, after) →
        ∃ last, Prog.serveAt (fun i => host.performAll (calls i)) depth i after = .ok last
          ∧ last.stalled ≤ after.stalled := by
  intro moment hmem i after hinterrupted
  have hplaced := host.placed_of_mem_trace calls depth hdump system moment hmem
  obtain ⟨request, asked⟩ := moment
  cases request with
  | write window offset value =>
      have hguards : host.lock.Guards asked := by
        rcases hplaced with ⟨-, hguards⟩ | ⟨hidle, -⟩
        · exact hguards
        · exact (hidle trivial).elim
      have hinner : (Request.write window offset value : Request HostState).Inner := trivial
      have hkept := answer_inner hinner asked
      rw [hinterrupted] at hkept
      exact serveAt_returns fits calls depth i
        ⟨hkept.1.trans hguards.held, hkept.2.trans hguards.level⟩
  | _ => cases hinterrupted

/-- With a bound on handshakes every operation on any state of the host returns, whatever the
registers read, whatever the allocator answers and whatever operations interrupt it, and what it
stalls stays within its budget.  No address past the end of the address space comes up: the window,
the ring and the pages that are granted end inside. -/
theorem perform_within_budget {handshake : UInt32} (bounded : host.Bounded handshake)
    (calls : ι → List Call) (depth : Nat) {call : Call} (sliced : call.Sliced)
    {system : System machine HostState (List Answer)}
    (rings : ∀ state, system.cell = some state →
      host.Reached state ∧ (state.ring.owned host.services).Fits)
    (grants : ∀ pages ∈ ((host.perform call).trace (fun i => host.performAll (calls i)) depth
      system).filterMap Moment.granted?, pages.Fits) :
    ∃ answer after, (host.perform call).run (fun i => host.performAll (calls i)) depth system =
        .ok (answer, after)
      ∧ after.stalled ≤ system.stalled + host.stallBudget handshake.toNat call := by
  by_cases hdump : call = .dump
  · subst hdump
    obtain ⟨answer, after, hran, -, -, hstalled⟩ := run_dump bounded.fits system
    exact ⟨answer, after, hran, hstalled⟩
  · have hfinishes : (host.perform call).Finishes Fitting (fun _ => True)
        (host.stallBudget handshake.toNat call) :=
      bounded.perform_finishes (fun _ _ _ hgrant hsuccess => hgrant hsuccess)
        (fun state htaken => htaken state rfl) sliced
    have hfitting := fitting_of_mem_trace calls depth hdump rings grants
    have hserved := interruptions_return bounded.fits calls depth hdump system
    obtain ⟨answer, after, hran, -, hstalled⟩ :=
      hfinishes.run (fun moment hmem => hfitting moment (Prog.mem_trace_of_mem_moments _ _ hmem))
        (fun moment hmem => hserved moment (Prog.mem_trace_of_mem_moments _ _ hmem))
    exact ⟨answer, after, hran, hstalled⟩

/-! ### A write that times out -/

/-- What a load of the hasty host and a write command leave behind the lock. -/
def latchedState : HostState :=
  ⟨⟨0x1F0000000, 1, 1⟩, some ⟨CommandWord.ofCommand 24 0, 0⟩⟩

theorem latchedState_reached : hastyHost.Reached latchedState := by
  obtain ⟨start, loaded⟩ : ∃ start,
      (Slot.empty.load hastyHost.config .supplied).run (fun call => hastyHost.performAll [call]) 1
        smallBench = .ok ((.ok (), ⟨some hastyHost⟩), start) := ⟨_, rfl⟩
  obtain ⟨now, ran, left⟩ : ∃ now,
      hastyHost.After (fun call => hastyHost.performAll [call]) 1 start [⟨.sendCommand 24 0, true⟩]
        now ∧ now.cell = some latchedState := by
    cases loaded
    exact ⟨_, .next (.admitted rfl) .none, rfl⟩
  exact .intro (fun call => [call]) loaded ran left

theorem hastyHost_bounded : hastyHost.Bounded 1000000 where
  fits := fun register => by cases register <;> decide
  bound := rfl

/-- Where the data never arrives and an operation interrupts the command, a write returns within
three handshakes of a second and one poll for each completion. -/
theorem stuck_write_within_budget :
    ∃ answer after, (hastyHost.perform (.writeData 1 [7])).run
        (fun call => hastyHost.performAll [call]) 1 interruptedBench = .ok (answer, after)
      ∧ after.stalled ≤ interruptedBench.stalled + 3001000 := by
  have hcell : interruptedBench.cell = some latchedState := by
    decide +kernel
  have hgranted : ((hastyHost.perform (.writeData 1 [7])).trace
      (fun call => hastyHost.performAll [call]) 1 interruptedBench).filterMap Moment.granted? =
        [⟨.supplied, 0x1F0001000, 1⟩] := by
    decide +kernel
  have hsliced : Call.Sliced (.writeData 1 [7]) := by
    intro length buffer hphase
    cases hphase
    decide
  apply perform_within_budget hastyHost_bounded (fun call => [call]) 1 hsliced
  · intro state hstate
    rw [hcell] at hstate
    cases hstate
    exact ⟨latchedState_reached, by unfold Pages.Fits; decide⟩
  · rw [show ((hastyHost.perform (.writeData 1 [7])).trace _ 1 interruptedBench).filterMap _ = _
      from hgranted]
    intro pages hmem
    rw [List.mem_singleton] at hmem
    subst hmem
    unfold Pages.Fits
    decide

end Host

end Runs

end CardHost
