import CardHost.Proofs.Accesses
import CardHost.Proofs.Staging
import CardHost.Proofs.Writes

/-!
# How close the card clock comes to the frequency asked for

The divider is the quotient of the reference clock and the frequency, rounded down.  Rounding down
makes the card clock too fast where the quotient is not whole: `Divider.Approaches` says by how
much, and exactly when it is not.  One more divider would always be slow enough.

Every write of the divider register carries this divider for the frequency that the operation was
asked for, computed with the profile that was loaded last (`Host.clock_within_one_divider`).
Operations that set no clock do not write the register.
-/

namespace CardHost

namespace Divider

/-! ## Rounding -/

/-- The number of a divider is the clamped quotient. -/
theorem divider_compute (baseClock profile frequency : UInt32) :
    (compute baseClock profile frequency).divider.toNat =
      clamp (quotient baseClock profile frequency) := by
  have hlt : clamp (quotient baseClock profile frequency) < 2 ^ 32 :=
    Nat.lt_of_le_of_lt (clamp_le _) (by decide)
  unfold compute ofNat
  split
  · exact UInt32.toNat_ofNat_of_lt' hlt
  · exact UInt32.toNat_ofNat_of_lt' hlt

/-- The low byte of the divider register is the number of the divider. -/
theorem encode_mod (d : Divider) : d.encode.toNat % 0x100 = d.divider.toNat % 0x100 := by
  have hsample : (d.sample <<< 16).toNat % 2 ^ 8 = 0 := by
    rw [UInt32.toNat_shiftLeft, Nat.shiftLeft_eq]
    change d.sample.toNat * 2 ^ 16 % 2 ^ 32 % 2 ^ 8 = 0
    omega
  have hdrive : (d.drive <<< 8).toNat % 2 ^ 8 = 0 := by
    rw [UInt32.toNat_shiftLeft, Nat.shiftLeft_eq]
    change d.drive.toNat * 2 ^ 8 % 2 ^ 32 % 2 ^ 8 = 0
    omega
  have hdivider : (d.divider &&& 0xFF).toNat = d.divider.toNat % 2 ^ 8 := by
    rw [UInt32.toNat_and]
    exact Nat.and_two_pow_sub_one_eq_mod d.divider.toNat 8
  change d.encode.toNat % 2 ^ 8 = d.divider.toNat % 2 ^ 8
  rw [encode, UInt32.toNat_or, UInt32.toNat_or, Nat.or_mod_two_pow, Nat.or_mod_two_pow, hsample,
    hdrive, hdivider, Nat.mod_mod]
  simp only [Nat.or_zero, Nat.zero_or]

theorem encode_compute_mod (baseClock profile frequency : UInt32) :
    (compute baseClock profile frequency).encode.toNat % 0x100 =
      (compute baseClock profile frequency).divider.toNat := by
  have hle := clamp_le (quotient baseClock profile frequency)
  rw [encode_mod, divider_compute]
  omega

/-- Some divider makes the card clock slow enough: the largest one does. -/
def Honours (baseClock profile frequency : UInt32) : Prop :=
  baseClock.toNat ≤ 2 * profileDivisor profile * 255 * frequency.toNat

instance (baseClock profile frequency : UInt32) :
    Decidable (Honours baseClock profile frequency) :=
  inferInstanceAs (Decidable (_ ≤ _))

/-- How a divider in use relates the card clock to a frequency.  With the divider `d` the card runs
at the reference clock over twice the profile's divisor times `d`. -/
structure Approaches (baseClock profile frequency : UInt32) (divider : Nat) : Prop where
  range : 1 ≤ divider ∧ divider ≤ 255
  /-- The next divider would be slow enough. -/
  below_next :
    baseClock.toNat < 2 * profileDivisor profile * (divider + 1) * frequency.toNat
  /-- The card is not too fast exactly if the smallest divider is slow enough or the quotient is
  whole. -/
  slow_iff : baseClock.toNat ≤ 2 * profileDivisor profile * divider * frequency.toNat ↔
    baseClock.toNat ≤ 2 * profileDivisor profile * frequency.toNat
      ∨ 2 * profileDivisor profile * frequency.toNat ∣ baseClock.toNat

/-- A clamped quotient and its remainder, where the divisor is not too small for the range. -/
theorem clamp_div_bounds {base step : Nat} (hstep : 0 < step) (hhonours : base ≤ step * 255) :
    base < step * (clamp (base / step) + 1)
      ∧ (base ≤ step * clamp (base / step) ↔ base ≤ step ∨ step ∣ base) := by
  have hrange : base / step ≤ 255 := Nat.div_le_of_le_mul hhonours
  by_cases hsmall : base < step
  · have hzero : base / step = 0 := Nat.div_eq_of_lt hsmall
    have hclamp : clamp (base / step) = 1 := by rw [hzero]; rfl
    rw [hclamp]
    omega
  · have hpositive : 1 ≤ base / step := (Nat.one_le_div_iff hstep).mpr (Nat.le_of_not_lt hsmall)
    have hclamp : clamp (base / step) = base / step :=
      (clamp_eq_self_iff _).mpr ⟨hpositive, hrange⟩
    have hwhole : step * (base / step) + base % step = base := Nat.div_add_mod base step
    have hrest : base % step < step := Nat.mod_lt base hstep
    rw [hclamp]
    constructor
    · rw [Nat.mul_add]
      omega
    · rw [Nat.dvd_iff_mod_eq_zero]
      constructor
      · intro hle
        right
        omega
      · rintro (hle | hdvd)
        · have hequal : base = step := by omega
          rw [hequal, Nat.div_self hstep]
          omega
        · omega

/-- The divider that is computed comes as close as rounding down gets. -/
theorem compute_approaches {baseClock profile frequency : UInt32} (positive : 0 < frequency)
    (honours : Honours baseClock profile frequency) :
    Approaches baseClock profile frequency
      (compute baseClock profile frequency).divider.toNat := by
  have hfrequency : 0 < frequency.toNat := UInt32.lt_iff_toNat_lt.mp positive
  have hdivisor : 0 < profileDivisor profile := by
    unfold profileDivisor
    omega
  have hstep : 0 < 2 * profileDivisor profile * frequency.toNat :=
    Nat.mul_pos (Nat.mul_pos (by decide) hdivisor) hfrequency
  have hregroup (d : Nat) : 2 * profileDivisor profile * d * frequency.toNat =
      2 * profileDivisor profile * frequency.toNat * d := Nat.mul_right_comm _ _ _
  have hquotient : quotient baseClock profile frequency =
      baseClock.toNat / (2 * profileDivisor profile * frequency.toNat) := by
    rw [quotient, Nat.max_eq_left hfrequency]
  unfold Honours at honours
  rw [hregroup] at honours
  obtain ⟨hnext, hslow⟩ := clamp_div_bounds hstep honours
  rw [divider_compute, hquotient]
  constructor
  · exact ⟨clamp_pos _, clamp_le _⟩
  · rw [hregroup]
    exact hnext
  · rw [hregroup]
    exact hslow

/-- The standard high speed clock: with the divider computed for 52 MHz the card runs at more than
66 MHz, although the next divider would be slow enough. -/
theorem high_speed_too_fast :
    Honours HostConfig.standard.baseClock (HostConfig.standard.profiles.select 52000000) 52000000
      ∧ (compute HostConfig.standard.baseClock (HostConfig.standard.profiles.select 52000000)
          52000000).divider = 3
      ∧ ¬ HostConfig.standard.baseClock.toNat ≤
          2 * profileDivisor (HostConfig.standard.profiles.select 52000000) * 3
            * (52000000 : UInt32).toNat
      ∧ 2 * profileDivisor (HostConfig.standard.profiles.select 52000000) * 3 * 66000000 <
          HostConfig.standard.baseClock.toNat := by
  decide

end Divider

/-! ## Operations -/

/-- The frequency that an operation sets the card clock to.  Zero stops the clock. -/
def Call.clockFrequency? : Call → Option UInt32
  | .setBus frequency _ _ => some frequency
  | .setClock frequency => some frequency
  | .notify .hardwareInit => some identificationClock
  | _ => none

theorem Call.divider_not_mem_registers {call : Call} (h : call.clockFrequency? = none) :
    .clockDivider ∉ call.registers := by
  cases call with
  | setBus => cases h
  | setClock => cases h
  | notify state =>
      cases state with
      | hardwareInit => cases h
      | _ => exact List.not_mem_nil
  | sendCommand =>
      show .clockDivider ∉ Host.commandRegisters
      decide
  | readData =>
      show .clockDivider ∉ Register.command :: Host.phaseRegisters
      decide
  | writeData =>
      show .clockDivider ∉ Register.command :: Host.phaseRegisters
      decide
  | bringUp => decide
  | _ => exact List.not_mem_nil

namespace Host

variable (host : Host)

/-- The divider register is written with the divider of a frequency that was asked for, and behind
the write of the profile that the divider is computed with. -/
def ClocksAt (asked : Option UInt32) (past : List Access) (request : Request σ) : Prop :=
  ∀ value, request = .write host.window Register.clockDivider.offset value →
    ∃ frequency, asked = some frequency ∧ 0 < frequency
      ∧ past.getLast? = some (.wrote .clockExtension (host.config.profiles.select frequency))
      ∧ value = (Divider.compute host.config.baseClock (host.config.profiles.select frequency)
          frequency).encode

/-- The monitor of clock changes. -/
abbrev clocking (asked : Option UInt32) : Monitor σ :=
  recording host.window [.clockExtension] (host.ClocksAt asked)

section Walk

variable {host} {asked : Option UInt32} {past : List Access} {profile : UInt32}

/-- A request that does not write the divider is allowed at any time. -/
theorem ClocksAt.of_writing {registers : List Register} {request : Request σ}
    (h : request.Writing registers) (hmem : .clockDivider ∉ registers) :
    host.ClocksAt asked past request :=
  fun value hrequest => (h.ne hmem host.window value hrequest).elim

theorem ClocksAt.of_avoids {request : Request σ} (h : request.Avoids [.clockDivider]) :
    host.ClocksAt asked past request := by
  rintro value rfl
  exact (h .clockDivider List.mem_cons_self rfl).elim

/-- A program that does not write the divider may go on from any accesses. -/
theorem clocks_of_writing {registers : List Register} {program : Prog σ α}
    (h : program.Asks (Request.Writing registers)) (hmem : .clockDivider ∉ registers) :
    program.Heeds (host.clocking asked) (fun _ _ => True) past := by
  apply Prog.Asks.heeds (h.mono _) trivial
  intro request hwriting _ _
  exact ⟨ClocksAt.of_writing hwriting hmem, fun _ => trivial⟩

theorem clocks_action {registers : List Register} {action : Action σ α}
    (h : action.Asks (Request.Writing registers)) (hmem : .clockDivider ∉ registers) :
    action.Heeds (host.clocking asked) (fun _ _ => True) past :=
  (clocks_of_writing h hmem).mono fun _ _ _ _ _ => trivial

/-- The profile that was loaded last. -/
def Loaded (profile : UInt32) (past : List Access) : Prop :=
  past.getLast? = some (.wrote .clockExtension profile)

/-- What leaves profile and divider alone keeps the profile loaded. -/
theorem Loaded.kept {action : Action σ α}
    (h : action.Asks (Request.Avoids [.clockExtension, .clockDivider]))
    (loaded : Loaded profile past) :
    action.Heeds (host.clocking asked) (fun _ => Loaded profile) past := by
  apply Action.Asks.heeds (Prog.Asks.mono h _) loaded
  intro request havoids
  apply keeps_of_avoids (havoids.mono (by decide))
  intro past _
  exact ClocksAt.of_avoids (havoids.mono (by decide))

theorem clocks_write {register : Register} (h : register ≠ .clockDivider) (value : UInt32) :
    (host.window.write register.offset value : Prog σ Unit).Heeds (host.clocking asked)
      (fun _ later => later = past ++ ((.write host.window register.offset value :
        Request σ).access? host.window [.clockExtension] ()).toList) past := by
  apply host.window.records_write
  · exact fun _ => ClocksAt.of_avoids trivial
  · apply ClocksAt.of_avoids
    exact Request.avoids_write (by simpa using h) value

/-- Loading a profile ends with that profile loaded. -/
theorem clocks_loadProfile :
    (host.loadProfile profile : Action σ Unit).Heeds (host.clocking asked)
      (fun _ => Loaded profile) past := by
  have hready : (host.awaitSet .clockStatus clockStatusReady : Action σ Unit).Asks
      (Request.Avoids [.clockExtension, .clockDivider]) := by
    apply Prog.Asks.avoids
    · exact host.window.reading_handshake host.services (by decide) _ _ _
    · exact Window.asks_handshake _ _ _ _ _
  apply Action.Heeds.bind (Action.heeds_lift (clocks_write (by decide) 0))
  intro _ later _
  apply Action.Heeds.bind (Action.heeds_lift (clocks_write (by decide) profile))
  intro _ later hlater
  rw [Request.access?_write List.mem_cons_self, Option.toList_some] at hlater
  apply Loaded.kept hready
  rw [hlater]
  exact List.getLast?_concat

/-- Gating the clock leaves the profile and the divider alone. -/
theorem avoids_gate :
    (host.clearBits .clockEnable clockEnableCard : Action σ Unit).Asks
      (Request.Avoids [.clockExtension, .clockDivider]) := by
  apply Prog.Asks.avoids
  · exact host.reading_clearBits (by decide) _
  · exact Action.asks_lift (Window.asks_clearBits fun _ => by decide)

/-- So does the command that makes the card interface take it over. -/
theorem avoids_updateClock :
    (host.updateClock : Action σ Unit).Asks
      (Request.Avoids [.clockExtension, .clockDivider]) := by
  apply Prog.Asks.avoids
  · exact host.reading_post _ _ (by decide)
  · exact asks_post host (by decide) (by decide)

theorem clocks_divider {frequency : UInt32} (loaded : Loaded profile past) :
    (host.divider profile frequency : Action σ Divider).Heeds (host.clocking asked)
      (fun divider later => divider = .compute host.config.baseClock profile frequency
        ∧ Loaded profile later) past := by
  have hreport (message : Message) : (report message : Action σ Unit).Asks
      (Request.Avoids [.clockExtension, .clockDivider]) := Action.asks_lift (asks_log _ trivial)
  unfold divider
  split
  · apply Action.Heeds.bind (Loaded.kept (hreport _) loaded)
    rintro _ later hlater _ ⟨⟩
    exact ⟨rfl, hlater⟩
  · rintro _ ⟨⟩
    exact ⟨rfl, loaded⟩

/-- Stopping the clock does not write the divider. -/
theorem writing_stop (host : Host) :
    (do host.clearBits .clockEnable clockEnableCard
        host.clearBits .clockExtension ClockExtension.externalClock
        report .clockStopped : Action σ Unit).Asks (Request.Writing gatingRegisters) := by
  have hgate : (host.clearBits .clockEnable clockEnableCard : Action σ Unit).Asks
      (Request.OnRegisters host.window fun register _ => register ∈ gatingRegisters) :=
    Action.asks_lift (Window.asks_clearBits fun _ => by decide)
  have hexternal : (host.clearBits .clockExtension ClockExtension.externalClock :
      Action σ Unit).Asks
        (Request.OnRegisters host.window fun register _ => register ∈ gatingRegisters) :=
    Action.asks_lift (Window.asks_clearBits fun _ => by decide)
  apply Prog.Asks.mono (hgate.bind _) fun _ => Request.OnRegisters.writing
  intro _
  exact hexternal.bind fun _ => asks_report _

/-- Once the clock runs again, the divider is not written any more. -/
theorem writing_resume (host : Host) (frequency profile : UInt32) (divider : Divider) :
    (do host.setBits .clockEnable clockEnableCard
        host.updateClock
        report (.clockSet frequency profile divider) : Action σ Unit).Asks
      (Request.Writing gatingRegisters) := by
  have henable : (host.setBits .clockEnable clockEnableCard : Action σ Unit).Asks
      (Request.OnRegisters host.window fun register _ => register ∈ gatingRegisters) :=
    Action.asks_lift (Window.asks_setBits fun _ => by decide)
  have hupdate : (host.updateClock : Action σ Unit).Asks
      (Request.OnRegisters host.window fun register _ => register ∈ gatingRegisters) :=
    asks_post host (by decide) (by decide)
  apply Prog.Asks.mono (henable.bind _) fun _ => Request.OnRegisters.writing
  intro _
  exact hupdate.bind fun _ => asks_report _

/-- A clock change writes the divider of its frequency, behind the profile of that frequency. -/
theorem clocks_programClock (frequency : UInt32) :
    (host.programClock frequency : Action σ Unit).Heeds (host.clocking (some frequency))
      (fun _ _ => True) past := by
  unfold programClock
  by_cases hzero : frequency = 0
  · rw [if_pos hzero]
    exact clocks_action host.writing_stop (by decide)
  · rw [if_neg hzero]
    have hpositive : 0 < frequency := UInt32.pos_iff_ne_zero.mpr hzero
    apply Action.Heeds.bind clocks_loadProfile
    intro _ later hloaded
    apply Action.Heeds.bind (Loaded.kept avoids_gate hloaded)
    intro _ later hloaded
    apply Action.Heeds.bind (Loaded.kept avoids_updateClock hloaded)
    intro _ later hloaded
    apply Action.Heeds.bind (clocks_divider hloaded)
    rintro _ later ⟨rfl, hloaded⟩
    have hwrite : (host.window.write Register.clockDivider.offset (Divider.compute
        host.config.baseClock (host.config.profiles.select frequency) frequency).encode :
          Prog σ Unit).Heeds (host.clocking (some frequency)) (fun _ _ => True) later := by
      apply (host.window.records_write _ _ (fun _ => ClocksAt.of_avoids trivial) _).mono
      · exact fun _ _ _ => trivial
      · intro value hvalue
        cases hvalue
        exact ⟨frequency, rfl, hpositive, hloaded, rfl⟩
    apply Action.Heeds.bind (Action.heeds_lift hwrite)
    intro _ later _
    exact clocks_action (host.writing_resume frequency _ _) (by decide)

theorem clocks_during {action : Action HostState α}
    (h : ∀ past, action.Heeds (host.clocking asked) (fun _ _ => True) past) :
    (host.lock.during action).Heeds (host.clocking asked) (fun _ _ => True) past := by
  have houter (request : Request HostState) (houter : ¬ request.Inner) :
      (host.clocking asked).Keeps (fun _ => True) request :=
    keeps_of_avoids (Request.avoids_of_not_inner houter) fun _ _ =>
      ClocksAt.of_avoids (Request.avoids_of_not_inner houter)
  apply host.lock.heeds_holding houter _ _ trivial
  · exact fun _ => keeps_of_avoids trivial fun _ _ => ClocksAt.of_avoids trivial
  · intro state later _
    exact Prog.Heeds.bind (h later) fun _ _ _ => trivial

theorem clocks_setBus (frequency lines : UInt32) (timing : BusTiming) :
    (host.setBus frequency lines timing).Heeds (host.clocking (some frequency))
      (fun _ _ => True) past := by
  have hremark (message : Message) (answer : Except HostError Unit) :
      ((Prog.log message).bind fun _ => .done answer : Prog HostState _).Asks
        (Request.Writing []) := (asks_log message trivial).bind fun _ => Prog.asks_done _
  have hreport (message : Message) : (report message : Action HostState Unit).Asks
      (Request.Writing []) := Action.asks_lift (asks_log message trivial)
  unfold setBus
  split
  · exact clocks_of_writing (hremark _ _) List.not_mem_nil
  · apply clocks_during
    intro past
    apply Action.Heeds.bind (clocks_action (hreport _) List.not_mem_nil)
    intro _ later _
    apply Action.Heeds.bind (Action.heeds_lift (clocks_write (by decide) _))
    intro _ later _
    split
    · exact fun _ _ => trivial
    · exact clocks_programClock frequency

theorem clocks_hardwareInit :
    (host.notify .hardwareInit).Heeds (host.clocking (some identificationClock))
      (fun _ _ => True) past := by
  have hbringUp : (host.bringUpController : Action HostState Unit).Asks
      (Request.Writing (gatingRegisters ++ bringUpRegisters)) :=
    host.writing_bringUpController (by decide) (by decide)
  apply clocks_during
  intro past
  apply Action.Heeds.bind (clocks_action hbringUp (by decide))
  intro _ later _
  exact clocks_programClock _

/-- Every operation writes the divider only for the frequency that it was asked for. -/
theorem perform_clocks (call : Call) :
    (host.perform call).Heeds (host.clocking call.clockFrequency?) (fun _ _ => True) past := by
  cases hasked : call.clockFrequency? with
  | none =>
      exact clocks_of_writing (host.perform_writing call) (Call.divider_not_mem_registers hasked)
  | some frequency =>
      cases call with
      | setBus asked lines timing =>
          cases hasked
          exact (clocks_setBus frequency lines timing).bind fun _ _ _ => trivial
      | setClock asked =>
          cases hasked
          exact (clocks_during fun _ => clocks_programClock frequency).bind fun _ _ _ => trivial
      | notify state =>
          cases state with
          | hardwareInit =>
              cases hasked
              exact clocks_hardwareInit.bind fun _ _ _ => trivial
          | _ => cases hasked
      | _ => cases hasked

end Walk

/-- A card clock is as close to its frequency as a divider rounded down gets: it is too fast by less
than one divider, and exactly if the quotient is not whole.  Every operation that writes the divider
register does so for the frequency that it was asked for, with the profile of that frequency loaded
last. -/
theorem clock_within_one_divider :
    (∀ baseClock profile frequency : UInt32, 0 < frequency →
      Divider.Honours baseClock profile frequency →
        Divider.Approaches baseClock profile frequency
          (Divider.compute baseClock profile frequency).divider.toNat)
      ∧ ∀ (call : Call) {machine : Machine ι} (handler : ι → Prog HostState ρ) (depth : Nat)
          (system : System machine HostState ρ) (front back : List (Moment machine HostState ρ))
          (moment : Moment machine HostState ρ) (value : UInt32),
        (host.perform call).moments handler depth system = front ++ moment :: back →
        moment.request = .write host.window Register.clockDivider.offset value →
        ∃ frequency, call.clockFrequency? = some frequency ∧ 0 < frequency
          ∧ (accesses host.window [.clockExtension] front).getLast? =
            some (.wrote .clockExtension (host.config.profiles.select frequency))
          ∧ value = (Divider.compute host.config.baseClock
            (host.config.profiles.select frequency) frequency).encode
          ∧ (Divider.Honours host.config.baseClock (host.config.profiles.select frequency)
              frequency →
            Divider.Approaches host.config.baseClock (host.config.profiles.select frequency)
              frequency (value.toNat % 0x100)) := by
  constructor
  · intro baseClock profile frequency positive honours
    exact Divider.compute_approaches positive honours
  · intro call machine handler depth system front back moment value hmoments hwrite
    have hclocks : (host.perform call).Heeds (host.clocking call.clockFrequency?)
        (fun _ _ => True) [] := perform_clocks call
    obtain ⟨frequency, hasked, hpositive, hloaded, hvalue⟩ :=
      hclocks.rule_of_moments hmoments value hwrite
    refine ⟨frequency, hasked, hpositive, hloaded, hvalue, fun honours => ?_⟩
    rw [hvalue, Divider.encode_compute_mod]
    exact Divider.compute_approaches hpositive honours

end Host

/-! ### A clock change on the bench -/

/-- The moments of setting the clock to 52 MHz. -/
@[irreducible]
def clockMoments : List (Moment Bench.machine HostState (List Answer)) :=
  (hastyHost.perform (.setClock 52000000)).moments undisturbed 0 (latchedBench true)

theorem clockMoments_eq :
    (hastyHost.perform (.setClock 52000000)).moments undisturbed 0 (latchedBench true) =
      clockMoments := by
  rw [clockMoments]

theorem length_clockMoments : 17 < clockMoments.length := by decide +kernel

/-- What a request writes to the registers. -/
def Request.written? : Request σ → Option (Window × Nat × UInt32)
  | .write window offset value => some (window, offset, value)
  | _ => none

theorem Request.eq_write {request : Request σ} {window : Window} {offset : Nat} {value : UInt32}
    (h : request.written? = some (window, offset, value)) :
    request = .write window offset value := by
  cases request with
  | write window' offset' value' =>
      cases h
      rfl
  | _ => cases h

/-- The divider written for 52 MHz is the one computed for it, and one more would be slow enough. -/
theorem Host.high_speed_below_next :
    Divider.Approaches HostConfig.standard.baseClock 0x202 52000000 3
      ∧ Divider.Approaches hastyHost.config.baseClock (hastyHost.config.profiles.select 52000000)
          52000000 ((0x20103 : UInt32).toNat % 0x100) := by
  have hwrite : (clockMoments.get ⟨17, length_clockMoments⟩).request =
      .write hastyHost.window Register.clockDivider.offset 0x20103 :=
    Request.eq_write (by decide +kernel)
  obtain ⟨hcompute, hwrites⟩ := hastyHost.clock_within_one_divider
  obtain ⟨frequency, hasked, -, -, -, happroaches⟩ :=
    hwrites (.setClock 52000000) undisturbed 0 (latchedBench true) _ _ _ 0x20103
      (clockMoments_eq.trans (split_at length_clockMoments)) hwrite
  cases hasked
  exact ⟨hcompute _ 0x202 52000000 (by decide) (by decide), happroaches (by decide)⟩

end CardHost
