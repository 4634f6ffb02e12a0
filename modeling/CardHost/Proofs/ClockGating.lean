import CardHost.Proofs.ClockRate
import CardHost.Proofs.Handshakes

/-!
# Dividing a gated clock

The divider of the card clock changes only while the clock is off, and while the controller knows
it: it took over the gated settings right before the divider is written (`GatedOff`).  That is where
the divider stands in the script of a clock change (`Host.led_gated`), and no other operation writes
it, so in a sequence of operations it makes no difference which of them failed half way.

An operation that sets the card clock and succeeds leaves the divider of the frequency it was asked
for behind a stable profile, and the clock on (`Host.ClockSet`).
-/

namespace CardHost

/-! ## The place of the divider -/

namespace Host

/-- The divider is written right after the clock was gated and the controller took that over. -/
def Gated (host : Host) (past : Script) (step : Step) : Prop :=
  step.writes? = some .clockDivider → (∃ value, step = .write .clockDivider value)
    ∧ ∃ earlier, past = earlier ++ [gate] ++ host.updateScript

variable {host : Host} {past script : Script}

theorem gated_of_unwritten (h : ∀ step ∈ script, step.writes? ≠ some .clockDivider) :
    Script.Led host.Gated past script :=
  Script.led_of_forall fun step hmem _ hwrites => (h step hmem hwrites).elim

theorem led_divider (host : Host) (frequency : UInt32) :
    Script.Led host.Gated past (host.clockScript frequency) := by
  unfold clockScript
  by_cases hzero : frequency = 0
  · simp only [if_pos hzero]
    exact gated_of_unwritten (by simp [gate, Step.writes?])
  · simp only [if_neg hzero]
    refine Script.Led.append (gated_of_unwritten ?_)
      ⟨fun _ => ⟨⟨_, rfl⟩, ?_⟩, gated_of_unwritten ?_⟩
    · simp [quietScript, profileScript, updateScript, postScript, await, gate, Step.writes?]
    · exact ⟨past ++ host.profileScript (host.config.profiles.select frequency),
        by simp [quietScript]⟩
    · simp [updateScript, postScript, await, ungate, Step.writes?]

/-- Every operation that writes the divider writes it there. -/
theorem led_gated (host : Host) (state : HostState) (call : Call) :
    Script.Led host.Gated [] (host.script state call) := by
  have hcommand (word : CommandWord) (argument : UInt32) :
      ∀ step ∈ host.commandScript word argument, step.writes? ≠ some .clockDivider := by
    simp [commandScript, prepareScript, postScript, await, complete, Step.writes?]
  have hphase (ring : Ring) (latch : Latch) (length : Nat) :
      ∀ step ∈ host.phaseScript ring latch length, step.writes? ≠ some .clockDivider := by
    have hstart : ∀ step ∈ pointScript ring ++ host.startScript length,
        step.writes? ≠ some .clockDivider := by
      simp [pointScript, startScript, Step.writes?]
    intro step hmem
    rcases List.mem_append.mp hmem with hmem | hlast
    · exact (List.mem_append.mp hmem).elim (hstart step) (hcommand _ _ step)
    · rw [List.mem_singleton.mp hlast]
      simp [complete, Step.writes?]
  apply host.led_of_parts state call
  · exact fun _ word argument => gated_of_unwritten (hcommand word argument)
  · exact fun _ ring latch length => gated_of_unwritten (hphase ring latch length)
  · intro register _ past hwrites
    simp [Step.look, Step.writes?] at hwrites
  · intro _ value hwrites
    simp [Step.writes?] at hwrites
  · intro _
    apply gated_of_unwritten
    simp [bringUpScript, resetScript, readyScript, profileScript, updateScript, postScript, await,
      gate, ungate, Step.writes?]
  · exact fun _ past _ frequency => host.led_divider frequency

end Host

/-! ## Accesses -/

/-- The controller took over its clock settings: the update command was written to an idle card
interface, without an argument, and taken. -/
def UpdateTaken (taken : List Access) : Prop :=
  ∃ idle waited, taken = .wrote .argument 0 :: (idle ++ .wrote .command
      (CommandFlags.start ||| CommandFlags.updateClockOnly ||| CommandFlags.waitPrevious) :: waited)
    ∧ Signal.cardIdle.Awaited idle ∧ Signal.accepted.Awaited waited

/-- The card clock was gated by the last write that enables or gates it, and the controller took
that over since. -/
def GatedOff (past : List Access) : Prop :=
  ∃ earlier enable taken, past = earlier ++ .wrote .clockEnable enable :: taken
    ∧ hasAny enable clockEnableCard = false ∧ UpdateTaken taken
    ∧ ∀ access ∈ taken, access.register ≠ .clockEnable

theorem Signal.Awaited.register {signal : Signal} {taken : List Access} (h : signal.Awaited taken) :
    ∀ access ∈ taken, access.register = signal.register := by
  obtain ⟨early, last, rfl, -, -⟩ := h
  intro access hmem
  rcases List.mem_append.mp hmem with hearly | hlast
  · obtain ⟨value, -, rfl⟩ := List.mem_map.mp hearly
    rfl
  · rw [List.mem_singleton.mp hlast]
    rfl

/-- Taking over clock settings accesses three registers. -/
theorem UpdateTaken.register {taken : List Access} (h : UpdateTaken taken) :
    ∀ access ∈ taken, access.register ∈ [Register.argument, .status, .command] := by
  obtain ⟨idle, waited, rfl, hidle, hwaited⟩ := h
  have hidles := hidle.register
  have hwaits := hwaited.register
  intro access hmem
  simp only [List.mem_cons, List.mem_append] at hmem
  rcases hmem with rfl | hmem | rfl | hmem
  · decide
  · rw [hidles access hmem]
    decide
  · decide
  · rw [hwaits access hmem]
    decide

theorem UpdateTaken.avoids {taken : List Access} (h : UpdateTaken taken) {register : Register}
    (other : register ∉ [Register.argument, .status, .command]) :
    ∀ access ∈ taken, access.register ≠ register := by
  intro access hmem hsame
  exact other (hsame ▸ h.register access hmem)

theorem GatedOff.behind {past : List Access} (h : GatedOff past) (front : List Access) :
    GatedOff (front ++ past) := by
  obtain ⟨earlier, enable, taken, rfl, hgated, htaken, honly⟩ := h
  exact ⟨front ++ earlier, enable, taken, by simp, hgated, htaken, honly⟩

/-- The card clock was set to a frequency.  The divider written last is the one of the frequency;
the profile written last lies in front of it, and the card interface clock was stable in between;
behind it the clock was turned on, and the controller took that over. -/
def Host.ClockSet (host : Host) (frequency : UInt32) (past : List Access) : Prop :=
  let profile := host.config.profiles.select frequency
  let divider := Divider.compute host.config.baseClock profile frequency
  ∃ front ready settled old taken,
    past = front ++ .wrote .clockExtension profile :: (ready ++ settled
        ++ .wrote .clockDivider divider.encode :: .read .clockEnable old
          :: .wrote .clockEnable (old ||| clockEnableCard) :: taken)
      ∧ Signal.clockReady.Awaited ready ∧ UpdateTaken taken
      ∧ (∀ access ∈ settled ++ taken, access.register ≠ .clockExtension)
      ∧ ∀ access ∈ taken, access.register ≠ .clockDivider

theorem Host.ClockSet.behind {host : Host} {frequency : UInt32} {past : List Access}
    (h : host.ClockSet frequency past) (before : List Access) :
    host.ClockSet frequency (before ++ past) := by
  obtain ⟨front, ready, settled, old, taken, rfl, hready, htaken, hextension, hdivider⟩ := h
  exact ⟨before ++ front, ready, settled, old, taken, by simp, hready, htaken, hextension, hdivider⟩

namespace Host

section Courses

variable {host : Host} {halts : Prop} {taken : List Access}

theorem updateTaken_of_course
    (h : host.updateScript.Course host.window halts taken (some (.ok ()))) : UpdateTaken taken := by
  have hscript : host.updateScript = [.write .argument 0, host.await .cardIdle]
      ++ [.write .command CommandWord.updateClock.withStart.bits, host.await .accepted] := rfl
  rw [hscript] at h
  obtain ⟨front, back, rfl, hfront, hback⟩ := h.of_append_passed
  obtain ⟨idle, rfl, hidle⟩ := wrote_awaited hfront
  obtain ⟨waited, rfl, hwaited⟩ := wrote_awaited hback
  exact ⟨idle, waited, by rw [List.cons_append]; rfl, hidle, hwaited⟩

/-- Once the controller took over that the clock is gated, the clock is off. -/
theorem gatedOff_of_course {earlier : Script}
    (h : Script.Course host.window halts (earlier ++ [gate] ++ host.updateScript) taken
      (some (.ok ()))) : GatedOff taken := by
  obtain ⟨front, update, rfl, hfront, hupdate⟩ := h.of_append_passed
  obtain ⟨before, gated, rfl, -, hgated⟩ := hfront.of_append_passed
  obtain ⟨old, rfl⟩ := hgated.of_singleton.of_change_passed
  have htaken := updateTaken_of_course hupdate
  exact ⟨before ++ [.read .clockEnable old], without old clockEnableCard, update, by simp,
    hasAny_without old _, htaken, htaken.avoids (by decide)⟩

/-- A clock change that was passed set the clock. -/
theorem clockSet_of_course {frequency : UInt32} (hfrequency : frequency ≠ 0)
    (h : (host.clockScript frequency).Course host.window halts taken (some (.ok ()))) :
    host.ClockSet frequency taken := by
  simp only [clockScript, if_neg hfrequency] at h
  obtain ⟨quiet, divided, rfl, hquiet, hdivided⟩ := h.of_append_passed
  obtain ⟨gated, update, rfl, hgated, hupdate⟩ := hquiet.of_append_passed
  obtain ⟨profile, enable, rfl, hprofile, henable⟩ := hgated.of_append_passed
  obtain ⟨cleared, loaded, rfl, -, hloaded⟩ := hprofile.of_cons_passed
  obtain ⟨ready, rfl, hready⟩ := wrote_awaited hloaded
  obtain ⟨was, rfl⟩ := henable.of_singleton.of_change_passed
  obtain ⟨written, later, rfl, hwritten, hlater⟩ := hdivided.of_cons_passed
  obtain ⟨enabled, last, rfl, henabled, hlast⟩ := hlater.of_cons_passed
  obtain ⟨old, rfl⟩ := henabled.of_change_passed
  have hupdated := updateTaken_of_course hupdate
  have htaken := updateTaken_of_course hlast
  refine ⟨cleared, ready, .read .clockEnable was
      :: .wrote .clockEnable (without was clockEnableCard) :: update, old, last, ?_, hready, htaken,
    ?_, htaken.avoids (by decide)⟩
  · rw [hwritten.of_write_passed]
    simp
  · have hupdate : ∀ access ∈ update, access.register ≠ .clockExtension :=
      hupdated.avoids (by decide)
    have hlast : ∀ access ∈ last, access.register ≠ .clockExtension := htaken.avoids (by decide)
    simp only [List.cons_append, List.forall_mem_cons, List.forall_mem_append]
    exact ⟨by simp [Access.register], by simp [Access.register], hupdate, hlast⟩

end Courses

section Runs

variable (host : Host) {machine : Machine ι} (handler : ι → Prog HostState ρ) (depth : Nat)

/-- At every write of the divider the clock is off. -/
theorem perform_gatedOff {call : Call} {system : System machine HostState ρ}
    {front back : List Access} {value : UInt32}
    (split : (host.perform call).touched host.window handler depth system =
      front ++ .wrote .clockDivider value :: back) : GatedOff front := by
  obtain ⟨done, step, passed, early, hgated, hdone, rfl, hmakes⟩ :=
    host.perform_led (host.ne_dump_of_wrote split) (host.led_gated · call) split
  obtain ⟨⟨written, rfl⟩, earlier, rfl⟩ := hgated hmakes.writes
  cases hmakes with
  | write =>
      rw [List.append_nil]
      exact gatedOff_of_course hdone

/-- A sequence of operations accesses what the first does, and then what the others do. -/
theorem touched_performAll (call : Call) (calls : List Call) (system : System machine HostState ρ) :
    ∃ later, (host.performAll (call :: calls)).touched host.window handler depth system =
        (host.perform call).touched host.window handler depth system ++ later
      ∧ (later = [] ∨ ∃ after : System machine HostState ρ,
        later = (host.performAll calls).touched host.window handler depth after) := by
  have hmoments : (host.performAll (call :: calls)).moments handler depth system = _ :=
    Prog.moments_bind handler depth _ _ system
  unfold Prog.touched
  rw [hmoments, accesses_append]
  refine ⟨_, rfl, ?_⟩
  cases (host.perform call).run handler depth system with
  | error halt => exact .inl rfl
  | ok ended =>
      refine .inr ⟨ended.2, ?_⟩
      dsimp only
      rw [Prog.moments_bind_done]

theorem performAll_gatedOff {calls : List Call} {system : System machine HostState ρ}
    {front back : List Access} {value : UInt32}
    (split : (host.performAll calls).touched host.window handler depth system =
      front ++ .wrote .clockDivider value :: back) : GatedOff front := by
  induction calls generalizing system front with
  | nil => simp [performAll, Prog.touched, Prog.moments, Prog.momentsWith, accesses] at split
  | cons call calls ih =>
      obtain ⟨later, htouched, hlater⟩ := host.touched_performAll handler depth call calls system
      rw [htouched] at split
      rcases split_append split with ⟨between, rfl, hbetween⟩ | ⟨between, hfirst, -⟩
      · rcases hlater with rfl | ⟨after, hafter⟩
        · simp at hbetween
        · rw [hafter] at hbetween
          exact (ih hbetween).behind _
      · exact host.perform_gatedOff handler depth hfirst

/-- An operation that is asked for a frequency and succeeds sets the clock. -/
theorem perform_clockSet {call : Call} {frequency : UInt32} {system : System machine HostState ρ}
    (asked : call.clockFrequency? = some frequency) (hfrequency : frequency ≠ 0)
    (succeeded : ((host.perform call).ended? handler depth system).map Answer.verdict =
      some (.ok ())) :
    host.ClockSet frequency ((host.perform call).touched host.window handler depth system) := by
  have hdump : call ≠ .dump := by
    rintro rfl
    cases asked
  have hvisit : host.Visit True system.cell call
      ((host.perform call).touched host.window handler depth system) _ :=
    host.perform_visits hdump (.inl trivial)
  rw [succeeded] at hvisit
  rcases hvisit with ⟨-, hfixed⟩ | ⟨hlocks, -, hcourse⟩
  · obtain ⟨answer, remarks, hunlocked, hverdict⟩ := hfixed rfl
    cases call with
    | setBus asked lines timing =>
        simp only [unlocked?] at hunlocked
        split at hunlocked
        · cases hunlocked
          cases hverdict
        · cases hunlocked
    | setClock => cases hunlocked
    | notify state =>
        cases state with
        | hardwareInit => cases hunlocked
        | _ => cases asked
    | _ => cases asked
  · cases call with
    | setBus frequency lines timing =>
        cases asked
        cases hwidth : BusWidth.ofLines lines with
        | error error => simp [unlocked?, hwidth] at hlocks
        | ok width =>
            simp only [script, hwidth, if_neg hfrequency] at hcourse
            obtain ⟨first, later, hsplit, -, hlater⟩ := hcourse.of_cons_passed
            rw [hsplit]
            exact (clockSet_of_course hfrequency hlater).behind first
    | setClock frequency =>
        cases asked
        exact clockSet_of_course hfrequency hcourse
    | notify state =>
        cases state with
        | hardwareInit =>
            cases asked
            obtain ⟨first, later, hsplit, -, hlater⟩ := hcourse.of_append_passed
            rw [hsplit]
            exact (clockSet_of_course hfrequency hlater).behind first
        | _ => cases asked
    | _ => cases asked

/-- In every sequence of operations the divider is written only while the clock is gated and the
controller knows it.  An operation that was asked for a frequency and succeeds left its divider
behind a stable profile, and the clock on. -/
theorem divider_written_while_gated (calls : List Call) (system : System machine HostState ρ) :
    (∀ front value back, (host.performAll calls).touched host.window handler depth system =
        front ++ .wrote .clockDivider value :: back → GatedOff front)
      ∧ ∀ call frequency, call.clockFrequency? = some frequency → frequency ≠ 0 →
        ((host.perform call).ended? handler depth system).map Answer.verdict = some (.ok ()) →
        host.ClockSet frequency
          ((host.perform call).touched host.window handler depth system) :=
  ⟨fun _ _ _ split => host.performAll_gatedOff handler depth split,
    fun _ _ asked hfrequency succeeded =>
      host.perform_clockSet handler depth asked hfrequency succeeded⟩

end Runs

/-- On the bench the card clock is set to 52 MHz. -/
theorem high_speed_set : hastyHost.ClockSet 52000000
    ((hastyHost.perform (.setClock 52000000)).touched hastyHost.window undisturbed 0
      (latchedBench true)) := by
  obtain ⟨-, hsets⟩ := hastyHost.divider_written_while_gated undisturbed 0 [] (latchedBench true)
  refine hsets (.setClock 52000000) 52000000 rfl (by decide) ?_
  have hended : (((hastyHost.perform (.setClock 52000000)).ended? undisturbed 0
      (latchedBench true)).map fun answer => answer.verdict.toBool) = some true := by
    decide +kernel
  obtain ⟨answer, hanswer, hverdict⟩ := Option.map_eq_some_iff.mp hended
  rw [hanswer, Option.map_some]
  cases hends : answer.verdict with
  | ok => rfl
  | error error =>
      rw [hends] at hverdict
      cases hverdict

end Host

end CardHost
