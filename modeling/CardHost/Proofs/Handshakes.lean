import CardHost.Proofs.Loading
import CardHost.Proofs.Scripts

/-!
# Handshakes in order

A command word is written to a controller that was just seen ready for it, and what follows waits
until the controller took the word.  Where a handshake does not see its signal within its bound, the
operation fails with a handshake timeout and leaves the registers alone from then on.

The order is one of the steps of a script: `Host.Orderly` says what a step stands behind, and every
operation is led that way (`Host.led_script`).  A course of the script then has its accesses in this
order, whatever the registers read.
-/

namespace CardHost

/-! ## The order of the steps -/

/-- No command word is written. -/
def Script.Unposted (script : Script) : Prop :=
  ∀ step ∈ script, step.writes? ≠ some .command

/-- A step off the command register that writes no interrupt mask and samples neither the status nor
the raw interrupt status. -/
def Step.Plain (step : Step) : Prop :=
  step.register ≠ .command ∧ step.writes? ≠ some .interruptMask
    ∧ step.reads? ≠ some .status ∧ step.reads? ≠ some .rawInterrupt

@[simp]
theorem Step.plain_write {register : Register} {value : UInt32} :
    (write register value).Plain ↔ register ≠ .command ∧ register ≠ .interruptMask := by
  simp [Plain, Step.register, writes?, reads?]

@[simp]
theorem Step.plain_change {register : Register} {update : UInt32 → UInt32} :
    (change register update).Plain ↔ register ≠ .command ∧ register ≠ .interruptMask
      ∧ register ≠ .status ∧ register ≠ .rawInterrupt := by
  simp [Plain, Step.register, writes?, reads?]

@[simp]
theorem Step.plain_sample {register : Register} {judge : UInt32 → Option Verdict}
    {limit : Option Nat} {late : HostError} :
    (sample register judge limit late).Plain ↔ register ≠ .command
      ∧ register ≠ .status ∧ register ≠ .rawInterrupt := by
  simp [Plain, Step.register, writes?, reads?]

theorem Script.unposted_nil : Script.Unposted [] := by
  simp [Unposted]

theorem Script.Unposted.append {front back : Script} (h : front.Unposted) (h' : back.Unposted) :
    (front ++ back).Unposted :=
  fun step hmem => (List.mem_append.mp hmem).elim (h step) (h' step)

namespace Host

variable (host : Host)

/-- The command word written last was taken. -/
def Accepted (script : Script) : Prop :=
  ∃ earlier word later, script = earlier ++ [.write .command word, host.await .accepted] ++ later
    ∧ ∀ step ∈ later, step.register ≠ .command

/-- No command is on its way: none was written, or, where no card command is issued, the last one
was taken. -/
def Resting (card : Bool) (script : Script) : Prop :=
  script.Unposted ∨ (card = false ∧ host.Accepted script)

/-- What a step stands behind.  `card` says whether the operation issues a card command. -/
structure Orderly (card : Bool) (past : Script) (step : Step) : Prop where
  posts : step.writes? = some .command → ∃ earlier argument word,
    past = earlier ++ [.write .argument argument, host.await .cardIdle]
      ∧ step = .write .command word
      ∧ hasAll word CommandFlags.start = true
      ∧ (card = true → ∃ first, earlier = first ++ host.prepareScript)
      ∧ (card = false → argument = 0 ∧ word = CommandWord.updateClock.withStart.bits)
  unmasks : step.writes? = some .interruptMask → host.Accepted past
  polls : step.reads? = some .rawInterrupt → host.Accepted past
  waits : step.reads? = some .status → host.Resting card past

variable {host} {card : Bool} {past script : Script}

theorem Accepted.append (h : host.Accepted past)
    (further : ∀ step ∈ script, step.register ≠ .command) : host.Accepted (past ++ script) := by
  obtain ⟨earlier, word, later, rfl, hlater⟩ := h
  refine ⟨earlier, word, later ++ script, by simp, ?_⟩
  intro step hmem
  exact (List.mem_append.mp hmem).elim (hlater step) (further step)

theorem Resting.append (h : host.Resting card past)
    (further : ∀ step ∈ script, step.register ≠ .command) : host.Resting card (past ++ script) := by
  rcases h with hnone | ⟨hcard, haccepted⟩
  · exact .inl (hnone.append fun step hmem hwrites =>
      further step hmem (Step.register_of_writes hwrites))
  · exact .inr ⟨hcard, haccepted.append further⟩

theorem Orderly.of_plain {step : Step} (h : step.Plain) : host.Orderly card past step := by
  obtain ⟨hcommand, hmask, hstatus, hraw⟩ := h
  exact ⟨fun h => (hcommand (Step.register_of_writes h)).elim, fun h => (hmask h).elim,
    fun h => (hraw h).elim, fun h => (hstatus h).elim⟩

theorem accepted_post (past : Script) (word : CommandWord) (argument : UInt32) :
    host.Accepted (past ++ host.postScript word argument) :=
  ⟨past ++ [.write .argument argument, host.await .cardIdle], word.withStart.bits, [],
    by simp [postScript], by simp⟩

/-- A command is posted in order where no other is on its way. -/
theorem led_post {word : CommandWord} {argument : UInt32} (resting : host.Resting card past)
    (prepared : card = true → ∃ first, past = first ++ host.prepareScript)
    (updates : card = false → argument = 0 ∧ word = .updateClock) :
    Script.Led (host.Orderly card) past (host.postScript word argument) := by
  have hargument : (Step.write .argument argument).Plain := by simp
  have hidle : host.Orderly card (past ++ [.write .argument argument]) (host.await .cardIdle) := by
    refine ⟨nofun, nofun, nofun, fun _ => ?_⟩
    exact resting.append (by simp [Step.register])
  have hposted : host.Orderly card (past ++ [.write .argument argument] ++ [host.await .cardIdle])
      (.write .command word.withStart.bits) := by
    refine ⟨fun _ => ⟨past, argument, _, by simp, rfl, ?_, prepared, ?_⟩, nofun, nofun, nofun⟩
    · exact hasAll_or (by decide) _
    · intro hcard
      obtain ⟨hzero, hword⟩ := updates hcard
      exact ⟨hzero, by rw [hword]⟩
  have htaken (later : Script) : host.Orderly card later (host.await .accepted) :=
    ⟨nofun, nofun, nofun, nofun⟩
  exact ⟨.of_plain hargument, hidle, hposted, htaken _, trivial⟩

/-- Steps that are plain are in order anywhere. -/
theorem led_plain (h : ∀ step ∈ script, step.Plain) :
    Script.Led (host.Orderly card) past script :=
  Script.led_of_forall fun step hmem _ => .of_plain (h step hmem)

/-- After steps that are plain the controller takes over its clock settings. -/
theorem led_update (resting : host.Resting false past) (before : Script)
    (plain : ∀ step ∈ before, step.Plain) :
    Script.Led (host.Orderly false) past (before ++ host.updateScript)
      ∧ host.Accepted (past ++ (before ++ host.updateScript)) := by
  have hresting : host.Resting false (past ++ before) :=
    resting.append fun step hmem => (plain step hmem).1
  constructor
  · exact (led_plain plain).append (led_post hresting nofun fun _ => ⟨rfl, rfl⟩)
  · rw [← List.append_assoc]
    exact accepted_post _ .updateClock 0

/-- Once the controller took a command, its interrupts are unmasked and polled. -/
theorem led_command (fresh : past.Unposted) (word : CommandWord) (argument : UInt32) :
    Script.Led (host.Orderly true) past (host.commandScript word argument)
      ∧ host.Accepted (past ++ host.commandScript word argument) := by
  have hidle : host.Orderly true past (host.await .dataIdle) :=
    ⟨nofun, nofun, nofun, fun _ => .inl fresh⟩
  have hclear : (Step.write .rawInterrupt clearAll).Plain := by simp
  have hresting : host.Resting true (past ++ host.prepareScript) :=
    Resting.append (.inl fresh) (by simp [prepareScript, await, Signal.dataIdle, Step.register])
  have hpost : Script.Led (host.Orderly true) (past ++ host.prepareScript)
      (host.postScript word argument) :=
    led_post hresting (fun _ => ⟨past, rfl⟩) nofun
  have htaken : host.Accepted (past ++ (host.prepareScript ++ host.postScript word argument)) := by
    rw [← List.append_assoc]
    exact accepted_post _ word argument
  have hunmasked : host.Accepted (past ++ (host.prepareScript ++ host.postScript word argument)
      ++ [.write .interruptMask RawInterrupt.errorMask]) :=
    htaken.append (by simp [Step.register])
  constructor
  · refine Script.Led.append (Script.Led.append ⟨hidle, .of_plain hclear, trivial⟩ hpost) ?_
    exact ⟨⟨nofun, fun _ => htaken, nofun, nofun⟩, ⟨nofun, nofun, fun _ => hunmasked, nofun⟩,
      trivial⟩
  · unfold commandScript
    rw [← List.append_assoc]
    exact htaken.append (by simp [Step.register, complete])

theorem led_clock (resting : host.Resting false past) (frequency : UInt32) :
    Script.Led (host.Orderly false) past (host.clockScript frequency) := by
  unfold clockScript
  by_cases hzero : frequency = 0
  · simp only [if_pos hzero]
    exact led_plain (by simp [gate])
  · simp only [if_neg hzero]
    obtain ⟨hquiet, htaken⟩ := led_update resting
      (host.profileScript (host.config.profiles.select frequency) ++ [gate])
      (by simp [profileScript, await, Signal.clockReady, gate])
    refine hquiet.append (led_update (.inr ⟨rfl, htaken⟩) _ ?_).1
    simp [ungate]

variable (host) in
theorem led_bringUp : Script.Led (host.Orderly false) [] host.bringUpScript
    ∧ host.Accepted host.bringUpScript := by
  obtain ⟨hreset, htaken⟩ := led_update (.inl Script.unposted_nil) host.resetScript
    (by simp [resetScript, profileScript, await, Signal.clockReady, Signal.resetOver, gate, ungate])
  have hmasks : host.Orderly false
      ([] ++ (host.resetScript ++ host.updateScript)
        ++ [.change .cardReset (· ||| cardResetRelease)])
      (.write .interruptMask 0) :=
    ⟨nofun, fun _ => htaken.append (by simp [Step.register]), nofun, nofun⟩
  constructor
  · exact hreset.append ⟨.of_plain (by simp), hmasks, led_plain (by simp)⟩
  · exact htaken.append (by simp [readyScript, Step.register])

theorem led_phase (ring : Ring) (latch : Latch) (length : Nat) :
    Script.Led (host.Orderly true) [] (host.phaseScript ring latch length) := by
  have hstart : ∀ step ∈ pointScript ring ++ host.startScript length, step.Plain := by
    simp [pointScript, startScript]
  have hfresh : Script.Unposted ([] ++ (pointScript ring ++ host.startScript length)) :=
    fun step hmem hwrites => (hstart step hmem).1 (Step.register_of_writes hwrites)
  obtain ⟨hcommand, htaken⟩ := led_command hfresh latch.word latch.argument
  rw [List.append_assoc] at htaken
  exact ((led_plain hstart).append hcommand).append
    ⟨⟨nofun, nofun, fun _ => htaken, nofun⟩, trivial⟩

theorem Resting.of_opening (h : host.Opening past) : host.Resting false past := by
  cases h with
  | none => exact .inl Script.unposted_nil
  | cardType => exact .inl (by simp [Script.Unposted, Step.writes?])
  | bringUp => exact .inr ⟨rfl, host.led_bringUp.2⟩

/-- Every operation goes through its handshakes in order. -/
theorem led_script (host : Host) (state : HostState) (call : Call) :
    Script.Led (host.Orderly call.issues) [] (host.script state call) := by
  have hlook : ∀ register ∈ Register.responses, (Step.look register).Plain := by
    simp [Register.responses, Step.look]
  apply host.led_of_parts state call
  · intro hissues word argument
    rw [hissues]
    exact (led_command Script.unposted_nil word argument).1
  · intro hissues ring latch length
    rw [hissues]
    exact led_phase ring latch length
  · intro register hmem past
    exact .of_plain (hlook register hmem)
  · intro _ value
    exact .of_plain (by simp)
  · intro hissues
    rw [hissues]
    exact host.led_bringUp.1
  · intro hissues past hopening frequency
    rw [hissues]
    exact led_clock (.of_opening hopening) frequency

end Host

/-! ## The order of the accesses -/

/-- The samples of a handshake that saw its signal: the last one shows it, and no other does. -/
def Signal.Awaited (signal : Signal) (taken : List Access) : Prop :=
  ∃ early last, taken = Access.reads signal.register early ++ [.read signal.register last]
    ∧ (∀ value ∈ early, signal.shows value = false) ∧ signal.shows last = true

/-- A command word was written and taken, and no other was written since. -/
def CommandTaken (past : List Access) : Prop :=
  ∃ earlier word waited later, past = earlier ++ .wrote .command word :: waited ++ later
    ∧ Signal.accepted.Awaited waited ∧ ∀ access ∈ later, access.register ≠ .command

/-- No command word was written that was not taken.  An operation that issues a card command has
written none at all. -/
def CommandResting (issues : Bool) (past : List Access) : Prop :=
  (∀ word, .wrote .command word ∉ past) ∨ (issues = false ∧ CommandTaken past)

/-- The accesses of an operation keep the order of its handshakes. -/
structure Call.Handshaken (call : Call) (past : List Access) : Prop where
  /-- A command word is written with the start bit, right after the samples of a handshake that saw
  the card idle.  The argument is written in front of them, and for a card command the pending
  status is cleared in front of that, right after a handshake that saw no data on the bus.  Any
  other command makes the controller take over clock settings. -/
  posts : ∀ front word back, past = front ++ .wrote .command word :: back →
    hasAll word CommandFlags.start = true
      ∧ ∃ earlier argument waited, front = earlier ++ .wrote .argument argument :: waited
        ∧ Signal.cardIdle.Awaited waited
        ∧ (call.issues = true → ∃ first idle, earlier = first ++ idle
            ++ [.wrote .rawInterrupt clearAll] ∧ Signal.dataIdle.Awaited idle)
        ∧ (call.issues = false → argument = 0 ∧ word = CommandWord.updateClock.withStart.bits)
  unmasks : ∀ front value back, past = front ++ .wrote .interruptMask value :: back →
    CommandTaken front
  polls : call ≠ .dump → ∀ front status back,
    past = front ++ .read .rawInterrupt status :: back → CommandTaken front

theorem CommandTaken.append {past further : List Access} (h : CommandTaken past)
    (unposted : ∀ access ∈ further, access.register ≠ .command) :
    CommandTaken (past ++ further) := by
  obtain ⟨earlier, word, waited, later, rfl, hawaited, hlater⟩ := h
  refine ⟨earlier, word, waited, later ++ further, by simp, hawaited, ?_⟩
  intro access hmem
  exact (List.mem_append.mp hmem).elim (hlater access) (unposted access)

/-- A handshake of an operation takes as many samples as its bound allows, behind the accesses of
the steps in front of it, and none shows its signal. -/
structure Host.GivesUp (host : Host) (state : HostState) (call : Call) (signal : Signal)
    (taken : List Access) (samples : List UInt32) : Prop where
  placed : ∃ done rest, host.script state call = done ++ host.await signal :: rest
    ∧ Script.Course host.window True done taken (some (.ok ()))
  silent : ∀ value ∈ samples, signal.shows value = false
  exhausted : host.config.handshakeTimeout.map (·.toNat + 1) = some samples.length

namespace Host

section Courses

variable {host : Host} {halts : Prop} {taken : List Access} {script : Script}

/-- A handshake that was passed saw its signal. -/
theorem awaited_of_course {signal : Signal}
    (h : (host.await signal).Course host.window halts taken (some (.ok ()))) :
    signal.Awaited taken := by
  cases h with
  | decided early last _ undecided _ decides =>
      have hsilent : ∀ value ∈ early, signal.shows value = false := by
        simpa [Window.judge] using undecided
      have hshown : signal.shows last = true := by
        simpa [Window.judge] using decides
      exact ⟨early, last, rfl, hsilent, hshown⟩

/-- A write and the handshake behind it. -/
theorem wrote_awaited {register : Register} {value : UInt32} {signal : Signal}
    (h : Script.Course host.window halts [.write register value, host.await signal] taken
      (some (.ok ()))) :
    ∃ waited, taken = .wrote register value :: waited ∧ signal.Awaited waited := by
  obtain ⟨first, waited, rfl, hwrote, hawaits⟩ := h.of_cons_passed
  rw [hwrote.of_write_passed]
  exact ⟨waited, rfl, awaited_of_course hawaits.of_singleton⟩

theorem Accepted.commandTaken (h : host.Accepted script)
    (passed : script.Course host.window halts taken (some (.ok ()))) : CommandTaken taken := by
  obtain ⟨earlier, word, further, rfl, hfurther⟩ := h
  obtain ⟨through, later, rfl, hthrough, hlater⟩ := passed.of_append_passed
  obtain ⟨first, posted, rfl, -, hposted⟩ := hthrough.of_append_passed
  obtain ⟨waited, rfl, hawaited⟩ := wrote_awaited hposted
  refine ⟨first, word, waited, later, rfl, hawaited, fun access hmem => ?_⟩
  obtain ⟨step, hstep, early, hmakes⟩ := hlater.of_mem hmem
  rw [hmakes.register]
  exact hfurther step hstep

theorem Resting.commandResting {card : Bool} (h : host.Resting card script)
    (passed : script.Course host.window halts taken (some (.ok ()))) :
    CommandResting card taken := by
  rcases h with hnone | ⟨hcard, haccepted⟩
  · refine .inl fun word hmem => ?_
    obtain ⟨step, hstep, early, hmakes⟩ := passed.of_mem hmem
    exact hnone step hstep hmakes.writes
  · exact .inr ⟨hcard, haccepted.commandTaken passed⟩

end Courses

section Runs

variable (host : Host) {machine : Machine ι} (handler : ι → Prog HostState ρ) (depth : Nat)
  (system : System machine HostState ρ)

theorem handshaken (call : Call) :
    call.Handshaken ((host.perform call).touched host.window handler depth system) where
  posts front word back hsplit := by
    obtain ⟨done, step, passed, early, horderly, hdone, rfl, hmakes⟩ :=
      host.perform_led (host.ne_dump_of_wrote hsplit) (led_script host · call) hsplit
    obtain ⟨earlier, argument, posted, rfl, rfl, hstart, hprepared, hupdates⟩ :=
      horderly.posts hmakes.writes
    obtain ⟨first, later, rfl, hfirst, hlater⟩ := hdone.of_append_passed
    obtain ⟨waited, rfl, hawaited⟩ := wrote_awaited hlater
    cases hmakes with
    | write =>
        refine ⟨hstart, first, argument, waited, by simp, hawaited, fun hissues => ?_, hupdates⟩
        obtain ⟨others, rfl⟩ := hprepared hissues
        obtain ⟨front, prepared, rfl, -, hprepared⟩ := hfirst.of_append_passed
        obtain ⟨idle, cleared, rfl, hidle, hcleared⟩ := hprepared.of_cons_passed
        refine ⟨front, idle, ?_, awaited_of_course hidle⟩
        rw [hcleared.of_singleton.of_write_passed, List.append_assoc]
  unmasks front value back hsplit := by
    obtain ⟨done, step, passed, early, horderly, hdone, rfl, hmakes⟩ :=
      host.perform_led (host.ne_dump_of_wrote hsplit) (led_script host · call) hsplit
    have htaken : CommandTaken passed := (horderly.unmasks hmakes.writes).commandTaken hdone
    exact htaken.append fun access hmem => by
      rw [hmakes.early_register access hmem, Step.register_of_writes hmakes.writes]
      decide
  polls hdump front status back hsplit := by
    obtain ⟨done, step, passed, early, horderly, hdone, rfl, hmakes⟩ :=
      host.perform_led hdump (led_script host · call) hsplit
    have htaken : CommandTaken passed := (horderly.polls hmakes.reads).commandTaken hdone
    exact htaken.append fun access hmem => by
      rw [hmakes.early_register access hmem, ← hmakes.register]
      simp [Access.register]

/-- A handshake that gives up ends the operation. -/
theorem ends_of_givesUp {call : Call} {state : HostState} {signal : Signal}
    {taken later : List Access} {samples : List UInt32} (found : system.cell = some state)
    (gives : host.GivesUp state call signal taken samples)
    (split : (host.perform call).touched host.window handler depth system =
      taken ++ (Access.reads signal.register samples ++ later)) :
    later = [] ∧ ((host.perform call).ended? handler depth system).map Answer.verdict =
      some (.error .handshakeTimeout) := by
  obtain ⟨⟨done, rest, hscript, hdone⟩, hsilent, hexhausted⟩ := gives
  have hsampled : samples ≠ [] := by
    rintro rfl
    simp at hexhausted
  have hreads : Access.reads signal.register samples ++ later ≠ [] := by
    simp [Access.reads, hsampled]
  have hdump : call ≠ .dump := by
    rintro rfl
    simp [script] at hscript
  have hvisit := host.perform_visits hdump (.inl trivial : True ∨
    (host.perform call).Served handler depth system)
  rcases hvisit with ⟨huntouched, -⟩ | ⟨-, hcell, hcourse⟩
  · rw [huntouched] at split
    simp [hsampled, Access.reads] at split
  · rw [found] at hcell
    cases hcell
    rw [hscript] at hcourse
    have hwait := hcourse.of_append_from hdone split hreads
    rw [await, hexhausted] at hwait
    exact hwait.ends_late hsampled (by simpa [Window.judge] using hsilent)

/-- Every operation goes along its script, with its accesses in the order of the handshakes.  Where
a handshake gives up, the operation fails with a handshake timeout and accesses no register any
more; if it waited for the status, then no command word is left behind that was not taken. -/
theorem perform_keeps_handshakes (call : Call) :
    call.Handshaken ((host.perform call).touched host.window handler depth system)
      ∧ (call ≠ .dump → host.Visit True system.cell call
          ((host.perform call).touched host.window handler depth system)
          (((host.perform call).ended? handler depth system).map Answer.verdict))
      ∧ ∀ state signal taken samples later, system.cell = some state →
          host.GivesUp state call signal taken samples →
          (host.perform call).touched host.window handler depth system =
            taken ++ (Access.reads signal.register samples ++ later) →
          later = []
            ∧ (∃ answer after, (host.perform call).run handler depth system = .ok (answer, after)
                ∧ answer.verdict = .error .handshakeTimeout)
            ∧ (signal.register = .status → CommandResting call.issues taken) := by
  refine ⟨host.handshaken handler depth system call,
    fun hdump => host.perform_visits hdump (.inl trivial), ?_⟩
  intro state signal taken samples later found gives split
  obtain ⟨hlater, hended⟩ := host.ends_of_givesUp handler depth system found gives split
  refine ⟨hlater, Prog.run_of_ended? hended, fun hstatus => ?_⟩
  obtain ⟨done, rest, hscript, hdone⟩ := gives.placed
  have horderly : host.Orderly call.issues ([] ++ done) (host.await signal) :=
    (led_script host state call).at_step hscript
  exact (horderly.waits (congrArg some hstatus)).commandResting hdone

end Runs

/-! ### A card that stays busy -/

/-- A host that looks once for each signal. -/
def impatientHost : Host where
  config := { smallConfig with handshakeTimeout := some 0 }
  services := .supplied
  usable := by decide

/-- A bench whose card is busy for ever, with the host loaded. -/
def busyBench : System Bench.machine HostState (List Answer) :=
  let registers := { Bench.RegisterFile.initial with
    sticky := Table.empty.set Register.status.offset ControllerStatus.cardBusy }
  { smallBench with
    shared := ⟨{ Bench.Device.initial 0x1F0000000 16 0 with registers := registers }, .blank⟩
    cell := some ⟨⟨0x1F0000000, 1, 1⟩, none⟩ }

/-- What comes before the wait for the card. -/
def beforeBusy : List Access :=
  [.read .status ControllerStatus.cardBusy, .wrote .rawInterrupt clearAll, .wrote .argument 0]

theorem impatientHost_givesUp : impatientHost.GivesUp ⟨⟨0x1F0000000, 1, 1⟩, none⟩
    (.sendCommand 0 0) .cardIdle beforeBusy [ControllerStatus.cardBusy] where
  placed := by
    refine ⟨impatientHost.prepareScript ++ [.write .argument 0], _, rfl, ?_⟩
    refine .next (.decided [] _ _ (by simp) ?_ rfl) (.next .wrote (.next .wrote .done))
    intro bound hbound
    cases hbound
    decide
  silent value hmem := by
    rw [List.mem_singleton.mp hmem]
    rfl
  exhausted := rfl

/-- A command is not written to a card that stays busy. -/
theorem busy_card_times_out :
    ∃ answer after, (impatientHost.perform (.sendCommand 0 0)).run (fun _ => .done []) 0 busyBench =
        .ok (answer, after)
      ∧ answer.verdict = .error .handshakeTimeout ∧ CommandResting true beforeBusy := by
  have htouched : (impatientHost.perform (.sendCommand 0 0)).touched impatientHost.window
      (fun _ => .done []) 0 busyBench =
        beforeBusy ++ (Access.reads .status [ControllerStatus.cardBusy] ++ []) := by
    decide +kernel
  obtain ⟨-, -, hgives⟩ :=
    impatientHost.perform_keeps_handshakes (fun _ => .done []) 0 busyBench (.sendCommand 0 0)
  obtain ⟨-, ⟨answer, after, hran, hverdict⟩, hresting⟩ :=
    hgives _ .cardIdle _ _ [] rfl impatientHost_givesUp htouched
  exact ⟨answer, after, hran, hverdict, hresting rfl⟩

end Host

end CardHost
