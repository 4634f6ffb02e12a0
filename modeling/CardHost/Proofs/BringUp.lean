import CardHost.Proofs.Bench.Controlling
import CardHost.Proofs.Scripts

/-!
# Bring-up

Bringing the controller up takes about thirty register writes, and starting the identification clock
afterwards goes over some of the registers again.  On a controller that answers, both enact their
scripts (`Host.enacts_bringUpController`, `Host.enacts_programClock`), so what they come to is read
off the scripts.

Every wait in them is passed, since the controller is ready or a bit that clears itself is waited
for (`Host.safe_initialise`).  What is left in the registers is a matter of each register by itself:
a setting of the configuration, or the former contents with some bits forced
(`Host.leaves_initialise`).  Hence hardware initialisation does not depend on what happened before,
and doing it twice is doing it once (`Host.bring_up_idempotent`).
-/

namespace CardHost

/-! ## The script is enacted -/

section Enacting

variable {host : Host} {machine : Machine ι}
  {controller : Controller machine host.window host.services host.config.handshakeTimeout}
  (reaches : ∀ register, host.window.Reaches register)

namespace Host

theorem enacts_divider (profile frequency : UInt32) :
    (host.divider profile frequency : Action σ Divider).Enacts controller []
      fun divider => divider = .compute host.config.baseClock profile frequency := by
  unfold divider
  split
  · exact (Action.enacts_log _).pass fun _ _ => Action.enacts_pure _ rfl
  · exact Action.enacts_pure _ rfl

include reaches

theorem enacts_handshake (signal : Signal) (missed : Message) :
    (host.window.handshake host.services signal.register.offset signal.shows missed
      host.config.handshakeTimeout : Action σ Unit).Enacts controller [host.await signal]
      fun _ => True :=
  controller.enacts_waits (reaches signal.register) signal.shows _ _ missed

theorem enacts_post (word : CommandWord) (argument : UInt32) :
    (host.post word argument : Action σ Unit).Enacts controller (host.postScript word argument)
      fun _ => True := by
  refine (controller.enacts_write (reaches .argument) argument).step fun _ _ => ?_
  refine (enacts_handshake reaches ⟨.status, ControllerStatus.cardBusy, false⟩ _).step fun _ _ => ?_
  refine (controller.enacts_write (reaches .command) word.withStart.bits).step fun _ _ => ?_
  exact enacts_handshake reaches ⟨.command, CommandFlags.start, false⟩ _

theorem enacts_loadProfile (profile : UInt32) :
    (host.loadProfile profile : Action σ Unit).Enacts controller (host.profileScript profile)
      fun _ => True := by
  refine (controller.enacts_write (reaches .clockExtension) 0).step fun _ _ => ?_
  refine (controller.enacts_write (reaches .clockExtension) profile).step fun _ _ => ?_
  exact enacts_handshake reaches ⟨.clockStatus, clockStatusReady, true⟩ _

theorem enacts_programClock (frequency : UInt32) :
    (host.programClock frequency : Action σ Unit).Enacts controller (host.clockScript frequency)
      fun _ => True := by
  unfold programClock clockScript
  by_cases hzero : frequency = 0
  · simp only [if_pos hzero]
    refine (controller.enacts_change (reaches .clockEnable) _).step fun _ _ => ?_
    refine (controller.enacts_change (reaches .clockExtension) _).step fun _ _ => ?_
    exact Action.enacts_log _
  · simp only [if_neg hzero, quietScript, List.append_assoc]
    refine (enacts_loadProfile reaches _).bind fun _ _ => ?_
    refine (controller.enacts_change (reaches .clockEnable) _).step fun _ _ => ?_
    refine (enacts_post reaches .updateClock 0).bind fun _ _ => ?_
    refine (enacts_divider _ frequency).pass fun divider hdivider => ?_
    subst hdivider
    refine (controller.enacts_write (reaches .clockDivider) _).step fun _ _ => ?_
    refine (controller.enacts_change (reaches .clockEnable) _).step fun _ _ => ?_
    exact (enacts_post reaches .updateClock 0).finish fun _ _ => Action.enacts_log _

theorem enacts_bringUpController :
    (host.bringUpController : Action σ Unit).Enacts controller host.bringUpScript
      fun _ => True := by
  unfold bringUpScript resetScript
  simp only [List.append_assoc]
  refine (controller.enacts_write (reaches .fifoThreshold) _).step fun _ _ => ?_
  refine (controller.enacts_write (reaches .cardThreshold) _).step fun _ _ => ?_
  refine (controller.enacts_change (reaches .clockEnable) _).step fun _ _ => ?_
  refine (enacts_loadProfile reaches _).bind fun _ _ => ?_
  refine (controller.enacts_write (reaches .power) powerOn).step fun _ _ => ?_
  refine (controller.enacts_change (reaches .clockEnable) _).step fun _ _ => ?_
  refine (controller.enacts_change (reaches .clockExtension) _).step fun _ _ => ?_
  refine (controller.enacts_change (reaches .uhs) _).step fun _ _ => ?_
  refine (controller.enacts_change (reaches .control) _).step fun _ _ => ?_
  refine (enacts_handshake reaches ⟨.control, bringUpResets, false⟩ _).step fun _ _ => ?_
  refine (enacts_post reaches .updateClock 0).bind fun _ _ => ?_
  refine (controller.enacts_change (reaches .cardReset) _).step fun _ _ => ?_
  refine (controller.enacts_write (reaches .interruptMask) 0).step fun _ _ => ?_
  refine (controller.enacts_write (reaches .rawInterrupt) clearAll).step fun _ _ => ?_
  refine (controller.enacts_write (reaches .dmaInterrupt) 0).step fun _ _ => ?_
  refine (controller.enacts_change (reaches .control) _).step fun _ _ => ?_
  refine (controller.enacts_write (reaches .timeouts) timeoutsLongest).step fun _ _ => ?_
  exact Action.enacts_log _

end Host

end Enacting

/-! ## The script passes -/

/-- The card takes commands, and the clock of the card interface is stable. -/
structure Contents.Ready (contents : Contents) : Prop where
  cardIdle : Signal.cardIdle.shows (contents Register.status.offset) = true
  clockReady : Signal.clockReady.shows (contents Register.clockStatus.offset) = true

theorem updatesAtMost_of_ne {register : Register} (h : register ≠ .command) (value : UInt32) :
    UpdatesAtMost register.offset value :=
  fun hoffset => (h (Register.offset_injective hoffset)).elim

theorem judge_of_shown {ready : UInt32 → Bool} {value : UInt32} (h : ready value = true) :
    Window.judge ready value = some (.ok ()) :=
  if_pos h

/-- A script that passes wherever the controller is ready, and leaves it ready. -/
def Script.Safe (script : Script) : Prop :=
  ∀ contents : Contents, contents.Ready →
    script.Passes contents ∧ Contents.Ready (script.leaves contents)

namespace Script

variable {front back : Script}

theorem Safe.append (first : front.Safe) (rest : back.Safe) : (front ++ back).Safe := by
  intro contents ready
  obtain ⟨hfront, hmiddle⟩ := first contents ready
  obtain ⟨hback, hready⟩ := rest _ hmiddle
  rw [passes_append, leaves_append]
  exact ⟨⟨hfront, hback⟩, hready⟩

theorem Safe.cons {step : Step} (first : Safe [step]) (rest : back.Safe) :
    Safe (step :: back) :=
  first.append rest

/-- A script that leaves status and clock status alone leaves the controller ready. -/
theorem safe_of_passes {script : Script}
    (unwritten : ∀ step ∈ script, step.writes? ≠ some .status ∧ step.writes? ≠ some .clockStatus)
    (passes : ∀ contents : Contents, contents.Ready → script.Passes contents) : script.Safe := by
  intro contents ready
  have hkept (register : Register) (h : ∀ step ∈ script, step.writes? ≠ some register) :
      script.leaves contents register.offset = contents register.offset := by
    apply leaves_of_unwritten
    intro step hmem other hother hoffset
    rw [← Register.offset_injective hoffset] at hother
    exact h step hmem hother
  refine ⟨passes contents ready, ?_, ?_⟩
  · rw [hkept .status fun step hmem => (unwritten step hmem).1]
    exact ready.cardIdle
  · rw [hkept .clockStatus fun step hmem => (unwritten step hmem).2]
    exact ready.clockReady

theorem safe_write {register : Register} (h : register ∉ [.command, .status, .clockStatus])
    (value : UInt32) : Safe [.write register value] := by
  simp only [List.mem_cons, List.not_mem_nil, or_false, not_or] at h
  refine safe_of_passes ?_ fun contents _ => ⟨updatesAtMost_of_ne h.1 value, trivial⟩
  simp [Step.writes?, h.2.1, h.2.2]

/-- A register may be changed by an update of each bit by itself, unless the controller acts on
writes of it or says there what it does. -/
theorem safe_change {register : Register}
    (h : register ∉ [.command, .rawInterrupt, .status, .clockStatus]) {update : UInt32 → UInt32}
    (bitwise : ∀ value bits,
      without (update value) bits = without (update (without value bits)) bits) :
    Safe [.change register update] := by
  simp only [List.mem_cons, List.not_mem_nil, or_false, not_or] at h
  obtain ⟨hcommand, hraw, hstatus, hclock⟩ := h
  have hwrites : ∀ step ∈ [Step.change register update],
      step.writes? ≠ some .status ∧ step.writes? ≠ some .clockStatus := by
    simp [Step.writes?, hstatus, hclock]
  refine safe_of_passes hwrites fun contents _ => ⟨⟨?_, ?_⟩, trivial⟩
  · exact fun value => updatesAtMost_of_ne hcommand _
  · intro old shown value hlasting
    simp only [Contents.transient, Register.offset_inj, hstatus, hclock, if_false] at hlasting
    rw [Contents.kept_of_ne hraw, Contents.kept_of_ne hraw, bitwise shown, hlasting, ← bitwise]

theorem safe_setBits {register : Register}
    (h : register ∉ [.command, .rawInterrupt, .status, .clockStatus]) (bits : UInt32) :
    Safe [.change register (· ||| bits)] :=
  safe_change h fun value mask => by rw [without_or, without_or, without_without]

theorem safe_clearBits {register : Register}
    (h : register ∉ [.command, .rawInterrupt, .status, .clockStatus]) (bits : UInt32) :
    Safe [.change register (without · bits)] :=
  safe_change h fun value mask => by
    rw [without_comm value, without_comm (without value mask), without_without]

end Script

namespace Host

open Script

variable (host : Host)

theorem safe_cardIdle : Safe [host.await .cardIdle] :=
  safe_of_passes (by simp [await, Step.writes?]) fun _ ready =>
    ⟨judge_of_shown ready.cardIdle, trivial⟩

theorem safe_clockReady : Safe [host.await .clockReady] :=
  safe_of_passes (by simp [await, Step.writes?]) fun _ ready =>
    ⟨judge_of_shown ready.clockReady, trivial⟩

/-- New clock settings are taken over: the start bit clears itself. -/
theorem safe_update : host.updateScript.Safe := by
  have haccepted : Safe [.write .command CommandWord.updateClock.withStart.bits,
      host.await .accepted] := by
    refine safe_of_passes (by simp [await, Step.writes?]) fun contents _ => ⟨?_, ?_, trivial⟩
    · exact fun _ => by decide
    · apply judge_of_shown
      rw [show Signal.accepted.register = .command from rfl, leaves_singleton, Step.leaves_write,
        if_pos rfl, Contents.kept_of_ne (by decide)]
      decide
  exact (safe_write (by decide) 0).cons (host.safe_cardIdle.cons haccepted)

/-- Resets come to an end: their bits clear themselves, whatever else the control register
holds. -/
theorem safe_resets : Safe [.change .control (· ||| bringUpResets), host.await .resetOver] := by
  have hreset : Safe [.change .control (· ||| bringUpResets)] := safe_setBits (by decide) _
  refine safe_of_passes (by simp [await, Step.writes?]) fun contents ready => ?_
  refine ⟨(hreset contents ready).1.1, judge_of_shown ?_, trivial⟩
  rw [show Signal.resetOver.register = .control from rfl, leaves_singleton, Step.leaves_change,
    if_pos rfl, Contents.kept_of_ne (by decide)]
  exact congrArg not (hasAny_without_of_part (by decide) _)

theorem safe_profile (profile : UInt32) : (host.profileScript profile).Safe :=
  (safe_write (by decide) 0).cons ((safe_write (by decide) profile).cons host.safe_clockReady)

theorem safe_gate : Safe [gate] :=
  safe_clearBits (by decide) clockEnableCard

theorem safe_ungate : Safe [ungate] :=
  safe_setBits (by decide) clockEnableCard

theorem safe_quiet (profile : UInt32) : (host.quietScript profile).Safe :=
  ((host.safe_profile profile).append safe_gate).append host.safe_update

theorem safe_divide (divider : Divider) : (host.divideScript divider).Safe :=
  ((safe_write (by decide) divider.encode).cons safe_ungate).append host.safe_update

theorem safe_clock (frequency : UInt32) : (host.clockScript frequency).Safe := by
  unfold clockScript
  dsimp only
  split
  · exact safe_gate.cons (safe_clearBits (by decide) _)
  · exact (host.safe_quiet _).append (host.safe_divide _)

theorem safe_reset : host.resetScript.Safe := by
  have hfront : Safe [.write .fifoThreshold host.config.fifo.encode,
      .write .cardThreshold host.config.cardReadThreshold, gate] :=
    (safe_write (by decide) _).cons ((safe_write (by decide) _).cons safe_gate)
  refine (hfront.append (host.safe_profile _)).append ?_
  refine (safe_write (by decide) powerOn).cons (safe_ungate.cons ?_)
  refine (safe_setBits (by decide) _).cons ((safe_clearBits (by decide) _).cons ?_)
  exact host.safe_resets

theorem safe_ready : readyScript.Safe := by
  refine (safe_setBits (by decide) _).cons ((safe_write (by decide) 0).cons ?_)
  refine (safe_write (by decide) clearAll).cons ((safe_write (by decide) 0).cons ?_)
  exact (safe_setBits (by decide) _).cons (safe_write (by decide) timeoutsLongest)

theorem safe_bringUp : host.bringUpScript.Safe :=
  (host.safe_reset.append host.safe_update).append safe_ready

end Host

/-! ## What it leaves -/

/-- Hardware initialisation sets some registers outright, each to a value of the
configuration. -/
def HostConfig.setting? (config : HostConfig) (register : Register) : Option UInt32 :=
  let profile := config.profiles.identification
  match register with
  | .fifoThreshold => some config.fifo.encode
  | .cardThreshold => some config.cardReadThreshold
  | .power => some powerOn
  | .clockExtension => some profile
  | .clockDivider => some (Divider.compute config.baseClock profile identificationClock).encode
  | .argument => some 0
  | .command => some CommandWord.updateClock.bits
  | .interruptMask => some 0
  | .rawInterrupt => some 0
  | .dmaInterrupt => some 0
  | .timeouts => some timeoutsLongest
  | _ => none

/-- What it makes of the contents of any other register: in four it forces some bits. -/
def Register.forced (register : Register) (old : UInt32) : UInt32 :=
  match register with
  | .clockEnable => old ||| clockEnableCard
  | .uhs => without old uhsLowVoltage
  | .cardReset => old ||| cardResetRelease
  | .control => without old Control.resets ||| (Control.interruptEnable ||| Control.internalDma)
  | _ => old

/-- Hardware initialisation leads from one contents to another. -/
structure HostConfig.Initialises (config : HostConfig) (before after : Contents) : Prop where
  registers : ∀ register : Register, after register.offset =
    (config.setting? register).getD (register.forced (before register.offset))
  elsewhere : ∀ offset, (∀ register : Register, offset ≠ register.offset) →
    after offset = before offset

namespace Control

theorem without_interruptEnable : without interruptEnable resets = interruptEnable := by
  decide

theorem without_internalDma : without internalDma resets = internalDma := by
  decide

end Control

/-- Forcing bits again changes nothing. -/
theorem Register.forced_forced (register : Register) (old : UInt32) :
    register.forced (register.forced old) = register.forced old := by
  cases register <;>
    simp only [forced, or_or_self, without_without, without_or, Control.without_interruptEnable,
      Control.without_internalDma]

/-- Nor does initialising again. -/
theorem HostConfig.Initialises.again {config : HostConfig} {before once twice : Contents}
    (first : config.Initialises before once) (second : config.Initialises once twice) :
    twice = once := by
  funext offset
  by_cases hregister : ∃ register : Register, offset = register.offset
  · obtain ⟨register, rfl⟩ := hregister
    have honce := first.registers register
    have htwice := second.registers register
    cases hsetting : config.setting? register with
    | some value =>
        rw [hsetting] at honce htwice
        exact htwice.trans honce.symm
    | none =>
        rw [hsetting] at honce htwice
        rw [htwice, honce]
        exact register.forced_forced _
  · exact second.elsewhere offset (not_exists.mp hregister)

namespace Host

variable (host : Host)

/-- Hardware initialisation: the controller is brought up, and the identification clock started. -/
def initialiseScript : Script :=
  host.bringUpScript ++ host.clockScript identificationClock

theorem safe_initialise : host.initialiseScript.Safe :=
  host.safe_bringUp.append (host.safe_clock identificationClock)

theorem clockScript_identification :
    host.clockScript identificationClock =
      host.quietScript host.config.profiles.identification ++
        host.divideScript (.compute host.config.baseClock host.config.profiles.identification
          identificationClock) :=
  rfl

theorem leaves_await (signal : Signal) (offset : Nat) (old : UInt32) :
    (host.await signal).leaves offset old = old :=
  rfl

theorem leaves_initialise (contents : Contents) :
    host.config.Initialises contents (host.initialiseScript.leaves contents) where
  registers register := by
    -- Register by register the steps that write it are left, the last of them on top.
    have htaken : without CommandWord.updateClock.withStart.bits CommandFlags.start =
        CommandWord.updateClock.bits := by decide
    have hover : without bringUpResets Control.resets = 0 := by decide
    have hcleared (word : UInt32) : without word clearAll = 0 := without_all word
    cases register <;>
      simp [Script.leaves, initialiseScript, clockScript_identification, bringUpScript, resetScript,
        quietScript, divideScript, readyScript, updateScript, postScript, profileScript, gate,
        ungate, Step.leaves_write, Step.leaves_change, leaves_await, Contents.kept_rawInterrupt,
        Contents.kept_of_ne, Contents.selfClearing, Register.offset_inj, HostConfig.setting?,
        Register.forced, or_without, without_or_self, without_or, without_without, without_zero,
        Control.without_interruptEnable, Control.without_internalDma, htaken, hover, hcleared]
  elsewhere offset h := by
    apply Script.leaves_of_unwritten
    exact fun _ _ register _ => h register

end Host

/-! ## Hardware initialisation -/

namespace Host

variable {host : Host} {machine : Machine ι} {system : System machine HostState ρ}
  {controller : Controller machine host.window host.services host.config.handshakeTimeout}

/-- Under a free lock hardware initialisation succeeds on a controller that answers and is ready,
and leaves it so with the registers initialised. -/
theorem perform_initialises (reaches : ∀ register, host.window.Reaches register)
    (handler : ι → Prog HostState ρ) (depth : Nat) {state : HostState}
    (free : system.cell = some state) (answers : controller.Answers system.shared)
    (ready : (controller.held system.shared).Ready) :
    ∃ after, (host.perform (.notify .hardwareInit)).run handler depth system =
        .ok (.outcome (.ok ()), after)
      ∧ after.cell = some state ∧ controller.Answers after.shared
      ∧ (controller.held after.shared).Ready
      ∧ host.config.Initialises (controller.held system.shared)
        (controller.held after.shared) := by
  obtain ⟨hpasses, hready⟩ := host.safe_initialise _ ready
  have hbody : (do
      host.bringUpController
      host.programClock identificationClock : Action HostState Unit).Enacts controller
        host.initialiseScript fun _ => True :=
    (enacts_bringUpController reaches).bind fun _ _ => enacts_programClock reaches _
  obtain ⟨value, after, hran, hcell, -, hanswers, hheld⟩ :=
    Lock.during_succeeds handler depth free (hbody system.shared answers hpasses)
  refine ⟨after, ?_, hcell, hanswers, hheld ▸ hready, hheld ▸ host.leaves_initialise _⟩
  have hnotify : (host.notify .hardwareInit).run handler depth system = .ok (.ok value, after) :=
    hran
  show ((host.notify .hardwareInit).bind fun outcome => .done (Answer.outcome outcome)).run handler
    depth system = _
  rw [Prog.run_bind, hnotify]
  rfl

/-- Whatever the registers of a controller hold that answers and is ready, hardware initialisation
succeeds under a free lock.  The registers that it sets then hold what the configuration says, and
only that; of the four that it shares it forces its own bits and keeps the others; all others stay.
Done again it succeeds again, and leaves what the first time left. -/
theorem bring_up_idempotent (host : Host) (reaches : ∀ register, host.window.Reaches register)
    (controller : Controller machine host.window host.services host.config.handshakeTimeout)
    (handler : ι → Prog HostState ρ) (depth : Nat) {state : HostState}
    (free : system.cell = some state) (answers : controller.Answers system.shared)
    (ready : (controller.held system.shared).Ready) :
    ∃ once twice, (host.perform (.notify .hardwareInit)).run handler depth system =
        .ok (.outcome (.ok ()), once)
      ∧ host.config.Initialises (controller.held system.shared) (controller.held once.shared)
      ∧ (host.perform (.notify .hardwareInit)).run handler depth once =
        .ok (.outcome (.ok ()), twice)
      ∧ controller.held twice.shared = controller.held once.shared := by
  obtain ⟨once, hfirst, hfree, hanswers, hready, honce⟩ :=
    perform_initialises reaches handler depth free answers ready
  obtain ⟨twice, hsecond, -, -, -, htwice⟩ :=
    perform_initialises reaches handler depth hfree hanswers hready
  exact ⟨once, twice, hfirst, honce, hsecond, honce.again htwice⟩

end Host

/-! ### Rough contents -/

/-- What a failed transfer and a stopped clock may leave, on a controller that is slow. -/
def roughRegisters : Bench.RegisterFile where
  values :=
    ((((Bench.RegisterFile.initial.values.set Register.control.offset 0x800000A7).set
      Register.clockEnable.offset 0x10000).set Register.rawInterrupt.offset 0xBBC2).set
        Register.busMode.offset 0x80).set Register.uhs.offset 0x3
  sticky := .empty
  busy :=
    (Table.empty.set Register.status.offset (ControllerStatus.cardBusy, 3)).set
      Register.control.offset (Host.bringUpResets, 5)
  scripts := .empty

/-- The small host on a bench with such registers and a card command latched. -/
def roughBench : System Bench.machine HostState (List Answer) :=
  { smallBench with
    shared := ⟨{ Bench.Device.initial 0x1F0000000 16 0 with registers := roughRegisters },
      .blank⟩
    cell := some ⟨⟨0x1F0000000, 1, 1⟩, some ⟨.ofCommand 24 0, 0⟩⟩ }

theorem roughRegisters_busy (offset : Nat) :
    roughRegisters.busy.get? offset =
      if offset = Register.control.offset then some (Host.bringUpResets, 5)
      else if offset = Register.status.offset then some (ControllerStatus.cardBusy, 3)
      else none := by
  simp only [roughRegisters, Table.get?_set, Table.get?_empty]

theorem roughRegisters_slow : roughRegisters.Slow where
  scripts _ := rfl
  sticky _ := rfl
  busy offset := by
    rw [Bench.RegisterFile.lagging, roughRegisters_busy]
    split
    · rename_i hcontrol
      rw [hcontrol]
      decide
    · split
      · rename_i hstatus
        rw [hstatus]
        decide
      · exact UInt32.zero_and

theorem roughRegisters_late (offset : Nat) : roughRegisters.late offset ≤ 5 := by
  rw [Bench.RegisterFile.late, roughRegisters_busy]
  split
  · decide
  · split <;> decide

theorem roughBench_slow :
    roughBench.shared.device.Slow smallConfig.handshakeTimeout where
  registers := roughRegisters_slow
  inTime limit hlimit offset := by
    cases hlimit
    exact Nat.le_trans (roughRegisters_late offset) (by decide)
  timers := rfl
  armed := rfl

theorem Host.rough_contents_initialised :
    ∃ once twice, (smallHost.perform (.notify .hardwareInit)).run undisturbed 0 roughBench =
        .ok (.outcome (.ok ()), once)
      ∧ smallConfig.Initialises roughRegisters.value once.shared.device.registers.value
      ∧ (smallHost.perform (.notify .hardwareInit)).run undisturbed 0 once =
        .ok (.outcome (.ok ()), twice)
      ∧ twice.shared.device.registers.value = once.shared.device.registers.value := by
  have hreaches (register : Register) : smallHost.window.Reaches register := by
    cases register <;> decide
  exact smallHost.bring_up_idempotent hreaches
    (Bench.controller smallHost.window .supplied rfl smallConfig.handshakeTimeout) undisturbed 0
    rfl roughBench_slow ⟨by decide, by decide⟩

end CardHost
