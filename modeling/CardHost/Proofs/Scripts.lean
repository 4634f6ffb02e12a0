import CardHost.Proofs.Follows
import CardHost.Proofs.Operations
import CardHost.Proofs.Usability

/-!
# The scripts of the operations

What every operation does with its registers, as data: `Host.script` lists the steps of an operation
on a state of the host, and `Host.perform_visits` says that each run goes through them, on any
platform and however it ends.  An operation that is refused, fails a check, or has a fixed answer
touches no register.

The waits of an operation are of two kinds.  A handshake waits for one of five signals within the
bound that is configured (`Host.await`), and a poll looks for a completion (`Host.complete`); at a
sample with an error it fails, whether or not it shows a completion too.
-/

namespace CardHost

/-! ## Waits -/

/-- Bits of a register that a handshake waits for: to be set, or to be clear. -/
structure Signal where
  register : Register
  mask : UInt32
  set : Bool

namespace Signal

/-- Whether a value shows a signal. -/
def shows (signal : Signal) (value : UInt32) : Bool :=
  match signal.set with
  | true => hasAll value signal.mask
  | false => !hasAny value signal.mask

/-- No data is on the bus. -/
def dataIdle : Signal := ⟨.status, ControllerStatus.dataBusy, false⟩

/-- The card takes commands. -/
def cardIdle : Signal := ⟨.status, ControllerStatus.cardBusy, false⟩

/-- The controller took the command. -/
def accepted : Signal := ⟨.command, CommandFlags.start, false⟩

/-- The clock of the card interface is stable. -/
def clockReady : Signal := ⟨.clockStatus, clockStatusReady, true⟩

/-- The resets of a bring-up are over. -/
def resetOver : Signal := ⟨.control, Host.bringUpResets, false⟩

end Signal

/-- How a sample of the raw interrupt status is judged: an error decides first. -/
def judgeSample (finished : UInt32 → Bool) (status : UInt32) : Option Verdict :=
  if hasAny status RawInterrupt.errors then some (.error .deviceError)
  else if finished status then some (.ok ())
  else none

/-- A poll ends as its samples decide. -/
def Poll.verdict : Poll → Verdict
  | finished => .ok ()
  | failed _ => .error .deviceError
  | exhausted => .error .timeout

/-- How an operation ended, by its answer. -/
def Answer.verdict : Answer → Verdict
  | outcome ended => ended
  | data ended _ => ended
  | response ended _ => ended
  | pending ended => CardHost.verdict ended
  | _ => .ok ()

theorem Answer.verdict_outcome (ended : Verdict) :
    (outcome ended).verdict = CardHost.verdict ended := by
  cases ended <;> rfl

theorem Call.verdict_phaseAnswer {call : Call} {length : Nat} {buffer : DataBuffer}
    (h : call.phase? = some (length, buffer)) (ended : Except HostError (List UInt8)) :
    (call.phaseAnswer ended).verdict = CardHost.verdict ended := by
  cases call with
  | readData => cases ended <;> rfl
  | writeData => cases ended <;> rfl
  | _ => cases h

theorem Host.verdict_responseAnswer (type : ResponseType) (buffer : List UInt32)
    (ended : Except HostError (List UInt32)) :
    (responseAnswer type buffer ended).verdict = CardHost.verdict ended := by
  cases ended <;> rfl

/-- A plain read: any value does. -/
def Step.look (register : Register) : Step :=
  .sample register (fun _ => some (.ok ())) (some 1) .timeout

/-- An operation that issues a card command.  Any other only makes the controller take over new
clock settings. -/
def Call.issues : Call → Bool
  | sendCommand .. => true
  | readData .. => true
  | writeData .. => true
  | _ => false

namespace Host

variable (host : Host)

/-- The handshake on a signal: one sample per microsecond of the bound, and one more. -/
def await (signal : Signal) : Step :=
  .sample signal.register (Window.judge signal.shows)
    (host.config.handshakeTimeout.map (·.toNat + 1)) .handshakeTimeout

/-- The poll for a completion. -/
def complete (finished : UInt32 → Bool) (polls : Nat) : Step :=
  .sample .rawInterrupt (judgeSample finished) (some polls) .timeout

/-! ## Scripts -/

/-- A command word is handed to the controller. -/
def postScript (word : CommandWord) (argument : UInt32) : Script :=
  [.write .argument argument, host.await .cardIdle, .write .command word.withStart.bits,
    host.await .accepted]

/-- New clock settings are taken over. -/
def updateScript : Script :=
  host.postScript .updateClock 0

/-- What comes before a card command is handed over. -/
def prepareScript : Script :=
  [host.await .dataIdle, .write .rawInterrupt clearAll]

/-- A card command is issued and completes. -/
def commandScript (word : CommandWord) (argument : UInt32) : Script :=
  host.prepareScript ++ host.postScript word argument
    ++ [.write .interruptMask RawInterrupt.errorMask,
      complete commandFinished host.config.commandPolls]

/-- A clock profile is loaded. -/
def profileScript (profile : UInt32) : Script :=
  [.write .clockExtension 0, .write .clockExtension profile, host.await .clockReady]

/-- The card clock is gated. -/
def gate : Step := .change .clockEnable (without · clockEnableCard)

/-- The card clock is turned on. -/
def ungate : Step := .change .clockEnable (· ||| clockEnableCard)

/-- A clock profile is loaded, and the card clock is off for the controller too. -/
def quietScript (profile : UInt32) : Script :=
  host.profileScript profile ++ [gate] ++ host.updateScript

/-- The divider is set, and the card clock is on for the controller too. -/
def divideScript (divider : Divider) : Script :=
  [.write .clockDivider divider.encode, ungate] ++ host.updateScript

/-- The card clock is set to a frequency; zero stops it. -/
def clockScript (frequency : UInt32) : Script :=
  let profile := host.config.profiles.select frequency
  if frequency = 0 then
    [gate, .change .clockExtension (without · ClockExtension.externalClock)]
  else
    host.quietScript profile
      ++ host.divideScript (.compute host.config.baseClock profile frequency)

/-- The controller is brought up until its resets are over. -/
def resetScript : Script :=
  [.write .fifoThreshold host.config.fifo.encode,
    .write .cardThreshold host.config.cardReadThreshold, gate]
    ++ host.profileScript host.config.profiles.identification
    ++ [.write .power powerOn, ungate,
      .change .clockExtension (· ||| ClockExtension.externalClock),
      .change .uhs (without · uhsLowVoltage), .change .control (· ||| bringUpResets),
      host.await .resetOver]

/-- The controller is left ready for commands. -/
def readyScript : Script :=
  [.change .cardReset (· ||| cardResetRelease), .write .interruptMask 0,
    .write .rawInterrupt clearAll, .write .dmaInterrupt 0,
    .change .control (· ||| (Control.interruptEnable ||| Control.internalDma)),
    .write .timeouts timeoutsLongest]

/-- The controller is brought up. -/
def bringUpScript : Script :=
  host.resetScript ++ host.updateScript ++ readyScript

/-- The DMA engine is pointed at a ring. -/
def pointScript (ring : Ring) : Script :=
  [.write .listLow (Bytes.lowHalf ring.base), .write .listHigh (Bytes.highHalf ring.base),
    .change .busMode (· ||| BusMode.softReset)]

/-- The DMA engine is started. -/
def startScript (length : Nat) : Script :=
  [.change .control (· ||| (Control.interruptEnable ||| Control.internalDma)),
    .change .busMode (· ||| BusMode.enable),
    .write .blockSize (UInt32.ofNat host.config.blockSize.toNat),
    .write .byteCount (UInt32.ofNat length)]

/-- A data phase with its command. -/
def phaseScript (ring : Ring) (latch : Latch) (length : Nat) : Script :=
  pointScript ring ++ host.startScript length ++ host.commandScript latch.word latch.argument
    ++ [complete dataFinished host.config.dataPolls]

/-- The script of an operation on a state of the host. -/
def script (state : HostState) : Call → Script
  | .sendCommand index argument =>
    let word := CommandWord.ofCommand index argument
    if word.isData then [] else host.commandScript word argument
  | .readData length _ =>
    match state.latch with
    | some latch => host.phaseScript state.ring latch length
    | none => []
  | .writeData length _ =>
    match state.latch with
    | some latch => host.phaseScript state.ring latch length
    | none => []
  | .receiveResponse type _ => (Register.responses.take type.wordCount).map .look
  | .setBus frequency lines _ =>
    match BusWidth.ofLines lines with
    | .ok width =>
      .write .cardType width.cardType :: if frequency = 0 then [] else host.clockScript frequency
    | .error _ => []
  | .setClock frequency => host.clockScript frequency
  | .bringUp => host.bringUpScript
  | .notify state =>
    match state with
    | .hardwareInit => host.bringUpScript ++ host.clockScript identificationClock
    | _ => []
  | _ => []

/-- A data phase needs a latched command. -/
theorem script_of_phase {call : Call} {length : Nat} {buffer : DataBuffer}
    (h : call.phase? = some (length, buffer)) (state : HostState) :
    host.script state call =
      match state.latch with
      | some latch => host.phaseScript state.ring latch length
      | none => [] := by
  cases call with
  | readData => cases h; rfl
  | writeData => cases h; rfl
  | _ => cases h

/-- What a script may do before it sets the clock. -/
inductive Opening : Script → Prop
  | none : Opening []
  | cardType (value : UInt32) : Opening [.write .cardType value]
  | bringUp : Opening host.bringUpScript

/-- A rule leads the script of an operation if it leads the parts that scripts are made of. -/
theorem led_of_parts {rule : Script → Step → Prop} (state : HostState) (call : Call)
    (command : call.issues = true → ∀ word argument,
      Script.Led rule [] (host.commandScript word argument))
    (phase : call.issues = true → ∀ ring latch length,
      Script.Led rule [] (host.phaseScript ring latch length))
    (look : ∀ register ∈ Register.responses, ∀ past, rule past (.look register))
    (cardType : call.issues = false → ∀ value, rule [] (.write .cardType value))
    (bringUp : call.issues = false → Script.Led rule [] host.bringUpScript)
    (clock : call.issues = false → ∀ past, host.Opening past → ∀ frequency,
      Script.Led rule past (host.clockScript frequency)) :
    Script.Led rule [] (host.script state call) := by
  cases call with
  | sendCommand index argument =>
      simp only [script]
      split
      · trivial
      · exact command rfl _ argument
  | readData length buffer =>
      simp only [script]
      split
      · exact phase rfl _ _ length
      · trivial
  | writeData length source =>
      simp only [script]
      split
      · exact phase rfl _ _ length
      · trivial
  | receiveResponse type buffer =>
      refine Script.led_of_forall fun step hmem => ?_
      obtain ⟨register, hregister, rfl⟩ := List.mem_map.mp hmem
      exact look register (List.mem_of_mem_take hregister)
  | setBus frequency lines timing =>
      simp only [script]
      split
      · refine ⟨cardType rfl _, ?_⟩
        split
        · trivial
        · exact clock rfl _ (.cardType _) frequency
      · trivial
  | setClock frequency => exact clock rfl _ .none frequency
  | bringUp => exact bringUp rfl
  | notify state =>
      cases state with
      | hardwareInit =>
          exact (bringUp rfl).append (clock rfl _ .bringUp identificationClock)
      | _ => trivial
  | _ => trivial

/-! ## Programs along their scripts -/

variable {halts : Prop}

theorem follows_write (register : Register) (value : UInt32) :
    (host.write register value : Action σ Unit).Follows host.window halts
      [.write register value] fun _ => True :=
  Action.follows_step (host.window.takes_write register value)

theorem follows_setBits (register : Register) (bits : UInt32) :
    (host.setBits register bits : Action σ Unit).Follows host.window halts
      [.change register (· ||| bits)] fun _ => True :=
  Action.follows_step (host.window.takes_change register _)

theorem follows_clearBits (register : Register) (bits : UInt32) :
    (host.clearBits register bits : Action σ Unit).Follows host.window halts
      [.change register (without · bits)] fun _ => True :=
  Action.follows_step (host.window.takes_change register _)

/-- A handshake fails where its signal does not show within the bound. -/
theorem passes_waited (message : Message) (shown : Bool) :
    (if shown = true then pure () else do
        (Prog.log message).lift
        throw .handshakeTimeout : Action σ Unit).run.Passes host.window halts fun outcome =>
          verdict outcome = Window.waited .handshakeTimeout shown := by
  cases shown with
  | true => exact ⟨rfl, _, rfl, rfl⟩
  | false => exact (Prog.passes_log message).bind fun _ _ => ⟨rfl, _, rfl, rfl⟩

theorem follows_handshake (signal : Signal) (missed : Message) :
    (host.window.handshake host.services signal.register.offset signal.shows missed
      host.config.handshakeTimeout : Action σ Unit).Follows host.window halts
      [host.await signal] fun _ => True :=
  Action.follows_judged
    (Window.takes_awaits host.services signal.register host.config.handshakeTimeout)
    (host.passes_waited missed)

theorem follows_report (message : Message) :
    (report message : Action σ Unit).Follows host.window halts [] fun _ => True :=
  Action.follows_passing (Prog.passes_log message)

theorem follows_post (word : CommandWord) (argument : UInt32) :
    (host.post word argument : Action σ Unit).Follows host.window halts
      (host.postScript word argument) fun _ => True := by
  refine (host.follows_write .argument argument).step fun _ _ => ?_
  refine (host.follows_handshake ⟨.status, ControllerStatus.cardBusy, false⟩ _).step fun _ _ => ?_
  refine (host.follows_write .command word.withStart.bits).step fun _ _ => ?_
  exact host.follows_handshake ⟨.command, CommandFlags.start, false⟩ _

/-! ### Polls -/

/-- A poll is decided by the first sample with an error or a completion. -/
theorem takes_poll (finished : UInt32 → Bool) (polls : Nat) :
    (host.poll finished polls : Prog σ Poll).Takes host.window halts fun taken ended =>
      (complete finished polls).Course host.window halts taken (ended.map Poll.verdict) := by
  induction polls with
  | zero => exact .late [] (by simp) rfl
  | succ polls ih =>
      have hdecided {status : UInt32} {ended : Verdict}
          (h : judgeSample finished status = some ended) :
          (complete finished (polls + 1)).Course host.window halts [.read .rawInterrupt status]
            (some ended) :=
        .decided [] status ended (by simp) (fun bound hbound => by cases hbound; simp) h
      refine host.window.takes_read_bind (fun h => .unreached h) fun status hreached => ?_
      by_cases herrors : hasAny status RawInterrupt.errors = true
      · rw [if_pos herrors]
        exact hdecided (if_pos herrors)
      · rw [if_neg herrors]
        by_cases hfinished : finished status = true
        · rw [if_pos hfinished]
          exact hdecided ((if_neg herrors).trans (if_pos hfinished))
        · rw [if_neg hfinished]
          have hundecided : judgeSample finished status = none :=
            (if_neg herrors).trans (if_neg hfinished)
          refine (host.services.passes_stall _).bind fun _ _ => ih.mono ?_
          intro later ended hlater
          exact hlater.again hreached hundecided

theorem follows_completion (finished : UInt32 → Bool) (polls : Nat) (failed : UInt32 → Message)
    (timedOut : Message) :
    (host.completion finished polls failed timedOut : Action σ Unit).Follows host.window halts
      [complete finished polls] fun _ => True := by
  refine Action.follows_judged (host.takes_poll _ _) fun ended => ?_
  cases ended with
  | finished => exact ⟨rfl, _, rfl, rfl⟩
  | failed status => exact (Prog.passes_log _).bind fun _ _ => ⟨rfl, _, rfl, rfl⟩
  | exhausted => exact (Prog.passes_log _).bind fun _ _ => ⟨rfl, _, rfl, rfl⟩

theorem follows_issue (word : CommandWord) (argument : UInt32) :
    (host.issue word argument : Action σ Unit).Follows host.window halts
      (host.commandScript word argument) fun _ => True := by
  refine (host.follows_report _).pass fun _ _ => ?_
  refine (host.follows_handshake ⟨.status, ControllerStatus.dataBusy, false⟩ _).step fun _ _ => ?_
  refine (host.follows_write .rawInterrupt clearAll).step fun _ _ => ?_
  refine (host.follows_post word argument).bind fun _ _ => ?_
  refine (host.follows_write .interruptMask RawInterrupt.errorMask).step fun _ _ => ?_
  exact host.follows_completion _ _ _ _

/-! ### Clock and bring-up -/

theorem follows_loadProfile (profile : UInt32) :
    (host.loadProfile profile : Action σ Unit).Follows host.window halts
      (host.profileScript profile) fun _ => True := by
  refine (host.follows_write .clockExtension 0).step fun _ _ => ?_
  refine (host.follows_write .clockExtension profile).step fun _ _ => ?_
  exact host.follows_handshake ⟨.clockStatus, clockStatusReady, true⟩ _

theorem follows_divider (profile frequency : UInt32) :
    (host.divider profile frequency : Action σ Divider).Follows host.window halts []
      fun divider => divider = .compute host.config.baseClock profile frequency := by
  unfold divider
  split
  · exact (host.follows_report _).pass fun _ _ => Action.follows_pure _ rfl
  · exact Action.follows_pure _ rfl

theorem follows_programClock (frequency : UInt32) :
    (host.programClock frequency : Action σ Unit).Follows host.window halts
      (host.clockScript frequency) fun _ => True := by
  unfold programClock clockScript
  by_cases hzero : frequency = 0
  · simp only [if_pos hzero]
    refine (host.follows_clearBits .clockEnable clockEnableCard).step fun _ _ => ?_
    refine (host.follows_clearBits .clockExtension _).step fun _ _ => ?_
    exact host.follows_report _
  · simp only [if_neg hzero, quietScript, List.append_assoc]
    refine (host.follows_loadProfile _).bind fun _ _ => ?_
    refine (host.follows_clearBits .clockEnable clockEnableCard).step fun _ _ => ?_
    refine (host.follows_post .updateClock 0).bind fun _ _ => ?_
    refine (host.follows_divider _ frequency).pass fun divider hdivider => ?_
    subst hdivider
    refine (host.follows_write .clockDivider _).step fun _ _ => ?_
    refine (host.follows_setBits .clockEnable clockEnableCard).step fun _ _ => ?_
    exact (host.follows_post .updateClock 0).finish fun _ _ => host.follows_report _

theorem follows_bringUpController :
    (host.bringUpController : Action σ Unit).Follows host.window halts host.bringUpScript
      fun _ => True := by
  unfold bringUpScript resetScript
  simp only [List.append_assoc]
  refine (host.follows_write .fifoThreshold _).step fun _ _ => ?_
  refine (host.follows_write .cardThreshold _).step fun _ _ => ?_
  refine (host.follows_clearBits .clockEnable clockEnableCard).step fun _ _ => ?_
  refine (host.follows_loadProfile _).bind fun _ _ => ?_
  refine (host.follows_write .power powerOn).step fun _ _ => ?_
  refine (host.follows_setBits .clockEnable clockEnableCard).step fun _ _ => ?_
  refine (host.follows_setBits .clockExtension _).step fun _ _ => ?_
  refine (host.follows_clearBits .uhs uhsLowVoltage).step fun _ _ => ?_
  refine (host.follows_setBits .control bringUpResets).step fun _ _ => ?_
  refine (host.follows_handshake ⟨.control, bringUpResets, false⟩ _).step fun _ _ => ?_
  refine (host.follows_post .updateClock 0).bind fun _ _ => ?_
  refine (host.follows_setBits .cardReset cardResetRelease).step fun _ _ => ?_
  refine (host.follows_write .interruptMask 0).step fun _ _ => ?_
  refine (host.follows_write .rawInterrupt clearAll).step fun _ _ => ?_
  refine (host.follows_write .dmaInterrupt 0).step fun _ _ => ?_
  refine (host.follows_setBits .control _).step fun _ _ => ?_
  refine (host.follows_write .timeouts timeoutsLongest).step fun _ _ => ?_
  exact host.follows_report _

/-! ### Data phases and responses -/

theorem follows_program (ring : Ring) :
    (ring.program host.window : Prog σ Unit).lift.Follows host.window halts (pointScript ring)
      fun _ => True := by
  unfold Ring.program
  simp only [Prog.bind_eq, Prog.lift_bind]
  refine (host.follows_write .listLow _).step fun _ _ => ?_
  refine (host.follows_write .listHigh _).step fun _ _ => ?_
  exact host.follows_setBits .busMode BusMode.softReset

theorem follows_start (length : Nat) :
    (Ring.start host.window length host.config.blockSize.toNat : Prog σ Unit).lift.Follows
      host.window halts (host.startScript length) fun _ => True := by
  unfold Ring.start
  simp only [Prog.bind_eq, Prog.lift_bind]
  refine (host.follows_setBits .control _).step fun _ _ => ?_
  refine (host.follows_setBits .busMode BusMode.enable).step fun _ _ => ?_
  refine (host.follows_write .blockSize _).step fun _ _ => ?_
  exact host.follows_write .byteCount _

theorem passes_collect (pages : Pages) (length : Nat) (buffer : DataBuffer) :
    (collect pages length buffer : Prog σ (List UInt8)).Passes host.window halts
      fun _ => True := by
  cases buffer with
  | incoming size => exact Prog.passes_request trivial
  | outgoing bytes => exact ⟨rfl, [], rfl, trivial⟩

/-- Staging and the descriptors come before the first register. -/
theorem visits_moveThrough (ring : Ring) (latch : Latch) (length : Nat) (buffer : DataBuffer)
    (pages : Pages) :
    (host.moveThrough ring latch length buffer pages : Action σ (List UInt8)).Visits host.window
      halts (host.phaseScript ring latch length) := by
  have hstage : (stage pages length buffer : Prog σ Unit).Asks Request.OffRegisters :=
    (asks_stage pages length buffer).mono fun _ => Request.OnMemory.offRegisters
  have hprepare : (ring.prepare length pages.address host.config.segmentSize.toNat
      host.config.blockSize.toNat : Action σ Geometry).Asks Request.OffRegisters :=
    Prog.Asks.mono (ring.asks_prepare _ _ _ _) fun _ => Request.OnMemory.offRegisters
  refine Action.Visits.after (Action.asks_lift hstage) fun _ => ?_
  refine Action.Visits.after hprepare fun geometry => ?_
  unfold phaseScript
  simp only [List.append_assoc]
  have harrived : (do
      let arrived ← (collect pages length buffer).lift
      report (.moved latch.word geometry.blocks geometry.segments)
      pure arrived : Action σ (List UInt8)).Follows host.window halts [] fun _ => True :=
    (Action.follows_passing (host.passes_collect pages length buffer)).pass fun _ _ =>
      (host.follows_report _).pass fun _ _ => Action.follows_pure _ trivial
  refine (show Action.Follows _ _ _ (fun _ => True) _ from ?_).visits
  refine (host.follows_program ring).bind fun _ _ => ?_
  refine (host.follows_start length).bind fun _ _ => ?_
  refine (host.follows_issue latch.word latch.argument).bind fun _ _ => ?_
  exact (host.follows_completion _ _ _ _).finish fun _ _ => harrived

theorem visits_borrow {services : Services} {count : Nat} {refused : HostError → Message}
    {work : Pages → Action σ α} {script : Script}
    (h : ∀ pages, (work pages).Visits host.window halts script) :
    (Pages.borrow services count refused work).Visits host.window halts script := by
  refine Action.Visits.after (Pages.asks_allocate refused trivial fun _ => trivial) fun pages => ?_
  refine Prog.Takes.bind (h pages) (fun _ => id) ?_
  intro taken outcome hvisit
  have hfree : (Prog.request (.free pages.services pages.address pages.count) :
      Prog σ Status).Passes host.window halts fun _ => True := Prog.passes_request trivial
  have hrelease : (pages.release : Prog σ Unit).Passes host.window halts fun _ => True := by
    rw [Pages.release_eq]
    refine hfree.bind fun status _ => ?_
    cases HostError.ofStatus status with
    | ok value => exact ⟨rfl, (), rfl, trivial⟩
    | error error => exact Prog.passes_log _
  refine hrelease.bind fun _ _ => ?_
  rw [Prog.pure_eq, Prog.Takes, List.append_nil]
  exact hvisit

theorem visits_runLatched (ring : Ring) (latch : Latch) (length : Nat) (buffer : DataBuffer) :
    (host.runLatched ring latch length buffer : Action σ (List UInt8)).Visits host.window halts
      (host.phaseScript ring latch length) := by
  have hform := host.runLatched_form (σ := σ) ring latch length buffer
  unfold Action.Visits
  generalize (host.runLatched ring latch length buffer : Action σ _).run = phase at hform ⊢
  cases hform with
  | refused message error =>
      exact Action.Visits.after (Action.asks_lift (asks_log _ trivial)) fun _ =>
        Action.visits_throw error
  | unsplit => exact .inl ⟨rfl, by simp⟩
  | moves => exact host.visits_borrow (host.visits_moveThrough ring latch length buffer)

/-- Any value of a register will do for a plain read. -/
theorem follows_look (register : Register) :
    (host.window.read register.offset : Prog σ UInt32).lift.Follows host.window halts
      [.look register] fun _ => True := by
  apply Action.follows_step
  refine (host.window.takes_read register).mono ?_
  rintro taken ended (⟨hunreached, rfl, rfl⟩ | ⟨value, -, rfl, rfl⟩)
  · exact .unreached hunreached
  · exact .decided [] value (.ok ()) (by simp) (fun bound hbound => by cases hbound; simp) rfl

theorem follows_readRegisters (registers : List Register) :
    (host.readRegisters registers : Prog σ (List UInt32)).lift.Follows host.window halts
      (registers.map .look) fun _ => True := by
  induction registers with
  | nil => exact Action.follows_pure _ trivial
  | cons register rest ih =>
      unfold readRegisters
      simp only [Prog.bind_eq, Prog.lift_bind]
      refine (host.follows_look register).step fun value _ => ?_
      exact ih.finish fun values _ => Action.follows_pure _ trivial

theorem follows_setBus (width : BusWidth) (frequency : UInt32) (timing : BusTiming) :
    (do report (.busSet width frequency timing)
        host.write .cardType width.cardType
        if frequency = 0 then pure () else host.programClock frequency :
          Action σ Unit).Follows host.window halts
      (.write .cardType width.cardType :: if frequency = 0 then [] else host.clockScript frequency)
      fun _ => True := by
  refine (host.follows_report _).pass fun _ _ => ?_
  refine (host.follows_write .cardType width.cardType).step fun _ _ => ?_
  by_cases hzero : frequency = 0
  · simp only [if_pos hzero]
    exact Action.follows_pure () trivial
  · simp only [if_neg hzero]
    exact host.follows_programClock frequency

/-! ## Operations -/

/-- An operation that runs one body under the lock, along its script. -/
inductive Locked (halts : Prop) (call : Call) : Prog HostState Answer → Prop
  | intro {α : Type} (body : HostState → Prog HostState (Except HostError α × HostState))
      (finish : Except HostError α → Answer)
      (judged : ∀ outcome, (finish outcome).verdict = CardHost.verdict outcome)
      (visits : ∀ state, (body state).Takes host.window halts fun taken ended =>
        (host.script state call).Visit host.window halts taken
          (ended.map fun result => CardHost.verdict result.1)) :
      Locked halts call ((host.lock.holding body).bind fun outcome => .done (finish outcome))

theorem locked_during {call : Call} {action : Action HostState α}
    {finish : Except HostError α → Answer}
    (judged : ∀ outcome, (finish outcome).verdict = CardHost.verdict outcome)
    (h : ∀ state, action.Visits host.window halts (host.script state call)) :
    host.Locked halts call
      ((host.lock.during action).bind fun outcome => .done (finish outcome)) := by
  refine .intro _ finish judged fun state => ?_
  refine Prog.Takes.shape ((h state).mono ?_)
  intro taken ended hvisit
  rwa [Option.map_map]

/-- A data phase goes along its script if a command is latched, and else fails. -/
theorem takes_runPhase (length : Nat) (buffer : DataBuffer) (state : HostState) :
    (host.runPhase length buffer state : Prog HostState _).Takes host.window halts
      fun taken ended => Script.Visit host.window halts
        (match state.latch with
          | some latch => host.phaseScript state.ring latch length
          | none => []) taken (ended.map fun result => CardHost.verdict result.1) := by
  obtain ⟨ring, latch⟩ := state
  unfold runPhase
  cases latch with
  | none =>
      exact (Prog.passes_log _).bind fun _ _ => .inl ⟨rfl, Action.verdict_error .invalidArgument⟩
  | some latch =>
      refine Prog.Takes.shape ((host.visits_runLatched ring latch length buffer).mono ?_)
      intro taken ended hvisit
      rwa [Option.map_map]

theorem takes_commandBody (index argument : UInt32) (state : HostState) :
    (host.commandBody index argument state).Takes host.window halts fun taken ended =>
      (host.script state (.sendCommand index argument)).Visit host.window halts taken
        (ended.map fun result => CardHost.verdict result.1) := by
  have hremarks (remarks : List Message) :
      (Prog.logAll remarks : Prog HostState Unit).Passes host.window halts fun _ => True := by
    induction remarks with
    | nil => exact ⟨rfl, (), rfl, trivial⟩
    | cons message rest ih => exact (Prog.passes_log message).bind fun _ _ => ih
  cases hdata : (CommandWord.ofCommand index argument).isData with
  | true =>
      obtain ⟨remarks, hbody⟩ := host.commandBody_latching hdata state
      have hscript : host.script state (.sendCommand index argument) = [] := if_pos hdata
      rw [hbody, hscript]
      exact (hremarks remarks).bind fun _ _ => .inr .done
  | false =>
      obtain ⟨remarks, hbody⟩ := host.commandBody_issuing hdata state
      have hscript : host.script state (.sendCommand index argument) =
          host.commandScript (.ofCommand index argument) argument :=
        if_neg (by simp [hdata])
      rw [hbody, hscript]
      refine (hremarks remarks).bind fun _ _ => Prog.Takes.shape ?_
      refine (host.follows_issue (.ofCommand index argument) argument).visits.mono ?_
      intro taken ended hvisit
      rwa [Option.map_map]

/-- Every operation that takes the lock goes along its script. -/
theorem perform_locked {call : Call} (hdump : call ≠ .dump) (h : host.unlocked? call = none) :
    host.Locked halts call (host.perform call) := by
  cases call with
  | sendCommand index argument =>
      rw [perform_sendCommand]
      exact .intro _ _ Answer.verdict_outcome (host.takes_commandBody index argument)
  | readData length buffer =>
      rw [host.perform_phase rfl]
      exact .intro _ _ (Call.verdict_phaseAnswer rfl) (host.takes_runPhase length _)
  | writeData length source =>
      rw [host.perform_phase rfl]
      exact .intro _ _ (Call.verdict_phaseAnswer rfl) (host.takes_runPhase length _)
  | receiveResponse type buffer =>
      have hroom : ¬ buffer.length < type.wordCount := by
        intro hshort
        rw [unlocked?, if_pos hshort] at h
        cases h
      rw [host.perform_receiveResponse hroom]
      exact host.locked_during (verdict_responseAnswer type buffer) fun _ =>
        (host.follows_readRegisters _).visits
  | setBus frequency lines timing =>
      cases hwidth : BusWidth.ofLines lines with
      | error error =>
          simp only [unlocked?, hwidth] at h
          cases h
      | ok width =>
          rw [host.perform_setBus frequency timing hwidth]
          refine host.locked_during Answer.verdict_outcome fun state => ?_
          have hscript : host.script state (.setBus frequency lines timing) =
              .write .cardType width.cardType
                :: if frequency = 0 then [] else host.clockScript frequency := by
            simp only [script, hwidth]
          rw [hscript]
          exact (host.follows_setBus width frequency timing).visits
  | setClock frequency =>
      exact host.locked_during Answer.verdict_outcome fun _ =>
        (host.follows_programClock frequency).visits
  | bringUp =>
      exact host.locked_during Answer.verdict_outcome fun _ =>
        host.follows_bringUpController.visits
  | notify state =>
      cases state with
      | hardwareInit =>
          exact host.locked_during Answer.verdict_outcome fun _ =>
            (host.follows_bringUpController.bind fun _ _ =>
              host.follows_programClock identificationClock).visits
      | _ => cases h
  | pending =>
      exact .intro (fun state => .done (.ok state.latch, state)) _
        (fun outcome => by cases outcome <;> rfl) fun _ => .inr .done
  | dump => exact (hdump rfl).elim
  | limits => cases h
  | config => cases h
  | facts => cases h

/-! ## Runs -/

section Runs

variable {machine : Machine ι} {handler : ι → Prog HostState ρ} {depth : Nat}

/-- The accesses of an operation and its verdict, where `cell` holds the guarded state: it touches
no register, and succeeds then only if its answer is fixed, or it takes the lock and goes along its
script on the state it finds. -/
inductive Visit (halts : Prop) (cell : Option HostState) (call : Call) (taken : List Access)
    (ended : Option Verdict) : Prop
  | aside (untouched : taken = [])
      (fixed : ended = some (.ok ()) →
        ∃ answer remarks, host.unlocked? call = some (answer, remarks) ∧ answer.verdict = .ok ())
  | along {state : HostState} (locks : host.unlocked? call = none) (found : cell = some state)
      (course : (host.script state call).Course host.window halts taken ended)

/-- An operation with a fixed answer touches no register. -/
theorem touched_of_unlocked {call : Call} (hdump : call ≠ .dump)
    {fixed : Answer × List Message} (h : host.unlocked? call = some fixed)
    (system : System machine HostState ρ) :
    (host.perform call).touched host.window handler depth system = [] := by
  have hform := host.perform_form hdump
  generalize host.perform call = program at hform
  cases hform with
  | unlocked answer remarks =>
      have hremarks : (Prog.logAll remarks : Prog HostState Unit).Asks Request.OffRegisters :=
        asks_logAll remarks fun _ => trivial
      exact Prog.Asks.touched (hremarks.bind fun _ => Prog.asks_done _) system
  | locked body finish hnone =>
      rw [h] at hnone
      cases hnone

/-- Each run of an operation visits its script. -/
theorem perform_visits {call : Call} (hdump : call ≠ .dump)
    {system : System machine HostState ρ}
    (served : halts ∨ (host.perform call).Served handler depth system) :
    host.Visit halts system.cell call
      ((host.perform call).touched host.window handler depth system)
      (((host.perform call).ended? handler depth system).map Answer.verdict) := by
  cases hunlocked : host.unlocked? call with
  | some fixed =>
      obtain ⟨answer, remarks⟩ := fixed
      refine .aside (host.touched_of_unlocked hdump hunlocked system) fun hended => ?_
      rw [Prog.ended?, host.run_perform_of_unlocked handler depth hdump hunlocked] at hended
      exact ⟨answer, remarks, hunlocked, Option.some.inj hended⟩
  | none =>
      have hlocked : host.Locked halts call (host.perform call) :=
        host.perform_locked hdump hunlocked
      generalize host.perform call = program at hlocked served ⊢
      cases hlocked with
      | intro body finish judged visits =>
          have hverdict : Answer.verdict ∘ finish = CardHost.verdict := funext judged
          have hbody := served.imp_right Prog.Served.of_bind_done
          rw [Prog.touched_bind_done, Prog.ended?_bind_done, Option.map_map, hverdict]
          cases hcell : system.cell with
          | none =>
              refine .aside (Lock.touched_of_held hcell) fun hended => ?_
              rw [Prog.ended?, Lock.run_holding_of_held handler depth _ _ _ hcell] at hended
              cases hended
          | some state =>
              obtain ⟨htouched, hended, hserved⟩ :=
                Lock.holding_of_free host.window handler depth host.lock body hcell
              rw [htouched, hended]
              have hguarded : (Lock.guarded body ⟨state, system.level⟩).Takes host.window halts
                  fun taken ended => (host.script state call).Visit host.window halts taken
                    (ended.map CardHost.verdict) := by
                refine Lock.takes_guarded ((visits state).mono ?_)
                intro taken ended hvisit
                rwa [Option.map_map]
              rcases hguarded.run (hbody.imp_right hserved) with ⟨huntouched, hfailed⟩ | hcourse
              · exact .aside huntouched fun hpassed => (hfailed hpassed).elim
              · exact .along hunlocked rfl hcourse

/-- Where a rule leads the scripts of an operation, a dump apart, every access belongs to a step
that the rule allows, and what came before it passed the steps before that one. -/
theorem perform_led {call : Call} (hdump : call ≠ .dump) {rule : Script → Step → Prop}
    (led : ∀ state, Script.Led rule [] (host.script state call))
    {system : System machine HostState ρ} {front back : List Access} {access : Access}
    (split : (host.perform call).touched host.window handler depth system =
      front ++ access :: back) :
    ∃ done step passed early, rule done step
      ∧ Script.Course host.window True done passed (some (.ok ()))
      ∧ front = passed ++ early ∧ step.Makes early access := by
  have hvisit : host.Visit True system.cell call
      ((host.perform call).touched host.window handler depth system) _ :=
    host.perform_visits hdump (.inl trivial)
  rcases hvisit with ⟨huntouched, -⟩ | ⟨-, -, hcourse⟩
  · rw [huntouched] at split
    simp at split
  · obtain ⟨done, step, rest, passed, early, hscript, hdone, hfront, hmakes⟩ :=
      hcourse.at_access split
    exact ⟨done, step, passed, early, (led _).at_step hscript, hdone, hfront, hmakes⟩

/-- A dump writes no register. -/
theorem ne_dump_of_wrote {call : Call} {system : System machine HostState ρ}
    {front back : List Access} {register : Register} {value : UInt32}
    (split : (host.perform call).touched host.window handler depth system =
      front ++ .wrote register value :: back) : call ≠ .dump := by
  rintro rfl
  have hunwritten : (host.perform .dump).Asks fun request => ¬ request.IsWrite := by
    refine host.asks_perform_dump.mono fun request hrequest => ?_
    cases request with
    | write window offset value =>
        obtain ⟨-, -, -, hnone⟩ := hrequest
        exact hnone.elim
    | _ => exact id
  apply Prog.Asks.unwritten hunwritten system register value
  rw [split]
  simp

end Runs

end Host

end CardHost
