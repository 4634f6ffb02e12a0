import CardHost.Proofs.HostRequests
import CardHost.Proofs.Masks

/-!
# The form of every operation

An operation either takes the lock around one body or answers without looking at anything that can
change.  `Host.unlocked?` tells which, and `perform_form` says it of every operation: the body asks
only what `Host.Permits` allows, leaves the ring alone, and settles the latch as `Call.settle` has
it.  What interruptions, sequences of operations and the bench see of an operation is derived from
this one case split.
-/

namespace CardHost

/-- Logs messages in order. -/
def Prog.logAll : List Message → Prog σ Unit
  | [] => .done ()
  | message :: rest => (Prog.log message).bind fun _ => logAll rest

theorem asks_logAll {allowed : Request σ → Prop} (messages : List Message)
    (h : ∀ message, allowed (.log message)) :
    (Prog.logAll messages : Prog σ Unit).Asks allowed := by
  induction messages with
  | nil => trivial
  | cons message rest ih => exact (asks_log message (h message)).bind fun _ => ih

/-- The answer of an operation that was refused the lock; buffers come back as they were. -/
def Call.denied : Call → Answer
  | .readData _ buffer => .data (.error (.firmware .accessDenied)) buffer
  | .receiveResponse _ buffer => .response (.error (.firmware .accessDenied)) buffer
  | .pending => .pending (.error (.firmware .accessDenied))
  | _ => .outcome (.error (.firmware .accessDenied))

/-- The answer of an operation that does not take the lock, with the messages it logs; none if it
takes the lock. -/
def Host.unlocked? (host : Host) : Call → Option (Answer × List Message)
  | .receiveResponse type buffer =>
    if buffer.length < type.wordCount then
      some (.response (.error .invalidArgument) buffer, [.responseTooLong type buffer.length])
    else
      none
  | .setBus _ lines _ =>
    match BusWidth.ofLines lines with
    | .error error => some (.outcome (.error error), [.widthUnsupported lines])
    | .ok _ => none
  | .notify state =>
    match state with
    | .hardwareInit => none
    | other => some (.outcome (.ok ()), [.stateIgnored other])
  | .limits => some (.limits host.limits, [])
  | .config => some (.config host.config, [])
  | .facts => some (.facts Host.facts, [])
  | _ => none

/-! ## The latch -/

/-- The shared state after an operation that got the lock: a data command is latched, a data phase
leaves no latch, everything else leaves it alone.  The ring stays. -/
def Call.settle (call : Call) (state : HostState) : HostState :=
  match call with
  | .sendCommand index argument =>
    let word := CommandWord.ofCommand index argument
    if word.isData then { state with latch := some ⟨word, argument⟩ } else state
  | .readData .. => { state with latch := none }
  | .writeData .. => { state with latch := none }
  | _ => state

/-! ## What the bodies ask -/

/-- A register write that moves no data and leaves the two status registers alone. -/
def Register.WritesQuietly (register : Register) (value : UInt32) : Prop :=
  register ≠ .status ∧ register ≠ .clockStatus
    ∧ (register = .command → hasAll value CommandFlags.dataExpected = false)

/-- What an operation may ask under the lock.  Only data phases reach past the registers. -/
def Host.Permits (host : Host) : Call → Request HostState → Prop
  | .readData .., request => request.Inner
  | .writeData .., request => request.Inner
  | _, request => request.OnRegisters host.window Register.WritesQuietly

theorem Host.Permits.inner {host : Host} {call : Call} {request : Request HostState}
    (h : host.Permits call request) : request.Inner := by
  unfold Host.Permits at h
  split at h
  · exact h
  · exact h
  · exact h.inner

theorem writesQuietly_of_ne {register : Register} (hstatus : register ≠ .status)
    (hclock : register ≠ .clockStatus) (hcommand : register ≠ .command) (value : UInt32) :
    register.WritesQuietly value :=
  ⟨hstatus, hclock, fun h => (hcommand h).elim⟩

theorem writesQuietly_command {word : CommandWord} (h : word.isData = false) :
    Register.command.WritesQuietly word.withStart.bits :=
  ⟨by decide, by decide, fun _ => by rw [CommandWord.hasAll_withStart_data, h]⟩

theorem writesQuietly_of_mem_clock : ∀ register ∈ Host.clockRegisters, ∀ value,
    register.WritesQuietly value := by
  intro register hmem value
  have hne : register ≠ .status ∧ register ≠ .clockStatus ∧ register ≠ .command := by
    revert register
    decide
  exact writesQuietly_of_ne hne.1 hne.2.1 hne.2.2 value

theorem writesQuietly_of_mem_bringUp : ∀ register ∈ Host.bringUpRegisters, ∀ value,
    register.WritesQuietly value := by
  intro register hmem value
  have hne : register ≠ .status ∧ register ≠ .clockStatus ∧ register ≠ .command := by
    revert register
    decide
  exact writesQuietly_of_ne hne.1 hne.2.1 hne.2.2 value

namespace Host

variable (host : Host)

theorem asks_programClock_quietly (frequency : UInt32) :
    (host.programClock frequency : Action HostState Unit).Asks
      (Request.OnRegisters host.window Register.WritesQuietly) :=
  asks_programClock host frequency writesQuietly_of_mem_clock
    (writesQuietly_command (by decide))

theorem asks_bringUpController_quietly :
    (host.bringUpController : Action HostState Unit).Asks
      (Request.OnRegisters host.window Register.WritesQuietly) :=
  asks_bringUpController host (fun register hmem _ => writesQuietly_of_mem_clock register hmem)
    writesQuietly_of_mem_bringUp
    (writesQuietly_command (by decide))

/-- A command without data writes nothing that moves any. -/
theorem asks_issue_quietly {word : CommandWord} (h : word.isData = false) (argument : UInt32) :
    (host.issue word argument : Action HostState Unit).Asks
      (Request.OnRegisters host.window Register.WritesQuietly) :=
  asks_issue host (writesQuietly_of_ne (by decide) (by decide) (by decide) _)
    (writesQuietly_of_ne (by decide) (by decide) (by decide) _) (writesQuietly_command h)
    (writesQuietly_of_ne (by decide) (by decide) (by decide) _)

/-- A data phase takes the latch, whatever comes of it. -/
theorem obeys_runPhase (length : Nat) (buffer : DataBuffer) (state : HostState) :
    (host.runPhase length buffer state : Prog HostState _).Obeys Request.Inner
      fun result => result.2 = { state with latch := none } := by
  unfold runPhase
  obtain ⟨ring, latch⟩ := state
  cases latch with
  | none => exact (asks_log _ trivial).obeys_bind fun _ => rfl
  | some latch =>
      exact Prog.Asks.obeys_bind (asks_runLatched host ring latch length buffer) fun _ => rfl

/-- What runs under the lock for a command. -/
def commandBody (index argument : UInt32) (state : HostState) :
    Prog HostState (Except HostError Unit × HostState) := do
  let word := CommandWord.ofCommand index argument
  if word.isData then do
    match state.latch with
    | some waiting => Prog.log (.latchReplaced word waiting.word)
    | none => pure ()
    Prog.log (.latched word argument)
    pure (.ok (), { state with latch := some ⟨word, argument⟩ })
  else do
    match state.latch with
    | some waiting => Prog.log (.latchWaiting index waiting.word)
    | none => pure ()
    let outcome ← (host.issue word argument).run
    pure (outcome, state)

theorem sendCommand_eq (index argument : UInt32) :
    host.sendCommand index argument = host.lock.holding (host.commandBody index argument) := rfl

theorem perform_sendCommand (index argument : UInt32) :
    host.perform (.sendCommand index argument) =
      (host.lock.holding (host.commandBody index argument)).bind fun outcome =>
        .done (.outcome outcome) := by
  rw [← sendCommand_eq]
  rfl

/-- A data command is latched, with remarks at most. -/
theorem commandBody_latching {index argument : UInt32}
    (h : (CommandWord.ofCommand index argument).isData = true) (state : HostState) :
    ∃ remarks, host.commandBody index argument state = (Prog.logAll remarks).bind fun _ =>
      .done (.ok (), { state with latch := some ⟨.ofCommand index argument, argument⟩ }) := by
  obtain ⟨ring, latch⟩ := state
  unfold commandBody
  simp only [h, if_true]
  cases latch with
  | none => exact ⟨[.latched (.ofCommand index argument) argument], rfl⟩
  | some waiting =>
      exact ⟨[.latchReplaced (.ofCommand index argument) waiting.word,
        .latched (.ofCommand index argument) argument], rfl⟩

/-- Any other command is issued, with remarks at most. -/
theorem commandBody_issuing {index argument : UInt32}
    (h : (CommandWord.ofCommand index argument).isData = false) (state : HostState) :
    ∃ remarks, host.commandBody index argument state = (Prog.logAll remarks).bind fun _ =>
      (host.issue (.ofCommand index argument) argument).run.bind fun outcome =>
        .done (outcome, state) := by
  obtain ⟨ring, latch⟩ := state
  unfold commandBody
  simp only [h, Bool.false_eq_true, if_false]
  cases latch with
  | none => exact ⟨[], rfl⟩
  | some waiting => exact ⟨[.latchWaiting index waiting.word], rfl⟩

/-- A data command is only latched; any other is issued and leaves the latch alone. -/
theorem obeys_commandBody (index argument : UInt32) (state : HostState) :
    (host.commandBody index argument state).Obeys
      (Request.OnRegisters host.window Register.WritesQuietly)
      fun result => result.2 = (Call.sendCommand index argument).settle state := by
  have hremarks (remarks : List Message) : (Prog.logAll remarks : Prog HostState Unit).Asks
      (Request.OnRegisters host.window Register.WritesQuietly) :=
    asks_logAll remarks fun _ => trivial
  cases hdata : (CommandWord.ofCommand index argument).isData with
  | true =>
      obtain ⟨remarks, hbody⟩ := host.commandBody_latching hdata state
      rw [hbody]
      apply (hremarks remarks).obeys_bind
      intro _
      simp [Prog.Obeys, Call.settle, hdata]
  | false =>
      obtain ⟨remarks, hbody⟩ := host.commandBody_issuing hdata state
      rw [hbody]
      apply (hremarks remarks).obeys_bind
      intro _
      apply Prog.Asks.obeys_bind (asks_issue_quietly host hdata argument)
      intro outcome
      simp [Prog.Obeys, Call.settle, hdata]

end Host

/-! ## Data phases -/

/-- The length of a data phase and the caller's side of it. -/
def Call.phase? : Call → Option (Nat × DataBuffer)
  | .readData length buffer => some (length, .incoming buffer.length)
  | .writeData length source => some (length, .outgoing source)
  | _ => none

/-- The answer of a data phase with its outcome. -/
def Call.phaseAnswer : Call → Except HostError (List UInt8) → Answer
  | .readData length buffer, .ok arrived => .data (.ok ()) (arrived ++ buffer.drop length)
  | .readData _ buffer, .error error => .data (.error error) buffer
  | _, .ok _ => .outcome (.ok ())
  | _, .error error => .outcome (.error error)

/-- Both data phases run `runPhase` under the lock. -/
theorem Host.perform_phase (host : Host) {call : Call} {length : Nat} {buffer : DataBuffer}
    (h : call.phase? = some (length, buffer)) :
    host.perform call =
      (host.lock.holding (host.runPhase length buffer)).bind fun outcome =>
        .done (call.phaseAnswer outcome) := by
  cases call with
  | readData length' buffer' =>
      cases h
      show (host.readData length buffer').bind _ = _
      unfold readData
      rw [Prog.bind_eq, Prog.bind_assoc]
      congr 1
      funext outcome
      cases outcome <;> rfl
  | writeData length' source =>
      cases h
      show (host.writeData length source).bind _ = _
      unfold writeData
      rw [Prog.bind_eq, Prog.bind_assoc]
      congr 1
      funext outcome
      cases outcome <;> rfl
  | _ => cases h

/-- Outside the data phases an operation stays on the registers, and quietly. -/
theorem Host.Permits.of_not_phase {host : Host} {call : Call} {request : Request HostState}
    (h : host.Permits call request) (hphase : call.phase? = none) :
    request.OnRegisters host.window Register.WritesQuietly := by
  cases call with
  | readData => cases hphase
  | writeData => cases hphase
  | _ => exact h

/-! ## The form -/

/-- The forms that the program of an operation takes. -/
inductive Host.Form (host : Host) (call : Call) : Prog HostState Answer → Prop
  /-- The answer is fixed, and only messages are logged. -/
  | unlocked (answer : Answer) (remarks : List Message)
      (h : host.unlocked? call = some (answer, remarks)) :
      Form host call ((Prog.logAll remarks).bind fun _ => .done answer)
  /-- One body runs under the lock, and the operation is refused where the lock is. -/
  | locked {α : Type} (body : HostState → Prog HostState (Except HostError α × HostState))
      (finish : Except HostError α → Answer) (h : host.unlocked? call = none)
      (refuses : finish (.error (.firmware .accessDenied)) = call.denied)
      (settles : ∀ state, (body state).Obeys (host.Permits call)
        fun result => result.2 = call.settle state) :
      Form host call ((host.lock.holding body).bind fun outcome => .done (finish outcome))

namespace Host

variable (host : Host)

/-- The form of an operation that runs an action on the registers. -/
theorem form_during {call : Call} {action : Action HostState α}
    {finish : Except HostError α → Answer}
    (h : host.unlocked? call = none)
    (hpermits : host.Permits call = Request.OnRegisters host.window Register.WritesQuietly)
    (hsettle : ∀ state, call.settle state = state)
    (refuses : finish (.error (.firmware .accessDenied)) = call.denied)
    (hasks : action.Asks (Request.OnRegisters host.window Register.WritesQuietly)) :
    host.Form call ((host.lock.during action).bind fun outcome => .done (finish outcome)) := by
  refine .locked _ finish h refuses fun state => ?_
  rw [hpermits]
  exact Prog.Asks.obeys_bind hasks fun outcome => (hsettle state).symm

/-- The answer of reading a response; on an error the buffer comes back as it was. -/
def responseAnswer (type : ResponseType) (buffer : List UInt32) :
    Except HostError (List UInt32) → Answer
  | .ok words => .response (.ok ()) (words ++ buffer.drop type.wordCount)
  | .error error => .response (.error error) buffer

/-- A response with room for it is read under the lock. -/
theorem perform_receiveResponse {type : ResponseType} {buffer : List UInt32}
    (h : ¬ buffer.length < type.wordCount) :
    host.perform (.receiveResponse type buffer) =
      (host.lock.during (host.readRegisters
          (Register.responses.take type.wordCount)).lift).bind fun outcome =>
        .done (responseAnswer type buffer outcome) := by
  show (host.receiveResponse type buffer).bind _ = _
  unfold receiveResponse
  rw [if_neg h, Prog.bind_eq, Prog.bind_assoc]
  congr 1
  funext outcome
  cases outcome <;> rfl

/-- A bus of a known width is set up under the lock. -/
theorem perform_setBus (frequency : UInt32) {lines : UInt32} (timing : BusTiming) {width : BusWidth}
    (h : BusWidth.ofLines lines = .ok width) :
    host.perform (.setBus frequency lines timing) =
      (host.lock.during do
        report (.busSet width frequency timing)
        host.write .cardType width.cardType
        if frequency = 0 then pure () else host.programClock frequency).bind fun outcome =>
          .done (.outcome outcome) := by
  show (host.setBus frequency lines timing).bind _ = _
  unfold setBus
  rw [h]
  rfl

/-- Every operation but a dump takes the lock around one body or has a fixed answer. -/
theorem perform_form {call : Call} (hdump : call ≠ .dump) :
    host.Form call (host.perform call) := by
  cases call with
  | sendCommand index argument =>
      rw [perform_sendCommand]
      exact .locked _ _ rfl rfl (host.obeys_commandBody index argument)
  | readData length buffer =>
      rw [host.perform_phase rfl]
      exact .locked _ _ rfl rfl (host.obeys_runPhase length _)
  | writeData length source =>
      rw [host.perform_phase rfl]
      exact .locked _ _ rfl rfl (host.obeys_runPhase length _)
  | receiveResponse type buffer =>
      by_cases hshort : buffer.length < type.wordCount
      · have hform : host.perform (.receiveResponse type buffer) =
            (Prog.logAll [.responseTooLong type buffer.length]).bind fun _ =>
              .done (.response (.error .invalidArgument) buffer) := by
          show (host.receiveResponse type buffer).bind _ = _
          unfold receiveResponse
          rw [if_pos hshort]
          rfl
        rw [hform]
        exact .unlocked _ _ (if_pos hshort)
      · rw [host.perform_receiveResponse hshort]
        exact form_during host (if_neg hshort) rfl (fun _ => rfl) rfl
          (Action.asks_lift (asks_readRegisters host _))
  | setBus frequency lines timing =>
      cases hwidth : BusWidth.ofLines lines with
      | error error =>
          have hform : host.perform (.setBus frequency lines timing) =
              (Prog.logAll [.widthUnsupported lines]).bind fun _ =>
                .done (.outcome (.error error)) := by
            show (host.setBus frequency lines timing).bind _ = _
            unfold setBus
            rw [hwidth]
            rfl
          rw [hform]
          exact .unlocked _ _ (by simp only [unlocked?, hwidth])
      | ok width =>
          rw [host.perform_setBus frequency timing hwidth]
          refine form_during host (by simp only [unlocked?, hwidth]) rfl (fun _ => rfl) rfl ?_
          refine (asks_report _).bind fun _ => ?_
          refine (Action.asks_lift (Window.asks_write
            (writesQuietly_of_ne (by decide) (by decide) (by decide) _))).bind fun _ => ?_
          split
          · exact Action.asks_pure ()
          · exact asks_programClock_quietly host frequency
  | setClock frequency =>
      exact form_during host rfl rfl (fun _ => rfl) rfl (asks_programClock_quietly host frequency)
  | bringUp =>
      exact form_during host rfl rfl (fun _ => rfl) rfl (asks_bringUpController_quietly host)
  | notify state =>
      cases state with
      | hardwareInit =>
          refine form_during host rfl rfl (fun _ => rfl) rfl ?_
          exact (asks_bringUpController_quietly host).bind fun _ =>
            asks_programClock_quietly host _
      | _ => exact .unlocked (.outcome (.ok ())) [.stateIgnored _] rfl
  | pending =>
      exact .locked (fun state => .done (.ok state.latch, state)) .pending rfl rfl fun _ => rfl
  | dump => exact (hdump rfl).elim
  | limits => exact .unlocked _ [] rfl
  | config => exact .unlocked _ [] rfl
  | facts => exact .unlocked _ [] rfl

/-- Performs operations one after another. -/
def performAll : List Call → Prog HostState (List Answer)
  | [] => .done []
  | call :: calls =>
    (host.perform call).bind fun answer =>
      (performAll calls).bind fun answers => .done (answer :: answers)

end Host

end CardHost
