import CardHost.Proofs.Monitors
import CardHost.Proofs.Reads

/-!
# Pending status is cleared before it is read

A poll of the raw interrupt status must not see what an earlier command left pending.  The monitor
`clearing` follows the status register of a window through the stages of a command: pending bits are
stale, then they are cleared, then a command is posted, and only then may the status be read.

Every operation but a dump keeps to it from whatever stage it starts in (`Host.perform_clears`): a
command clears and posts before it polls, a data phase polls again only after its command, and the
other operations do not read the status at all.
-/

namespace CardHost

/-- How far a command got since status was last stale. -/
inductive Stage where
  | stale | cleared | posted
deriving DecidableEq

/-- The stage after a request on the registers of a window. -/
def Stage.next (window : Window) (stage : Stage) : Request σ → Stage
  | .write w offset value =>
    match stage with
    | stale =>
      if w = window ∧ offset = Register.rawInterrupt.offset ∧ value = clearAll then cleared
      else stale
    | cleared => if w = window ∧ offset = Register.command.offset then posted else cleared
    | posted => posted
  | _ => stage

/-- The status of a window may be read once it was cleared and then a command was posted. -/
def clearing (window : Window) : Monitor σ where
  State := Stage
  allows stage request :=
    request = .read window Register.rawInterrupt.offset → stage = .posted
  next stage request _ := stage.next window request

section Stages

variable {window : Window}

/-- What a request can do to the stage. -/
theorem Stage.next_cases (window : Window) (stage : Stage) (request : Request σ) :
    stage.next window request = stage
      ∨ stage = stale ∧ stage.next window request = cleared
        ∧ request = .write window Register.rawInterrupt.offset clearAll
      ∨ stage = cleared ∧ stage.next window request = posted
        ∧ ∃ value, request = .write window Register.command.offset value := by
  cases request with
  | write w offset value =>
      cases stage with
      | stale =>
          by_cases h : w = window ∧ offset = Register.rawInterrupt.offset ∧ value = clearAll
          · obtain ⟨rfl, rfl, rfl⟩ := h
            right
            left
            simp [next]
          · left
            simp only [next, if_neg h]
      | cleared =>
          by_cases h : w = window ∧ offset = Register.command.offset
          · obtain ⟨rfl, rfl⟩ := h
            right
            right
            simp [next]
          · left
            simp only [next, if_neg h]
      | posted => exact .inl rfl
  | _ => exact .inl rfl

/-- Clearing all bits leaves none stale. -/
theorem Stage.next_clearAll (window : Window) (stage : Stage) :
    stage.next window (.write window Register.rawInterrupt.offset clearAll : Request σ)
      ≠ .stale := by
  cases stage with
  | stale => simp [next]
  | cleared =>
      simp only [next]
      split <;> nofun
  | posted => nofun

/-- A command behind that is posted. -/
theorem Stage.next_command (window : Window) {stage : Stage} (h : stage ≠ .stale)
    (value : UInt32) :
    stage.next window (.write window Register.command.offset value : Request σ) = .posted := by
  cases stage with
  | stale => exact (h rfl).elim
  | cleared => simp [next]
  | posted => rfl

/-- Something that holds of every later stage, too. -/
structure Stage.Lasting (holds : Stage → Prop) : Prop where
  cleared : holds .stale → holds .cleared
  posted : holds .cleared → holds .posted

theorem Stage.Lasting.next {holds : Stage → Prop} (h : Lasting holds) {stage : Stage}
    (hstage : holds stage) (request : Request σ) : holds (stage.next window request) := by
  rcases stage.next_cases window request with hsame | ⟨rfl, hnext, -⟩ | ⟨rfl, hnext, -⟩
  · rwa [hsame]
  · rw [hnext]
    exact h.cleared hstage
  · rw [hnext]
    exact h.posted hstage

theorem lasting_any : Stage.Lasting fun _ => True :=
  ⟨id, id⟩

theorem lasting_cleared : Stage.Lasting (· ≠ .stale) :=
  ⟨fun h => (h rfl).elim, fun _ => nofun⟩

theorem lasting_posted : Stage.Lasting (· = .posted) :=
  ⟨nofun, fun _ => rfl⟩

/-- The offsets of all registers but the raw interrupt status. -/
def Aside (offset : Nat) : Prop :=
  offset ≠ Register.rawInterrupt.offset

theorem aside_of_ne {register : Register} (h : register ≠ .rawInterrupt) : Aside register.offset :=
  fun heq => h (Register.offset_injective heq)

/-- A request that does not read the status is allowed at every stage. -/
theorem allows_of_reading {stage : Stage} {request : Request σ} (h : request.Reading Aside) :
    (clearing window).allows stage request := by
  rintro rfl
  exact (h rfl).elim

/-- It keeps everything that lasts. -/
theorem keeps_of_reading {holds : Stage → Prop} (h : Stage.Lasting holds) {request : Request σ}
    (hreads : request.Reading Aside) : (clearing window).Keeps holds request :=
  fun _ hstage => ⟨allows_of_reading hreads, fun _ => h.next hstage request⟩

/-- After the command, nothing is wrong. -/
theorem keeps_posted (request : Request σ) :
    (clearing window).Keeps (· = .posted) request := by
  intro stage hstage
  exact ⟨fun _ => hstage, fun _ => lasting_posted.next hstage request⟩

end Stages

section Programs

variable {window : Window} {stage : Stage} {holds : Stage → Prop}

/-- A program that does not read the status keeps everything that lasts. -/
theorem Prog.Asks.clears {program : Prog σ α} (h : program.Asks (Request.Reading Aside))
    (lasting : Stage.Lasting holds) (hstage : holds stage) :
    program.Heeds (clearing window) (fun _ => holds) stage :=
  Prog.Asks.heeds (h.mono fun _ => keeps_of_reading lasting) hstage

theorem Action.Asks.clears {action : Action σ α} (h : action.Asks (Request.Reading Aside))
    (lasting : Stage.Lasting holds) (hstage : holds stage) :
    action.Heeds (clearing window) (fun _ => holds) stage :=
  Action.Asks.heeds (Prog.Asks.mono h fun _ => keeps_of_reading lasting) hstage

/-- Behind the command a program may do anything. -/
theorem Prog.clears_posted (program : Prog σ α) (hstage : stage = .posted) :
    program.Heeds (clearing window) (fun _ => (· = .posted)) stage :=
  Prog.Asks.heeds (program.asks_anything.mono fun request _ => keeps_posted request) hstage

/-- Behind the command an action may do anything. -/
theorem Action.clears_posted (action : Action σ α) (hstage : stage = .posted) :
    action.Heeds (clearing window) (fun _ => (· = .posted)) stage :=
  (action.run.clears_posted hstage).mono fun _ _ hposted _ _ => hposted

theorem Window.clears_write (offset : Nat) (value : UInt32) :
    (window.write offset value : Prog σ Unit).Heeds (clearing window)
      (fun _ later => later = stage.next window (.write window offset value : Request σ))
      stage := by
  have hlog : (clearing window).allows stage
      (.log (.registerWrite offset value) : Request σ) := allows_of_reading trivial
  have hwrite : (clearing window).allows stage
      (.write window offset value : Request σ) := allows_of_reading trivial
  apply Prog.Heeds.bind (Prog.heeds_request hlog)
  intro _ later hlater
  subst hlater
  split
  · exact Prog.heeds_request hwrite
  · trivial

end Programs

namespace Host

variable (host : Host) {stage : Stage}

/-- Once pending status is cleared, posting a command completes the way to reading it. -/
theorem clears_post (word : CommandWord) (argument : UInt32) (hstage : stage ≠ .stale) :
    (host.post word argument : Action σ Unit).Heeds (clearing host.window)
      (fun _ => (· = .posted)) stage := by
  have hstatus : (host.awaitClear .status ControllerStatus.cardBusy : Action σ Unit).Asks
      (Request.Reading Aside) :=
    host.window.reading_handshake host.services (aside_of_ne (by decide)) _ _ _
  apply Action.Heeds.bind ((host.reading_write _ _).clears lasting_cleared hstage)
  intro _ stage hstage
  apply Action.Heeds.bind (hstatus.clears lasting_cleared hstage)
  intro _ stage hstage
  apply Action.Heeds.bind (Action.heeds_lift (host.window.clears_write _ _))
  intro _ later hlater
  apply Action.clears_posted
  rw [hlater]
  exact Stage.next_command host.window hstage _

/-- A command clears pending status, is posted, and polls only then. -/
theorem clears_issue (word : CommandWord) (argument : UInt32) :
    (host.issue word argument : Action σ Unit).Heeds (clearing host.window)
      (fun _ => (· = .posted)) stage := by
  have hstatus : (host.awaitClear .status ControllerStatus.dataBusy : Action σ Unit).Asks
      (Request.Reading Aside) :=
    host.window.reading_handshake host.services (aside_of_ne (by decide)) _ _ _
  apply Action.Heeds.bind ((reading_report _).clears lasting_any trivial)
  intro _ stage _
  apply Action.Heeds.bind (hstatus.clears lasting_any trivial)
  intro _ stage _
  apply Action.Heeds.bind (Action.heeds_lift (host.window.clears_write _ _))
  intro _ later hlater
  have hcleared : later ≠ .stale := by
    rw [hlater]
    exact Stage.next_clearAll host.window stage
  apply Action.Heeds.bind (host.clears_post word argument hcleared)
  intro _ stage hposted
  exact Action.clears_posted _ hposted

/-- A transfer polls only behind its command. -/
theorem clears_moveThrough (ring : Ring) (latch : Latch) (length : Nat) (buffer : DataBuffer)
    (pages : Pages) :
    (host.moveThrough ring latch length buffer pages : Action σ (List UInt8)).Heeds
      (clearing host.window) (fun _ _ => True) stage := by
  have onMemory {β : Type} {program : Prog σ β} (h : program.Asks Request.OnMemory) :
      program.Asks (Request.Reading Aside) := h.mono fun _ => Request.OnMemory.reading
  have hprepare : (ring.prepare length pages.address host.config.segmentSize.toNat
      host.config.blockSize.toNat : Action σ Geometry).Asks (Request.Reading Aside) :=
    onMemory (ring.asks_prepare _ _ _ _)
  have hprogram : (ring.program host.window : Prog σ Unit).Asks (Request.Reading Aside) :=
    ring.reading_program host.window (aside_of_ne (by decide))
  have hstart : (Ring.start host.window length host.config.blockSize.toNat : Prog σ Unit).Asks
      (Request.Reading Aside) := by
    apply Ring.reading_start
    intro register hmem
    apply aside_of_ne
    revert register
    decide
  apply Action.Heeds.bind
    ((Action.asks_lift (onMemory (asks_stage pages length buffer))).clears lasting_any trivial)
  intro _ stage _
  apply Action.Heeds.bind (hprepare.clears lasting_any trivial)
  intro geometry stage _
  apply Action.Heeds.bind ((Action.asks_lift hprogram).clears lasting_any trivial)
  intro _ stage _
  apply Action.Heeds.bind ((Action.asks_lift hstart).clears lasting_any trivial)
  intro _ stage _
  apply Action.Heeds.bind (host.clears_issue latch.word latch.argument)
  intro _ stage hposted
  exact (Action.clears_posted _ hposted).mono fun _ _ _ _ _ => trivial

/-- The pages of a transfer come and go without a look at the status. -/
theorem clears_runLatched (ring : Ring) (latch : Latch) (length : Nat) (buffer : DataBuffer) :
    (host.runLatched ring latch length buffer : Action σ (List UInt8)).run.Heeds
      (clearing host.window) (fun _ _ => True) stage := by
  have hkeeps {request : Request σ} (h : request.Reading Aside) :
      (clearing host.window).Keeps (fun _ => True) request := keeps_of_reading lasting_any h
  have hform := host.runLatched_form (σ := σ) ring latch length buffer
  generalize (host.runLatched ring latch length buffer : Action σ _).run = phase at hform ⊢
  cases hform with
  | refused message error =>
      apply Prog.Asks.clears _ lasting_any trivial
      exact (asks_log message trivial).bind fun _ => Prog.asks_done _
  | unsplit => trivial
  | moves =>
      apply Pages.heeds_borrow (hkeeps trivial) (fun _ _ _ => hkeeps trivial)
        (fun _ => hkeeps trivial) _ trivial
      intro pages stage _
      exact (host.clears_moveThrough ring latch length buffer pages).mono fun _ _ _ => trivial

theorem clears_runPhase (length : Nat) (buffer : DataBuffer) (state : HostState) :
    (host.runPhase length buffer state : Prog σ _).Heeds (clearing host.window)
      (fun _ _ => True) stage := by
  obtain ⟨ring, latch⟩ := state
  unfold runPhase
  cases latch with
  | none =>
      apply Prog.Asks.clears _ lasting_any trivial
      exact (asks_log _ trivial).bind fun _ => Prog.asks_done _
  | some latch =>
      apply (host.clears_runLatched ring latch length buffer).bind
      intro outcome stage _
      trivial

/-- The lock does not look at the status. -/
theorem clears_holding {body : HostState → Prog HostState (Except HostError α × HostState)}
    (h : ∀ state stage, (body state).Heeds (clearing host.window) (fun _ _ => True) stage) :
    (host.lock.holding body).Heeds (clearing host.window) (fun _ _ => True) stage :=
  host.lock.heeds_holding
    (fun _ houter => keeps_of_reading lasting_any (Request.reading_of_not_inner houter))
    (fun _ => keeps_of_reading lasting_any trivial) (fun state stage _ => h state stage) trivial

theorem clears_commandBody (index argument : UInt32) (state : HostState) :
    (host.commandBody index argument state).Heeds (clearing host.window)
      (fun _ _ => True) stage := by
  have hremarks (remarks : List Message) :
      (Prog.logAll remarks : Prog HostState Unit).Asks (Request.Reading Aside) :=
    asks_logAll remarks fun _ => trivial
  cases hdata : (CommandWord.ofCommand index argument).isData with
  | true =>
      obtain ⟨remarks, hbody⟩ := host.commandBody_latching hdata state
      rw [hbody]
      exact ((hremarks remarks).bind fun _ => Prog.asks_done _).clears lasting_any trivial
  | false =>
      obtain ⟨remarks, hbody⟩ := host.commandBody_issuing hdata state
      rw [hbody]
      apply ((hremarks remarks).clears lasting_any trivial).bind
      intro _ stage _
      exact Prog.Heeds.bind (host.clears_issue _ _) fun _ _ _ => trivial

/-- Every operation but a dump clears pending status and posts a command before it reads any. -/
theorem perform_clears {call : Call} (h : call ≠ .dump) :
    (host.perform call).Heeds (clearing host.window) (fun _ _ => True) stage := by
  cases hphase : call.phase? with
  | some phase =>
      obtain ⟨length, buffer⟩ := phase
      rw [host.perform_phase hphase]
      exact (host.clears_holding fun _ _ => host.clears_runPhase length buffer _).bind
        fun _ _ _ => trivial
  | none =>
      by_cases hcommand : ∃ index argument, call = .sendCommand index argument
      · obtain ⟨index, argument, rfl⟩ := hcommand
        rw [host.perform_sendCommand]
        exact (host.clears_holding fun _ _ => host.clears_commandBody index argument _).bind
          fun _ _ _ => trivial
      · have hreads : (host.perform call).Asks (Request.Reading Aside) := by
          apply host.perform_reading h _ hphase
          · intro register hmem
            apply aside_of_ne
            revert register
            decide
          · intro index argument hcall
            exact hcommand ⟨index, argument, hcall⟩
        exact hreads.clears lasting_any trivial

theorem performAll_clears {calls : List Call} (h : .dump ∉ calls) :
    (host.performAll calls).Heeds (clearing host.window) (fun _ _ => True) stage := by
  induction calls generalizing stage with
  | nil => trivial
  | cons call rest ih =>
      rw [List.mem_cons, not_or] at h
      apply (host.perform_clears (Ne.symm h.1)).bind
      intro answer stage _
      apply (ih h.2).bind
      intro answers stage _
      trivial

end Host

/-! ## The order of a run -/

section Order

variable {machine : Machine ι} {window : Window}

/-- A request in front of a command is in front of it, whatever comes before. -/
theorem posted_of_cleared {moments : List (Moment machine σ ρ)}
    (h : (clearing window).along .cleared moments = .posted) :
    ∃ between value late, moments.map Moment.request =
      between ++ .write window Register.command.offset value :: late := by
  induction moments with
  | nil => cases h
  | cons moment rest ih =>
      have hrest : (clearing window).along (Stage.next window .cleared moment.request) rest =
          .posted := h
      rcases Stage.next_cases window .cleared moment.request with hsame | ⟨hstale, -⟩ |
        ⟨-, -, value, hcommand⟩
      · rw [hsame] at hrest
        obtain ⟨between, value, late, hlater⟩ := ih hrest
        exact ⟨moment.request :: between, value, late, by simp [hlater]⟩
      · cases hstale
      · exact ⟨[], value, rest.map Moment.request, by simp [hcommand]⟩

/-- Before a command counts as posted, all bits were cleared and then it was written. -/
theorem cleared_then_posted {moments : List (Moment machine σ ρ)}
    (h : (clearing window).along .stale moments = .posted) :
    ∃ early between value late, moments.map Moment.request =
      early ++ .write window Register.rawInterrupt.offset clearAll ::
        (between ++ .write window Register.command.offset value :: late) := by
  induction moments with
  | nil => cases h
  | cons moment rest ih =>
      have hrest : (clearing window).along (Stage.next window .stale moment.request) rest =
          .posted := h
      rcases Stage.next_cases window .stale moment.request with hsame | ⟨-, hcleared, hclear⟩ |
        ⟨hstale, -⟩
      · rw [hsame] at hrest
        obtain ⟨early, between, value, late, hlater⟩ := ih hrest
        exact ⟨moment.request :: early, between, value, late, by simp [hlater]⟩
      · rw [hcleared] at hrest
        obtain ⟨between, value, late, hlater⟩ := posted_of_cleared hrest
        exact ⟨[], between, value, late, by simp [hclear, hlater]⟩
      · cases hstale

end Order

/-- Where an operation other than a dump reads the status, it has cleared all of it before and then
written a command. -/
theorem Host.status_read_behind_command (host : Host) {call : Call} (hdump : call ≠ .dump)
    {machine : Machine ι} {handler : ι → Prog HostState ρ} {depth : Nat}
    {system : System machine HostState ρ} {front back : List (Moment machine HostState ρ)}
    {moment : Moment machine HostState ρ}
    (hmoments : (host.perform call).moments handler depth system = front ++ moment :: back)
    (hread : moment.request = .read host.window Register.rawInterrupt.offset) :
    ∃ early between value late, front.map Moment.request =
      early ++ .write host.window Register.rawInterrupt.offset clearAll ::
        (between ++ .write host.window Register.command.offset value :: late) :=
  cleared_then_posted ((host.perform_clears hdump).of_moments hmoments hread)

end CardHost
