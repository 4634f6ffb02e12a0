import CardHost.Proofs.Operations

/-!
# What the parts of the driver read

`Request.Reading` says at which offsets registers are read and nothing else of a request.  One lemma
for each function of the driver names the registers it reads; a wait reads its own register only.
Of the parts of an operation only the polls read the raw interrupt status, so an operation that
issues no command does not read it at all (`perform_reading`).
-/

namespace CardHost

/-- A request that reads registers at some offsets only.  The other requests do not count. -/
def Request.Reading (reads : Nat → Prop) : Request σ → Prop
  | .read _ offset => reads offset
  | _ => True

variable {reads : Nat → Prop}

theorem Request.OnMemory.reading {request : Request σ} (h : request.OnMemory) :
    request.Reading reads := by
  cases request with
  | read => exact h.elim
  | _ => trivial

/-- A request that a lock keeps for itself reads no register. -/
theorem Request.reading_of_not_inner {request : Request σ} (h : ¬ request.Inner) :
    request.Reading reads := by
  cases request with
  | read => exact (h trivial).elim
  | _ => trivial

/-! ## Register windows -/

namespace Window

variable (window : Window)

theorem reading_read {offset : Nat} (h : reads offset) :
    (window.read offset : Prog σ UInt32).Asks (Request.Reading reads) := by
  unfold read
  split
  · exact Prog.asks_request h
  · trivial

theorem reading_write (offset : Nat) (value : UInt32) :
    (window.write offset value : Prog σ Unit).Asks (Request.Reading reads) := by
  apply (asks_log _ trivial).bind
  intro _
  split
  · exact Prog.asks_request trivial
  · trivial

theorem reading_setBits {offset : Nat} (h : reads offset) (bits : UInt32) :
    (window.setBits offset bits : Prog σ Unit).Asks (Request.Reading reads) :=
  (window.reading_read h).bind fun _ => window.reading_write offset _

theorem reading_clearBits {offset : Nat} (h : reads offset) (bits : UInt32) :
    (window.clearBits offset bits : Prog σ Unit).Asks (Request.Reading reads) :=
  (window.reading_read h).bind fun _ => window.reading_write offset _

end Window

theorem Services.reading_stall (services : Services) (microseconds : Nat) :
    (services.stall microseconds : Prog σ Unit).Asks (Request.Reading reads) := by
  apply (Prog.asks_request trivial).bind
  intro status
  cases services with
  | supplied => trivial
  | firmware =>
      dsimp only
      split
      · exact asks_log _ trivial
      · trivial

namespace Window

variable (window : Window) (services : Services)

theorem reading_sample {offset : Nat} (h : reads offset) (ready : UInt32 → Bool) (bound : Nat) :
    (window.sample services offset ready bound : Prog σ Bool).Asks (Request.Reading reads) := by
  induction bound with
  | zero => exact (window.reading_read h).bind fun _ => Prog.asks_done _
  | succ bound ih =>
      apply (window.reading_read h).bind
      intro value
      split
      · exact Prog.asks_done _
      · exact (services.reading_stall 1).bind fun _ => ih

theorem reading_spin {offset : Nat} (h : reads offset) (ready : UInt32 → Bool) (patience : Nat) :
    (window.spin offset ready patience : Prog σ Bool).Asks (Request.Reading reads) := by
  induction patience with
  | zero => trivial
  | succ patience ih =>
      apply (window.reading_read h).bind
      intro value
      split
      · exact Prog.asks_done _
      · exact ih

/-- A wait reads the register that it waits for. -/
theorem reading_awaits {offset : Nat} (h : reads offset) (ready : UInt32 → Bool)
    (bound : Option UInt32) :
    (window.awaits services offset ready bound : Prog σ Bool).Asks (Request.Reading reads) := by
  cases bound with
  | some bound => exact window.reading_sample services h ready bound.toNat
  | none => exact (Prog.asks_request trivial).bind fun _ => window.reading_spin h ready _

theorem reading_handshake {offset : Nat} (h : reads offset) (ready : UInt32 → Bool)
    (missed : Message) (bound : Option UInt32) :
    (window.handshake services offset ready missed bound : Action σ Unit).Asks
      (Request.Reading reads) := by
  apply (Action.asks_lift (window.reading_awaits services h ready bound)).bind
  intro shown
  split
  · exact Action.asks_pure ()
  · exact (Action.asks_lift (asks_log _ trivial)).bind fun _ => Action.asks_throw _

end Window

/-! ## The ring -/

namespace Ring

theorem reading_program (ring : Ring) (window : Window) (h : reads Register.busMode.offset) :
    (ring.program window : Prog σ Unit).Asks (Request.Reading reads) := by
  apply (window.reading_write _ _).bind
  intro _
  exact (window.reading_write _ _).bind fun _ => window.reading_setBits h _

theorem reading_start (window : Window) (length block : Nat)
    (h : ∀ register ∈ [Register.control, .busMode], reads register.offset) :
    (Ring.start window length block : Prog σ Unit).Asks (Request.Reading reads) := by
  apply (window.reading_setBits (h _ (by decide)) _).bind
  intro _
  apply (window.reading_setBits (h _ (by decide)) _).bind
  intro _
  exact (window.reading_write _ _).bind fun _ => window.reading_write _ _

end Ring

namespace Host

variable (host : Host)

/-! ## Commands and clock -/

theorem reading_write (register : Register) (value : UInt32) :
    (host.write register value : Action σ Unit).Asks (Request.Reading reads) :=
  Action.asks_lift (host.window.reading_write _ _)

theorem reading_report (message : Message) :
    (report message : Action σ Unit).Asks (Request.Reading reads) :=
  Action.asks_lift (asks_log message trivial)

theorem reading_setBits {register : Register} (h : reads register.offset) (bits : UInt32) :
    (host.setBits register bits : Action σ Unit).Asks (Request.Reading reads) :=
  Action.asks_lift (host.window.reading_setBits h bits)

theorem reading_clearBits {register : Register} (h : reads register.offset) (bits : UInt32) :
    (host.clearBits register bits : Action σ Unit).Asks (Request.Reading reads) :=
  Action.asks_lift (host.window.reading_clearBits h bits)

/-- Until a command is accepted the status and the command register are read. -/
theorem reading_post (word : CommandWord) (argument : UInt32)
    (h : ∀ register ∈ [Register.status, .command], reads register.offset) :
    (host.post word argument : Action σ Unit).Asks (Request.Reading reads) := by
  apply (host.reading_write _ _).bind
  intro _
  apply (host.window.reading_handshake host.services (h _ (by decide)) _ _ _).bind
  intro _
  exact (host.reading_write _ _).bind fun _ =>
    host.window.reading_handshake host.services (h _ (by decide)) _ _ _

/-- A poll reads the raw interrupt status. -/
theorem reading_poll (h : reads Register.rawInterrupt.offset) (finished : UInt32 → Bool)
    (polls : Nat) : (host.poll finished polls : Prog σ Poll).Asks (Request.Reading reads) := by
  induction polls with
  | zero => exact Prog.asks_done _
  | succ polls ih =>
      apply (host.window.reading_read h).bind
      intro status
      split
      · exact Prog.asks_done _
      · split
        · exact Prog.asks_done _
        · exact (host.services.reading_stall _).bind fun _ => ih

theorem reading_completion (h : reads Register.rawInterrupt.offset) (finished : UInt32 → Bool)
    (polls : Nat) (failed : UInt32 → Message) (timedOut : Message) :
    (host.completion finished polls failed timedOut : Action σ Unit).Asks
      (Request.Reading reads) := by
  apply (Action.asks_lift (host.reading_poll h _ _)).bind
  intro ended
  cases ended with
  | finished => exact Action.asks_pure ()
  | failed status => exact (reading_report _).bind fun _ => Action.asks_throw _
  | exhausted => exact (reading_report _).bind fun _ => Action.asks_throw _

/-- The registers that a card command reads. -/
def commandReads : List Register :=
  [.status, .command, .rawInterrupt]

theorem reading_issue (word : CommandWord) (argument : UInt32)
    (h : ∀ register ∈ commandReads, reads register.offset) :
    (host.issue word argument : Action σ Unit).Asks (Request.Reading reads) := by
  apply (reading_report _).bind
  intro _
  apply (host.window.reading_handshake host.services (h .status (by decide)) _ _ _).bind
  intro _
  apply (host.reading_write _ _).bind
  intro _
  apply Action.Asks.bind
  · apply host.reading_post
    intro register hmem
    apply h
    revert register
    decide
  intro _
  exact (host.reading_write _ _).bind fun _ => host.reading_completion (h _ (by decide)) _ _ _ _

theorem reading_readRegisters {registers : List Register}
    (h : ∀ register ∈ registers, reads register.offset) :
    (host.readRegisters registers : Prog σ (List UInt32)).Asks (Request.Reading reads) := by
  induction registers with
  | nil => trivial
  | cons register rest ih =>
      apply (host.window.reading_read (h register List.mem_cons_self)).bind
      intro value
      exact (ih fun other hmem => h other (List.mem_cons_of_mem _ hmem)).bind fun _ =>
        Prog.asks_done _

/-- The registers that a clock change reads. -/
def clockReads : List Register :=
  [.clockEnable, .clockExtension, .clockStatus, .status, .command]

theorem reading_loadProfile (profile : UInt32) (h : reads Register.clockStatus.offset) :
    (host.loadProfile profile : Action σ Unit).Asks (Request.Reading reads) := by
  apply (host.reading_write _ _).bind
  intro _
  exact (host.reading_write _ _).bind fun _ =>
    host.window.reading_handshake host.services h _ _ _

theorem reading_divider (profile frequency : UInt32) :
    (host.divider profile frequency : Action σ Divider).Asks (Request.Reading reads) := by
  unfold divider
  split
  · exact (reading_report _).bind fun _ => Action.asks_pure _
  · exact Action.asks_pure _

theorem reading_programClock (frequency : UInt32)
    (h : ∀ register ∈ clockReads, reads register.offset) :
    (host.programClock frequency : Action σ Unit).Asks (Request.Reading reads) := by
  have henable : reads Register.clockEnable.offset := h _ (by decide)
  have hupdate : (host.updateClock : Action σ Unit).Asks (Request.Reading reads) := by
    apply host.reading_post
    intro register hmem
    apply h
    revert register
    decide
  unfold programClock
  split
  · apply (host.reading_clearBits henable _).bind
    intro _
    exact (host.reading_clearBits (h _ (by decide)) _).bind fun _ => reading_report _
  · apply (host.reading_loadProfile _ (h _ (by decide))).bind
    intro _
    apply (host.reading_clearBits henable _).bind
    intro _
    apply hupdate.bind
    intro _
    apply (host.reading_divider _ _).bind
    intro divider
    apply (host.reading_write _ _).bind
    intro _
    apply (host.reading_setBits henable _).bind
    intro _
    exact hupdate.bind fun _ => reading_report _

/-- The registers that a bring-up reads besides those of a clock change. -/
def bringUpReads : List Register :=
  [.uhs, .control, .cardReset]

theorem reading_bringUpController (hclock : ∀ register ∈ clockReads, reads register.offset)
    (h : ∀ register ∈ bringUpReads, reads register.offset) :
    (host.bringUpController : Action σ Unit).Asks (Request.Reading reads) := by
  have henable : reads Register.clockEnable.offset := hclock _ (by decide)
  have hcontrol : reads Register.control.offset := h _ (by decide)
  apply (host.reading_write _ _).bind
  intro _
  apply (host.reading_write _ _).bind
  intro _
  apply (host.reading_clearBits henable _).bind
  intro _
  apply (host.reading_loadProfile _ (hclock _ (by decide))).bind
  intro _
  apply (host.reading_write _ _).bind
  intro _
  apply (host.reading_setBits henable _).bind
  intro _
  apply (host.reading_setBits (hclock _ (by decide)) _).bind
  intro _
  apply (host.reading_clearBits (h _ (by decide)) _).bind
  intro _
  apply (host.reading_setBits hcontrol _).bind
  intro _
  apply (host.window.reading_handshake host.services hcontrol _ _ _).bind
  intro _
  apply Action.Asks.bind
  · apply host.reading_post
    intro register hmem
    apply hclock
    revert register
    decide
  intro _
  apply (host.reading_setBits (h _ (by decide)) _).bind
  intro _
  apply (host.reading_write _ _).bind
  intro _
  apply (host.reading_write _ _).bind
  intro _
  apply (host.reading_write _ _).bind
  intro _
  apply (host.reading_setBits hcontrol _).bind
  intro _
  exact (host.reading_write _ _).bind fun _ => reading_report _

/-! ## Operations without a command -/

/-- The registers that are read by operations which issue no card command. -/
def quietReads : List Register :=
  Register.responses ++ clockReads ++ bringUpReads

theorem reading_during {action : Action HostState α} (h : action.Asks (Request.Reading reads)) :
    (host.lock.during action).Asks (Request.Reading reads) :=
  host.lock.asks_holding (fun _ => Request.reading_of_not_inner) (fun _ => trivial) fun _ =>
    Prog.Asks.bind h fun _ => Prog.asks_done _

/-- An operation that neither dumps nor issues a card command. -/
theorem perform_reading {call : Call} (hdump : call ≠ .dump)
    (hcommand : ∀ index argument, call ≠ .sendCommand index argument)
    (hphase : call.phase? = none) (h : ∀ register ∈ quietReads, reads register.offset) :
    (host.perform call).Asks (Request.Reading reads) := by
  have hclock : ∀ register ∈ clockReads, reads register.offset := by
    intro register hmem
    apply h
    simp [quietReads, hmem]
  have hbringUp : (host.bringUpController : Action HostState Unit).Asks
      (Request.Reading reads) := by
    apply host.reading_bringUpController hclock
    intro register hmem
    apply h
    simp [quietReads, hmem]
  cases call with
  | sendCommand index argument => exact (hcommand index argument rfl).elim
  | readData => cases hphase
  | writeData => cases hphase
  | receiveResponse type buffer =>
      apply Prog.Asks.bind _ fun _ => Prog.asks_done _
      unfold receiveResponse
      split
      · exact (asks_log _ trivial).bind fun _ => Prog.asks_done _
      · apply Prog.Asks.bind
        · apply host.reading_during
          apply Action.asks_lift
          apply host.reading_readRegisters
          intro register hmem
          apply h
          simp [quietReads, List.mem_of_mem_take hmem]
        · intro outcome
          cases outcome <;> exact Prog.asks_done _
  | setBus frequency lines timing =>
      apply Prog.Asks.bind _ fun _ => Prog.asks_done _
      unfold setBus
      split
      · exact (asks_log _ trivial).bind fun _ => Prog.asks_done _
      · apply host.reading_during
        apply (reading_report _).bind
        intro _
        apply (host.reading_write _ _).bind
        intro _
        split
        · exact Action.asks_pure ()
        · exact host.reading_programClock frequency hclock
  | setClock frequency =>
      apply Prog.Asks.bind _ fun _ => Prog.asks_done _
      exact host.reading_during (host.reading_programClock frequency hclock)
  | bringUp =>
      apply Prog.Asks.bind _ fun _ => Prog.asks_done _
      exact host.reading_during hbringUp
  | notify state =>
      apply Prog.Asks.bind _ fun _ => Prog.asks_done _
      cases state with
      | hardwareInit =>
          apply host.reading_during
          exact hbringUp.bind fun _ => host.reading_programClock _ hclock
      | _ => exact (asks_log _ trivial).bind fun _ => Prog.asks_done _
  | pending =>
      apply Prog.Asks.bind _ fun _ => Prog.asks_done _
      exact host.lock.asks_holding (fun _ => Request.reading_of_not_inner) (fun _ => trivial)
        fun _ => Prog.asks_done _
  | dump => exact (hdump rfl).elim
  | _ => exact Prog.asks_done _

end Host

end CardHost
