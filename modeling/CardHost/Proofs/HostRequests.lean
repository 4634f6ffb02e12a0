import CardHost.Host.Call
import CardHost.Proofs.Requests
import CardHost.Proofs.Split

/-!
# What the parts of the driver ask

One lemma for each function that runs under the host's lock.  Register access is stated for any
predicate `writes` on the registers and values written, so the same lemma serves to bound the writes
of a bring-up, of a command and of a data phase.  Ring and pages touch memory and the allocator:
working with pages is `OnBoard`, borrowing them is `Inner`.
The checks before a data phase are split once, in `runLatched_form`.
-/

namespace CardHost

variable {window : Window} {writes : Register → UInt32 → Prop}

theorem asks_log {allowed : Request σ → Prop} (message : Message) (h : allowed (.log message)) :
    (Prog.log message).Asks allowed :=
  Prog.asks_request h

/-! ## Register windows -/

namespace Window

theorem asks_read (offset : Nat) :
    (window.read offset : Prog σ UInt32).Asks (Request.OnRegisters window writes) := by
  unfold read
  split
  · exact Prog.asks_request rfl
  · trivial

theorem asks_write {register : Register} {value : UInt32} (h : writes register value) :
    (window.write register.offset value : Prog σ Unit).Asks
      (Request.OnRegisters window writes) := by
  refine (asks_log _ trivial).bind fun _ => ?_
  split
  · exact Prog.asks_request ⟨rfl, register, rfl, h⟩
  · trivial

theorem asks_setBits {register : Register} {bits : UInt32}
    (h : ∀ value, writes register (value ||| bits)) :
    (window.setBits register.offset bits : Prog σ Unit).Asks
      (Request.OnRegisters window writes) :=
  (asks_read _).bind fun value => asks_write (h value)

theorem asks_clearBits {register : Register} {bits : UInt32}
    (h : ∀ value, writes register (without value bits)) :
    (window.clearBits register.offset bits : Prog σ Unit).Asks
      (Request.OnRegisters window writes) :=
  (asks_read _).bind fun value => asks_write (h value)

theorem asks_stall (services : Services) (microseconds : Nat) :
    (services.stall microseconds : Prog σ Unit).Asks (Request.OnRegisters window writes) := by
  refine (Prog.asks_request trivial).bind fun status => ?_
  cases services with
  | supplied => trivial
  | firmware =>
      dsimp only
      split
      · exact asks_log _ trivial
      · trivial

theorem asks_sample (services : Services) (offset : Nat) (ready : UInt32 → Bool) (bound : Nat) :
    (window.sample services offset ready bound : Prog σ Bool).Asks
      (Request.OnRegisters window writes) := by
  induction bound with
  | zero => exact (asks_read offset).bind fun _ => trivial
  | succ bound ih =>
      refine (asks_read offset).bind fun value => ?_
      split
      · trivial
      · exact (asks_stall services 1).bind fun _ => ih

theorem asks_spin (offset : Nat) (ready : UInt32 → Bool) (patience : Nat) :
    (window.spin offset ready patience : Prog σ Bool).Asks
      (Request.OnRegisters window writes) := by
  induction patience with
  | zero => trivial
  | succ patience ih =>
      refine (asks_read offset).bind fun value => ?_
      split
      · trivial
      · exact ih

theorem asks_awaits (services : Services) (offset : Nat) (ready : UInt32 → Bool)
    (bound : Option UInt32) :
    (window.awaits services offset ready bound : Prog σ Bool).Asks
      (Request.OnRegisters window writes) := by
  cases bound with
  | some bound => exact asks_sample services offset ready bound.toNat
  | none => exact (Prog.asks_request trivial).bind fun patience => asks_spin offset ready patience

theorem asks_handshake (services : Services) (offset : Nat) (ready : UInt32 → Bool)
    (missed : Message) (bound : Option UInt32) :
    (window.handshake services offset ready missed bound : Action σ Unit).Asks
      (Request.OnRegisters window writes) := by
  refine (Action.asks_lift (asks_awaits services offset ready bound)).bind fun shown => ?_
  split
  · exact Action.asks_pure ()
  · exact (Action.asks_lift (asks_log _ trivial)).bind fun _ => Action.asks_throw _

/-- A dump reads and logs. -/
theorem asks_dump : (window.dump : Prog σ Unit).Asks (Request.OnRegisters window writes) := by
  refine (asks_log _ trivial).bind fun _ => ?_
  generalize Register.dumped = registers
  induction registers with
  | nil => exact Prog.asks_done ()
  | cons register rest ih =>
      refine Prog.Asks.bind ((Prog.asks_request trivial).bind fun shows => ?_) fun _ => ih
      split
      · exact (asks_read _).bind fun _ => asks_log _ trivial
      · trivial

end Window

/-! ## Pages -/

section Allocating

variable {allowed : Request σ → Prop}

theorem Pages.asks_allocate {services : Services} {count : Nat} (refused : HostError → Message)
    (allocates : allowed (.allocate services count)) (logs : ∀ message, allowed (.log message)) :
    ((Pages.allocate services count : Action σ Pages).onError refused).Asks allowed := by
  apply Action.Asks.onError _ refused logs
  apply (Prog.asks_request allocates).bind
  intro grant
  split <;> trivial

theorem Pages.asks_release (pages : Pages)
    (frees : allowed (.free pages.services pages.address pages.count))
    (logs : ∀ message, allowed (.log message)) :
    (pages.release : Prog σ Unit).Asks allowed := by
  apply Prog.Asks.bind ((Prog.asks_request frees).bind fun _ => Prog.asks_done _)
  intro outcome
  cases outcome with
  | ok value => trivial
  | error error => exact asks_log _ (logs _)

/-- Borrowing pages asks the allocator's requests and what the work with them asks. -/
theorem Pages.asks_borrow {services : Services} {count : Nat} {refused : HostError → Message}
    {work : Pages → Action σ α} (allocates : allowed (.allocate services count))
    (frees : ∀ services address count, allowed (.free services address count))
    (logs : ∀ message, allowed (.log message)) (h : ∀ pages, (work pages).Asks allowed) :
    (Pages.borrow services count refused work).Asks allowed := by
  apply (asks_allocate refused allocates logs).bind
  intro pages
  apply Prog.Asks.bind (h pages)
  intro outcome
  exact (asks_release pages (frees _ _ _) logs).bind fun _ => Prog.asks_done _

end Allocating

/-! ## The lock -/

section Locking

variable {allowed : Request σ → Prop}

theorem Lock.asks_acquire (lock : Lock) (outer : ∀ request, ¬ request.Inner → allowed request)
    (logs : ∀ message, allowed (.log message)) :
    (lock.acquire? : Prog σ (Option (Guard σ))).Asks allowed := by
  apply Prog.Asks.bind (Prog.asks_request (outer _ id))
  intro previous
  apply Prog.Asks.bind (Prog.asks_request (outer _ id))
  intro state
  cases state with
  | some state => exact Prog.asks_done _
  | none =>
      apply (asks_log _ (logs _)).bind
      intro _
      exact (Prog.asks_request (outer _ id)).bind fun _ => Prog.asks_done _

theorem Guard.asks_release (guard : Guard σ)
    (outer : ∀ request, ¬ request.Inner → allowed request) :
    (guard.release : Prog σ Unit).Asks allowed :=
  Prog.Asks.bind (Prog.asks_request (outer _ id)) fun _ => Prog.asks_request (outer _ id)

/-- The lock asks for its own, and otherwise what its body asks. -/
theorem Lock.asks_holding (lock : Lock) {body : σ → Prog σ (Except HostError α × σ)}
    (outer : ∀ request, ¬ request.Inner → allowed request)
    (logs : ∀ message, allowed (.log message)) (h : ∀ state, (body state).Asks allowed) :
    (lock.holding body).Asks allowed := by
  unfold holding
  apply (lock.asks_acquire outer logs).bind
  intro guard
  cases guard with
  | none => exact Prog.asks_done _
  | some guard =>
      apply (h guard.state).bind
      intro outcome
      exact (Guard.asks_release _ outer).bind fun _ => Prog.asks_done _

/-- What an operation under the lock may ask bounds its body. -/
theorem Lock.asks_body {lock : Lock} {body : σ → Prog σ (Except HostError α × σ)}
    (h : (lock.holding body).Asks allowed) (state : σ) : (body state).Asks allowed :=
  Prog.Asks.first ((h.2 0).2 (some state))

end Locking

/-! ## The ring -/

namespace Ring

variable (ring : Ring)

theorem asks_putChain (index : Nat) (descriptors : List Descriptor) :
    (ring.putChain index descriptors : Prog σ Unit).Asks Request.OnMemory := by
  induction descriptors generalizing index with
  | nil => trivial
  | cons descriptor rest ih =>
      refine (asks_log _ trivial).bind fun _ => ?_
      exact (Prog.asks_request trivial).bind fun _ => ih (index + 1)

theorem asks_prepare (length : Nat) (buffer : UInt64) (segment block : Nat) :
    (ring.prepare length buffer segment block : Action σ Geometry).Asks Request.OnMemory := by
  unfold prepare
  split
  · exact Action.asks_throw _
  · refine (Action.asks_lift (Prog.asks_require _)).bind fun geometry => ?_
    split
    · exact (Action.asks_lift (asks_log _ trivial)).bind fun _ => Action.asks_throw _
    · refine (Action.asks_lift (Prog.asks_require _)).bind fun descriptors => ?_
      exact (Action.asks_lift (asks_putChain ring 0 descriptors)).bind fun _ => Action.asks_pure _

theorem asks_program (hlow : writes .listLow (Bytes.lowHalf ring.base))
    (hhigh : writes .listHigh (Bytes.highHalf ring.base))
    (hmode : ∀ value, writes .busMode (value ||| BusMode.softReset)) :
    (ring.program window : Prog σ Unit).Asks (Request.OnRegisters window writes) := by
  refine (Window.asks_write hlow).bind fun _ => ?_
  exact (Window.asks_write hhigh).bind fun _ => Window.asks_setBits hmode

theorem asks_start {length block : Nat}
    (hcontrol : ∀ value,
      writes .control (value ||| (Control.interruptEnable ||| Control.internalDma)))
    (hmode : ∀ value, writes .busMode (value ||| BusMode.enable))
    (hblock : writes .blockSize (UInt32.ofNat block))
    (hcount : writes .byteCount (UInt32.ofNat length)) :
    (Ring.start window length block : Prog σ Unit).Asks (Request.OnRegisters window writes) := by
  refine (Window.asks_setBits hcontrol).bind fun _ => ?_
  refine (Window.asks_setBits hmode).bind fun _ => ?_
  exact (Window.asks_write hblock).bind fun _ => Window.asks_write hcount

end Ring

/-! ## Commands -/

namespace Host

variable (host : Host)

theorem asks_report (message : Message) :
    (report message : Action σ Unit).Asks (Request.OnRegisters window writes) :=
  Action.asks_lift (asks_log message trivial)

theorem asks_poll (finished : UInt32 → Bool) (polls : Nat) :
    (host.poll finished polls : Prog σ Poll).Asks (Request.OnRegisters host.window writes) := by
  induction polls with
  | zero => trivial
  | succ polls ih =>
      refine (Window.asks_read _).bind fun status => ?_
      split
      · trivial
      · split
        · trivial
        · exact (Window.asks_stall _ _).bind fun _ => ih

theorem asks_post {word : CommandWord} {argument : UInt32} (harg : writes .argument argument)
    (hcmd : writes .command word.withStart.bits) :
    (host.post word argument : Action σ Unit).Asks (Request.OnRegisters host.window writes) := by
  refine (Action.asks_lift (Window.asks_write harg)).bind fun _ => ?_
  refine (Window.asks_handshake _ _ _ _ _).bind fun _ => ?_
  exact (Action.asks_lift (Window.asks_write hcmd)).bind fun _ => Window.asks_handshake _ _ _ _ _

theorem asks_completion (finished : UInt32 → Bool) (polls : Nat) (failed : UInt32 → Message)
    (timedOut : Message) :
    (host.completion finished polls failed timedOut : Action σ Unit).Asks
      (Request.OnRegisters host.window writes) := by
  refine (Action.asks_lift (asks_poll host _ _)).bind fun ended => ?_
  cases ended with
  | finished => exact Action.asks_pure ()
  | failed status => exact (asks_report _).bind fun _ => Action.asks_throw _
  | exhausted => exact (asks_report _).bind fun _ => Action.asks_throw _

/-- A command clears pending status, sets argument and command, and unmasks the error sources. -/
theorem asks_issue {word : CommandWord} {argument : UInt32}
    (hclear : writes .rawInterrupt clearAll) (harg : writes .argument argument)
    (hcmd : writes .command word.withStart.bits)
    (hmask : writes .interruptMask RawInterrupt.errorMask) :
    (host.issue word argument : Action σ Unit).Asks (Request.OnRegisters host.window writes) := by
  refine (asks_report _).bind fun _ => ?_
  refine (Window.asks_handshake _ _ _ _ _).bind fun _ => ?_
  refine (Action.asks_lift (Window.asks_write hclear)).bind fun _ => ?_
  refine (asks_post host harg hcmd).bind fun _ => ?_
  exact (Action.asks_lift (Window.asks_write hmask)).bind fun _ => asks_completion host _ _ _ _

theorem asks_readRegisters (registers : List Register) :
    (host.readRegisters registers : Prog σ (List UInt32)).Asks
      (Request.OnRegisters host.window writes) := by
  induction registers with
  | nil => trivial
  | cons register rest ih =>
      exact (Window.asks_read _).bind fun _ => ih.bind fun _ => trivial

/-! ## Bring-up and clock -/

theorem asks_loadProfile (profile : UInt32) (h : ∀ value, writes .clockExtension value) :
    (host.loadProfile profile : Action σ Unit).Asks (Request.OnRegisters host.window writes) := by
  refine (Action.asks_lift (Window.asks_write (h 0))).bind fun _ => ?_
  refine (Action.asks_lift (Window.asks_write (h profile))).bind fun _ => ?_
  exact Window.asks_handshake _ _ _ _ _

theorem asks_divider (profile frequency : UInt32) :
    (host.divider profile frequency : Action σ Divider).Asks
      (Request.OnRegisters host.window writes) := by
  unfold divider
  split
  · exact (asks_report _).bind fun _ => Action.asks_pure _
  · exact Action.asks_pure _

/-- The registers of the card clock. -/
def clockRegisters : List Register :=
  [.clockEnable, .clockExtension, .clockDivider, .argument]

theorem asks_programClock (frequency : UInt32)
    (h : ∀ register ∈ clockRegisters, ∀ value, writes register value)
    (hcmd : writes .command CommandWord.updateClock.withStart.bits) :
    (host.programClock frequency : Action σ Unit).Asks
      (Request.OnRegisters host.window writes) := by
  have henable : ∀ value, writes .clockEnable value := h _ (by decide)
  have hextension : ∀ value, writes .clockExtension value := h _ (by decide)
  have hdivider : ∀ value, writes .clockDivider value := h _ (by decide)
  have harg : writes .argument 0 := h _ (by decide) 0
  unfold programClock
  split
  · refine (Action.asks_lift (Window.asks_clearBits fun _ => henable _)).bind fun _ => ?_
    refine (Action.asks_lift (Window.asks_clearBits fun _ => hextension _)).bind fun _ => ?_
    exact asks_report _
  · refine (asks_loadProfile host _ hextension).bind fun _ => ?_
    refine (Action.asks_lift (Window.asks_clearBits fun _ => henable _)).bind fun _ => ?_
    refine (asks_post host harg hcmd).bind fun _ => ?_
    refine (asks_divider host _ _).bind fun divider => ?_
    refine (Action.asks_lift (Window.asks_write (hdivider _))).bind fun _ => ?_
    refine (Action.asks_lift (Window.asks_setBits fun _ => henable _)).bind fun _ => ?_
    exact (asks_post host harg hcmd).bind fun _ => asks_report _

/-- The registers that a bring-up writes besides those of the card clock. -/
def bringUpRegisters : List Register :=
  [.fifoThreshold, .cardThreshold, .power, .uhs, .control, .cardReset, .interruptMask,
    .rawInterrupt, .dmaInterrupt, .timeouts]

/-- A bring-up loads a profile and turns the clock on, and leaves the divider as it is. -/
theorem asks_bringUpController
    (hclock : ∀ register ∈ clockRegisters, register ≠ .clockDivider →
      ∀ value, writes register value)
    (h : ∀ register ∈ bringUpRegisters, ∀ value, writes register value)
    (hcmd : writes .command CommandWord.updateClock.withStart.bits) :
    (host.bringUpController : Action σ Unit).Asks (Request.OnRegisters host.window writes) := by
  have henable : ∀ value, writes .clockEnable value := hclock _ (by decide) (by decide)
  have hextension : ∀ value, writes .clockExtension value := hclock _ (by decide) (by decide)
  have hcontrol : ∀ value, writes .control value := h _ (by decide)
  refine (Action.asks_lift (Window.asks_write (h .fifoThreshold (by decide) _))).bind fun _ => ?_
  refine (Action.asks_lift (Window.asks_write (h .cardThreshold (by decide) _))).bind fun _ => ?_
  refine (Action.asks_lift (Window.asks_clearBits fun _ => henable _)).bind fun _ => ?_
  refine (asks_loadProfile host _ hextension).bind fun _ => ?_
  refine (Action.asks_lift (Window.asks_write (h .power (by decide) _))).bind fun _ => ?_
  refine (Action.asks_lift (Window.asks_setBits fun _ => henable _)).bind fun _ => ?_
  refine (Action.asks_lift (Window.asks_setBits fun _ => hextension _)).bind fun _ => ?_
  refine (Action.asks_lift (Window.asks_clearBits fun _ => h .uhs (by decide) _)).bind fun _ => ?_
  refine (Action.asks_lift (Window.asks_setBits fun _ => hcontrol _)).bind fun _ => ?_
  refine (Window.asks_handshake _ _ _ _ _).bind fun _ => ?_
  refine (asks_post host (hclock .argument (by decide) (by decide) 0) hcmd).bind fun _ => ?_
  refine (Action.asks_lift (Window.asks_setBits fun _ => h .cardReset (by decide) _)).bind
    fun _ => ?_
  refine (Action.asks_lift (Window.asks_write (h .interruptMask (by decide) _))).bind fun _ => ?_
  refine (Action.asks_lift (Window.asks_write (h .rawInterrupt (by decide) _))).bind fun _ => ?_
  refine (Action.asks_lift (Window.asks_write (h .dmaInterrupt (by decide) _))).bind fun _ => ?_
  refine (Action.asks_lift (Window.asks_setBits fun _ => hcontrol _)).bind fun _ => ?_
  exact (Action.asks_lift (Window.asks_write (h .timeouts (by decide) _))).bind
    fun _ => asks_report _

/-! ## Data phases -/

theorem asks_stage (pages : Pages) (length : Nat) (buffer : DataBuffer) :
    (stage pages length buffer : Prog σ Unit).Asks Request.OnMemory := by
  cases buffer with
  | incoming size => trivial
  | outgoing bytes => exact Prog.asks_request trivial

theorem asks_collect (pages : Pages) (length : Nat) (buffer : DataBuffer) :
    (collect pages length buffer : Prog σ (List UInt8)).Asks Request.OnMemory := by
  cases buffer with
  | incoming size => exact Prog.asks_request trivial
  | outgoing bytes => trivial

/-- The registers that a data phase writes besides the command. -/
def phaseRegisters : List Register :=
  [.listLow, .listHigh, .busMode, .control, .blockSize, .byteCount, .rawInterrupt, .argument,
    .interruptMask]

/-- A transfer sets the block size and the byte count to its own, and any other register that it
writes to whatever it takes. -/
theorem asks_moveThrough_sized (ring : Ring) (latch : Latch) (length : Nat) (buffer : DataBuffer)
    (pages : Pages)
    (h : ∀ register ∈ phaseRegisters, register ≠ .blockSize → register ≠ .byteCount →
      ∀ value, writes register value)
    (hblock : writes .blockSize (UInt32.ofNat host.config.blockSize.toNat))
    (hcount : writes .byteCount (UInt32.ofNat length))
    (hcmd : writes .command latch.word.withStart.bits) :
    (host.moveThrough ring latch length buffer pages : Action σ (List UInt8)).Asks
      (Request.OnBoard host.window writes) := by
  have onMemory {β : Type} {program : Prog σ β} (hasks : program.Asks Request.OnMemory) :
      program.Asks (Request.OnBoard host.window writes) :=
    hasks.mono fun _ => .inl
  have onRegisters {β : Type} {program : Prog σ β}
      (hasks : program.Asks (Request.OnRegisters host.window writes)) :
      program.Asks (Request.OnBoard host.window writes) :=
    hasks.mono fun _ => .inr
  have other (register : Register) (hmem : register ∈ phaseRegisters)
      (hne : register ≠ .blockSize ∧ register ≠ .byteCount) (value : UInt32) :
      writes register value :=
    h register hmem hne.1 hne.2 value
  have hmode : ∀ value, writes .busMode value := other _ (by decide) (by decide)
  have hcontrol : ∀ value, writes .control value := other _ (by decide) (by decide)
  have hprogram : (ring.program host.window : Prog σ Unit).Asks
      (Request.OnRegisters host.window writes) :=
    Ring.asks_program ring (other _ (by decide) (by decide) _) (other _ (by decide) (by decide) _)
      fun _ => hmode _
  have hstart : (Ring.start host.window length host.config.blockSize.toNat : Prog σ Unit).Asks
      (Request.OnRegisters host.window writes) :=
    Ring.asks_start (fun _ => hcontrol _) (fun _ => hmode _) hblock hcount
  have hissue : (host.issue latch.word latch.argument : Action σ Unit).Asks
      (Request.OnRegisters host.window writes) :=
    asks_issue host (other _ (by decide) (by decide) _) (other _ (by decide) (by decide) _) hcmd
      (other _ (by decide) (by decide) _)
  refine (Action.asks_lift (onMemory (asks_stage pages length buffer))).bind fun _ => ?_
  refine Action.Asks.bind (onMemory (Ring.asks_prepare ring length pages.address _ _))
    fun geometry => ?_
  refine (Action.asks_lift (onRegisters hprogram)).bind fun _ => ?_
  refine (Action.asks_lift (onRegisters hstart)).bind fun _ => ?_
  refine Action.Asks.bind (onRegisters hissue) fun _ => ?_
  refine Action.Asks.bind (onRegisters (asks_completion host _ _ _ _)) fun _ => ?_
  refine (Action.asks_lift (onMemory (asks_collect pages length buffer))).bind fun arrived => ?_
  exact (Action.asks_lift (asks_log _ (.inl trivial))).bind fun _ => Action.asks_pure _

theorem asks_moveThrough_onBoard (ring : Ring) (latch : Latch) (length : Nat) (buffer : DataBuffer)
    (pages : Pages) (h : ∀ register ∈ phaseRegisters, ∀ value, writes register value)
    (hcmd : writes .command latch.word.withStart.bits) :
    (host.moveThrough ring latch length buffer pages : Action σ (List UInt8)).Asks
      (Request.OnBoard host.window writes) :=
  asks_moveThrough_sized host ring latch length buffer pages (fun _ hmem _ _ => h _ hmem)
    (h _ (by decide) _) (h _ (by decide) _) hcmd

theorem asks_moveThrough (ring : Ring) (latch : Latch) (length : Nat) (buffer : DataBuffer)
    (pages : Pages) :
    (host.moveThrough ring latch length buffer pages : Action σ (List UInt8)).Asks
      Request.Unpaged := by
  have hasks : (host.moveThrough ring latch length buffer pages : Action σ (List UInt8)).Asks
      (Request.OnBoard host.window fun _ _ => True) :=
    asks_moveThrough_onBoard host ring latch length buffer pages (fun _ _ _ => trivial) trivial
  exact Prog.Asks.mono hasks fun _ => Request.OnBoard.unpaged

/-- A data phase that passes its checks moves the data through borrowed pages. -/
theorem runLatched_moves {ring : Ring} {latch : Latch} {length : Nat} {buffer : DataBuffer}
    (direction : latch.word.isWrite = buffer.isWrite) (positive : 0 < length)
    (supplied : length ≤ buffer.size)
    (splits : Geometry.ofLength? length host.config.segmentSize.toNat
      host.config.blockSize.toNat = some (host.split length))
    (room : (host.split length).segments ≤ ring.count) :
    (host.runLatched ring latch length buffer : Action σ (List UInt8)).run =
      (Pages.borrow host.services (host.split length).stagingPages .stagingNotAllocated
        (host.moveThrough ring latch length buffer)).run := by
  have hlength : ¬ (length = 0 ∨ buffer.size < length) := by omega
  have hroom : ¬ ring.count < (host.split length).segments := Nat.not_lt.mpr room
  unfold runLatched
  rw [if_neg (Decidable.not_not.mpr direction), if_neg hlength, Action.run_lift_bind, splits]
  simp only [Prog.require, Prog.bind, if_neg hroom]

/-- The forms of a data phase: a check fails and is reported, the length has no split, or the data
is moved through borrowed pages. -/
inductive PhaseForm (ring : Ring) (latch : Latch) (length : Nat) (buffer : DataBuffer) :
    Prog σ (Except HostError (List UInt8)) → Prop
  | refused (message : Message) (error : HostError) :
      PhaseForm ring latch length buffer
        (do report message; throw error : Action σ (List UInt8)).run
  | unsplit : PhaseForm ring latch length buffer .fault
  | moves (direction : latch.word.isWrite = buffer.isWrite) (positive : 0 < length)
      (supplied : length ≤ buffer.size)
      (splits : Geometry.ofLength? length host.config.segmentSize.toNat
        host.config.blockSize.toNat = some (host.split length))
      (room : (host.split length).segments ≤ ring.count) :
      PhaseForm ring latch length buffer
        (Pages.borrow host.services (host.split length).stagingPages .stagingNotAllocated
          (host.moveThrough ring latch length buffer)).run

/-- Every data phase with a latched command has one of these forms. -/
theorem runLatched_form (ring : Ring) (latch : Latch) (length : Nat) (buffer : DataBuffer) :
    host.PhaseForm ring latch length buffer
      (host.runLatched ring latch length buffer : Action σ (List UInt8)).run := by
  unfold runLatched
  by_cases hdirection : latch.word.isWrite ≠ buffer.isWrite
  · rw [if_pos hdirection]
    exact .refused _ _
  · rw [if_neg hdirection]
    by_cases hlength : length = 0 ∨ buffer.size < length
    · rw [if_pos hlength]
      exact .refused _ _
    · rw [if_neg hlength, Action.run_lift_bind]
      cases hgeometry : Geometry.ofLength? length host.config.segmentSize.toNat
          host.config.blockSize.toNat with
      | none => exact .unsplit
      | some geometry =>
          have hsplit : geometry = host.split length := by
            unfold Geometry.ofLength? at hgeometry
            split at hgeometry
            · cases hgeometry
            · exact (Option.some.inj hgeometry).symm
          subst hsplit
          simp only [Prog.require, Prog.bind]
          by_cases hroom : ring.count < (host.split length).segments
          · rw [if_pos hroom]
            exact .refused _ _
          · rw [if_neg hroom]
            exact .moves (Decidable.not_not.mp hdirection) (by omega) (by omega) hgeometry
              (Nat.not_lt.mp hroom)

/-- A data phase asks the allocator's requests and what its transfer asks. -/
theorem asks_runLatched_of {allowed : Request σ → Prop} {ring : Ring} {latch : Latch}
    {length : Nat} {buffer : DataBuffer}
    (allocates : ∀ services count, allowed (.allocate services count))
    (frees : ∀ services address count, allowed (.free services address count))
    (logs : ∀ message, allowed (.log message))
    (h : ∀ pages, (host.moveThrough ring latch length buffer pages).Asks allowed) :
    (host.runLatched ring latch length buffer).Asks allowed := by
  have hform := host.runLatched_form (σ := σ) ring latch length buffer
  unfold Action.Asks
  generalize (host.runLatched ring latch length buffer : Action σ _).run = phase at hform ⊢
  cases hform with
  | refused message error => exact (asks_log message (logs message)).bind fun _ => Prog.asks_done _
  | unsplit => trivial
  | moves => exact Pages.asks_borrow (allocates _ _) frees logs h

theorem asks_runLatched (ring : Ring) (latch : Latch) (length : Nat) (buffer : DataBuffer) :
    (host.runLatched ring latch length buffer : Action σ (List UInt8)).Asks
      Request.Inner :=
  host.asks_runLatched_of (fun _ _ => trivial) (fun _ _ _ => trivial) (fun _ => trivial)
    fun pages => Prog.Asks.mono (asks_moveThrough host ring latch length buffer pages)
      fun _ => Request.Unpaged.inner

end Host

end CardHost
