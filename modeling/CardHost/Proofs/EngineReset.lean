import CardHost.Proofs.Accesses
import CardHost.Proofs.Staging
import CardHost.Proofs.Effects

/-!
# The reset of the DMA engine is not awaited

A transfer soft resets the DMA engine and enables it a little later.  Both are read-modify-writes of
the bus mode register, and between the two the register is read once: `engineAccesses` are all
accesses of a transfer to it.  Nothing waits for the reset bit, so the engine is enabled with the
bit as that one read showed it, and the data command follows whatever it showed
(`Host.engine_enabled_without_wait`).
-/

namespace CardHost

/-- The accesses of a transfer to the bus mode register, by the values read: the soft reset is set,
then the engine is enabled. -/
def engineAccesses (mode sample : UInt32) : List Access :=
  [.read .busMode mode, .wrote .busMode (mode ||| BusMode.softReset),
    .read .busMode sample, .wrote .busMode (sample ||| BusMode.enable)]

/-- The reset and the start of the engine, as far as they got. -/
def Starting (past : List Access) : Prop :=
  ∃ mode sample, past <+: engineAccesses mode sample

/-- The engine was reset and enabled. -/
def Started (past : List Access) : Prop :=
  ∃ mode sample, past = engineAccesses mode sample

/-- The engine was reset. -/
def ResetAsked (past : List Access) : Prop :=
  ∃ mode, past = [.read .busMode mode, .wrote .busMode (mode ||| BusMode.softReset)]

theorem starting_of_nil {past : List Access} (h : past = []) : Starting past := by
  rw [h]
  exact ⟨0, 0, List.nil_prefix⟩

theorem ResetAsked.starting {past : List Access} (h : ResetAsked past) : Starting past := by
  obtain ⟨mode, rfl⟩ := h
  exact ⟨mode, 0, _, rfl⟩

theorem Started.starting {past : List Access} (h : Started past) : Starting past := by
  obtain ⟨mode, sample, rfl⟩ := h
  exact ⟨mode, sample, List.prefix_rfl⟩

namespace Host

variable (host : Host)

/-- The bus mode register is accessed in the order of a transfer, and the data command waits until
the engine was enabled. -/
def StartsAt (past : List Access) (request : Request σ) : Prop :=
  (∀ reply, Starting (past ++ (request.access? host.window [.busMode] reply).toList))
    ∧ (request.CommandsData → Started past)

/-- The monitor of the start of the engine. -/
abbrev starting : Monitor σ :=
  recording host.window [.busMode] host.StartsAt

section Walk

variable {host} {past : List Access} {holds : List Access → Prop}

theorem StartsAt.of_avoids {request : Request σ} (h : Starting past)
    (avoids : request.Avoids [.busMode]) (quiet : request.CommandsData → Started past) :
    host.StartsAt past request := by
  constructor
  · intro reply
    rw [avoids.access?, Option.toList_none, List.append_nil]
    exact h
  · exact quiet

/-- A request that does not touch the register and issues no data command keeps what lies on the
course. -/
theorem starting_keeps (h : ∀ past, holds past → Starting past) {request : Request σ}
    (avoids : request.Avoids [.busMode]) (quiet : ¬ request.CommandsData) :
    host.starting.Keeps holds request :=
  keeps_of_avoids avoids fun past hpast =>
    StartsAt.of_avoids (h past hpast) avoids fun hcommand => (quiet hcommand).elim

/-- Requests that avoid the register and issue no data command keep the course. -/
theorem starts_of_avoids {program : Prog σ α}
    (h : program.Asks fun request => request.Avoids [.busMode] ∧ ¬ request.CommandsData)
    (starting : ∀ past, holds past → Starting past) (hpast : holds past) :
    program.Heeds host.starting (fun _ => holds) past := by
  apply Prog.Asks.heeds (h.mono _) hpast
  rintro request ⟨havoids, hquiet⟩
  exact starting_keeps starting havoids hquiet

/-- Once the engine was enabled a command may follow. -/
theorem starts_of_started {program : Prog σ α} (h : program.Asks (Request.Avoids [.busMode]))
    (hpast : Started past) : program.Heeds host.starting (fun _ => Started) past := by
  apply Prog.Asks.heeds (h.mono _) hpast
  intro request havoids
  exact keeps_of_avoids havoids fun past hpast =>
    StartsAt.of_avoids hpast.starting havoids fun _ => hpast

theorem starts_memory {program : Prog σ α} (h : program.Asks Request.OnMemory)
    (starting : ∀ past, holds past → Starting past) (hpast : holds past) :
    program.Heeds host.starting (fun _ => holds) past := by
  apply starts_of_avoids (h.mono _) starting hpast
  intro request hmemory
  constructor
  · exact hmemory.avoids
  · cases request with
    | write => exact hmemory.elim
    | _ => exact id

/-- Writing another register keeps the course. -/
theorem starts_write {register : Register} (hmode : register ≠ .busMode)
    (hcommand : register ≠ .command) (value : UInt32)
    (starting : ∀ past, holds past → Starting past) (hpast : holds past) :
    (host.window.write register.offset value : Prog σ Unit).Heeds host.starting
      (fun _ => holds) past := by
  apply starts_of_avoids _ starting hpast
  apply (asks_log _ ⟨trivial, id⟩).bind
  intro _
  split
  · exact Prog.asks_request ⟨Request.avoids_write (by simpa using hmode) value,
      Request.not_commandsData_of_ne hcommand _ _⟩
  · trivial

theorem starts_setBits {register : Register} (hmode : register ≠ .busMode)
    (hcommand : register ≠ .command) (bits : UInt32)
    (starting : ∀ past, holds past → Starting past) (hpast : holds past) :
    (host.window.setBits register.offset bits : Prog σ Unit).Heeds host.starting
      (fun _ => holds) past := by
  have hreads : (host.window.read register.offset : Prog σ UInt32).Asks
      fun request => request.Avoids [.busMode] ∧ ¬ request.CommandsData := by
    unfold Window.read
    split
    · exact Prog.asks_request ⟨Register.offset_ne_of_not_mem (by simpa using hmode), id⟩
    · trivial
  apply (starts_of_avoids hreads starting hpast).bind
  intro value past hpast
  exact starts_write hmode hcommand _ starting hpast

/-- Setting bits of the bus mode register is a step of the course. -/
theorem starts_setMode (bits : UInt32)
    (h : ∀ value, Starting (past ++ [.read .busMode value, .wrote .busMode (value ||| bits)])) :
    (host.window.setBits Register.busMode.offset bits : Prog σ Unit).Heeds host.starting
      (fun _ later => ∃ value, later = past
        ++ [.read .busMode value, .wrote .busMode (value ||| bits)]) past := by
  have hread (value : UInt32) : Starting (past ++ [.read .busMode value]) := by
    obtain ⟨mode, sample, hprefix⟩ := h value
    refine ⟨mode, sample, List.IsPrefix.trans ?_ hprefix⟩
    exact ⟨[.wrote .busMode (value ||| bits)], by simp⟩
  apply host.window.records_setBits List.mem_cons_self
  · constructor
    · intro value
      rw [Request.access?_read List.mem_cons_self]
      exact hread value
    · exact fun hcommand => hcommand.elim
  · intro value message
    exact StartsAt.of_avoids (hread value) trivial fun hcommand => hcommand.elim
  · intro value
    constructor
    · intro _
      rw [Request.access?_write List.mem_cons_self, Option.toList_some, List.append_assoc]
      exact h value
    · exact fun hcommand => (Request.not_commandsData_of_ne (by decide) _ _ hcommand).elim

/-- Pointing the engine at the chain ends with its reset. -/
theorem starts_program (ring : Ring) :
    (ring.program host.window : Prog σ Unit).Heeds host.starting (fun _ => ResetAsked) [] := by
  apply (starts_write (by decide) (by decide) _ (fun _ => starting_of_nil) rfl).bind
  rintro _ _ rfl
  apply (starts_write (by decide) (by decide) _ (fun _ => starting_of_nil) rfl).bind
  rintro _ _ rfl
  apply (starts_setMode BusMode.softReset _).mono
  · rintro _ _ ⟨mode, rfl⟩
    exact ⟨mode, rfl⟩
  · intro mode
    exact ResetAsked.starting ⟨mode, rfl⟩

/-- Starting the engine goes on from its reset. -/
theorem starts_start (length block : Nat) (hpast : ResetAsked past) :
    (Ring.start host.window length block : Prog σ Unit).Heeds host.starting
      (fun _ => Started) past := by
  have hreset : ∀ past, ResetAsked past → Starting past := fun _ => ResetAsked.starting
  have hstarted : ∀ past, Started past → Starting past := fun _ => Started.starting
  apply (starts_setBits (by decide) (by decide) _ hreset hpast).bind
  rintro _ _ ⟨mode, rfl⟩
  have henable : (host.window.setBits Register.busMode.offset BusMode.enable : Prog σ Unit).Heeds
      host.starting (fun _ => Started)
        [.read .busMode mode, .wrote .busMode (mode ||| BusMode.softReset)] := by
    apply (starts_setMode BusMode.enable _).mono
    · rintro _ _ ⟨sample, rfl⟩
      exact ⟨mode, sample, rfl⟩
    · intro sample
      exact ⟨mode, sample, List.prefix_rfl⟩
  apply henable.bind
  intro _ later hlater
  apply (starts_write (by decide) (by decide) _ hstarted hlater).bind
  intro _ later hlater
  exact starts_write (by decide) (by decide) _ hstarted hlater

/-- Once the engine was enabled a transfer leaves the bus mode register alone. -/
theorem avoids_command (host : Host) (latch : Latch) (length : Nat) (buffer : DataBuffer)
    (pages : Pages) (geometry : Geometry) :
    (do host.issue latch.word latch.argument
        host.awaitData
        let arrived ← (collect pages length buffer).lift
        report (.moved latch.word geometry.blocks geometry.segments)
        pure arrived : Action σ (List UInt8)).Asks (Request.Avoids [.busMode]) := by
  have hissue : (host.issue latch.word latch.argument : Action σ Unit).Asks
      (Request.Avoids [.busMode]) := by
    apply Prog.Asks.avoids
    · exact host.reading_issue _ _ (by decide)
    · exact asks_issue host (by decide) (by decide) (by decide) (by decide)
  have hawait : (host.awaitData : Action σ Unit).Asks (Request.Avoids [.busMode]) := by
    apply Prog.Asks.avoids
    · exact host.reading_completion (by decide) _ _ _ _
    · exact asks_completion host _ _ _ _
  have hcollect : (collect pages length buffer : Prog σ (List UInt8)).Asks
      (Request.Avoids [.busMode]) :=
    (asks_collect pages length buffer).mono fun _ => Request.OnMemory.avoids
  apply hissue.bind
  intro _
  apply hawait.bind
  intro _
  apply (Action.asks_lift hcollect).bind
  intro arrived
  exact (Action.asks_lift (asks_log _ trivial)).bind fun _ => Action.asks_pure _

/-- A transfer resets the engine, enables it and then issues its command. -/
theorem starts_moveThrough (ring : Ring) (latch : Latch) (length : Nat) (buffer : DataBuffer)
    (pages : Pages) :
    (host.moveThrough ring latch length buffer pages : Action σ (List UInt8)).Heeds
      host.starting (fun _ _ => True) [] := by
  have hprepare : (ring.prepare length pages.address host.config.segmentSize.toNat
      host.config.blockSize.toNat : Action σ Geometry).Heeds host.starting
        (fun _ past => past = []) [] :=
    (starts_memory (ring.asks_prepare _ _ _ _) (fun _ => starting_of_nil) rfl).mono
      fun _ _ hpast _ _ => hpast
  apply Action.Heeds.bind (Action.heeds_lift
    (starts_memory (asks_stage pages length buffer) (fun _ => starting_of_nil) rfl))
  rintro _ _ rfl
  apply Action.Heeds.bind hprepare
  rintro geometry _ rfl
  apply Action.Heeds.bind (Action.heeds_lift (starts_program ring))
  intro _ past hreset
  apply Action.Heeds.bind (Action.heeds_lift (starts_start _ _ hreset))
  intro _ past hstarted
  exact (starts_of_started (host.avoids_command latch length buffer pages geometry) hstarted).mono
    fun _ _ _ _ _ => trivial

/-- What the rule allows keeps the course, so a program that heeds it stays on the course. -/
theorem starts_on {program : Prog σ α} {post : α → List Access → Prop}
    (h : program.Heeds host.starting post past) (hpast : Starting past) :
    program.Heeds host.starting (fun _ => Starting) past :=
  (h.holding hpast fun _ _ reply hallowed => hallowed.1 reply).mono fun _ _ => And.right

theorem starts_log (message : Message) (hpast : Starting past) :
    (Prog.log message : Prog σ Unit).Heeds host.starting (fun _ => Starting) past :=
  starts_of_avoids (asks_log _ ⟨trivial, id⟩) (fun _ => id) hpast

/-- The pages of a transfer come and go without a look at the engine. -/
theorem starts_runLatched (ring : Ring) (latch : Latch) (length : Nat) (buffer : DataBuffer) :
    (host.runLatched ring latch length buffer : Action σ (List UInt8)).run.Heeds host.starting
      (fun _ => Starting) [] := by
  have hmoves (pages : Pages) (past : List Access) (hpast : past = []) :
      (host.moveThrough ring latch length buffer pages : Action σ _).run.Heeds host.starting
        (fun _ => Starting) past := by
    subst hpast
    exact starts_on (starts_moveThrough ring latch length buffer pages) (starting_of_nil rfl)
  have hform := host.runLatched_form (σ := σ) ring latch length buffer
  generalize (host.runLatched ring latch length buffer : Action σ _).run = phase at hform ⊢
  cases hform with
  | refused message error =>
      exact (starts_log message (starting_of_nil rfl)).bind fun _ _ hpast => hpast
  | unsplit => trivial
  | moves =>
      apply Pages.heeds_borrow_between (starting_keeps (fun _ => starting_of_nil) trivial id)
        (fun _ _ _ => starting_keeps (fun _ => id) trivial id) _ (fun _ => starting_of_nil)
        hmoves rfl
      intro message
      constructor
      · exact starting_keeps (fun _ => starting_of_nil) trivial id
      · exact starting_keeps (fun _ => id) trivial id

theorem starts_runPhase (length : Nat) (buffer : DataBuffer) (state : HostState) :
    (host.runPhase length buffer state : Prog σ _).Heeds host.starting (fun _ => Starting) [] := by
  obtain ⟨ring, latch⟩ := state
  unfold runPhase
  cases latch with
  | none => exact (starts_log _ (starting_of_nil rfl)).bind fun _ _ hpast => hpast
  | some latch => exact (starts_runLatched ring latch length buffer).bind fun _ _ hpast => hpast

/-- In a data phase the engine is reset, enabled, and only then given its command. -/
theorem perform_starts {call : Call} {length : Nat} {buffer : DataBuffer}
    (phase : call.phase? = some (length, buffer)) :
    (host.perform call).Heeds host.starting (fun _ => Starting) [] := by
  have houter {holds : List Access → Prop} (h : ∀ past, holds past → Starting past)
      (request : Request HostState) (hrequest : ¬ request.Inner) :
      host.starting.Keeps holds request := by
    apply starting_keeps h (Request.avoids_of_not_inner hrequest)
    cases request with
    | write => exact (hrequest trivial).elim
    | _ => exact id
  rw [host.perform_phase phase]
  apply Prog.Heeds.bind _ fun _ _ hpast => hpast
  apply host.lock.heeds_holding_between _
    (fun _ => starting_keeps (fun _ => starting_of_nil) trivial id) (fun _ => starting_of_nil) _
    rfl
  · intro request hrequest
    constructor
    · exact houter (fun _ => starting_of_nil) request hrequest
    · exact houter (fun _ => id) request hrequest
  · rintro state _ rfl
    exact starts_runPhase length buffer state

end Walk

/-- In every data phase, whatever the platform does: the bus mode register is read, written with the
soft reset, read once more and written with the enable bit, and not accessed again.  The data
command comes behind all four, and the engine is enabled with the reset bit as the second read
showed it. -/
theorem engine_enabled_without_wait {call : Call} {length : Nat} {buffer : DataBuffer}
    (phase : call.phase? = some (length, buffer)) {machine : Machine ι}
    (handler : ι → Prog HostState ρ) (depth : Nat) (system : System machine HostState ρ) :
    ∃ mode sample,
      accesses host.window [.busMode] ((host.perform call).moments handler depth system) <+:
          engineAccesses mode sample
        ∧ (∀ front moment back,
          (host.perform call).moments handler depth system = front ++ moment :: back →
          moment.request.CommandsData →
          accesses host.window [.busMode] front = engineAccesses mode sample)
        ∧ hasAll (sample ||| BusMode.enable) BusMode.softReset =
          hasAll sample BusMode.softReset := by
  have hstarts : (host.perform call).Heeds host.starting (fun _ => Starting) [] :=
    perform_starts phase
  have hcourse : Starting (accesses host.window [.busMode]
      ((host.perform call).moments handler depth system)) := by
    have halong : Starting (host.starting.along []
        ((host.perform call).moments handler depth system)) :=
      hstarts.along_moments (starting_of_nil rfl) (fun _ _ reply hallowed => hallowed.1 reply)
        system
    rwa [along_recording, List.nil_append] at halong
  obtain ⟨mode, sample, hprefix⟩ := hcourse
  refine ⟨mode, sample, hprefix, ?_, hasAll_or_of_disjoint (by decide) sample⟩
  intro front moment back hmoments hcommand
  obtain ⟨mode', sample', hfront⟩ := (hstarts.rule_of_moments hmoments).2 hcommand
  -- Both are all four accesses, and one starts with the other.
  have hfirst : accesses host.window [.busMode] front <+: engineAccesses mode sample := by
    apply List.IsPrefix.trans _ hprefix
    rw [hmoments, accesses_append]
    exact List.prefix_append _ _
  apply hfirst.eq_of_length
  rw [hfront]
  rfl

end Host

/-! ## Writes on the bench -/

/-- A bench on which the reset of the DMA engine takes longer than one read. -/
@[irreducible]
def resettingBench : System Bench.machine HostState (List Answer) :=
  let bench := latchedBench true
  let device := bench.shared.device
  let registers := { device.registers with
    scripts := device.registers.scripts.set Register.busMode.offset [0, BusMode.softReset] }
  { bench with shared := ⟨{ device with registers := registers }, bench.shared.memory⟩ }

/-- The moments of a write of one byte there. -/
@[irreducible]
def resettingMoments : List (Moment Bench.machine HostState (List Answer)) :=
  (hastyHost.perform (.writeData 1 [7])).moments undisturbed 0 resettingBench

theorem resettingMoments_eq :
    (hastyHost.perform (.writeData 1 [7])).moments undisturbed 0 resettingBench =
      resettingMoments := by
  rw [resettingMoments]

theorem length_resettingMoments : 31 < resettingMoments.length := by decide +kernel

namespace Host

/-- There the read behind the soft reset still shows the reset, the engine is enabled with it, and
the data command follows. -/
theorem engine_enabled_in_reset :
    ∃ front command back,
      (hastyHost.perform (.writeData 1 [7])).moments undisturbed 0 resettingBench =
          front ++ command :: back
        ∧ command.request.CommandsData
        ∧ accesses hastyHost.window [.busMode] front =
          [.read .busMode 0, .wrote .busMode BusMode.softReset,
            .read .busMode BusMode.softReset,
            .wrote .busMode (BusMode.softReset ||| BusMode.enable)] := by
  have hcommand : (resettingMoments.get ⟨31, length_resettingMoments⟩).request.CommandsData := by
    decide +kernel
  have haccesses : accesses hastyHost.window [.busMode] (resettingMoments.take 31) =
      [.read .busMode 0, .wrote .busMode BusMode.softReset, .read .busMode BusMode.softReset,
        .wrote .busMode (BusMode.softReset ||| BusMode.enable)] := by
    decide +kernel
  exact ⟨_, _, _, resettingMoments_eq.trans (split_at length_resettingMoments), hcommand,
    haccesses⟩

theorem length_writeMoments_command : 31 < (writeMoments true).length := by decide +kernel

/-- Where the reset is over at once the command of a write follows the same accesses. -/
theorem engine_enabled_for_write :
    ∃ mode sample front command back,
      writeMoments true = front ++ command :: back ∧ command.request.CommandsData
        ∧ accesses hastyHost.window [.busMode] front = engineAccesses mode sample := by
  have hcommand :
      ((writeMoments true).get ⟨31, length_writeMoments_command⟩).request.CommandsData := by
    decide +kernel
  obtain ⟨mode, sample, -, hstarted, -⟩ := hastyHost.engine_enabled_without_wait
    (show (Call.writeData 1 [7]).phase? = some (1, .outgoing [7]) from rfl) undisturbed 0
    (latchedBench true)
  have hsplit := split_at length_writeMoments_command
  exact ⟨mode, sample, _, _, _, hsplit, hcommand,
    hstarted _ _ _ ((writeMoments_eq true).trans hsplit) hcommand⟩

end Host

end CardHost
