import CardHost.Proofs.Held
import CardHost.Proofs.Moments

/-!
# Launching the DMA engine

A data phase enables the DMA engine over its chain of descriptors and does not touch the engine or
memory again while it waits.  `Prog.Launches` says so of a program, read off the tree of requests,
and `Launches.moments` of the moments of a run.  A data phase is `launch` followed by `conclude`
(`moveThrough_eq`): the one launches, the other only looks on.
-/

namespace CardHost

/-! ## Requests to the DMA engine -/

/-- A write that enables the DMA engine. -/
def Request.EnablesDma : Request σ → Prop
  | .write _ offset value =>
    offset = Register.busMode.offset ∧ hasAll value BusMode.enable = true
  | _ => False

/-- A write that stops the DMA engine: a reset of it, or its enable bit cleared. -/
def Request.StopsDma : Request σ → Prop
  | .write _ offset value =>
    (offset = Register.busMode.offset
        ∧ (hasAny value BusMode.softReset = true ∨ hasAll value BusMode.enable = false))
      ∨ (offset = Register.control.offset ∧ hasAny value Control.dmaReset = true)
  | _ => False

instance (request : Request σ) : Decidable request.EnablesDma :=
  match request with
  | .write _ offset value =>
    inferInstanceAs (Decidable (offset = Register.busMode.offset
      ∧ hasAll value BusMode.enable = true))
  | .read .. | .patience .. | .stall .. | .allocate .. | .free .. | .load .. | .store ..
  | .raise .. | .restore .. | .take | .put .. | .shows .. | .log .. =>
    inferInstanceAs (Decidable False)

instance (request : Request σ) : Decidable request.StopsDma :=
  match request with
  | .write _ offset value =>
    inferInstanceAs (Decidable ((offset = Register.busMode.offset
        ∧ (hasAny value BusMode.softReset = true ∨ hasAll value BusMode.enable = false))
      ∨ (offset = Register.control.offset ∧ hasAny value Control.dmaReset = true)))
  | .read .. | .patience .. | .stall .. | .allocate .. | .free .. | .load .. | .store ..
  | .raise .. | .restore .. | .take | .put .. | .shows .. | .log .. =>
    inferInstanceAs (Decidable False)

/-- The registers through which the driver steers the DMA engine. -/
def dmaRegisters : List Register := [.busMode, .control, .listLow, .listHigh]

/-- A request that leaves the DMA engine, its descriptors and all memory as they are. -/
def Request.LeavesDma : Request σ → Prop
  | .write _ offset _ => ∀ register ∈ dmaRegisters, offset ≠ register.offset
  | .store .. => False
  | request => request.Unpaged

/-- A request that frees pages. -/
def Request.Frees : Request σ → Prop
  | .free .. => True
  | _ => False

theorem Request.LeavesDma.not_stops {request : Request σ} (h : request.LeavesDma) :
    ¬ request.StopsDma := by
  cases request with
  | write window offset value =>
      rintro (⟨hbus, -⟩ | ⟨hcontrol, -⟩)
      · exact h .busMode (by decide) hbus
      · exact h .control (by decide) hcontrol
  | _ => exact id

theorem Request.Unpaged.not_frees {request : Request σ} (h : request.Unpaged) :
    ¬ request.Frees := by
  cases request with
  | free => exact h.elim
  | _ => exact id

/-- A lock frees nothing. -/
theorem Request.not_frees_of_outer (request : Request σ) (h : ¬ request.Inner) :
    ¬ request.Frees := by
  cases request with
  | free => exact (h trivial).elim
  | _ => exact id

/-- Register writes that stay away from the DMA engine. -/
def Register.ForgetsDma (register : Register) (_ : UInt32) : Prop :=
  register ∉ dmaRegisters

theorem Register.forgetsDma {register : Register} (h : register ∉ dmaRegisters) (value : UInt32) :
    register.ForgetsDma value := h

theorem Request.OnRegisters.leavesDma {window : Window} {request : Request σ}
    (h : request.OnRegisters window Register.ForgetsDma) : request.LeavesDma := by
  cases request with
  | write w offset value =>
      obtain ⟨-, register, rfl, hforgets⟩ := h
      intro other hmem heq
      rw [← Register.offset_injective heq] at hmem
      exact hforgets hmem
  | store => exact h.elim
  | _ => trivial

/-! ## Programs that launch a transfer -/

/-- Every way to the end of the program enables the DMA engine and leaves it alone afterwards. -/
def Prog.Launches : Prog σ α → Prop
  | .done _ => False
  | .fault => True
  | .stuck => True
  | .ask request next =>
    (request.EnablesDma ∧ ∀ reply, (next reply).Asks Request.LeavesDma)
      ∨ ∀ reply, (next reply).Launches

namespace Prog

theorem Launches.bind_left {allowed : Request σ → Prop} {post : α → Prop} {program : Prog σ α}
    {next : α → Prog σ β} (first : program.Obeys allowed post)
    (rest : ∀ value, post value → (next value).Launches) : (program.bind next).Launches := by
  induction program with
  | done value => exact rest value first
  | fault => trivial
  | stuck => trivial
  | ask request reply ih => exact .inr fun answer => ih answer (first.2 answer)

theorem Launches.bind_right {program : Prog σ α} {next : α → Prog σ β}
    (first : program.Launches) (rest : ∀ value, (next value).Asks Request.LeavesDma) :
    (program.bind next).Launches := by
  induction program with
  | done value => exact first.elim
  | fault => trivial
  | stuck => trivial
  | ask request reply ih =>
      rcases first with ⟨henables, hleaves⟩ | hlaunches
      · exact .inl ⟨henables, fun answer => (hleaves answer).bind rest⟩
      · exact .inr fun answer => ih answer (hlaunches answer)

/-- The moments of a run that ends: the engine is enabled, and then left alone. -/
theorem Launches.moments {machine : Machine ι} {handler : ι → Prog σ ρ} {depth : Nat}
    {program : Prog σ α} (h : program.Launches) {system after : System machine σ ρ} {value : α}
    (ran : program.run handler depth system = .ok (value, after)) :
    ∃ lead launch tail, program.moments handler depth system = lead ++ launch :: tail
      ∧ launch.request.EnablesDma ∧ ∀ moment ∈ tail, moment.request.LeavesDma := by
  unfold Prog.moments
  unfold run at ran
  induction program generalizing system with
  | done value => exact h.elim
  | fault => cases ran
  | stuck => cases ran
  | ask request next ih =>
      simp only [runWith] at ran
      simp only [momentsWith]
      rcases h with ⟨henables, hleaves⟩ | hlaunches
      · refine ⟨[], ⟨request, system⟩, _, rfl, henables, ?_⟩
        rcases system.answer request with ⟨reply, _ | call, middle⟩
        · exact (hleaves reply).of_mem_moments handler depth middle
        · dsimp only
          cases serveAt handler depth call middle with
          | ok served => exact (hleaves reply).of_mem_moments handler depth served
          | error halt => simp
      · rcases hanswer : system.answer request with ⟨reply, _ | call, middle⟩
        · rw [hanswer] at ran
          obtain ⟨lead, launch, tail, hmoments, hlaunch⟩ := ih reply (hlaunches reply) ran
          exact ⟨⟨request, system⟩ :: lead, launch, tail, congrArg (List.cons _) hmoments, hlaunch⟩
        · rw [hanswer] at ran
          dsimp only at ran ⊢
          cases hserved : serveAt handler depth call middle with
          | ok served =>
              rw [hserved] at ran
              obtain ⟨lead, launch, tail, hmoments, hlaunch⟩ := ih reply (hlaunches reply) ran
              exact ⟨⟨request, system⟩ :: lead, launch, tail,
                congrArg (List.cons _) hmoments, hlaunch⟩
          | error halt =>
              rw [hserved] at ran
              cases ran

end Prog

/-! ## Launching a transfer -/

theorem Window.launches_enable (window : Window) :
    (window.setBits Register.busMode.offset BusMode.enable : Prog σ Unit).Launches := by
  have hread : (window.read Register.busMode.offset : Prog σ UInt32).Asks
      (Request.OnRegisters window fun _ _ => True) := Window.asks_read _
  refine Prog.Launches.bind_left hread fun value _ => ?_
  have hlog (message : Message) : (Prog.log message : Prog σ Unit).Asks Request.Inner :=
    asks_log message trivial
  refine Prog.Launches.bind_left (hlog _) fun _ _ => ?_
  split
  · exact .inl ⟨⟨rfl, hasAll_or (by decide) value⟩, fun _ => trivial⟩
  · trivial

/-- A transfer that fits the ring gets its descriptors; there is no error left to report. -/
theorem Ring.obeys_prepare (ring : Ring) {length segment block : Nat} (buffer : UInt64)
    (hlength : length ≠ 0)
    (hfits : ∀ geometry, Geometry.ofLength? length segment block = some geometry →
      geometry.segments ≤ ring.count) :
    (ring.prepare length buffer segment block : Action σ Geometry).run.Obeys Request.OnMemory
      fun outcome => ∃ geometry, outcome = .ok geometry := by
  unfold prepare
  rw [if_neg hlength, Action.run_lift_bind]
  cases hgeometry : Geometry.ofLength? length segment block with
  | none => trivial
  | some geometry =>
      show Prog.Obeys _ _ (ExceptT.run (if ring.count < geometry.segments then _ else _))
      have hroom : ¬ ring.count < geometry.segments := Nat.not_lt.mpr (hfits geometry hgeometry)
      rw [if_neg hroom, Action.run_lift_bind]
      refine (Prog.asks_require _).obeys_bind fun descriptors => ?_
      rw [Action.run_lift_bind]
      exact (asks_putChain ring 0 descriptors).obeys_bind fun _ => ⟨geometry, rfl⟩

namespace Host

variable (host : Host)

/-- The part of a data phase that hands the transfer to the controller. -/
def launch (ring : Ring) (latch : Latch) (length : Nat) (buffer : DataBuffer) (pages : Pages) :
    Action σ Geometry := do
  (stage pages length buffer).lift
  let geometry ← ring.prepare length pages.address host.config.segmentSize.toNat
    host.config.blockSize.toNat
  (ring.program host.window).lift
  (Ring.start host.window length host.config.blockSize.toNat).lift
  host.issue latch.word latch.argument
  pure geometry

/-- The part of a data phase that waits for the controller and takes the data. -/
def conclude (latch : Latch) (length : Nat) (buffer : DataBuffer) (pages : Pages)
    (geometry : Geometry) : Action σ (List UInt8) := do
  host.awaitData
  let arrived ← (collect pages length buffer).lift
  report (.moved latch.word geometry.blocks geometry.segments)
  pure arrived

theorem moveThrough_eq (ring : Ring) (latch : Latch) (length : Nat) (buffer : DataBuffer)
    (pages : Pages) :
    (host.moveThrough ring latch length buffer pages : Action σ (List UInt8)) =
      host.launch ring latch length buffer pages >>=
        host.conclude latch length buffer pages := by
  unfold moveThrough launch conclude
  simp only [bind_assoc, pure_bind]

theorem launches_start {length block : Nat} :
    (Ring.start host.window length block : Prog σ Unit).Launches := by
  have hcontrol : (host.window.setBits Register.control.offset
      (Control.interruptEnable ||| Control.internalDma) : Prog σ Unit).Asks
        (Request.OnRegisters host.window fun _ _ => True) :=
    Window.asks_setBits fun _ => trivial
  refine Prog.Launches.bind_left hcontrol fun _ _ => ?_
  refine (Window.launches_enable host.window).bind_right fun _ => ?_
  have hblock : (host.window.write Register.blockSize.offset (UInt32.ofNat block) :
      Prog σ Unit).Asks (Request.OnRegisters host.window Register.ForgetsDma) :=
    Window.asks_write (Register.forgetsDma (by decide) _)
  have hcount : (host.window.write Register.byteCount.offset (UInt32.ofNat length) :
      Prog σ Unit).Asks (Request.OnRegisters host.window Register.ForgetsDma) :=
    Window.asks_write (Register.forgetsDma (by decide) _)
  exact (hblock.bind fun _ => hcount).mono fun _ => Request.OnRegisters.leavesDma

theorem launches_launch (ring : Ring) (latch : Latch) {length : Nat} (buffer : DataBuffer)
    (pages : Pages) (hlength : length ≠ 0)
    (hfits : ∀ geometry, Geometry.ofLength? length host.config.segmentSize.toNat
      host.config.blockSize.toNat = some geometry → geometry.segments ≤ ring.count) :
    (host.launch ring latch length buffer pages : Action σ Geometry).run.Launches := by
  unfold launch
  rw [Action.run_lift_bind]
  refine Prog.Launches.bind_left (asks_stage pages length buffer) fun _ _ => ?_
  rw [Action.run_bind]
  refine Prog.Launches.bind_left (Ring.obeys_prepare ring pages.address hlength hfits)
    fun outcome hprepared => ?_
  obtain ⟨geometry, rfl⟩ := hprepared
  dsimp only
  rw [Action.run_lift_bind]
  have hprogram : (ring.program host.window : Prog σ Unit).Asks
      (Request.OnRegisters host.window fun _ _ => True) :=
    Ring.asks_program ring trivial trivial fun _ => trivial
  refine Prog.Launches.bind_left hprogram fun _ _ => ?_
  rw [Action.run_lift_bind]
  refine (launches_start host).bind_right fun _ => ?_
  have hissue : (host.issue latch.word latch.argument : Action σ Unit).Asks
      (Request.OnRegisters host.window Register.ForgetsDma) :=
    asks_issue host (Register.forgetsDma (by decide) _) (Register.forgetsDma (by decide) _)
      (Register.forgetsDma (by decide) _) (Register.forgetsDma (by decide) _)
  exact Action.Asks.bind (hissue.mono fun _ => Request.OnRegisters.leavesDma) fun _ => trivial

theorem asks_conclude (latch : Latch) (length : Nat) (buffer : DataBuffer) (pages : Pages)
    (geometry : Geometry) :
    (host.conclude latch length buffer pages geometry : Action σ (List UInt8)).Asks
      Request.LeavesDma := by
  have hawait : (host.awaitData : Action σ Unit).Asks
      (Request.OnRegisters host.window Register.ForgetsDma) := asks_completion host _ _ _ _
  refine Action.Asks.bind (hawait.mono fun _ => Request.OnRegisters.leavesDma) fun _ => ?_
  have hcollect : (collect pages length buffer : Prog σ (List UInt8)).Asks Request.LeavesDma := by
    cases buffer with
    | incoming size => exact Prog.asks_request trivial
    | outgoing bytes => trivial
  refine (Action.asks_lift hcollect).bind fun _ => ?_
  exact (Action.asks_lift (asks_log _ trivial)).bind fun _ => Action.asks_pure _

end Host

end CardHost
