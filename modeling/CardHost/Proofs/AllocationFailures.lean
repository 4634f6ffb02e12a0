import CardHost.Proofs.Bracketing
import CardHost.Proofs.Refusals
import CardHost.Proofs.RingMemory
import Mathlib

/-!
# Allocations that fail

The firmware may refuse pages with any status but success.  Two programs ask it for pages, and both
report that status: the error they end with stands for it and for no other.

`Prog.Needs` is the form of a program that asks for pages first and cannot do without.  Failing, it
adds messages at most, and the form survives whatever an action is put into, so each layer between
the allocator and its caller is one lemma.  `Needs.run_refused` is what follows of a run.

Main statement: `Host.allocator_status_reported`.  A load that gets no ring leaves no pages and no
host (`Slot.LeftAlone`); a data phase that gets no staging pages fails before it reaches the board,
uses up its latch and leaves the lock free, so that the command can be latched again for another
attempt (`Host.Survives`).
-/

namespace CardHost

variable {machine : Machine ι}

/-! ## Programs that cannot do without pages -/

/-- The program asks for pages first, and if it is refused it ends with the cause, after messages at
most. -/
def Prog.Needs (services : Services) (count : Nat) (program : Prog σ (Except HostError α)) : Prop :=
  ∃ next : Grant → Prog σ (Except HostError α), program = .ask (.allocate services count) next
    ∧ ∀ grant error, HostError.ofStatus grant.status = .error error →
      ∃ remarks, next grant = (Prog.logAll remarks).bind fun _ => .done (.error error)

theorem Pages.needs_allocate (services : Services) (count : Nat) :
    (Pages.allocate services count : Action σ Pages).run.Needs services count := by
  refine ⟨_, rfl, fun grant error refused => ⟨[], ?_⟩⟩
  simp only [Prog.bind, refused]
  rfl

namespace Prog

variable {services : Services} {count : Nat}

theorem logAll_append (front back : List Message) :
    (logAll (front ++ back) : Prog σ Unit) = (logAll front).bind fun _ => logAll back := by
  induction front with
  | nil => rfl
  | cons message rest ih =>
      rw [List.cons_append, logAll, logAll, bind_assoc, ih]

/-- What comes after such an action is not reached if it is refused. -/
theorem Needs.action_bind {action : Action σ α} (h : action.run.Needs services count)
    (next : α → Action σ β) : (action >>= next).run.Needs services count := by
  obtain ⟨rest, hprogram, hrest⟩ := h
  rw [Action.run_bind, hprogram]
  refine ⟨_, rfl, fun grant error refused => ?_⟩
  obtain ⟨remarks, hrefused⟩ := hrest grant error refused
  refine ⟨remarks, ?_⟩
  rw [hrefused, bind_assoc]
  rfl

/-- A message about the failure is one remark more. -/
theorem Needs.onError {action : Action σ α} (h : action.run.Needs services count)
    (message : HostError → Message) : (action.onError message).run.Needs services count := by
  obtain ⟨rest, hprogram, hrest⟩ := h
  rw [Action.run_onError, hprogram]
  refine ⟨_, rfl, fun grant error refused => ?_⟩
  obtain ⟨remarks, hrefused⟩ := hrest grant error refused
  refine ⟨remarks ++ [message error], ?_⟩
  rw [hrefused, bind_assoc, logAll_append, bind_assoc]
  rfl

/-- A refused program ends with the cause where the allocator leaves the platform.  It did nothing
but ask for its pages once, and log. -/
theorem Needs.run_refused {program : Prog σ (Except HostError α)} (h : program.Needs services count)
    (handler : ι → Prog σ ρ) (depth : Nat) {system : System machine σ ρ} {error : HostError}
    (refused : HostError.ofStatus (machine.allocate services count system.shared).1.status =
      .error error) :
    (∃ after, program.run handler depth system = .ok (.error error, after)
      ∧ after.shared = (machine.allocate services count system.shared).2
      ∧ after.cell = system.cell ∧ after.level = system.level)
    ∧ (∀ moment ∈ program.trace handler depth system, moment.request.OffBoard)
    ∧ (program.trace handler depth system).filterMap Moment.pageCall? =
        [.allocated services count (machine.allocate services count system.shared).1] := by
  obtain ⟨next, rfl, hnext⟩ := h
  obtain ⟨shared, level, cell, verbosity, journal⟩ := system
  obtain ⟨remarks, hrefused⟩ := hnext _ error refused
  have hlogs : (logAll remarks : Prog σ Unit).Asks Request.Silent :=
    asks_logAll _ fun _ => trivial
  have hkeeps : (logAll remarks : Prog σ Unit).Asks
      fun request => request.OffBoard ∧ request.KeepsPages :=
    asks_logAll _ fun _ => ⟨trivial, trivial⟩
  have hmessages (system : System machine σ ρ) :
      ∀ moment ∈ ((logAll remarks).bind fun _ => done (.error error :
        Except HostError α)).trace handler depth system,
          moment.request.OffBoard ∧ moment.request.KeepsPages := by
    rw [trace_bind_done, hlogs.trace_eq_moments]
    exact hkeeps.of_mem_moments handler depth system
  dsimp only at hrefused
  simp only [run, runWith, trace, traceWith, System.answer, hrefused]
  refine ⟨?_, ?_, ?_⟩
  · have hran := run_logAll handler depth remarks
      (⟨(machine.allocate services count shared).2, level, cell, verbosity,
        .allocated services count (machine.allocate services count shared).1 :: journal⟩ :
          System machine σ ρ)
    unfold run at hran
    rw [runWith_bind, hran]
    exact ⟨_, rfl, rfl, rfl, rfl⟩
  · intro moment hmem
    rcases List.mem_cons.mp hmem with rfl | hmem
    · trivial
    · exact (hmessages _ moment hmem).1
  · rw [List.filterMap_cons]
    dsimp only [Moment.pageCall?]
    congr 1
    exact filterMap_pageCall_of_keepsPages fun moment hmem => (hmessages _ moment hmem).2

end Prog

/-! ## Loading -/

/-- A ring whose size is a word needs its pages. -/
theorem Ring.needs_allocate (services : Services) {count : Nat} (positive : 0 < count)
    (size : count * descriptorSize < wordSpan) :
    (Ring.allocate services count : Action σ Ring).run.Needs services
      (pagesFor (count * descriptorSize)) := by
  unfold allocate
  rw [if_neg (Nat.ne_of_gt positive), if_neg (Nat.not_le_of_lt size)]
  exact ((Pages.needs_allocate services _).onError _).action_bind _

/-- A host needs the pages of its ring. -/
theorem Host.needs_load {config : HostConfig} (usable : config.Usable)
    (size : config.descriptorCount.toNat * descriptorSize < wordSpan) (services : Services) :
    (Host.load config services : Action σ (Host × HostState)).run.Needs services
      (pagesFor (config.descriptorCount.toNat * descriptorSize)) := by
  obtain ⟨⟨-, -, -, positive⟩, -⟩ := (HostConfig.usable_iff config).mp usable
  unfold load
  rw [make_of_usable usable]
  exact (((Ring.needs_allocate services positive size).action_bind _).onError _).action_bind _

/-- A load on the firmware's services fails with a status of the allocator, and leaves everything
alone: the slot and the cell of the host loaded so far, the priority, registers and memory.  No
pages stay behind, and the platform is the one the allocator left. -/
structure Slot.LeftAlone (slot : Slot) (config : HostConfig) (handler : ι → Prog HostState ρ)
    (depth : Nat) (system : System machine HostState ρ) (status : Status) : Prop where
  answered : ∃ error after, (slot.loadFirmware config true).run handler depth system =
      .ok ((.error error, slot), after)
    ∧ error.status = status
    ∧ after.shared = (machine.allocate .firmware
        (pagesFor (config.descriptorCount.toNat * descriptorSize)) system.shared).2
    ∧ after.cell = system.cell ∧ after.level = system.level
  offBoard : ∀ moment ∈ (slot.loadFirmware config true).trace handler depth system,
    moment.request.OffBoard
  unowned : outstanding (((slot.loadFirmware config true).trace handler depth system).filterMap
    Moment.pageCall?) = some []

theorem HostError.exists_of_ne_success {status : Status} (failed : status ≠ .success) :
    ∃ error, HostError.ofStatus status = .error error ∧ error.status = status := by
  cases h : HostError.ofStatus status with
  | ok value => exact (failed ((ofStatus_eq_ok_iff status).mp h)).elim
  | error error => exact ⟨error, rfl, status_ofStatus h⟩

/-- One refused request leaves nothing outstanding. -/
theorem outstanding_refused {grant : Grant} (h : grant.status ≠ .success) (services : Services)
    (count : Nat) : outstanding [(.allocated services count grant : Event ρ)] = some [] := by
  change Option.bind _ _ = _
  rw [settle_refused h]
  rfl

theorem Slot.leftAlone_of_refused (slot : Slot) {config : HostConfig} (usable : config.Usable)
    (size : config.descriptorCount.toNat * descriptorSize < wordSpan)
    (handler : ι → Prog HostState ρ) (depth : Nat) {system : System machine HostState ρ}
    (failed : (machine.allocate .firmware (pagesFor (config.descriptorCount.toNat * descriptorSize))
      system.shared).1.status ≠ .success) :
    slot.LeftAlone config handler depth system (machine.allocate .firmware
      (pagesFor (config.descriptorCount.toNat * descriptorSize)) system.shared).1.status := by
  obtain ⟨error, hrefused, hstatus⟩ := HostError.exists_of_ne_success failed
  have hneeds := Host.needs_load (σ := HostState) usable size .firmware
  obtain ⟨⟨after, hran, hshared, hcell, hlevel⟩, hoff, hcalls⟩ :=
    hneeds.run_refused handler depth hrefused
  have hprogram : slot.loadFirmware config true = (Host.load config .firmware).run.bind _ := rfl
  have htrace : (slot.loadFirmware config true).trace handler depth system =
      (Host.load config .firmware).run.trace handler depth system := by
    rw [hprogram, Prog.trace_bind_of_run handler depth hran]
    exact List.append_nil _
  constructor
  · refine ⟨error, after, ?_, hstatus, hshared, hcell, hlevel⟩
    rw [hprogram, Prog.run_bind, hran]
    rfl
  · rw [htrace]
    exact hoff
  · rw [htrace, hcalls]
    exact outstanding_refused failed _ _

/-! ## Data phases -/

namespace Host

variable (host : Host)

/-- A data command that finds the lock free is latched, and nothing else happens. -/
theorem run_latching {index argument : UInt32}
    (data : (CommandWord.ofCommand index argument).isData = true)
    (handler : ι → Prog HostState ρ) (depth : Nat) {system : System machine HostState ρ}
    {state : HostState} (free : system.cell = some state) :
    ∃ after, (host.perform (.sendCommand index argument)).run handler depth system =
        .ok (.outcome (.ok ()), after)
      ∧ after.shared = system.shared ∧ after.level = system.level
      ∧ after.cell = some { state with latch := some ⟨.ofCommand index argument, argument⟩ } := by
  obtain ⟨remarks, hbody⟩ := host.commandBody_latching data state
  rw [perform_sendCommand, Prog.run_bind,
    Lock.run_holding_of_free handler depth host.lock _ system state free, hbody, Prog.run_bind,
    run_logAll]
  exact ⟨_, rfl, rfl, rfl, rfl⟩

/-- The first attempt on the lock finds the cell as the operation does. -/
theorem find_take_locking {call : Call} (hdump : call ≠ .dump) (locks : host.unlocked? call = none)
    (handler : ι → Prog HostState ρ) (depth : Nat) (system : System machine HostState ρ) :
    ∃ attempt, ((host.perform call).trace handler depth system).find?
        (fun moment => moment.request.isTake) = some attempt
      ∧ attempt.system.cell = system.cell := by
  have hform := host.perform_form hdump
  generalize host.perform call = program at hform
  cases hform with
  | unlocked answer remarks h =>
      rw [locks] at h
      cases h
  | locked body finish h refuses settles =>
      rw [Prog.trace_bind_done, Lock.find_take_holding]
      exact ⟨_, rfl, rfl⟩

/-- A data phase fails with a status of the allocator before it reaches the board.  Nothing stays
allocated, the latch is used up, and the host goes on: every operation that takes the lock finds it
free, and once a data command of the direction is latched again, which always succeeds, the phase
has no reason not to start. -/
structure Survives (call : Call) (length : Nat) (buffer : DataBuffer)
    (handler : ι → Prog HostState ρ) (depth : Nat) (system after : System machine HostState ρ)
    (status : Status) : Prop where
  answered : ∃ error, (host.perform call).run handler depth system =
    .ok (call.phaseAnswer (.error error), after) ∧ error.status = status
  offBoard : ∀ moment ∈ (host.perform call).trace handler depth system, moment.request.OffBoard
  unowned : outstanding (((host.perform call).trace handler depth system).filterMap
    Moment.pageCall?) = some []
  platform : after.shared =
    (machine.allocate host.services (host.split length).stagingPages system.shared).2
  level : after.level = system.level
  consumed : ∃ ring latch, system.cell = some ⟨ring, some latch⟩ ∧ after.cell = some ⟨ring, none⟩
  admits : ∀ next, next ≠ .dump → host.unlocked? next = none →
    ∃ attempt, ((host.perform next).trace handler depth after).find?
        (fun moment => moment.request.isTake) = some attempt
      ∧ attempt.system.cell = after.cell
  retries : ∀ index argument, (CommandWord.ofCommand index argument).isData = true →
    (CommandWord.ofCommand index argument).isWrite = buffer.isWrite →
    ∃ later, (host.perform (.sendCommand index argument)).run handler depth after =
        .ok (.outcome (.ok ()), later)
      ∧ later.shared = after.shared ∧ later.level = after.level
      ∧ host.refusal? length buffer later.cell = none

variable {host}

/-- A phase that is not refused has no reason to be, with another command of its direction. -/
theorem refusal?_relatched {length : Nat} {buffer : DataBuffer} {ring : Ring} {latch other : Latch}
    (h : host.refusal? length buffer (some ⟨ring, some latch⟩) = none)
    (direction : other.word.isWrite = buffer.isWrite) :
    host.refusal? length buffer (some ⟨ring, some other⟩) = none := by
  simp only [refusal?] at h ⊢
  split at h
  · cases h
  · rename_i hfits
    have hlength : ¬ (other.word.isWrite ≠ buffer.isWrite ∨ length = 0 ∨ buffer.size < length) := by
      rintro (hother | hlength)
      · exact hother direction
      · exact hfits (.inr hlength)
    rw [if_neg hlength]
    exact h

theorem survives_of_unallocated {call : Call} {length : Nat} {buffer : DataBuffer}
    (phase : call.phase? = some (length, buffer)) (sliced : buffer.size < sliceLimit)
    (handler : ι → Prog HostState ρ) (depth : Nat) {system : System machine HostState ρ}
    (ready : host.refusal? length buffer system.cell = none)
    (failed : (machine.allocate host.services (host.split length).stagingPages
      system.shared).1.status ≠ .success) :
    ∃ after, host.Survives call length buffer handler depth system after
      (machine.allocate host.services (host.split length).stagingPages
        system.shared).1.status := by
  obtain ⟨error, hrefused, hstatus⟩ := HostError.exists_of_ne_success failed
  obtain ⟨ring, latch, free, cleared⟩ := host.cleared_of_not_refused sliced ready
  have haway : host.TurnedAway call handler depth system error _ _ :=
    turnedAway_of_unallocated phase free (cleared 0) hrefused
  obtain ⟨after, hran, hshared, hlevel, hcell⟩ := haway.answered
  have hspent : after.cell = some ⟨ring, none⟩ := by
    rw [hcell, free]
    rfl
  refine ⟨after, ⟨error, hran, hstatus⟩, haway.offBoard, ?_, hshared, hlevel,
    ⟨ring, latch, free, hspent⟩, ?_, ?_⟩
  · rw [haway.called]
    exact outstanding_refused failed _ _
  · intro next hdump locks
    exact host.find_take_locking hdump locks handler depth after
  · intro index argument data direction
    obtain ⟨later, hlatched, hsame, hback, hlatch⟩ :=
      host.run_latching data handler depth hspent
    refine ⟨later, hlatched, hsame, hback, ?_⟩
    rw [free] at ready
    rw [hlatch]
    exact refusal?_relatched ready direction

/-- Whatever status other than success the allocator reports, both programs that ask for pages fail
with an error that is reported as this status again.  A load of a usable configuration, whose ring
is not too large for a word, leaves no pages and no host; a data phase that has no reason not to
start leaves its host ready for the next operation. -/
theorem allocator_status_reported {machine : Machine ι} (handler : ι → Prog HostState ρ)
    (depth : Nat) (system : System machine HostState ρ) {status : Status}
    (failed : status ≠ .success) :
    (∀ (slot : Slot) (config : HostConfig), config.Usable →
      config.descriptorCount.toNat < 2 ^ 59 →
      (machine.allocate .firmware (pagesFor (config.descriptorCount.toNat * descriptorSize))
        system.shared).1.status = status →
      slot.LeftAlone config handler depth system status)
    ∧ ∀ (host : Host) (call : Call) (length : Nat) (buffer : DataBuffer),
      call.phase? = some (length, buffer) → buffer.size < sliceLimit →
      host.refusal? length buffer system.cell = none →
      (machine.allocate host.services (host.split length).stagingPages system.shared).1.status =
        status →
      ∃ after, host.Survives call length buffer handler depth system after status := by
  constructor
  · rintro slot config usable size rfl
    refine slot.leftAlone_of_refused usable ?_ handler depth failed
    change _ * 32 < 0x10000000000000000
    omega
  · rintro host call length buffer phase sliced ready rfl
    exact survives_of_unallocated phase sliced handler depth ready failed

end Host

/-- The hasty host on the firmware's services. -/
def hastyFirmware : Host :=
  { hastyHost with services := .firmware }

/-- The bench with a write latched, where the next request for pages times out. -/
@[irreducible]
def deniedBench : System Bench.machine HostState (List Answer) :=
  let bench := latchedBench true
  let device := bench.shared.device
  let pages := { device.pages with allocateFailure := some ⟨.timeout, 1⟩ }
  { bench with shared := ⟨{ device with pages := pages }, bench.shared.memory⟩ }

/-- A timeout of the allocator is reported by a load and by a write of one byte. -/
theorem Host.allocator_timeout_reported :
    Slot.empty.LeftAlone smallConfig undisturbed 0 deniedBench .timeout
      ∧ ∃ after, hastyFirmware.Survives (.writeData 1 [7]) 1 (.outgoing [7]) undisturbed 0
        deniedBench after .timeout := by
  have hlatched : deniedBench.cell = some latchedState := by decide +kernel
  have hring : (Bench.machine.allocate .firmware
      (pagesFor (smallConfig.descriptorCount.toNat * descriptorSize))
        deniedBench.shared).1.status = .timeout := by decide +kernel
  have hstaging : (Bench.machine.allocate hastyFirmware.services
      (hastyFirmware.split 1).stagingPages deniedBench.shared).1.status = .timeout := by
    decide +kernel
  obtain ⟨hload, hphase⟩ := allocator_status_reported undisturbed 0 deniedBench
    (show Status.timeout ≠ .success by decide)
  constructor
  · exact hload Slot.empty smallConfig (by decide) (by decide) hring
  · refine hphase hastyFirmware (.writeData 1 [7]) 1 (.outgoing [7]) rfl (by decide) ?_ hstaging
    rw [hlatched]
    rfl

end CardHost
