import CardHost.Proofs.Bench.Answering
import CardHost.Proofs.Controller

/-!
# The bench as a controller

A bench may be slow to answer: a busy register shows some bits for a number of reads more than it
holds them.  As long as those are bits that take a controller some time, and no more reads than a
handshake has samples, the bench is a controller that answers (`Bench.controller`), whatever its
registers hold.
-/

namespace CardHost.Bench

namespace RegisterFile

/-- The bits that a busy register shows. -/
def lagging (file : RegisterFile) (offset : Nat) : UInt32 :=
  ((file.busy.get? offset).getD (0, 0)).1

/-- For how many reads it shows them. -/
def late (file : RegisterFile) (offset : Nat) : Nat :=
  ((file.busy.get? offset).getD (0, 0)).2

/-- Reads show what the registers hold, but for transient bits of busy ones. -/
structure Slow (file : RegisterFile) : Prop where
  scripts : ∀ offset, (file.scripts.get? offset).getD [] = []
  sticky : ∀ offset, (file.sticky.get? offset).getD 0 = 0
  busy : ∀ offset, without (file.lagging offset) (Contents.transient offset) = 0

variable {file : RegisterFile}

/-- A register that is not late reads as it is. -/
theorem Slow.read_of_settled (h : file.Slow) {offset : Nat} (settled : file.late offset = 0) :
    file.read offset = (file.value offset, file) :=
  Plain.read ⟨h.scripts offset, settled, h.sticky offset⟩

theorem busy_of_late {offset left : Nat} (late : file.late offset = left + 1) :
    file.busy.get? offset = some (file.lagging offset, left + 1) := by
  unfold lagging
  rw [RegisterFile.late] at late
  cases heq : file.busy.get? offset with
  | none =>
      rw [heq] at late
      cases late
  | some entry =>
      rw [heq] at late
      exact congrArg some (Prod.ext rfl late)

/-- One that is late has one read less to go. -/
theorem Slow.read_of_late (h : file.Slow) {offset left : Nat} (late : file.late offset = left + 1) :
    file.read offset = (file.value offset ||| file.lagging offset,
      { file with busy := file.busy.set offset (file.lagging offset, left) }) := by
  have hscript := h.scripts offset
  have hsticky := h.sticky offset
  have hbusy := busy_of_late late
  unfold RegisterFile.read
  split
  · rename_i value rest heq
    rw [heq] at hscript
    cases hscript
  · rw [hbusy, peek, hsticky, UInt32.or_zero]

/-- What a read leaves of the lateness of the registers. -/
theorem Slow.late_read (h : file.Slow) (offset other : Nat) :
    (file.read offset).2.late other =
      if other = offset then file.late offset - 1 else file.late other := by
  cases hlate : file.late offset with
  | zero =>
      rw [h.read_of_settled hlate]
      split
      · rename_i hsame
        rw [hsame, hlate]
      · rfl
  | succ left =>
      rw [h.read_of_late hlate]
      simp only [late, Table.get?_set]
      split <;> rfl

theorem Slow.read (h : file.Slow) (offset : Nat) : (file.read offset).2.Slow := by
  cases hlate : file.late offset with
  | zero =>
      rw [h.read_of_settled hlate]
      exact h
  | succ left =>
      rw [h.read_of_late hlate]
      refine ⟨h.scripts, h.sticky, fun other => ?_⟩
      simp only [lagging, Table.get?_set]
      split
      · rename_i hsame
        rw [hsame]
        exact h.busy offset
      · exact h.busy other

/-- Bits of a busy register that last are those that it holds. -/
theorem Slow.lasting (h : file.Slow) (offset : Nat) :
    without (file.read offset).1 (Contents.transient offset) =
      without (file.value offset) (Contents.transient offset) := by
  cases hlate : file.late offset with
  | zero => rw [h.read_of_settled hlate]
  | succ left => rw [h.read_of_late hlate, without_or, h.busy, UInt32.or_zero]

theorem Slow.write (h : file.Slow) (offset : Nat) (value : UInt32) :
    (file.write offset value).Slow :=
  ⟨h.scripts, h.sticky, h.busy⟩

/-- A write stores what a controller keeps. -/
theorem stored_eq_kept (file : RegisterFile) (offset : Nat) (value : UInt32) :
    file.stored offset value = Contents.kept offset (file.value offset) value := by
  unfold stored Contents.kept Contents.selfClearing
  split
  · rfl
  · split
    · rfl
    · split
      · rfl
      · split
        · rfl
        · rw [without_zero]

theorem value_write (file : RegisterFile) (offset : Nat) (value : UInt32) :
    (file.write offset value).value = Contents.write file.value offset value := by
  funext other
  rw [write, value_poke, stored_eq_kept]
  rfl

end RegisterFile

/-- Registers are at most slow, within a bound, and neither time nor an armed call interferes. -/
structure Device.Slow (bound : Option UInt32) (device : Device) : Prop where
  registers : device.registers.Slow
  inTime : ∀ limit, bound = some limit → ∀ offset, device.registers.late offset ≤ limit.toNat
  timers : device.timers = []
  armed : device.armed = []

namespace Device.Slow

variable {bound : Option UInt32} {device : Device}

/-- Registers may change as long as they stay slow and get no later. -/
theorem withRegisters (h : device.Slow bound) {file : RegisterFile} (slow : file.Slow)
    (later : ∀ offset, file.late offset ≤ device.registers.late offset) :
    Device.Slow bound { device with registers := file } :=
  ⟨slow, fun limit hlimit offset => Nat.le_trans (later offset) (h.inTime limit hlimit offset),
    h.timers, h.armed⟩

theorem read (h : device.Slow bound) (offset : Nat) :
    Device.Slow bound { device with registers := (device.registers.read offset).2 } := by
  refine h.withRegisters (h.registers.read offset) fun other => ?_
  rw [h.registers.late_read]
  split
  · rename_i hsame
    rw [hsame]
    exact Nat.sub_le _ _
  · exact Nat.le_refl _

end Device.Slow

namespace Platform

variable {platform : Platform}

/-- A write that starts no card command only changes its register. -/
theorem writeRegister_of_updates (unarmed : platform.device.armed = []) {offset : Nat}
    {value : UInt32} (updates : UpdatesAtMost offset value) :
    writeRegister offset value platform =
      (none, platform.mapRegisters (·.write offset value)) := by
  have hstarts : starts offset value = false := by
    by_cases hoffset : offset = Register.command.offset
    · have hupdates := hasAny_of_part (updates hoffset) UInt32.and_self (by decide)
      rw [starts, hupdates, Bool.not_true, Bool.and_false]
    · rw [starts, beq_eq_false_iff_ne.mpr hoffset, Bool.false_and, Bool.false_and]
  rw [writeRegister_eq unarmed, hstarts]
  rfl

/-- Time that no timer waits for only passes. -/
theorem stall_eq (untimed : platform.device.timers = []) :
    platform.stall =
      ⟨{ platform.device with stalls := platform.device.stalls + 1 }, platform.memory⟩ := by
  obtain ⟨device, memory⟩ := platform
  have htimers : device.timers = [] := untimed
  simp only [stall, htimers]

end Platform

/-- A bench as a controller, on the services that it supplies. -/
def controller (window : Window) (services : Services) (supplied : window.services = .supplied)
    (bound : Option UInt32) : Controller machine window services bound where
  Answers platform := platform.device.Slow bound
  held platform := platform.device.registers.value
  late platform := platform.device.registers.late
  answers_read h offset := by
    simp only [machine, machineWith, supplied]
    exact h.read offset
  held_read {before} _ offset := by
    simp only [machine, machineWith, supplied]
    exact funext fun other => before.device.registers.value_read offset other
  late_read h offset := by
    simp only [machine, machineWith, supplied]
    exact Nat.le_of_eq ((h.registers.late_read offset offset).trans (if_pos rfl))
  lasting h offset := by
    simp only [machine, machineWith, supplied]
    exact h.registers.lasting offset
  settled h offset hlate := by
    simp only [machine, machineWith, supplied]
    rw [h.registers.read_of_settled hlate]
  uninterrupted h offset value updates := by
    simp only [machine, machineWith, supplied, Platform.writeRegister_of_updates h.armed updates]
  answers_write h offset value updates := by
    simp only [machine, machineWith, supplied, Platform.writeRegister_of_updates h.armed updates]
    exact h.withRegisters (h.registers.write offset value) fun _ => Nat.le_refl _
  held_write {before} h offset value updates := by
    simp only [machine, machineWith, supplied, Platform.writeRegister_of_updates h.armed updates]
    exact before.device.registers.value_write offset value
  answers_stall {before} h microseconds := by
    have hstall := Platform.stall_eq h.timers
    cases services <;> simp only [machine, machineWith, hstall] <;>
      exact ⟨h.registers, h.inTime, h.timers, h.armed⟩
  held_stall h microseconds := by
    have hstall := Platform.stall_eq h.timers
    cases services <;> simp only [machine, machineWith, hstall]
  late_stall h microseconds offset := by
    have hstall := Platform.stall_eq h.timers
    cases services <;> simp only [machine, machineWith, hstall] <;> exact Nat.le_refl _
  inTime {before} h offset := by
    cases bound with
    | some limit => exact h.inTime limit rfl offset
    | none =>
        simp only [machine, machineWith, supplied, RegisterFile.patience]
        show before.device.registers.late offset < _ + before.device.registers.late offset + 1
        exact Nat.lt_succ_of_le (Nat.le_add_left _ _)

end CardHost.Bench
