import CardHost.Bench.Device
import CardHost.Proofs.Ends
import CardHost.Proofs.Masks

/-!
# A bench that answers

A bench on which nothing was set up to misbehave (`Device.Answers`): its registers read as they were
written, the card is not busy, commands complete, and nothing changes by itself or interrupts.  On
such a bench every access of the driver ends, a read with the value held and a write with the
register changed, every handshake is over at its first sample, and so is every poll of a completed
command.

The state of the registers themselves is left open, so all of this holds whatever earlier operations
left in them.
-/

namespace CardHost

namespace Bench

/-! ## Registers -/

namespace RegisterFile

variable {file : RegisterFile}

/-- Reading a register changes no value. -/
theorem value_read (file : RegisterFile) (offset other : Nat) :
    (file.read offset).2.value other = file.value other := by
  unfold read
  split
  · rfl
  · split <;> rfl

/-- No read of this register is disturbed. -/
structure Plain (file : RegisterFile) (offset : Nat) : Prop where
  script : (file.scripts.get? offset).getD [] = []
  busy : ((file.busy.get? offset).getD (0, 0)).2 = 0
  sticky : (file.sticky.get? offset).getD 0 = 0

instance (file : RegisterFile) (offset : Nat) : Decidable (file.Plain offset) :=
  decidable_of_iff ((file.scripts.get? offset).getD [] = []
      ∧ ((file.busy.get? offset).getD (0, 0)).2 = 0 ∧ (file.sticky.get? offset).getD 0 = 0)
    ⟨fun ⟨script, busy, sticky⟩ => ⟨script, busy, sticky⟩,
      fun h => ⟨h.script, h.busy, h.sticky⟩⟩

/-- A plain register reads as the value it holds, and stays plain. -/
theorem Plain.read {offset : Nat} (h : file.Plain offset) :
    file.read offset = (file.value offset, file) := by
  have hscript := h.script
  have hbusy := h.busy
  unfold RegisterFile.read
  split
  · rename_i value rest heq
    rw [heq] at hscript
    cases hscript
  · split
    · rename_i bits reads heq
      rw [heq] at hbusy
      cases hbusy
    · rw [peek, h.sticky, UInt32.or_zero]

/-- Reads of other registers leave a plain one plain. -/
theorem Plain.of_read {offset : Nat} (h : file.Plain offset) (other : Nat) :
    (file.read other).2.Plain offset := by
  by_cases hsame : other = offset
  · rw [hsame, h.read]
    exact h
  · have hne : offset ≠ other := fun heq => hsame heq.symm
    unfold RegisterFile.read
    split
    · refine ⟨?_, h.busy, h.sticky⟩
      rw [Table.get?_set, if_neg hne]
      exact h.script
    · split
      · refine ⟨h.script, ?_, h.sticky⟩
        rw [Table.get?_set, if_neg hne]
        exact h.busy
      · exact h

theorem Plain.poke {offset : Nat} (h : file.Plain offset) (other : Nat) (value : UInt32) :
    (file.poke other value).Plain offset :=
  ⟨h.script, h.busy, h.sticky⟩

/-- No read of a register is disturbed, now or later. -/
structure Undisturbed (file : RegisterFile) : Prop where
  scripts : ∀ offset, (file.scripts.get? offset).getD [] = []
  busy : ∀ offset, ((file.busy.get? offset).getD (0, 0)).2 = 0
  sticky : ∀ offset, (file.sticky.get? offset).getD 0 = 0

theorem Undisturbed.plain (h : file.Undisturbed) (offset : Nat) : file.Plain offset :=
  ⟨h.scripts offset, h.busy offset, h.sticky offset⟩

/-- A register that is not disturbed reads as the value it holds. -/
theorem Undisturbed.read (h : file.Undisturbed) (offset : Nat) :
    file.read offset = (file.value offset, file) :=
  (h.plain offset).read

theorem Undisturbed.poke (h : file.Undisturbed) (offset : Nat) (value : UInt32) :
    (file.poke offset value).Undisturbed :=
  ⟨h.scripts, h.busy, h.sticky⟩

theorem Undisturbed.write (h : file.Undisturbed) (offset : Nat) (value : UInt32) :
    (file.write offset value).Undisturbed :=
  h.poke offset _

theorem held_poke (file : RegisterFile) (register other : Register) (value : UInt32) :
    (file.poke register.offset value).held other =
      if other = register then value else file.held other := by
  rw [held, value_poke]
  by_cases heq : other = register
  · rw [heq, if_pos rfl, if_pos rfl]
  · have hoffset : other.offset ≠ register.offset := fun h => heq (Register.offset_injective h)
    rw [if_neg hoffset, if_neg heq, held]

theorem held_write (file : RegisterFile) (register other : Register) (value : UInt32) :
    (file.write register.offset value).held other =
      if other = register then file.stored register.offset value else file.held other :=
  held_poke file register other _

theorem held_interrupt (file : RegisterFile) (bits : UInt32) (other : Register) :
    (file.interrupt bits).held other =
      if other = .rawInterrupt then file.held .rawInterrupt ||| bits else file.held other :=
  held_poke file .rawInterrupt other _

/-- A response changes the response registers alone. -/
theorem held_respond (file : RegisterFile) (r0 r1 r2 r3 : UInt32) {other : Register}
    (hother : other ∉ Register.responses) : (file.respond r0 r1 r2 r3).held other =
      file.held other := by
  simp only [Register.responses, List.mem_cons, List.not_mem_nil, or_false, not_or] at hother
  obtain ⟨h0, h1, h2, h3⟩ := hother
  simp only [respond, held_poke, if_neg h0, if_neg h1, if_neg h2, if_neg h3]

/-- The registers on which a write acts in its own way. -/
def acting : List Register := [.rawInterrupt, .control, .busMode, .command]

/-- All other registers hold what is written. -/
theorem stored_eq (file : RegisterFile) {register : Register} (h : register ∉ acting)
    (value : UInt32) : file.stored register.offset value = value := by
  have hne (other : Register) (hmem : other ∈ acting) : register.offset ≠ other.offset := by
    intro hoffset
    rw [Register.offset_injective hoffset] at h
    exact h hmem
  have hraw := hne .rawInterrupt (by decide)
  have hcontrol := hne .control (by decide)
  have hmode := hne .busMode (by decide)
  have hcommand := hne .command (by decide)
  rw [stored, if_neg hraw, if_neg hcontrol, if_neg hmode, if_neg hcommand]

end RegisterFile

/-! ## The bench -/

/-- Registers are not disturbed, the card is not busy and completes commands, nothing changes with
time, and no call waits for a write. -/
structure Device.Answers (device : Device) : Prop where
  registers : device.registers.Undisturbed
  cardReady : hasAny (device.registers.held .status) ControllerStatus.cardBusy = false
  dataReady : hasAny (device.registers.held .status) ControllerStatus.dataBusy = false
  completion : device.completion = .auto
  timers : device.timers = []
  armed : device.armed = []

/-- Registers may change, as long as they stay undisturbed and the card does not get busy. -/
theorem Device.Answers.withRegisters {device : Device} (h : device.Answers) {file : RegisterFile}
    (hfile : file.Undisturbed) (hstatus : file.held .status = device.registers.held .status) :
    Device.Answers { device with registers := file } where
  registers := hfile
  cardReady := hstatus ▸ h.cardReady
  dataReady := hstatus ▸ h.dataReady
  completion := h.completion
  timers := h.timers
  armed := h.armed

theorem Device.Answers.write {platform : Platform} (h : platform.device.Answers)
    {register : Register} (hstatus : register ≠ .status) (value : UInt32) :
    (platform.mapRegisters (·.write register.offset value)).device.Answers := by
  refine h.withRegisters (h.registers.write _ _) ?_
  rw [RegisterFile.held_write, if_neg hstatus.symm]

namespace Platform

variable {platform : Platform}

/-- Without armed calls a write changes its register, and a start runs the command. -/
theorem writeRegister_eq (unarmed : platform.device.armed = []) (offset : Nat) (value : UInt32) :
    writeRegister offset value platform =
      (none, if starts offset value
        then (platform.mapRegisters (·.write offset value)).start value
        else platform.mapRegisters (·.write offset value)) := by
  have hstart (word : UInt32) (before : Platform) :
      (before.start word).device.armed = before.device.armed := by
    obtain ⟨device, memory⟩ := before
    unfold start
    dsimp only
    split
    · rfl
    · rfl
    · rfl
    · rfl
  have hwritten : (platform.mapRegisters (·.write offset value)).device.armed = [] := unarmed
  have harmed : (if starts offset value
      then (platform.mapRegisters (·.write offset value)).start value
      else platform.mapRegisters (·.write offset value)).device.armed = [] := by
    split
    · rw [hstart, hwritten]
    · exact hwritten
  unfold writeRegister
  dsimp only
  generalize (if starts offset value
    then (platform.mapRegisters (·.write offset value)).start value
    else platform.mapRegisters (·.write offset value)) = after at harmed ⊢
  obtain ⟨device, memory⟩ := after
  simp only at harmed
  simp only [harmed, Device.takeArmed]

/-- No register but the command register starts a command. -/
theorem starts_eq_false {register : Register} (h : register ≠ .command) (value : UInt32) :
    starts register.offset value = false := by
  have hoffset : register.offset ≠ Register.command.offset := fun heq =>
    h (Register.offset_injective heq)
  rw [starts, beq_eq_false_iff_ne.mpr hoffset, Bool.false_and, Bool.false_and]

end Platform

end Bench

/-! ## Register access -/

namespace Window

variable {allocator : Bench.Allocator} {window : Window} {platform : Bench.Platform}

/-- The window belongs to the controller, and all its registers have addresses. -/
structure OnBench (window : Window) : Prop where
  supplied : window.services = .supplied
  fits : ∀ register : Register, window.base.toNat + register.offset < wordSpan

theorem ends_read (hwindow : window.OnBench) (h : platform.device.Answers) (register : Register)
    {post : UInt32 → Bench.Platform → Prop}
    (hpost : post (platform.device.registers.held register) platform) :
    (window.read register.offset : Prog σ UInt32).Ends (Bench.machineWith allocator) platform
      post := by
  unfold read
  rw [if_pos (hwindow.fits register)]
  refine Prog.ends_read ?_ hpost
  simp only [Bench.machineWith, hwindow.supplied, h.registers.read]
  rfl

/-- A write to any register but the status and the command register. -/
theorem ends_write (hwindow : window.OnBench) (h : platform.device.Answers) {register : Register}
    (hstatus : register ≠ .status) (hcommand : register ≠ .command) (value : UInt32)
    {post : Unit → Bench.Platform → Prop}
    (hpost : (platform.mapRegisters (·.write register.offset value)).device.Answers →
      post () (platform.mapRegisters (·.write register.offset value))) :
    (window.write register.offset value : Prog σ Unit).Ends (Bench.machineWith allocator) platform
      post := by
  have hafter := hpost (h.write hstatus value)
  apply Prog.Ends.step
  apply Prog.ends_log
  rw [if_pos (hwindow.fits register)]
  refine Prog.ends_write ?_ hafter
  have hstarts := Bench.Platform.starts_eq_false hcommand value
  simp only [Bench.machineWith, hwindow.supplied, Bench.Platform.writeRegister_eq h.armed, hstarts,
    Bool.false_eq_true, if_false]

/-- A write that starts a command. -/
theorem ends_writeStart (hwindow : window.OnBench) (h : platform.device.Answers) {value : UInt32}
    (hstarts : Bench.Platform.starts Register.command.offset value = true)
    {post : Unit → Bench.Platform → Prop}
    (hpost : post ()
      ((platform.mapRegisters (·.write Register.command.offset value)).start value)) :
    (window.write Register.command.offset value : Prog σ Unit).Ends
      (Bench.machineWith allocator) platform post := by
  apply Prog.Ends.step
  apply Prog.ends_log
  rw [if_pos (hwindow.fits .command)]
  refine Prog.ends_write ?_ hpost
  simp only [Bench.machineWith, hwindow.supplied, Bench.Platform.writeRegister_eq h.armed, hstarts,
    if_true]

theorem ends_setBits (hwindow : window.OnBench) (h : platform.device.Answers)
    {register : Register} (hstatus : register ≠ .status) (hcommand : register ≠ .command)
    (bits : UInt32) {post : Unit → Bench.Platform → Prop}
    (hpost : (platform.mapRegisters (·.write register.offset
        (platform.device.registers.held register ||| bits))).device.Answers →
      post () (platform.mapRegisters (·.write register.offset
        (platform.device.registers.held register ||| bits)))) :
    (window.setBits register.offset bits : Prog σ Unit).Ends (Bench.machineWith allocator) platform
      post := by
  apply Prog.Ends.step
  apply ends_read hwindow h
  exact ends_write hwindow h hstatus hcommand _ hpost

/-- A register that is ready ends any wait at its first sample. -/
theorem ends_awaits (hwindow : window.OnBench) (h : platform.device.Answers) (services : Services)
    (register : Register) {ready : UInt32 → Bool}
    (hready : ready (platform.device.registers.held register) = true) (bound : Option UInt32)
    {post : Bool → Bench.Platform → Prop} (hpost : post true platform) :
    (window.awaits services register.offset ready bound : Prog σ Bool).Ends
      (Bench.machineWith allocator) platform post := by
  cases bound with
  | none =>
      apply Prog.Ends.step
      apply Prog.ends_patience
      -- The bench always has one more sample to give.
      have hpatience : (Bench.machineWith allocator).patience window register.offset platform =
          ((platform.device.registers.scripts.get? register.offset).getD []).length
            + ((platform.device.registers.busy.get? register.offset).getD (0, 0)).2 + 1 := by
        simp only [Bench.machineWith, hwindow.supplied, Bench.RegisterFile.patience]
      rw [hpatience]
      apply Prog.Ends.step
      apply ends_read hwindow h
      rw [if_pos hready]
      exact Prog.ends_done hpost
  | some bound =>
      show (window.sample services register.offset ready bound.toNat).Ends _ _ _
      cases bound.toNat with
      | zero =>
          apply Prog.Ends.step
          apply ends_read hwindow h
          apply Prog.ends_done
          rw [hready]
          exact hpost
      | succ bound =>
          apply Prog.Ends.step
          apply ends_read hwindow h
          rw [if_pos hready]
          exact Prog.ends_done hpost

end Window

/-! ## Handshakes and polls -/

namespace Host

variable {allocator : Bench.Allocator} {host : Host} {platform : Bench.Platform}

theorem succeeds_awaitClear (hwindow : host.window.OnBench) (h : platform.device.Answers)
    {register : Register} {mask : UInt32}
    (hclear : hasAny (platform.device.registers.held register) mask = false)
    {post : Unit → Bench.Platform → Prop} (hpost : post () platform) :
    (host.awaitClear register mask : Action σ Unit).Succeeds (Bench.machineWith allocator) platform
      post := by
  have hready : (!hasAny (platform.device.registers.held register) mask) = true := by
    rw [hclear, Bool.not_false]
  apply Action.Succeeds.step
  apply Action.succeeds_lift
  apply Window.ends_awaits hwindow h host.services register hready
  exact Action.succeeds_pure hpost

/-- The first sample of a poll decides it if it shows an error or is finished. -/
theorem ends_poll (hwindow : host.window.OnBench) (h : platform.device.Answers)
    {finished : UInt32 → Bool} {polls : Nat} (hpolls : 0 < polls)
    (hdecided : hasAny (platform.device.registers.held .rawInterrupt) RawInterrupt.errors = true
      ∨ finished (platform.device.registers.held .rawInterrupt) = true)
    {post : Poll → Bench.Platform → Prop}
    (hpost : post (if hasAny (platform.device.registers.held .rawInterrupt) RawInterrupt.errors
      then .failed (platform.device.registers.held .rawInterrupt) else .finished) platform) :
    (host.poll finished polls : Prog σ Poll).Ends (Bench.machineWith allocator) platform post := by
  obtain ⟨polls, rfl⟩ : ∃ before, polls = before + 1 := ⟨polls - 1, by omega⟩
  apply Prog.Ends.step
  apply Window.ends_read hwindow h
  by_cases herror : hasAny (platform.device.registers.held .rawInterrupt)
      RawInterrupt.errors = true
  · rw [if_pos herror] at hpost ⊢
    exact Prog.ends_done hpost
  · have hfinished := hdecided.resolve_left herror
    rw [if_neg herror] at hpost ⊢
    rw [if_pos hfinished]
    exact Prog.ends_done hpost

end Host

end CardHost
