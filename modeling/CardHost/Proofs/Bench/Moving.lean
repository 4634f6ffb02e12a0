import CardHost.Proofs.Bench.Issuing
import CardHost.Proofs.Engine

/-!
# A data phase on the bench

From a bench that answers, a data phase reaches the card with the DMA engine aimed at the chain it
laid (`busFor_armed`), and what the card makes of it decides the rest: `ends_moveThrough` if it
completes the transfer, `ends_moveThrough_short` if it refuses it.
-/

namespace CardHost

namespace Bench

/-! ## Setting up the DMA engine -/

namespace RegisterFile

variable (file : RegisterFile)

/-- The registers with the engine pointed at a ring and reset. -/
def aimed (ring : Ring) : RegisterFile :=
  let listed := (file.write Register.listLow.offset (Bytes.lowHalf ring.base)).write
    Register.listHigh.offset (Bytes.highHalf ring.base)
  listed.write Register.busMode.offset (listed.held .busMode ||| BusMode.softReset)

/-- The registers with the engine enabled for a transfer. -/
def enabled (length block : Nat) : RegisterFile :=
  let controlled := file.write Register.control.offset
    (file.held .control ||| (Control.interruptEnable ||| Control.internalDma))
  let running := controlled.write Register.busMode.offset
    (controlled.held .busMode ||| BusMode.enable)
  (running.write Register.blockSize.offset (UInt32.ofNat block)).write Register.byteCount.offset
    (UInt32.ofNat length)

/-- The registers as a command finds them. -/
def commanded (word : CommandWord) (argument : UInt32) : RegisterFile :=
  ((file.write Register.rawInterrupt.offset clearAll).write Register.argument.offset
    argument).write Register.command.offset word.withStart.bits

variable {file} {word : CommandWord} {argument : UInt32} {length block : Nat} {ring : Ring}

/-- Issuing a command leaves the engine alone. -/
theorem held_commanded {register : Register} (hraw : register ≠ .rawInterrupt)
    (hargument : register ≠ .argument) (hcommand : register ≠ .command) :
    (file.commanded word argument).held register = file.held register := by
  rw [commanded, held_write, if_neg hcommand, held_write, if_neg hargument, held_write, if_neg hraw]

theorem held_commanded_argument : (file.commanded word argument).held .argument = argument := by
  rw [commanded, held_write, if_neg (by decide), held_write, if_pos rfl,
    stored_eq _ (by decide)]

/-- The control register enables the internal engine. -/
theorem enabled_control :
    hasAll ((file.enabled length block).held .control) Control.internalDma = true := by
  simp only [enabled, held_write, reduceCtorEq, if_false, if_true]
  have hstored (old : RegisterFile) (value : UInt32) :
      old.stored Register.control.offset value =
        without value (Control.controllerReset ||| Control.fifoReset ||| Control.dmaReset) := by
    rw [stored, if_neg (by decide), if_pos rfl]
  rw [hstored, hasAll_without (by decide)]
  exact hasAll_or (by decide) _

/-- The bus mode register enables the engine. -/
theorem enabled_busMode :
    hasAll ((file.enabled length block).held .busMode) BusMode.enable = true := by
  simp only [enabled, held_write, reduceCtorEq, if_false, if_true]
  have hstored (old : RegisterFile) (value : UInt32) :
      old.stored Register.busMode.offset value = without value BusMode.softReset := by
    rw [stored, if_neg (by decide), if_neg (by decide), if_pos rfl]
  rw [hstored, hasAll_without (by decide)]
  exact hasAll_or (by decide) _

theorem enabled_byteCount : (file.enabled length block).held .byteCount = UInt32.ofNat length := by
  rw [enabled, held_write, if_pos rfl, stored_eq _ (by decide)]

theorem enabled_listLow :
    ((file.aimed ring).enabled length block).held .listLow = Bytes.lowHalf ring.base := by
  simp only [enabled, aimed, held_write, reduceCtorEq, if_false, if_true]
  exact stored_eq _ (by decide) _

theorem enabled_listHigh :
    ((file.aimed ring).enabled length block).held .listHigh = Bytes.highHalf ring.base := by
  simp only [enabled, aimed, held_write, reduceCtorEq, if_false, if_true]
  exact stored_eq _ (by decide) _

end RegisterFile

/-- A bench that answers still does once the engine was aimed. -/
theorem Device.Answers.aimed {platform : Platform} (h : platform.device.Answers) (ring : Ring) :
    (platform.mapRegisters (·.aimed ring)).device.Answers := by
  have hlow := h.write (show Register.listLow ≠ .status by decide) (Bytes.lowHalf ring.base)
  have hhigh := hlow.write (show Register.listHigh ≠ .status by decide) (Bytes.highHalf ring.base)
  exact hhigh.write (show Register.busMode ≠ .status by decide) _

theorem Device.Answers.enabled {platform : Platform} (h : platform.device.Answers)
    (length block : Nat) : (platform.mapRegisters (·.enabled length block)).device.Answers := by
  have hcontrol := h.write (show Register.control ≠ .status by decide)
    (platform.device.registers.held .control
      ||| (Control.interruptEnable ||| Control.internalDma))
  have hmode := hcontrol.write (show Register.busMode ≠ .status by decide)
    ((platform.device.registers.write Register.control.offset
      (platform.device.registers.held .control
        ||| (Control.interruptEnable ||| Control.internalDma))).held .busMode ||| BusMode.enable)
  have hblock := hmode.write (show Register.blockSize ≠ .status by decide) (UInt32.ofNat block)
  exact hblock.write (show Register.byteCount ≠ .status by decide) (UInt32.ofNat length)

end Bench

namespace Ring

variable {allocator : Bench.Allocator} {window : Window} {platform : Bench.Platform}

theorem ends_program (hwindow : window.OnBench) (h : platform.device.Answers) (ring : Ring)
    {post : Unit → Bench.Platform → Prop}
    (hpost : post () (platform.mapRegisters (·.aimed ring))) :
    (ring.program window : Prog σ Unit).Ends (Bench.machineWith allocator) platform post := by
  apply Prog.Ends.step
  apply Window.ends_write hwindow h (show Register.listLow ≠ .status by decide) (by decide)
  intro hlow
  apply Prog.Ends.step
  apply Window.ends_write hwindow hlow (show Register.listHigh ≠ .status by decide) (by decide)
  intro hhigh
  apply Window.ends_setBits hwindow hhigh (show Register.busMode ≠ .status by decide) (by decide)
  intro _
  exact hpost

theorem ends_start (hwindow : window.OnBench) (h : platform.device.Answers) (length block : Nat)
    {post : Unit → Bench.Platform → Prop}
    (hpost : post () (platform.mapRegisters (·.enabled length block))) :
    (Ring.start window length block : Prog σ Unit).Ends (Bench.machineWith allocator) platform
      post := by
  apply Prog.Ends.step
  apply Window.ends_setBits hwindow h (show Register.control ≠ .status by decide) (by decide)
  intro hcontrol
  apply Prog.Ends.step
  apply Window.ends_setBits hwindow hcontrol (show Register.busMode ≠ .status by decide) (by decide)
  intro hmode
  apply Prog.Ends.step
  apply Window.ends_write hwindow hmode (show Register.blockSize ≠ .status by decide) (by decide)
  intro hblock
  apply Window.ends_write hwindow hblock (show Register.byteCount ≠ .status by decide) (by decide)
  intro _
  exact hpost

end Ring

namespace Host

variable {allocator : Bench.Allocator} {host : Host} {platform : Bench.Platform}
  {card : Bench.Card} {ring : Ring} {latch : Latch} {length : Nat} {buffer : DataBuffer}
  {pages : Pages}

/-- The memory with the data to send in the staging pages. -/
def staged (pages : Pages) (length : Nat) : DataBuffer → Memory → Memory
  | .incoming _, memory => memory
  | .outgoing bytes, memory =>
    memory.write pages.address.toNat
      (bytes.take length ++ List.replicate (pages.size - length) 0)

/-- The data that a phase hands back. -/
def arrived (pages : Pages) (length : Nat) : DataBuffer → Memory → List UInt8
  | .incoming _, memory => memory.read pages.address.toNat length
  | .outgoing _, _ => []

theorem ends_stage {machine : Machine ι} {before : Shared machine.State}
    {post : Unit → Shared machine.State → Prop}
    (hpost : post () ⟨before.device, staged pages length buffer before.memory⟩) :
    (stage pages length buffer : Prog σ Unit).Ends machine before post := by
  cases buffer with
  | incoming size => exact Prog.ends_done hpost
  | outgoing bytes => exact Prog.ends_store hpost

theorem ends_collect {machine : Machine ι} {before : Shared machine.State}
    {post : List UInt8 → Shared machine.State → Prop}
    (hpost : post (arrived pages length buffer before.memory) before) :
    (collect pages length buffer : Prog σ (List UInt8)).Ends machine before post := by
  cases buffer with
  | incoming size => exact Prog.ends_load hpost
  | outgoing bytes => exact Prog.ends_done hpost

/-- The bench with a transfer laid out in memory and the engine enabled for it. -/
def prepared (host : Host) (ring : Ring) (pages : Pages) (length : Nat) (buffer : DataBuffer)
    (platform : Bench.Platform) : Bench.Platform :=
  (Bench.Platform.mapRegisters ⟨platform.device,
    ring.lay 0 (ring.chain (host.split length) pages.address host.config.segmentSize.toNat)
      (staged pages length buffer platform.memory)⟩ (·.aimed ring)).mapRegisters
    (·.enabled length host.config.blockSize.toNat)

/-- What a data phase relies on: the bench answers and has a card, the transfer can be split, ring
and staging pages lie apart where the engine reaches them, the ring has room, and polls take at
least one sample. -/
structure Equipped (host : Host) (ring : Ring) (pages : Pages) (length : Nat)
    (platform : Bench.Platform) (card : Bench.Card) : Prop where
  window : host.window.OnBench
  commandPolls : 0 < host.config.commandPolls
  dataPolls : 0 < host.config.dataPolls
  answers : platform.device.Answers
  card : platform.device.card = some card
  traversable : Bench.Traversable platform.device.reach ring pages.address length
    host.config.segmentSize.toNat host.config.blockSize.toNat
  splits : Geometry.ofLength? length host.config.segmentSize.toNat host.config.blockSize.toNat =
    some (host.split length)
  room : (host.split length).segments ≤ ring.count
  steps : (host.split length).segments ≤ Bench.walkSteps
  apart : ring.place (host.split length).segments ≤ pages.address.toNat
    ∨ pages.address.toNat + pages.size ≤ ring.base.toNat
  pageRoom : length ≤ pages.size

/-- Laying out a transfer leaves the bench answering, with the card it had. -/
theorem Equipped.prepared_answers (h : host.Equipped ring pages length platform card)
    (buffer : DataBuffer) :
    (host.prepared ring pages length buffer platform).device.Answers := by
  have hlaid : (Shared.mk platform.device (ring.lay 0 (ring.chain (host.split length)
      pages.address host.config.segmentSize.toNat) (staged pages length buffer
      platform.memory))).device.Answers := h.answers
  exact (hlaid.aimed ring).enabled length host.config.blockSize.toNat

/-- The card finds the engine aimed at the chain of the transfer. -/
theorem Equipped.busFor_armed (h : host.Equipped ring pages length platform card)
    (buffer : DataBuffer) :
    ((host.prepared ring pages length buffer platform).busFor card latch.word
        latch.argument).Armed ring pages.address length host.config.segmentSize.toNat
      host.config.blockSize.toNat (length % UInt32.size) := by
  have hheld {register : Register} (hraw : register ≠ .rawInterrupt)
      (hargument : register ≠ .argument) (hcommand : register ≠ .command) :
      ((host.prepared ring pages length buffer platform).busFor card latch.word
        latch.argument).registers.held register =
      ((platform.device.registers.aimed ring).enabled length
        host.config.blockSize.toNat).held register :=
    Bench.RegisterFile.held_commanded hraw hargument hcommand
  have hcontrol := hheld (show Register.control ≠ _ by decide) (by decide) (by decide)
  have hmode := hheld (show Register.busMode ≠ _ by decide) (by decide) (by decide)
  have hlow := hheld (show Register.listLow ≠ _ by decide) (by decide) (by decide)
  have hhigh := hheld (show Register.listHigh ≠ _ by decide) (by decide) (by decide)
  have hcount := hheld (show Register.byteCount ≠ _ by decide) (by decide) (by decide)
  have hpageRoom := h.pageRoom
  have hapart := h.apart
  refine ⟨⟨?_, ?_, ?_⟩, h.traversable, h.traversable.chained_lay _ _ _, h.steps,
    Nat.mod_le _ _, ?_⟩
  · rw [Bench.CardBus.dmaReady, hcontrol, hmode, Bench.RegisterFile.enabled_control,
      Bench.RegisterFile.enabled_busMode, Bool.and_self]
  · rw [Bench.CardBus.listAddress, hlow, hhigh, Bench.RegisterFile.enabled_listLow,
      Bench.RegisterFile.enabled_listHigh, Bytes.join_halves]
  · rw [hcount, Bench.RegisterFile.enabled_byteCount]
    exact UInt32.toNat_ofNat'
  · unfold split at hapart
    omega

/-- The argument reaches the card. -/
theorem prepared_argument (host : Host) :
    ((host.prepared ring pages length buffer platform).busFor card latch.word
      latch.argument).registers.held .argument = latch.argument :=
  Bench.RegisterFile.held_commanded_argument

/-! ## Running the phase -/

/-- The command of the transfer is handed to the card, and the status that it raises decides. -/
theorem Equipped.ends_issue (h : host.Equipped ring pages length platform card)
    (hstarts : Bench.Platform.starts Register.command.offset latch.word.withStart.bits = true)
    {bits : UInt32}
    (hbits : (((host.prepared ring pages length buffer platform).busFor card latch.word
      latch.argument).execute latch.word.withStart.bits).1 = bits)
    (hfinished : commandFinished bits = true) :
    (host.issue latch.word latch.argument : Action σ Unit).run.Ends (Bench.machineWith allocator)
      (host.prepared ring pages length buffer platform) fun outcome after =>
        outcome = (if hasAny bits RawInterrupt.errors then .error .deviceError else .ok ())
        ∧ after = (host.prepared ring pages length buffer platform).issued latch.word
            latch.argument := by
  have hprepared := h.prepared_answers buffer
  have hcard : (host.prepared ring pages length buffer platform).device.card = some card := h.card
  obtain ⟨hissued, hraw, -⟩ := Bench.Platform.issued_spec hprepared hcard latch.word latch.argument
  rw [hbits] at hraw
  apply Host.ends_issue h.window hprepared hcard hstarts
  apply ends_awaitCommand h.window hissued h.commandPolls
  · rw [hraw]
    exact hfinished
  · rw [hraw]
    exact ⟨rfl, rfl⟩

/-- The transfer is laid out and handed to the card. -/
theorem Equipped.ends_launch (h : host.Equipped ring pages length platform card)
    (hstarts : Bench.Platform.starts Register.command.offset latch.word.withStart.bits = true)
    {bits : UInt32}
    (hbits : (((host.prepared ring pages length buffer platform).busFor card latch.word
      latch.argument).execute latch.word.withStart.bits).1 = bits)
    (hfinished : commandFinished bits = true) :
    (host.launch ring latch length buffer pages : Action σ Geometry).run.Ends
      (Bench.machineWith allocator) platform fun outcome after =>
        outcome = (if hasAny bits RawInterrupt.errors then .error .deviceError
          else .ok (host.split length))
        ∧ after = (host.prepared ring pages length buffer platform).issued latch.word
            latch.argument := by
  have hlaid : (Shared.mk platform.device (ring.lay 0 (ring.chain (host.split length)
      pages.address host.config.segmentSize.toNat) (staged pages length buffer
      platform.memory))).device.Answers := h.answers
  have hissue : (host.issue latch.word latch.argument : Action σ Unit).run.Ends
      (Bench.machineWith allocator) (host.prepared ring pages length buffer platform) _ :=
    h.ends_issue hstarts hbits hfinished
  unfold launch
  apply Action.Succeeds.ends_step
  apply Action.succeeds_lift
  apply ends_stage
  apply Action.Succeeds.ends_step
  apply Ring.succeeds_prepare h.traversable.lengthPos h.splits h.room h.traversable.chain?_eq
  apply Action.Succeeds.ends_step
  apply Action.succeeds_lift
  apply Ring.ends_program h.window hlaid ring
  apply Action.Succeeds.ends_step
  apply Action.succeeds_lift
  apply Ring.ends_start h.window (hlaid.aimed ring) length
  by_cases herror : hasAny bits RawInterrupt.errors = true
  · rw [if_pos herror]
    refine Action.ends_bind_error hissue fun outcome after hafter => ?_
    rw [if_pos herror] at hafter
    exact ⟨.deviceError, hafter.1, rfl, hafter.2⟩
  · rw [if_neg herror]
    have hsucceeds : (host.issue latch.word latch.argument : Action σ Unit).Succeeds
        (Bench.machineWith allocator) (host.prepared ring pages length buffer platform)
        fun _ after =>
          after = (host.prepared ring pages length buffer platform).issued latch.word
            latch.argument := by
      refine hissue.mono fun outcome after hafter => ?_
      rw [if_neg herror] at hafter
      exact ⟨(), hafter⟩
    refine hsucceeds.ends_bind fun _ after (hafter : after = _) => ?_
    exact Prog.ends_done ⟨rfl, hafter⟩

/-- A transfer that the card completes. -/
theorem Equipped.ends_moveThrough (h : host.Equipped ring pages length platform card)
    (hstarts : Bench.Platform.starts Register.command.offset latch.word.withStart.bits = true)
    (hbits : (((host.prepared ring pages length buffer platform).busFor card latch.word
      latch.argument).execute latch.word.withStart.bits).1 = Bench.transferDone) :
    (host.moveThrough ring latch length buffer pages : Action σ (List UInt8)).run.Ends
      (Bench.machineWith allocator) platform fun outcome after =>
        after = (host.prepared ring pages length buffer platform).issued latch.word latch.argument
        ∧ outcome = .ok (arrived pages length buffer after.memory) := by
  have hprepared := h.prepared_answers buffer
  have hcard : (host.prepared ring pages length buffer platform).device.card = some card := h.card
  obtain ⟨hissued, hraw, -⟩ := Bench.Platform.issued_spec hprepared hcard latch.word latch.argument
  rw [hbits] at hraw
  have hlaunch : (host.launch ring latch length buffer pages : Action σ Geometry).Succeeds
      (Bench.machineWith allocator) platform fun geometry after => after =
        (host.prepared ring pages length buffer platform).issued latch.word latch.argument := by
    refine (h.ends_launch hstarts hbits (by decide)).mono fun outcome after hafter => ?_
    rw [if_neg (by decide)] at hafter
    exact ⟨host.split length, hafter⟩
  rw [moveThrough_eq]
  refine hlaunch.ends_bind fun geometry after (hafter : after = _) => ?_
  subst hafter
  unfold conclude
  apply Action.Succeeds.ends_step
  apply succeeds_awaitData h.window hissued h.dataPolls
  · rw [hraw]
    decide
  · rw [hraw]
    decide
  apply Action.Succeeds.ends_step
  apply Action.succeeds_lift
  apply ends_collect
  apply Action.Succeeds.ends_step
  apply Action.succeeds_lift
  apply Prog.ends_log
  exact Prog.ends_done ⟨rfl, rfl⟩

/-- A transfer that the card refuses. -/
theorem Equipped.ends_moveThrough_short (h : host.Equipped ring pages length platform card)
    (hstarts : Bench.Platform.starts Register.command.offset latch.word.withStart.bits = true)
    (hbits : (((host.prepared ring pages length buffer platform).busFor card latch.word
      latch.argument).execute latch.word.withStart.bits).1 = Bench.transferShort) :
    (host.moveThrough ring latch length buffer pages : Action σ (List UInt8)).run.Ends
      (Bench.machineWith allocator) platform fun outcome after =>
        after = (host.prepared ring pages length buffer platform).issued latch.word latch.argument
        ∧ outcome = .error .deviceError := by
  rw [moveThrough_eq]
  refine Action.ends_bind_error (h.ends_launch hstarts hbits (by decide))
    fun outcome after hafter => ?_
  rw [if_pos (by decide)] at hafter
  exact ⟨.deviceError, hafter.1, hafter.2, rfl⟩

end Host

end CardHost
