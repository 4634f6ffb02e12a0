import CardHost.Proofs.Bench.Answering
import CardHost.Proofs.Bench.Chain

/-!
# Issuing a command to the card of the bench

What the card does with a command (`CardBus.execute`) shows in the response registers and in the raw
interrupt status only, so a bench that answers goes on answering.  A command that moves blocks does
so through the chain laid for it if the DMA engine was set up for that chain (`CardBus.Aimed`):
`moveBlocks_toCard` and `moveBlocks_fromCard` give every byte afterwards, `moveBlocks_short` the
refusal of a range behind the end of the card.

`ends_issue` follows the driver through all handshakes of a command up to the poll of its status,
and `issued_spec` says where that leaves the bench.
-/

namespace CardHost

namespace Bench

namespace CardBus

variable {bus : CardBus}

/-! ## Registers and commands -/

theorem transfer_registers (length : Nat)
    (move : List (Nat × Nat) → Memory → Card → Memory × Card) :
    (bus.transfer length move).2.registers = bus.registers := by
  unfold transfer
  split
  · dsimp only
    split
    · rfl
    · rfl
  · rfl

theorem moveBlocks_registers (argument : UInt32) (toCard : Bool) :
    (bus.moveBlocks argument toCard).2.registers = bus.registers := by
  unfold moveBlocks
  dsimp only
  split
  · rfl
  · exact transfer_registers _ _

/-- Of the registers, a command changes only the response. -/
theorem execute_registers (word : UInt32) :
    ∃ r0 r1 r2 r3, (bus.execute word).2.registers = bus.registers.respond r0 r1 r2 r3 := by
  unfold execute
  dsimp only
  split
  · exact ⟨_, _, _, _, rfl⟩
  · exact ⟨_, _, _, _, rfl⟩
  · exact ⟨_, _, _, _, rfl⟩
  · exact ⟨_, _, _, _, transfer_registers _ _⟩
  · exact ⟨_, _, _, _, moveBlocks_registers _ _⟩
  · exact ⟨_, _, _, _, moveBlocks_registers _ _⟩
  · exact ⟨_, _, _, _, moveBlocks_registers _ _⟩
  · exact ⟨_, _, _, _, moveBlocks_registers _ _⟩
  · exact ⟨_, _, _, _, rfl⟩

theorem execute_held (word : UInt32) {register : Register} (h : register ∉ Register.responses) :
    (bus.execute word).2.registers.held register = bus.registers.held register := by
  obtain ⟨r0, r1, r2, r3, heq⟩ := bus.execute_registers word
  rw [heq, RegisterFile.held_respond _ _ _ _ _ h]

theorem execute_undisturbed (word : UInt32) (h : bus.registers.Undisturbed) :
    (bus.execute word).2.registers.Undisturbed := by
  obtain ⟨r0, r1, r2, r3, heq⟩ := bus.execute_registers word
  rw [heq]
  exact (((h.poke _ _).poke _ _).poke _ _).poke _ _

/-- A transfer that leaves the card alone. -/
theorem transfer_card {length : Nat} {move : List (Nat × Nat) → Memory → Card → Memory × Card}
    (hmove : ∀ buffers memory card, (move buffers memory card).2 = card) :
    (bus.transfer length move).2.card = bus.card := by
  unfold transfer
  split
  · dsimp only
    split
    · rfl
    · exact hmove _ _ _
  · rfl

theorem moveBlocks_fromCard_card (argument : UInt32) :
    (bus.moveBlocks argument false).2.card = bus.card := by
  unfold moveBlocks
  dsimp only
  split
  · rfl
  · exact transfer_card fun _ _ _ => rfl

/-- The commands that move blocks. -/
def blockCommands : List Nat := [17, 18, 24, 25]

/-- A command that moves blocks does so in the direction its word gives. -/
theorem execute_move {word : UInt32} {index : Nat}
    (hindex : (word &&& CommandIndex.mask).toNat = index) (hmoves : index ∈ blockCommands)
    (hdata : hasAll word CommandFlags.dataExpected = true) :
    bus.execute word = bus.respondReady.moveBlocks (bus.registers.held .argument)
      (hasAll word CommandFlags.toCard) := by
  simp only [blockCommands, List.mem_cons, List.not_mem_nil, or_false] at hmoves
  unfold execute
  rw [hindex, hdata]
  rcases hmoves with rfl | rfl | rfl | rfl
  · rfl
  · rfl
  · rfl
  · rfl

/-- Only a command that moves data to the card changes the card. -/
theorem execute_card {word : UInt32} (h : hasAll word CommandFlags.dataExpected = false
    ∨ hasAll word CommandFlags.toCard = false) : (bus.execute word).2.card = bus.card := by
  unfold execute
  dsimp only
  cases hdata : hasAll word CommandFlags.dataExpected with
  | false =>
      split
      · rfl
      · rfl
      · rfl
      · contradiction
      · contradiction
      · contradiction
      · contradiction
      · contradiction
      · rfl
  | true =>
      have hread : hasAll word CommandFlags.toCard = false := by
        rcases h with h | h
        · rw [hdata] at h
          cases h
        · exact h
      rw [hread]
      split
      · rfl
      · rfl
      · rfl
      · exact transfer_card fun _ _ _ => rfl
      · exact moveBlocks_fromCard_card _
      · exact moveBlocks_fromCard_card _
      · exact moveBlocks_fromCard_card _
      · exact moveBlocks_fromCard_card _
      · rfl

/-! ## Moving blocks -/

/-- The DMA engine is enabled on a ring and set to a byte count. -/
structure Aimed (bus : CardBus) (ring : Ring) (count : Nat) : Prop where
  ready : bus.dmaReady = true
  list : bus.listAddress = ring.base.toNat
  count : (bus.registers.held .byteCount).toNat = count

theorem Aimed.respondReady {ring : Ring} {count : Nat} (h : bus.Aimed ring count) :
    bus.respondReady.Aimed ring count := by
  have hheld (register : Register) (hresponse : register ∉ Register.responses) :
      bus.respondReady.registers.held register = bus.registers.held register :=
    RegisterFile.held_respond _ _ _ _ _ hresponse
  have hcontrol := hheld .control (by decide)
  have hmode := hheld .busMode (by decide)
  have hlow := hheld .listLow (by decide)
  have hhigh := hheld .listHigh (by decide)
  have hcount := hheld .byteCount (by decide)
  refine ⟨?_, ?_, ?_⟩
  · rw [dmaReady, hcontrol, hmode]
    exact h.ready
  · rw [listAddress, hlow, hhigh]
    exact h.list
  · rw [hcount]
    exact h.count

/-- Everything a transfer of `count` bytes depends on: the engine aimed at the ring, the chain laid
in it, and the buffer apart from it. -/
structure Armed (bus : CardBus) (ring : Ring) (buffer : UInt64) (length segment block count : Nat) :
    Prop where
  aimed : bus.Aimed ring count
  traversable : Traversable bus.reach ring buffer length segment block
  chained : Chained ring (Geometry.ofLength length segment block) buffer segment 0 bus.memory
  steps : (Geometry.ofLength length segment block).segments ≤ walkSteps
  countLe : count ≤ length
  apart : ring.place (Geometry.ofLength length segment block).segments ≤ buffer.toNat
    ∨ buffer.toNat + length ≤ ring.base.toNat

section Move

variable {ring : Ring} {buffer : UInt64} {length segment block count : Nat}

theorem Armed.respondReady (h : bus.Armed ring buffer length segment block count) :
    bus.respondReady.Armed ring buffer length segment block count :=
  ⟨h.aimed.respondReady, h.traversable, h.chained, h.steps, h.countLe, h.apart⟩

/-- The chain covers the transfer, whatever is done with the buffers found. -/
theorem Armed.transfer_eq (h : bus.Armed ring buffer length segment block count)
    (move : List (Nat × Nat) → Memory → Card → Memory × Card) :
    ∃ buffers memory, Contiguous buffer.toNat count buffers
      ∧ (∀ i < length, memory.get (buffer.toNat + i) = bus.memory.get (buffer.toNat + i))
      ∧ (bus.transfer count move).1 = transferDone
      ∧ (bus.transfer count move).2.memory = (move buffers memory bus.card).1
      ∧ (bus.transfer count move).2.card = (move buffers memory bus.card).2 := by
  have hsegments := Geometry.segments_pos h.traversable.lengthPos h.traversable.segmentPos block
  have hsteps := h.steps
  have hcount := h.countLe
  obtain ⟨buffers, hbuffers, hcontiguous, hsame⟩ := walk_chain h.traversable h.chained hsegments
    (show _ ≤ 0 + walkSteps by omega) (show count + 0 * segment ≤ length by omega)
  rw [ring.place_zero] at hbuffers hsame
  rw [Nat.zero_mul, Nat.add_zero] at hcontiguous
  refine ⟨buffers, (walk bus.reach walkSteps bus.memory ring.base.toNat count).memory,
    hcontiguous, ?_, ?_⟩
  · intro i hi
    have hapart := h.apart
    exact hsame _ (by omega)
  · unfold transfer
    rw [if_pos h.aimed.ready, h.aimed.list]
    dsimp only
    rw [hbuffers]
    exact ⟨rfl, rfl, rfl⟩

/-- A range inside the card gets what the buffer holds, and nothing else on the card changes. -/
theorem Armed.moveBlocks_toCard (h : bus.Armed ring buffer length segment block count)
    {argument : UInt32} (hfits : argument.toNat * blockBytes + count ≤ bus.card.size) :
    (bus.moveBlocks argument true).1 = transferDone
      ∧ (bus.moveBlocks argument true).2.card.blocks = bus.card.blocks
      ∧ ∀ i, (bus.moveBlocks argument true).2.card.bytes.get i =
        if argument.toNat * blockBytes ≤ i ∧ i < argument.toNat * blockBytes + count
        then bus.memory.get (buffer.toNat + (i - argument.toNat * blockBytes))
        else bus.card.bytes.get i := by
  have hroom : ¬ bus.card.size < argument.toNat * blockBytes + count := Nat.not_lt.mpr hfits
  unfold moveBlocks
  dsimp only
  rw [h.aimed.count, if_neg hroom]
  obtain ⟨buffers, memory, hcontiguous, hsame, hbits, -, hcard⟩ := h.transfer_eq
    fun buffers memory card =>
      if true then (memory, Card.ofBuffers memory (argument.toNat * blockBytes) buffers card)
      else (card.toBuffers (argument.toNat * blockBytes) buffers memory, card)
  have hmoved : (bus.transfer count _).2.card =
      Card.ofBuffers memory (argument.toNat * blockBytes) buffers bus.card := hcard
  refine ⟨hbits, ?_, fun i => ?_⟩
  · rw [hmoved]
    exact (Card.get_ofBuffers hcontiguous bus.card).1
  · rw [hmoved, (Card.get_ofBuffers hcontiguous bus.card).2]
    split
    · have hcount := h.countLe
      rw [hsame _ (by omega)]
    · rfl

/-- The buffer gets a range inside the card. -/
theorem Armed.moveBlocks_fromCard (h : bus.Armed ring buffer length segment block count)
    {argument : UInt32} (hfits : argument.toNat * blockBytes + count ≤ bus.card.size) :
    (bus.moveBlocks argument false).1 = transferDone
      ∧ (bus.moveBlocks argument false).2.memory.read buffer.toNat count =
        bus.card.bytes.read (argument.toNat * blockBytes) count := by
  have hroom : ¬ bus.card.size < argument.toNat * blockBytes + count := Nat.not_lt.mpr hfits
  unfold moveBlocks
  dsimp only
  rw [h.aimed.count, if_neg hroom]
  obtain ⟨buffers, memory, hcontiguous, -, hbits, hmemory, -⟩ := h.transfer_eq
    fun buffers memory card =>
      if false then (memory, Card.ofBuffers memory (argument.toNat * blockBytes) buffers card)
      else (card.toBuffers (argument.toNat * blockBytes) buffers memory, card)
  refine ⟨hbits, ?_⟩
  rw [hmemory]
  show (bus.card.toBuffers (argument.toNat * blockBytes) buffers memory).read buffer.toNat count = _
  unfold Memory.read
  refine List.map_congr_left fun i hi => ?_
  have hlt : i < count := List.mem_range.mp hi
  rw [Card.get_toBuffers _ hcontiguous, if_pos (by omega), Nat.add_sub_cancel_left]

end Move

/-- A range that reaches behind the card is refused. -/
theorem moveBlocks_short {argument : UInt32} {count : Nat}
    (hcount : (bus.registers.held .byteCount).toNat = count)
    (hshort : bus.card.size < argument.toNat * blockBytes + count) (toCard : Bool) :
    (bus.moveBlocks argument toCard).1 = transferShort
      ∧ (bus.moveBlocks argument toCard).2.card = bus.card := by
  unfold moveBlocks
  dsimp only
  rw [hcount, if_pos hshort]
  exact ⟨rfl, rfl⟩

end CardBus

/-! ## A command on its way to the card -/

namespace Platform

/-- The bench as the card gets to see a command: pending status cleared, argument and command
written. -/
def commanded (platform : Platform) (word : CommandWord) (argument : UInt32) : Platform :=
  ((platform.mapRegisters (·.write Register.rawInterrupt.offset clearAll)).mapRegisters
    (·.write Register.argument.offset argument)).mapRegisters
      (·.write Register.command.offset word.withStart.bits)

/-- The bench once a command was taken over and the error sources are unmasked. -/
def issued (platform : Platform) (word : CommandWord) (argument : UInt32) : Platform :=
  ((platform.commanded word argument).start word.withStart.bits).mapRegisters
    (·.write Register.interruptMask.offset RawInterrupt.errorMask)

/-- What the card finds when a command is started. -/
def busFor (platform : Platform) (card : Card) (word : CommandWord) (argument : UInt32) :
    CardBus :=
  ⟨(platform.commanded word argument).device.registers, card, platform.memory,
    platform.device.reach, platform.device.segments⟩

variable {platform : Platform} {card : Card}

/-- A card on a bench that answers executes the command. -/
theorem start_eq (h : platform.device.Answers) (hcard : platform.device.card = some card)
    (word : UInt32) :
    (platform.start word) =
      let executed := CardBus.execute
        ⟨platform.device.registers, card, platform.memory, platform.device.reach,
          platform.device.segments⟩ word
      ⟨{ platform.device with
          registers := executed.2.registers.interrupt executed.1
          card := some executed.2.card
          segments := executed.2.segments
          commands := (word &&& CommandIndex.mask, platform.device.registers.held .argument)
            :: platform.device.commands },
        executed.2.memory⟩ := by
  obtain ⟨device, memory⟩ := platform
  have hcompletion : device.completion = .auto := h.completion
  have hcard' : device.card = some card := hcard
  simp only [start, hcompletion, hcard']

/-- A started command leaves the bench answering. -/
theorem start_answers (h : platform.device.Answers) (hcard : platform.device.card = some card)
    (word : UInt32) : (platform.start word).device.Answers := by
  rw [start_eq h hcard]
  generalize hexecuted : CardBus.execute
    ⟨platform.device.registers, card, platform.memory, platform.device.reach,
      platform.device.segments⟩ word = executed
  have hundisturbed : executed.2.registers.Undisturbed := by
    rw [← hexecuted]
    exact CardBus.execute_undisturbed word h.registers
  have hheld : executed.2.registers.held .status = platform.device.registers.held .status := by
    rw [← hexecuted]
    exact CardBus.execute_held word (by decide)
  have hstatus : (executed.2.registers.interrupt executed.1).held .status =
      platform.device.registers.held .status := by
    rw [RegisterFile.held_interrupt, if_neg (by decide), hheld]
  have hanswers := h.withRegisters (hundisturbed.poke _ _) hstatus
  exact ⟨hanswers.registers, hanswers.cardReady, hanswers.dataReady, h.completion, h.timers,
    h.armed⟩

/-- A command without data to the card leaves the card, and every command the pages and what the
engine reaches. -/
theorem start_card (h : platform.device.Answers) (hcard : platform.device.card = some card)
    {word : UInt32} (hspares : hasAll word CommandFlags.dataExpected = false
      ∨ hasAll word CommandFlags.toCard = false) :
    (platform.start word).device.card = some card
      ∧ (platform.start word).device.pages = platform.device.pages
      ∧ (platform.start word).device.reach = platform.device.reach := by
  rw [start_eq h hcard]
  exact ⟨congrArg some (CardBus.execute_card hspares), rfl, rfl⟩

theorem commanded_answers (h : platform.device.Answers) (word : CommandWord) (argument : UInt32) :
    (platform.commanded word argument).device.Answers := by
  have hcleared := h.write (show Register.rawInterrupt ≠ .status by decide) clearAll
  have haddressed := hcleared.write (show Register.argument ≠ .status by decide) argument
  exact haddressed.write (show Register.command ≠ .status by decide) word.withStart.bits

/-- Nothing is pending when a command is started. -/
theorem commanded_raw (platform : Platform) (word : CommandWord) (argument : UInt32) :
    (platform.commanded word argument).device.registers.held .rawInterrupt = 0 := by
  have hzero : platform.device.registers.stored Register.rawInterrupt.offset clearAll = 0 := by
    rw [RegisterFile.stored, if_pos rfl]
    exact without_all _
  show (((platform.device.registers.write Register.rawInterrupt.offset clearAll).write
    Register.argument.offset argument).write Register.command.offset
      word.withStart.bits).held .rawInterrupt = 0
  rw [RegisterFile.held_write, if_neg (by decide), RegisterFile.held_write, if_neg (by decide),
    RegisterFile.held_write, if_pos rfl, hzero]

/-- The controller takes the start bit back as the command is written. -/
theorem started_taken (h : platform.device.Answers) (hcard : platform.device.card = some card)
    (word : CommandWord) (argument : UInt32) :
    hasAny (((platform.commanded word argument).start word.withStart.bits).device.registers.held
      .command) CommandFlags.start = false := by
  rw [start_eq (commanded_answers h word argument) hcard]
  show hasAny ((RegisterFile.interrupt _ _).held .command) CommandFlags.start = false
  rw [RegisterFile.held_interrupt, if_neg (by decide), CardBus.execute_held _ (by decide)]
  show hasAny ((RegisterFile.write _ Register.command.offset word.withStart.bits).held
    .command) CommandFlags.start = false
  rw [RegisterFile.held_write, if_pos rfl]
  exact hasAny_without _ _

/-- Where an issued command leaves the bench: it answers as before, the raw interrupt status holds
what the card raised and nothing else, and card and memory are what the card made of them. -/
theorem issued_spec (h : platform.device.Answers) (hcard : platform.device.card = some card)
    (word : CommandWord) (argument : UInt32) :
    (platform.issued word argument).device.Answers
      ∧ (platform.issued word argument).device.registers.held .rawInterrupt =
        ((platform.busFor card word argument).execute word.withStart.bits).1
      ∧ (platform.issued word argument).device.card =
        some ((platform.busFor card word argument).execute word.withStart.bits).2.card
      ∧ (platform.issued word argument).memory =
        ((platform.busFor card word argument).execute word.withStart.bits).2.memory
      ∧ (platform.issued word argument).device.pages = platform.device.pages
      ∧ (platform.issued word argument).device.reach = platform.device.reach := by
  have hcommanded := commanded_answers h word argument
  have hstarted := start_answers hcommanded hcard word.withStart.bits
  have heq := start_eq hcommanded hcard word.withStart.bits
  have hraw : (platform.busFor card word argument).registers.held .rawInterrupt = 0 :=
    commanded_raw platform word argument
  refine ⟨hstarted.write (show Register.interruptMask ≠ .status by decide) _, ?_, ?_, ?_, ?_, ?_⟩
  · rw [issued, heq]
    show (RegisterFile.write _ _ _).held .rawInterrupt = _
    rw [RegisterFile.held_write, if_neg (by decide)]
    show (RegisterFile.interrupt _ _).held .rawInterrupt = _
    rw [RegisterFile.held_interrupt, if_pos rfl]
    show (((platform.busFor card word argument).execute word.withStart.bits).2.registers.held
      .rawInterrupt) ||| _ = _
    rw [CardBus.execute_held _ (by decide), hraw, UInt32.zero_or]
    rfl
  · rw [issued, heq]
    rfl
  · rw [issued, heq]
    rfl
  · rw [issued, heq]
    rfl
  · rw [issued, heq]
    rfl

end Platform

end Bench

/-! ## The driver's side -/

namespace Host

variable {allocator : Bench.Allocator} {host : Host} {platform : Bench.Platform}
  {card : Bench.Card} {word : CommandWord} {argument : UInt32}

/-- A command that starts is handed to the card and taken over; what is left is to poll. -/
theorem ends_issue (hwindow : host.window.OnBench) (h : platform.device.Answers)
    (hcard : platform.device.card = some card)
    (hstarts : Bench.Platform.starts Register.command.offset word.withStart.bits = true)
    {post : Except HostError Unit → Bench.Platform → Prop}
    (hpoll : (host.awaitCommand word : Action σ Unit).run.Ends (Bench.machineWith allocator)
      (platform.issued word argument) post) :
    (host.issue word argument : Action σ Unit).run.Ends (Bench.machineWith allocator) platform
      post := by
  have hcommanded := Bench.Platform.commanded_answers h word argument
  have hstarted := Bench.Platform.start_answers hcommanded hcard word.withStart.bits
  have htaken := Bench.Platform.started_taken h hcard word argument
  apply Action.Succeeds.ends_step
  apply Action.succeeds_lift
  apply Prog.ends_log
  apply Action.Succeeds.ends_step
  apply succeeds_awaitClear hwindow h h.dataReady
  apply Action.Succeeds.ends_step
  apply Action.succeeds_lift
  apply Window.ends_write hwindow h (show Register.rawInterrupt ≠ .status by decide) (by decide)
  intro hcleared
  apply Action.Succeeds.ends_step
  apply Action.Succeeds.step
  apply Action.succeeds_lift
  apply Window.ends_write hwindow hcleared (show Register.argument ≠ .status by decide) (by decide)
  intro haddressed
  apply Action.Succeeds.step
  apply succeeds_awaitClear hwindow haddressed haddressed.cardReady
  apply Action.Succeeds.step
  apply Action.succeeds_lift
  apply Window.ends_writeStart hwindow haddressed hstarts
  apply succeeds_awaitClear hwindow hstarted htaken
  apply Action.Succeeds.ends_step
  apply Action.succeeds_lift
  apply Window.ends_write hwindow hstarted (show Register.interruptMask ≠ .status by decide)
    (by decide)
  intro _
  exact hpoll

/-- A command whose status shows no error and an end has completed. -/
theorem ends_awaitCommand (hwindow : host.window.OnBench) (h : platform.device.Answers)
    (hpolls : 0 < host.config.commandPolls)
    (hfinished : commandFinished (platform.device.registers.held .rawInterrupt) = true)
    {post : Except HostError Unit → Bench.Platform → Prop}
    (hpost : post (if hasAny (platform.device.registers.held .rawInterrupt) RawInterrupt.errors
      then .error .deviceError else .ok ()) platform) :
    (host.awaitCommand word : Action σ Unit).run.Ends (Bench.machineWith allocator) platform
      post := by
  apply Action.Succeeds.ends_step
  apply Action.succeeds_lift
  apply ends_poll hwindow h hpolls (.inr hfinished)
  by_cases herror : hasAny (platform.device.registers.held .rawInterrupt)
      RawInterrupt.errors = true
  · rw [if_pos herror] at hpost ⊢
    apply Action.Succeeds.ends_step
    apply Action.succeeds_lift
    apply Prog.ends_log
    exact Prog.ends_done hpost
  · rw [if_neg herror] at hpost ⊢
    exact Prog.ends_done hpost

/-- A data phase whose status shows no error and the end of the transfer has completed. -/
theorem succeeds_awaitData (hwindow : host.window.OnBench) (h : platform.device.Answers)
    (hpolls : 0 < host.config.dataPolls)
    (hclean : hasAny (platform.device.registers.held .rawInterrupt) RawInterrupt.errors = false)
    (hfinished : dataFinished (platform.device.registers.held .rawInterrupt) = true)
    {post : Unit → Bench.Platform → Prop} (hpost : post () platform) :
    (host.awaitData : Action σ Unit).Succeeds (Bench.machineWith allocator) platform post := by
  apply Action.Succeeds.step
  apply Action.succeeds_lift
  apply ends_poll hwindow h hpolls (.inr hfinished)
  rw [hclean]
  exact Action.succeeds_pure hpost

end Host

end CardHost
