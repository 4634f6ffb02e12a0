import CardHost.Proofs.Bench.Moving

/-!
# Blocks to and from the card

The card as a byte array (`Card.contents`), and what the four commands that move blocks do to it
once their data phase runs on pages of its own: a write puts the caller's bytes over a range
(`ends_write`), a range that reaches behind the card is refused and nothing changes (`ends_short`),
and a read hands the range back (`ends_read`).

The byte count register has 32 bits, so a longer write moves what the register holds of its length.
-/

namespace CardHost

namespace Bench

/-- The byte array that a card stands for. -/
def Card.contents (card : Card) : List UInt8 :=
  card.bytes.read 0 card.size

theorem Card.length_contents (card : Card) : card.contents.length = card.size :=
  Memory.length_read _ _ _

/-- A byte array with others put over it from an offset on. -/
def overwrite (bytes : List UInt8) (start : Nat) (source : List UInt8) : List UInt8 :=
  bytes.take start ++ source ++ bytes.drop (start + source.length)

theorem getElem_contents (card : Card) {i : Nat} (h : i < card.contents.length) :
    card.contents[i] = card.bytes.get i := by
  simp [Card.contents, Memory.read]

/-- A card that holds new bytes in a range and its old ones elsewhere was overwritten there. -/
theorem contents_eq_overwrite {card after : Card} {start : Nat} {source : List UInt8}
    (hfits : start + source.length ≤ card.size) (hblocks : after.blocks = card.blocks)
    (hget : ∀ i, after.bytes.get i =
      if start ≤ i ∧ i < start + source.length then source.getD (i - start) 0
      else card.bytes.get i) : after.contents = overwrite card.contents start source := by
  have hsize : after.size = card.size := by
    rw [Card.size, hblocks, Card.size]
  have hlength := card.length_contents
  have hafter := after.length_contents
  unfold overwrite
  apply List.ext_getElem
  · simp only [List.length_append, List.length_take, List.length_drop]
    omega
  · intro i hi hi'
    have hlt : i < card.contents.length := by omega
    rw [getElem_contents, hget]
    by_cases hfront : i < start
    · rw [if_neg (by omega), List.getElem_append_left (by simp; omega),
        List.getElem_append_left (by simp; omega), List.getElem_take, getElem_contents]
    · by_cases hback : i < start + source.length
      · have hin : i - start < source.length := by omega
        rw [if_pos (by omega), List.getElem_append_left (by simp; omega),
          List.getElem_append_right (by simp; omega)]
        simp only [List.getD_eq_getElem?_getD, List.getElem?_eq_getElem hin, Option.getD_some]
        congr 1
        simp only [List.length_take]
        omega
      · rw [if_neg (by omega), List.getElem_append_right (by simp; omega), List.getElem_drop,
          getElem_contents]
        congr 1
        simp only [List.length_append, List.length_take]
        omega

/-- A range inside the card reads as that part of the byte array. -/
theorem read_eq_contents {card : Card} {start count : Nat} (h : start + count ≤ card.size) :
    card.bytes.read start count = (card.contents.drop start).take count := by
  have hlength := card.length_contents
  apply List.ext_getElem
  · simp only [Memory.length_read, List.length_take, List.length_drop]
    omega
  · intro i hi hi'
    rw [List.getElem_take, List.getElem_drop, getElem_contents]
    simp [Memory.read]

/-! ## The commands that move blocks -/

/-- A word that starts a command which moves blocks in one direction. -/
structure Moves (word : CommandWord) (toCard : Bool) : Prop where
  isWrite : word.isWrite = toCard
  starts : Platform.starts Register.command.offset word.withStart.bits = true
  executes : ∀ bus : CardBus, bus.execute word.withStart.bits =
    bus.respondReady.moveBlocks (bus.registers.held .argument) toCard

theorem moves_write {index : UInt32} (h : index = 24 ∨ index = 25) (argument : UInt32) :
    Moves (.ofCommand index argument) true := by
  -- The word does not depend on the argument.
  have hword : CommandWord.ofCommand index argument = CommandWord.ofCommand index 0 := by
    rcases h with rfl | rfl
    · rfl
    · rfl
  rw [hword]
  rcases h with rfl | rfl
  · exact ⟨by decide, by decide, fun bus => CardBus.execute_move (show _ = 24 by decide)
      (by decide) (by decide)⟩
  · exact ⟨by decide, by decide, fun bus => CardBus.execute_move (show _ = 25 by decide)
      (by decide) (by decide)⟩

theorem moves_read {index : UInt32} (h : index = 17 ∨ index = 18) (argument : UInt32) :
    Moves (.ofCommand index argument) false := by
  have hword : CommandWord.ofCommand index argument = CommandWord.ofCommand index 0 := by
    rcases h with rfl | rfl
    · rfl
    · rfl
  rw [hword]
  rcases h with rfl | rfl
  · exact ⟨by decide, by decide, fun bus => CardBus.execute_move (show _ = 17 by decide)
      (by decide) (by decide)⟩
  · exact ⟨by decide, by decide, fun bus => CardBus.execute_move (show _ = 18 by decide)
      (by decide) (by decide)⟩

/-- A platform after a data phase: it answers, no page was allocated or freed, the engine reaches as
far as before, and the card stands for a byte array. -/
structure Platform.Carried (before : Platform) (bytes : List UInt8) (after : Platform) : Prop where
  answers : after.device.Answers
  pages : after.device.pages = before.device.pages
  reach : after.device.reach = before.device.reach
  card : ∃ card, after.device.card = some card ∧ card.contents = bytes

end Bench

namespace Host

variable {allocator : Bench.Allocator} {host : Host} {platform : Bench.Platform}
  {card : Bench.Card} {ring : Ring} {length : Nat} {pages : Pages} {latch : Latch}

/-- The staging pages still hold the data to send when the card looks at them. -/
theorem Equipped.get_prepared (h : host.Equipped ring pages length platform card)
    (source : List UInt8) (hsource : length ≤ source.length) {i : Nat} (hi : i < length) :
    (host.prepared ring pages length (.outgoing source) platform).memory.get
      (pages.address.toNat + i) = source.getD i 0 := by
  have hlaid := ring.lay_sameOutside 0 (ring.chain (host.split length) pages.address
    host.config.segmentSize.toNat) (staged pages length (.outgoing source) platform.memory)
  have hroom := h.pageRoom
  have hapart := h.apart
  rw [ring.chain_length, Nat.zero_add, ring.place_zero] at hlaid
  have hget := hlaid (pages.address.toNat + i) (by omega)
  have hlt : i < source.length := by omega
  have hfront : i < (source.take length).length := by
    rw [List.length_take]
    omega
  refine hget.trans ?_
  rw [staged, Memory.get_write, if_pos (Nat.le_add_right _ _), Nat.add_sub_cancel_left,
    List.getD_eq_getElem?_getD, List.getElem?_append_left hfront, List.getElem?_take_of_lt hi,
    List.getD_eq_getElem?_getD, List.getElem?_eq_getElem hlt]
  rfl

/-- What the card finds of a transfer of this host. -/
def onBus (host : Host) (ring : Ring) (pages : Pages) (length : Nat) (buffer : DataBuffer)
    (latch : Latch) (platform : Bench.Platform) (card : Bench.Card) : Bench.CardBus :=
  (host.prepared ring pages length buffer platform).busFor card latch.word latch.argument

theorem Equipped.execute_eq (h : host.Equipped ring pages length platform card)
    (buffer : DataBuffer) {toCard : Bool} (hmoves : Bench.Moves latch.word toCard) :
    (host.onBus ring pages length buffer latch platform card).execute latch.word.withStart.bits =
      (host.onBus ring pages length buffer latch platform card).respondReady.moveBlocks
        latch.argument toCard
      ∧ (host.onBus ring pages length buffer latch platform card).respondReady.Armed ring
        pages.address length host.config.segmentSize.toNat host.config.blockSize.toNat
        (length % UInt32.size) := by
  have hargument : (host.onBus ring pages length buffer latch platform card).registers.held
      .argument = latch.argument := prepared_argument host
  constructor
  · rw [hmoves.executes, hargument]
  · exact (h.busFor_armed buffer).respondReady

/-- Where an issued transfer leaves the bench, from what the card made of it. -/
theorem Equipped.carried (h : host.Equipped ring pages length platform card) {buffer : DataBuffer}
    {bytes : List UInt8}
    (hbytes : ((host.onBus ring pages length buffer latch platform card).execute
      latch.word.withStart.bits).2.card.contents = bytes) :
    platform.Carried bytes
      ((host.prepared ring pages length buffer platform).issued latch.word latch.argument) := by
  obtain ⟨hanswers, -, hafter, -, hpages, hreach⟩ := Bench.Platform.issued_spec
    (h.prepared_answers buffer) h.card latch.word latch.argument
  exact ⟨hanswers, hpages, hreach, _, hafter, hbytes⟩

/-- A write inside the card puts the caller's bytes over the range of its argument. -/
theorem Equipped.ends_write (h : host.Equipped ring pages length platform card)
    (hmoves : Bench.Moves latch.word true) {source : List UInt8} (hsource : length ≤ source.length)
    (hfits : latch.argument.toNat * Bench.blockBytes + length % UInt32.size ≤ card.size) :
    (host.moveThrough ring latch length (.outgoing source) pages :
        Action σ (List UInt8)).run.Ends (Bench.machineWith allocator) platform fun outcome after =>
      outcome = .ok []
        ∧ platform.Carried (Bench.overwrite card.contents
          (latch.argument.toNat * Bench.blockBytes) (source.take (length % UInt32.size)))
          after := by
  obtain ⟨hexecute, harmed⟩ := h.execute_eq (.outgoing source) hmoves
  obtain ⟨hbits, hblocks, hget⟩ := harmed.moveBlocks_toCard hfits
  rw [← hexecute] at hbits hblocks hget
  have hle := Nat.mod_le length UInt32.size
  have hcount : (source.take (length % UInt32.size)).length = length % UInt32.size := by
    rw [List.length_take]
    omega
  refine (h.ends_moveThrough hmoves.starts hbits).mono fun outcome after hafter => ?_
  obtain ⟨rfl, rfl⟩ := hafter
  refine ⟨rfl, h.carried ?_⟩
  refine Bench.contents_eq_overwrite ?_ hblocks fun i => ?_
  · rw [hcount]
    exact hfits
  · rw [hcount]
    refine (hget i).trans ?_
    split
    · have hi : i - latch.argument.toNat * Bench.blockBytes < length % UInt32.size := by omega
      rw [List.getD_eq_getElem?_getD, List.getElem?_take_of_lt hi, ← List.getD_eq_getElem?_getD]
      exact h.get_prepared source hsource (by omega)
    · rfl

/-- A range that reaches behind the card is refused, and the card stays as it is. -/
theorem Equipped.ends_short (h : host.Equipped ring pages length platform card)
    {toCard : Bool} (hmoves : Bench.Moves latch.word toCard) (buffer : DataBuffer)
    (hshort : card.size < latch.argument.toNat * Bench.blockBytes + length % UInt32.size) :
    (host.moveThrough ring latch length buffer pages : Action σ (List UInt8)).run.Ends
        (Bench.machineWith allocator) platform fun outcome after =>
      outcome = .error .deviceError ∧ platform.Carried card.contents after := by
  obtain ⟨hexecute, harmed⟩ := h.execute_eq buffer hmoves
  obtain ⟨hbits, hcard⟩ := Bench.CardBus.moveBlocks_short harmed.aimed.count hshort toCard
  rw [← hexecute] at hbits hcard
  refine (h.ends_moveThrough_short hmoves.starts hbits).mono fun outcome after hafter => ?_
  obtain ⟨rfl, rfl⟩ := hafter
  exact ⟨rfl, h.carried (congrArg Bench.Card.contents hcard)⟩

/-- A read inside the card hands back the range of its argument. -/
theorem Equipped.ends_read (h : host.Equipped ring pages length platform card)
    (hmoves : Bench.Moves latch.word false) (room : Nat) (hlength : length < UInt32.size)
    (hfits : latch.argument.toNat * Bench.blockBytes + length ≤ card.size) :
    (host.moveThrough ring latch length (.incoming room) pages :
        Action σ (List UInt8)).run.Ends (Bench.machineWith allocator) platform fun outcome after =>
      outcome = .ok ((card.contents.drop (latch.argument.toNat * Bench.blockBytes)).take length)
        ∧ platform.Carried card.contents after := by
  obtain ⟨hexecute, harmed⟩ := h.execute_eq (.incoming room) hmoves
  rw [Nat.mod_eq_of_lt hlength] at harmed
  obtain ⟨hbits, hread⟩ := harmed.moveBlocks_fromCard hfits
  have hcard := (host.onBus ring pages length (.incoming room) latch platform
    card).respondReady.moveBlocks_fromCard_card latch.argument
  rw [← hexecute] at hbits hread hcard
  refine (h.ends_moveThrough hmoves.starts hbits).mono fun outcome after hafter => ?_
  obtain ⟨rfl, rfl⟩ := hafter
  refine ⟨?_, h.carried (congrArg Bench.Card.contents hcard)⟩
  obtain ⟨-, -, -, hmemory, -⟩ := Bench.Platform.issued_spec
    (h.prepared_answers (.incoming room)) h.card latch.word latch.argument
  show Except.ok (Memory.read _ _ _) = _
  rw [hmemory]
  exact congrArg Except.ok (hread.trans (Bench.read_eq_contents hfits))

end Host

end CardHost
