import CardHost.Proofs.Bench.Answering
import CardHost.Proofs.Exposure
import CardHost.Proofs.Masks
import Mathlib.Data.Finset.Card
import Mathlib.Data.Finset.Range
import Mathlib.Data.Nat.Bitwise

/-!
# What a data command touches

A data command touches the descriptors that the card follows and the buffers that they name, and no
other memory (`execute_sameOn`).  Nothing is assumed of the chain, nor of where it lies: `followed`
lists what the card follows of whatever it finds, with the addresses where it finds it, and the list
is the one that the bench records by sizes (`segments_execute`).

A walk that goes round ends too.  Each step takes a descriptor away from the engine and gives it
none, so a walk has done with them before its steps are used up (`walk_walkSteps`).

Where the chain of a transfer stands in its ring, all that is followed are descriptors of the chain
(`mem_followed_chained`), so stale descriptors behind its end are never reached.
-/

namespace CardHost

theorem Memory.sameOn_write {region : Nat → Prop} (memory : Memory) {address : Nat}
    {bytes : List UInt8} (h : ∀ other, address ≤ other → other < address + bytes.length →
      ¬ region other) : memory.SameOn region (memory.write address bytes) := by
  intro other hother
  rw [get_write]
  by_cases hstart : address ≤ other
  · have hbehind : bytes.length ≤ other - address := by
      refine Nat.le_of_not_lt fun hless => h other hstart ?_ hother
      omega
    rw [if_pos hstart, List.getD_eq_getElem?_getD, List.getElem?_eq_none hbehind,
      Option.getD_none]
  · rw [if_neg hstart]

namespace Bench

/-! ## Following -/

/-- A descriptor and its buffer. -/
def Touches (entry : Nat × Descriptor) (address : Nat) : Prop :=
  (entry.1 ≤ address ∧ address < entry.1 + descriptorSize)
    ∨ (entry.2.buffer.toNat ≤ address ∧ address < entry.2.buffer.toNat + entry.2.size.toNat)

/-- Addresses that some descriptors and their buffers leave out. -/
def Untouched (entries : List (Nat × Descriptor)) (address : Nat) : Prop :=
  ∀ entry ∈ entries, ¬ Touches entry address

/-- Giving a descriptor back touches it. -/
theorem sameOn_giveBack (memory : Memory) (address : Nat) (descriptor : Descriptor)
    (word : UInt32) :
    memory.SameOn (fun other => ¬ Touches (address, descriptor) other)
      (memory.writeWord address word) := by
  refine Memory.sameOn_write memory fun other hstart hstop htouched => htouched ?_
  rw [Bytes.length_toBytes] at hstop
  exact .inl ⟨hstart, Nat.lt_of_lt_of_le hstop (Nat.add_le_add_left (by decide) _)⟩

/-- Following changes the descriptors that are followed. -/
theorem walk_sameOn (reach : Reach) (steps : Nat) (memory : Memory) (address left : Nat) :
    memory.SameOn (Untouched (walk reach steps memory address left).followed)
      (walk reach steps memory address left).memory := by
  induction steps generalizing memory address left with
  | zero => cases left <;> exact Memory.SameOn.refl _ _
  | succ steps ih =>
      cases left with
      | zero => exact Memory.SameOn.refl _ _
      | succ left =>
          simp only [walk]
          split
          · intro other hother
            have hfirst := sameOn_giveBack memory address (descriptorAt memory address)
              (without (descriptorAt memory address).flags DescriptorFlags.owned) other
              (hother _ List.mem_cons_self)
            have hlater := fun entry hmem => hother entry (List.mem_cons_of_mem _ hmem)
            dsimp only [Walk.after] at hlater ⊢
            split at hlater
            · rw [if_pos ‹_›]
              exact hfirst
            · rw [if_neg ‹_›]
              exact (ih _ _ _ other hlater).trans hfirst
          · exact Memory.SameOn.refl _ _

/-- A buffer in front is the first one collected. -/
theorem Walk.buffers_after {walk : Walk} {address count : Nat} {descriptor : Descriptor}
    {buffers : List (Nat × Nat)} (h : (walk.after address descriptor count).buffers = .ok buffers) :
    ∃ later, walk.buffers = .ok later
      ∧ buffers = (descriptor.buffer.toNat, count) :: later := by
  unfold after at h
  dsimp only at h
  cases hlater : walk.buffers with
  | error bits =>
      rw [hlater] at h
      cases h
  | ok later =>
      rw [hlater] at h
      cases h
      exact ⟨later, rfl, rfl⟩

/-- The buffers that a walk collects are those of descriptors it followed. -/
theorem mem_buffers_walk {reach : Reach} {steps : Nat} {memory : Memory} {address left : Nat}
    {buffers : List (Nat × Nat)}
    (h : (walk reach steps memory address left).buffers = .ok buffers) :
    ∀ part ∈ buffers, ∃ entry ∈ (walk reach steps memory address left).followed,
      part.1 = entry.2.buffer.toNat ∧ part.2 ≤ entry.2.size.toNat := by
  induction steps generalizing memory address left buffers with
  | zero =>
      cases left with
      | zero =>
          cases h
          simp
      | succ left => cases h
  | succ steps ih =>
      cases left with
      | zero =>
          cases h
          simp
      | succ left =>
          simp only [walk] at h ⊢
          split at h
          · rw [if_pos ‹_›]
            obtain ⟨later, hlater, rfl⟩ := Walk.buffers_after h
            intro part hmem
            rcases List.mem_cons.mp hmem with rfl | hmem
            · exact ⟨_, List.mem_cons_self, rfl, Nat.min_le_left _ _⟩
            · split at hlater
              · split at hlater
                · cases hlater
                  cases hmem
                · cases hlater
              · rw [if_neg ‹_›]
                obtain ⟨entry, hentry, hpart⟩ := ih hlater part hmem
                exact ⟨entry, List.mem_cons_of_mem _ hentry, hpart⟩
          · cases h

/-! ## Walks end -/

/-- The ownership bit is the top bit of the flags. -/
theorem hasAll_owned_iff (flags : UInt32) :
    hasAll flags DescriptorFlags.owned = true ↔ 0x80000000 ≤ flags.toNat := by
  have hflags : flags.toNat < 0x100000000 := flags.toNat_lt
  have htop : flags.toNat &&& 0x80000000 = (flags.toNat.testBit 31).toNat * 0x80000000 :=
    Nat.and_two_pow flags.toNat 31
  have hbit : flags.toNat.testBit 31 = decide (flags.toNat / 0x80000000 % 2 = 1) :=
    Nat.testBit_eq_decide_div_mod_eq
  rw [hasAll, beq_iff_eq, ← UInt32.toNat_inj, UInt32.toNat_and]
  show flags.toNat &&& 0x80000000 = 0x80000000 ↔ _
  rw [htop, hbit]
  by_cases hset : flags.toNat / 0x80000000 % 2 = 1
  · rw [decide_eq_true hset]
    show 1 * 0x80000000 = 0x80000000 ↔ 0x80000000 ≤ flags.toNat
    omega
  · rw [decide_eq_false hset]
    show 0 * 0x80000000 = 0x80000000 ↔ 0x80000000 ≤ flags.toNat
    omega

theorem toNat_without_owned (flags : UInt32) :
    (without flags DescriptorFlags.owned).toNat = flags.toNat % 0x80000000 := by
  have hmask : ~~~DescriptorFlags.owned = 0x7FFFFFFF := by decide
  rw [without, hmask, UInt32.toNat_and]
  exact Nat.and_two_pow_sub_one_eq_mod flags.toNat 31

/-- A descriptor is owned by the engine if the top bit of its fourth byte is set. -/
theorem owned_iff (memory : Memory) (address : Nat) :
    hasAll (descriptorAt memory address).flags DescriptorFlags.owned = true ↔
      0x80 ≤ (memory.get (address + 3)).toNat := by
  have hflags : (descriptorAt memory address).flags = memory.readWord address := rfl
  have h0 := (memory.get address).toNat_lt
  have h1 := (memory.get (address + 1)).toNat_lt
  have h2 := (memory.get (address + 2)).toNat_lt
  rw [hasAll_owned_iff, hflags, Memory.readWord, Bytes.toNat_ofBytes]
  omega

/-- Giving a descriptor back clears its ownership bit and sets none. -/
theorem get_giveBack {memory : Memory} {address other : Nat}
    (h : 0x80 ≤ ((memory.writeWord address
      (without (descriptorAt memory address).flags DescriptorFlags.owned)).get other).toNat) :
    other ≠ address + 3 ∧ 0x80 ≤ (memory.get other).toNat := by
  have h0 := (memory.get address).toNat_lt
  have h1 := (memory.get (address + 1)).toNat_lt
  have h2 := (memory.get (address + 2)).toNat_lt
  have hflags : (descriptorAt memory address).flags = memory.readWord address := rfl
  have hword := toNat_without_owned (memory.readWord address)
  rw [hflags, Memory.writeWord, Memory.get_write] at h
  generalize without (memory.readWord address) DescriptorFlags.owned = word at h hword
  rw [Memory.readWord, Bytes.toNat_ofBytes] at hword
  by_cases hfront : address ≤ other
  · rw [if_pos hfront] at h
    obtain ⟨i, rfl⟩ := Nat.exists_eq_add_of_le hfront
    rw [Nat.add_sub_cancel_left] at h
    by_cases hbehind : 4 ≤ i
    · obtain ⟨more, rfl⟩ := Nat.exists_eq_add_of_le' hbehind
      exact ⟨by omega, h⟩
    · obtain rfl | rfl | rfl | rfl : i = 0 ∨ i = 1 ∨ i = 2 ∨ i = 3 := by omega
      all_goals
        simp only [Bytes.toBytes, List.getD_cons_zero, List.getD_cons_succ, Nat.add_zero,
          UInt8.toNat_ofNat'] at h ⊢
        omega
  · rw [if_neg hfront] at h
    exact ⟨by omega, h⟩

/-- The addresses of descriptors that the engine owns. -/
def ownedPlaces (memory : Memory) : Finset Nat :=
  (Finset.range wordSpan).filter fun address =>
    hasAll (descriptorAt memory address).flags DescriptorFlags.owned = true

theorem card_ownedPlaces_le (memory : Memory) : (ownedPlaces memory).card ≤ wordSpan := by
  have hle := Finset.card_filter_le (Finset.range wordSpan) fun address =>
    hasAll (descriptorAt memory address).flags DescriptorFlags.owned = true
  rw [Finset.card_range] at hle
  exact hle

/-- A step takes an owned descriptor away. -/
theorem card_ownedPlaces_giveBack {memory : Memory} {address : Nat}
    (hmem : address ∈ ownedPlaces memory) :
    (ownedPlaces (memory.writeWord address
      (without (descriptorAt memory address).flags DescriptorFlags.owned))).card <
      (ownedPlaces memory).card := by
  refine Finset.card_lt_card (Finset.ssubset_iff_of_subset ?_ |>.mpr ⟨address, hmem, ?_⟩)
  · intro other hother
    obtain ⟨hrange, howned⟩ := Finset.mem_filter.mp hother
    have hbefore := (get_giveBack ((owned_iff _ _).mp howned)).2
    exact Finset.mem_filter.mpr ⟨hrange, (owned_iff _ _).mpr hbefore⟩
  · intro hafter
    obtain ⟨-, howned⟩ := Finset.mem_filter.mp hafter
    exact (get_giveBack ((owned_iff _ _).mp howned)).1 rfl

/-- A walk that has a step for every descriptor that the engine owns would use no more. -/
theorem walk_add (reach : Reach) {steps : Nat} {memory : Memory} {address : Nat}
    (hsteps : (ownedPlaces memory).card ≤ steps) (haddress : address < wordSpan) (more left : Nat) :
    walk reach (steps + more) memory address left = walk reach steps memory address left := by
  induction steps generalizing memory address left with
  | zero =>
      cases left with
      | zero => cases more <;> rfl
      | succ left =>
          have hnone : ∀ other, other ∉ ownedPlaces memory := by
            intro other hmem
            have hpos := Finset.card_pos.mpr ⟨other, hmem⟩
            omega
          have hunowned : hasAll (descriptorAt memory address).flags DescriptorFlags.owned =
              false := by
            by_contra howned
            exact hnone address (Finset.mem_filter.mpr
              ⟨Finset.mem_range.mpr haddress, Bool.eq_true_of_not_eq_false howned⟩)
          cases more with
          | zero => rfl
          | succ more => simp [walk, Reach.follows, hunowned]
  | succ steps ih =>
      cases left with
      | zero => rw [Nat.succ_add]; rfl
      | succ left =>
          rw [Nat.succ_add]
          simp only [walk]
          split
          · rename_i hfollows
            have hmem : address ∈ ownedPlaces memory := by
              simp only [Reach.follows, Bool.and_eq_true] at hfollows
              exact Finset.mem_filter.mpr ⟨Finset.mem_range.mpr haddress, hfollows.1.1.2⟩
            have hless := card_ownedPlaces_giveBack hmem
            rw [ih (by omega) (descriptorAt memory address).next.toNat_lt]
          · rfl

/-- A walk ends before its steps do: with more of them it would be the same. -/
theorem walk_walkSteps (reach : Reach) (memory : Memory) {address : Nat}
    (haddress : address < wordSpan) (more left : Nat) :
    walk reach (walkSteps + more) memory address left =
      walk reach walkSteps memory address left :=
  walk_add reach (card_ownedPlaces_le memory) haddress more left

/-! ## Moving the data -/

/-- Addresses outside some buffers. -/
def Outside (buffers : List (Nat × Nat)) (address : Nat) : Prop :=
  ∀ part ∈ buffers, ¬ (part.1 ≤ address ∧ address < part.1 + part.2)

/-- Filling a buffer leaves what is outside the buffers. -/
theorem Outside.write {buffer count : Nat} {rest : List (Nat × Nat)} {bytes : List UInt8}
    (hbytes : bytes.length ≤ count) (memory : Memory) :
    memory.SameOn (Outside ((buffer, count) :: rest)) (memory.write buffer bytes) := by
  refine Memory.sameOn_write memory fun other hstart hstop houtside => ?_
  exact houtside _ List.mem_cons_self ⟨hstart, Nat.lt_of_lt_of_le hstop (Nat.add_le_add_left
    hbytes buffer)⟩

theorem Outside.of_cons {entry : Nat × Nat} {rest : List (Nat × Nat)} {address : Nat}
    (h : Outside (entry :: rest) address) : Outside rest address :=
  fun part hmem => h part (List.mem_cons_of_mem _ hmem)

namespace Card

/-- Data of the card goes into the buffers. -/
theorem toBuffers_sameOn (card : Card) (offset : Nat) (buffers : List (Nat × Nat))
    (memory : Memory) :
    memory.SameOn (Outside buffers) (card.toBuffers offset buffers memory) := by
  induction buffers generalizing offset memory with
  | nil => exact Memory.SameOn.refl _ _
  | cons entry rest ih =>
      obtain ⟨buffer, count⟩ := entry
      intro other hother
      have hbytes : (card.bytes.read offset count).length ≤ count :=
        Nat.le_of_eq (Memory.length_read card.bytes offset count)
      have hfirst := Outside.write hbytes memory other hother
      exact (ih (offset + count) _ other hother.of_cons).trans hfirst

/-- A byte string goes into the buffers. -/
theorem fillBuffers_sameOn (bytes : List UInt8) (buffers : List (Nat × Nat)) (memory : Memory) :
    memory.SameOn (Outside buffers) (fillBuffers bytes buffers memory) := by
  induction buffers generalizing bytes memory with
  | nil => exact Memory.SameOn.refl _ _
  | cons entry rest ih =>
      obtain ⟨buffer, count⟩ := entry
      intro other hother
      have hfirst := Outside.write (List.length_take_le count bytes) memory other hother
      exact (ih (bytes.drop count) _ other hother.of_cons).trans hfirst

end Card

/-! ## Data commands -/

namespace CardBus

/-- The bytes for which a command follows descriptors; other commands, and those that reach past the
end of the card, follow none. -/
def transferLength? (bus : CardBus) (word : UInt32) : Option Nat :=
  let length := (bus.registers.held .byteCount).toNat
  match (word &&& CommandIndex.mask).toNat, hasAll word CommandFlags.dataExpected with
  | 8, true => some (min length blockBytes)
  | 17, true | 18, true | 24, true | 25, true =>
    if bus.card.size < (bus.registers.held .argument).toNat * blockBytes + length then none
    else some length
  | _, _ => none

/-- The descriptors that a transfer of some bytes follows. -/
def followedFor (bus : CardBus) (length : Nat) : List (Nat × Descriptor) :=
  if bus.dmaReady then (walk bus.reach walkSteps bus.memory bus.listAddress length).followed
  else []

/-- The descriptors that a command follows. -/
def followed (bus : CardBus) (word : UInt32) : List (Nat × Descriptor) :=
  match bus.transferLength? word with
  | some length => bus.followedFor length
  | none => []

/-- A response does not redirect the engine. -/
theorem followedFor_respond (bus : CardBus) (r0 r1 r2 r3 : UInt32) (length : Nat) :
    (bus.respond r0 r1 r2 r3).followedFor length = bus.followedFor length := by
  have hheld (register : Register) (h : register ∉ Register.responses) :
      (bus.respond r0 r1 r2 r3).registers.held register = bus.registers.held register :=
    bus.registers.held_respond r0 r1 r2 r3 h
  unfold followedFor dmaReady listAddress
  rw [hheld .control (by decide), hheld .busMode (by decide), hheld .listLow (by decide),
    hheld .listHigh (by decide)]
  rfl

variable {bus : CardBus} {length : Nat}
  {move : List (Nat × Nat) → Memory → Card → Memory × Card}

/-- A transfer touches what it follows, if moving its data stays in the buffers. -/
theorem transfer_sameOn (hmove : ∀ buffers (memory : Memory) card,
      memory.SameOn (Outside buffers) (move buffers memory card).1) :
    bus.memory.SameOn (Untouched (bus.followedFor length)) (bus.transfer length move).2.memory := by
  unfold transfer followedFor
  by_cases hready : bus.dmaReady = true
  · have hwalked := walk_sameOn bus.reach walkSteps bus.memory bus.listAddress length
    rw [if_pos hready, if_pos hready]
    dsimp only
    cases hbuffers : (walk bus.reach walkSteps bus.memory bus.listAddress length).buffers with
    | error bits => exact hwalked
    | ok buffers =>
        refine hwalked.trans fun other hother => hmove buffers _ bus.card other ?_
        rintro part hmem ⟨hstart, hstop⟩
        obtain ⟨entry, hentry, hbuffer, hcount⟩ := mem_buffers_walk hbuffers part hmem
        exact hother entry hentry (.inr ⟨by omega, by omega⟩)
  · rw [if_neg hready, if_neg hready]
    exact Memory.SameOn.refl _ _

/-- A transfer records the sizes of what it follows. -/
theorem segments_transfer (bus : CardBus) (length : Nat)
    (move : List (Nat × Nat) → Memory → Card → Memory × Card) :
    (bus.transfer length move).2.segments =
      (bus.followedFor length).map fun entry => entry.2.size := by
  unfold transfer followedFor
  by_cases hready : bus.dmaReady = true
  · rw [if_pos hready, if_pos hready]
    dsimp only
    cases (walk bus.reach walkSteps bus.memory bus.listAddress length).buffers <;> rfl
  · rw [if_neg hready, if_neg hready]
    rfl

/-- The forms of a command: it follows descriptors and moves data through their buffers, it is one
that reaches past the end of the card, or it only answers. -/
inductive Executes (bus : CardBus) (word : UInt32) : UInt32 × CardBus → Prop
  | moves {length : Nat} (move : List (Nat × Nat) → Memory → Card → Memory × Card)
      (hlength : bus.transferLength? word = some length)
      (hmove : ∀ buffers (memory : Memory) card,
        memory.SameOn (Outside buffers) (move buffers memory card).1) :
      Executes bus word (bus.respondReady.transfer length move)
  | short (hlength : bus.transferLength? word = none) :
      Executes bus word (transferShort, { bus.respondReady with segments := [] })
  | answers (bits r0 r1 r2 r3 : UInt32) (hlength : bus.transferLength? word = none) :
      Executes bus word (bits, bus.respond r0 r1 r2 r3)

theorem sendExtended_executes (bus : CardBus) {word : UInt32}
    (hlength : bus.transferLength? word =
      some (min (bus.registers.held .byteCount).toNat blockBytes)) :
    Executes bus word bus.respondReady.sendExtended := by
  have hcount : bus.respondReady.registers.held .byteCount = bus.registers.held .byteCount :=
    bus.registers.held_respond _ _ _ _ (by decide)
  unfold sendExtended
  dsimp only
  rw [hcount]
  exact .moves _ hlength fun buffers memory card =>
    Card.fillBuffers_sameOn card.extendedData buffers memory

theorem moveBlocks_executes (bus : CardBus) {word : UInt32}
    (hlength : bus.transferLength? word =
      if bus.card.size < (bus.registers.held .argument).toNat * blockBytes
          + (bus.registers.held .byteCount).toNat then none
      else some (bus.registers.held .byteCount).toNat) (toCard : Bool) :
    Executes bus word (bus.respondReady.moveBlocks (bus.registers.held .argument) toCard) := by
  have hcount : bus.respondReady.registers.held .byteCount = bus.registers.held .byteCount :=
    bus.registers.held_respond _ _ _ _ (by decide)
  unfold moveBlocks
  dsimp only
  rw [hcount]
  by_cases hshort : bus.card.size < (bus.registers.held .argument).toNat * blockBytes
      + (bus.registers.held .byteCount).toNat
  · rw [if_pos hshort] at hlength
    rw [show bus.respondReady.card = bus.card from rfl, if_pos hshort]
    exact .short hlength
  · rw [if_neg hshort] at hlength
    rw [show bus.respondReady.card = bus.card from rfl, if_neg hshort]
    refine .moves _ hlength fun buffers memory card => ?_
    cases toCard with
    | true => exact Memory.SameOn.refl _ _
    | false => exact card.toBuffers_sameOn _ buffers memory

theorem execute_executes (bus : CardBus) (word : UInt32) :
    Executes bus word (bus.execute word) := by
  unfold execute
  dsimp only
  split
  · rename_i hindex
    refine .answers _ _ _ _ _ ?_
    simp only [transferLength?, hindex]
  · rename_i hindex
    refine .answers _ _ _ _ _ ?_
    simp only [transferLength?, hindex]
  · rename_i hindex
    refine .answers _ _ _ _ _ ?_
    simp only [transferLength?, hindex]
  · rename_i hindex hdata
    exact bus.sendExtended_executes (by simp only [transferLength?, hindex, hdata])
  · rename_i hindex hdata
    exact bus.moveBlocks_executes (by simp only [transferLength?, hindex, hdata]) _
  · rename_i hindex hdata
    exact bus.moveBlocks_executes (by simp only [transferLength?, hindex, hdata]) _
  · rename_i hindex hdata
    exact bus.moveBlocks_executes (by simp only [transferLength?, hindex, hdata]) _
  · rename_i hindex hdata
    exact bus.moveBlocks_executes (by simp only [transferLength?, hindex, hdata]) _
  · rename_i hsend hread hreads hwrite hwrites
    refine .answers _ _ _ _ _ ?_
    unfold transferLength?
    split
    · exact (hsend ‹_› ‹_›).elim
    · exact (hread ‹_› ‹_›).elim
    · exact (hreads ‹_› ‹_›).elim
    · exact (hwrite ‹_› ‹_›).elim
    · exact (hwrites ‹_› ‹_›).elim
    · rfl

/-- A command touches what it follows. -/
theorem execute_sameOn (bus : CardBus) (word : UInt32) :
    bus.memory.SameOn (Untouched (bus.followed word)) (bus.execute word).2.memory := by
  have hform := bus.execute_executes word
  generalize bus.execute word = executed at hform ⊢
  cases hform with
  | @moves length move hlength hmove =>
      have hsame : bus.memory.SameOn (Untouched (bus.respondReady.followedFor length))
          (bus.respondReady.transfer length move).2.memory := transfer_sameOn hmove
      rw [respondReady, followedFor_respond] at hsame
      rw [followed, hlength]
      exact hsame
  | short hlength => exact Memory.SameOn.refl _ _
  | answers bits r0 r1 r2 r3 hlength => exact Memory.SameOn.refl _ _

/-- If a command follows descriptors, the sizes recorded are theirs. -/
theorem segments_execute (bus : CardBus) {word : UInt32} (h : bus.followed word ≠ []) :
    (bus.execute word).2.segments = (bus.followed word).map fun entry => entry.2.size := by
  have hform := bus.execute_executes word
  generalize bus.execute word = executed at hform ⊢
  unfold followed at h ⊢
  cases hform with
  | moves move hlength hmove =>
      rw [segments_transfer, respondReady, followedFor_respond, hlength]
  | short hnone =>
      rw [hnone] at h
      exact (h rfl).elim
  | answers bits r0 r1 r2 r3 hnone =>
      rw [hnone] at h
      exact (h rfl).elim

/-- A command without data follows nothing. -/
theorem followed_eq_nil {word : UInt32} (h : hasAll word CommandFlags.dataExpected = false)
    (bus : CardBus) : bus.followed word = [] := by
  have hnone : bus.transferLength? word = none := by
    unfold transferLength?
    rw [h]
    split <;> first | contradiction | rfl
  rw [followed, hnone]

end CardBus

/-! ## Along the chain of a transfer -/

/-- Of a chain that stands in a ring only its own descriptors are followed. -/
theorem mem_followed_chained {reach : Reach} {ring : Ring} {geometry : Geometry} {buffer : UInt64}
    {segment steps i left : Nat} {memory : Memory}
    (hplaces : ring.place geometry.segments < wordSpan)
    (hchained : Chained ring geometry buffer segment i memory) (hi : i < geometry.segments) :
    ∀ entry ∈ (walk reach steps memory (ring.place i) left).followed, ∃ j < geometry.segments,
      entry = (ring.place j, ring.segmentEntry geometry buffer segment j) := by
  induction steps generalizing i left memory with
  | zero => cases left <;> simp [walk]
  | succ steps ih =>
      cases left with
      | zero => simp [walk]
      | succ left =>
          have hlast : hasAll (ring.segmentEntry geometry buffer segment i).flags
              DescriptorFlags.last = (i + 1 == geometry.segments) := hasAll_last _ _
          intro entry hmem
          simp only [walk, hchained i (Nat.le_refl i) hi, hlast] at hmem
          split at hmem
          · rw [Walk.after] at hmem
            rcases List.mem_cons.mp hmem with rfl | hmem
            · exact ⟨i, hi, rfl⟩
            · -- The walk goes on only where there is a next descriptor, and that one is behind.
              split at hmem
              · cases hmem
              · rename_i hend
                have hnext : i + 1 < geometry.segments := by
                  have hne : ¬ i + 1 = geometry.segments := fun heq => hend (beq_iff_eq.mpr heq)
                  omega
                have hbehind := ring.place_behind hnext
                rw [segmentEntry_next hnext (by omega)] at hmem
                exact ih (hchained.step _) hnext entry hmem
          · cases hmem

end Bench

end CardHost
