import CardHost.Bench.Card
import CardHost.Proofs.Ends
import CardHost.Proofs.Split
import CardHost.Proofs.WireFormat

/-!
# The chain of a transfer, followed by the card

A transfer lays its descriptors from the first place of the ring on (`Ring.lay`), and the card
follows them.  `walk_chain` is the loop of the card: from descriptor `i` on it collects buffers that
lie one behind the other, from where segment `i` begins, and cover exactly what is left of the
transfer; of memory it changes nothing outside the descriptors ahead.  The induction is on the steps
that the card has left, and a step gives up one descriptor.

Buffers one behind the other are as good as one buffer: `get_ofBuffers` and `get_toBuffers` say what
moving the data does to every byte.
-/

namespace CardHost

/-! ## Ranges of memory -/

namespace Memory

/-- Two memories agree outside a range. -/
def SameOutside (start stop : Nat) (before after : Memory) : Prop :=
  ∀ address, address < start ∨ stop ≤ address → after.get address = before.get address

variable {start stop address : Nat} {before middle after : Memory}

theorem SameOutside.refl (start stop : Nat) (memory : Memory) :
    SameOutside start stop memory memory :=
  fun _ _ => rfl

theorem SameOutside.trans (first : SameOutside start stop before middle)
    (second : SameOutside start stop middle after) : SameOutside start stop before after :=
  fun address h => (second address h).trans (first address h)

theorem SameOutside.mono {lower upper : Nat} (h : SameOutside start stop before after)
    (hlower : lower ≤ start) (hupper : stop ≤ upper) : SameOutside lower upper before after :=
  fun address houtside => h address (by omega)

/-- A range outside reads the same. -/
theorem SameOutside.read_eq (h : SameOutside start stop before after) {count : Nat}
    (houtside : address + count ≤ start ∨ stop ≤ address) :
    after.read address count = before.read address count := by
  refine read_eq_of_get_eq fun i hi => h _ ?_
  omega

theorem sameOutside_write (memory : Memory) {bytes : List UInt8} (hstart : start ≤ address)
    (hstop : address + bytes.length ≤ stop) :
    SameOutside start stop memory (memory.write address bytes) := by
  intro other houtside
  rw [get_write]
  split
  · have hbehind : bytes.length ≤ other - address := by omega
    rw [List.getD_eq_getElem?_getD, List.getElem?_eq_none hbehind, Option.getD_none]
  · rfl

/-- A range copied from another memory. -/
theorem get_write_read (memory source : Memory) (target origin count other : Nat) :
    (memory.write target (source.read origin count)).get other =
      if target ≤ other ∧ other < target + count then source.get (origin + (other - target))
      else memory.get other := by
  rw [get_write]
  by_cases hstart : target ≤ other
  · by_cases hstop : other < target + count
    · have hindex : other - target < count := by omega
      rw [if_pos hstart, if_pos ⟨hstart, hstop⟩]
      simp [read, hindex]
    · have hindex : count ≤ other - target := by omega
      rw [if_pos hstart, if_neg fun h => hstop h.2]
      simp [read, hindex]
  · rw [if_neg hstart, if_neg fun h => hstart h.1]

end Memory

/-! ## Laying a chain -/

namespace Ring

variable (ring : Ring)

theorem place_zero : ring.place 0 = ring.base.toNat := by
  simp [place]

theorem place_add (index more : Nat) :
    ring.place (index + more) = ring.place index + more * descriptorSize := by
  simp only [place, Nat.add_mul, Nat.add_assoc]

/-- A descriptor ends before those behind it begin. -/
theorem place_behind {i j : Nat} (h : i < j) : ring.place i + descriptorSize ≤ ring.place j := by
  obtain ⟨more, rfl⟩ : ∃ more, j = i + 1 + more := ⟨j - (i + 1), by omega⟩
  rw [ring.place_add (i + 1) more, ring.place_add i 1]
  omega

theorem chain_length (geometry : Geometry) (buffer : UInt64) (segment : Nat) :
    (ring.chain geometry buffer segment).length = geometry.segments := by
  simp [chain]

theorem getElem?_chain {geometry : Geometry} (buffer : UInt64) (segment : Nat) {i : Nat}
    (hi : i < geometry.segments) :
    (ring.chain geometry buffer segment)[i]? =
      some (ring.segmentEntry geometry buffer segment i) := by
  simp [chain, hi]

/-- The memory with descriptors in their places, from an index on. -/
def lay : Nat → List Descriptor → Memory → Memory
  | _, [], memory => memory
  | index, descriptor :: rest, memory =>
    lay (index + 1) rest (memory.write (ring.place index) descriptor.encode.toBytes)

theorem ends_putChain {machine : Machine ι} {post : Unit → Shared machine.State → Prop}
    (index : Nat) (descriptors : List Descriptor) {before : Shared machine.State}
    (h : post () ⟨before.device, ring.lay index descriptors before.memory⟩) :
    (ring.putChain index descriptors : Prog σ Unit).Ends machine before post := by
  induction descriptors generalizing index before with
  | nil => exact Prog.ends_done h
  | cons descriptor rest ih =>
      apply Prog.Ends.step
      apply Prog.ends_log
      apply Prog.Ends.step
      apply Prog.ends_store
      exact ih (index + 1) h

/-- A transfer that has a split, descriptors and addresses is described in the ring. -/
theorem succeeds_prepare {machine : Machine ι} {before : Shared machine.State} {ring : Ring}
    {buffer : UInt64} {length segment block : Nat} {geometry : Geometry} (positive : 0 < length)
    (splits : Geometry.ofLength? length segment block = some geometry)
    (room : geometry.segments ≤ ring.count)
    (addressed : ring.chain? geometry buffer segment = some (ring.chain geometry buffer segment))
    {post : Geometry → Shared machine.State → Prop}
    (hpost : post geometry
      ⟨before.device, ring.lay 0 (ring.chain geometry buffer segment) before.memory⟩) :
    (ring.prepare length buffer segment block : Action σ Geometry).Succeeds machine before
      post := by
  unfold prepare
  rw [if_neg (Nat.ne_of_gt positive), splits]
  apply Action.Succeeds.step
  apply Action.succeeds_lift
  apply Prog.ends_done
  rw [if_neg (Nat.not_lt.mpr room), addressed]
  apply Action.Succeeds.step
  apply Action.succeeds_lift
  apply Prog.ends_done
  apply Action.Succeeds.step
  apply Action.succeeds_lift
  apply ring.ends_putChain 0
  exact Action.succeeds_pure hpost

theorem lay_sameOutside (index : Nat) (descriptors : List Descriptor) (memory : Memory) :
    Memory.SameOutside (ring.place index) (ring.place (index + descriptors.length)) memory
      (ring.lay index descriptors memory) := by
  induction descriptors generalizing index memory with
  | nil => exact Memory.SameOutside.refl _ _ _
  | cons descriptor rest ih =>
      have hlater := ih (index + 1) (memory.write (ring.place index) descriptor.encode.toBytes)
      rw [List.length_cons, show index + (rest.length + 1) = index + 1 + rest.length by omega]
      have hstep := ring.place_add index 1
      have hend := ring.place_add (index + 1) rest.length
      refine Memory.SameOutside.trans (Memory.sameOutside_write _ (Nat.le_refl _) ?_)
        (hlater.mono (by omega) (Nat.le_refl _))
      rw [DescriptorWords.length_toBytes]
      omega

/-- What was laid is stored in its place. -/
theorem read_lay (index : Nat) {descriptors : List Descriptor} (memory : Memory) {i : Nat}
    {descriptor : Descriptor} (hget : descriptors[i]? = some descriptor) :
    (ring.lay index descriptors memory).read (ring.place (index + i)) descriptorSize =
      descriptor.encode.toBytes := by
  induction descriptors generalizing index memory i with
  | nil => cases hget
  | cons first rest ih =>
      cases i with
      | zero =>
          cases hget
          have hlater := ring.lay_sameOutside (index + 1) rest
            (memory.write (ring.place index) descriptor.encode.toBytes)
          have hbefore : ring.place index + descriptorSize ≤ ring.place (index + 1) := by
            rw [ring.place_add index 1]
            omega
          rw [Nat.add_zero, lay, hlater.read_eq (.inl hbefore)]
          exact Memory.read_write memory (ring.place index) descriptor.encode.toBytes
      | succ i =>
          have hplace : index + (i + 1) = index + 1 + i := by omega
          rw [lay, hplace]
          exact ih (index + 1) _ hget

/-- What was laid stands in its place. -/
theorem descriptorAt_lay (index : Nat) {descriptors : List Descriptor} (memory : Memory)
    (hsizes : ∀ descriptor ∈ descriptors, descriptor.size.toNat ≤ maxSegment) {i : Nat}
    {descriptor : Descriptor} (hget : descriptors[i]? = some descriptor) :
    Bench.descriptorAt (ring.lay index descriptors memory) (ring.place (index + i)) =
      descriptor := by
  rw [Bench.descriptorAt, ring.read_lay index memory hget, DescriptorWords.ofBytes_toBytes]
  exact Descriptor.decode_encode (hsizes descriptor (List.mem_of_getElem? hget))

end Ring

/-! ## Following a chain -/

namespace Bench

/-- Buffers one behind the other from an address on, of so many bytes together. -/
def Contiguous : Nat → Nat → List (Nat × Nat) → Prop
  | _, total, [] => total = 0
  | address, total, (buffer, count) :: rest =>
    buffer = address ∧ count ≤ total ∧ Contiguous (address + count) (total - count) rest

/-- From descriptor `i` on, the descriptors of a transfer stand in their places. -/
def Chained (ring : Ring) (geometry : Geometry) (buffer : UInt64) (segment i : Nat)
    (memory : Memory) : Prop :=
  ∀ j, i ≤ j → j < geometry.segments →
    descriptorAt memory (ring.place j) = ring.segmentEntry geometry buffer segment j

theorem hasAll_owned (first last : Bool) :
    hasAll (Ring.segmentFlags first last) DescriptorFlags.owned = true := by
  cases first <;> cases last <;> decide

theorem hasAll_last (first last : Bool) :
    hasAll (Ring.segmentFlags first last) DescriptorFlags.last = last := by
  cases first <;> cases last <;> decide

/-- Giving one descriptor back leaves those behind it. -/
theorem Chained.step {ring : Ring} {geometry : Geometry} {buffer : UInt64} {segment i : Nat}
    {memory : Memory} (h : Chained ring geometry buffer segment i memory) (word : UInt32) :
    Chained ring geometry buffer segment (i + 1) (memory.writeWord (ring.place i) word) := by
  intro j hij hj
  have hbehind : ring.place i + descriptorSize ≤ ring.place j := ring.place_behind (by omega)
  have hsame : Memory.SameOutside (ring.place i) (ring.place i + 4) memory
      (memory.writeWord (ring.place i) word) :=
    Memory.sameOutside_write memory (Nat.le_refl _) (Nat.le_refl _)
  have hread : (memory.writeWord (ring.place i) word).read (ring.place j) descriptorSize =
      memory.read (ring.place j) descriptorSize := by
    refine hsame.read_eq (.inr ?_)
    unfold descriptorSize at hbehind
    omega
  rw [← h j (by omega) hj, descriptorAt, hread, descriptorAt]

/-- A transfer that descriptors can carry: segments are whole blocks and fit the size field. -/
structure Carriable (length segment block : Nat) : Prop where
  lengthPos : 0 < length
  segmentPos : 0 < segment
  blockPos : 0 < block
  whole : segment % block = 0
  segmentLe : segment ≤ maxSegment

/-- A ring and a buffer that the card may follow a transfer of some length through: the engine
reaches both, they have addresses, and the ring has an address to start from. -/
structure Traversable (reach : Reach) (ring : Ring) (buffer : UInt64)
    (length segment block : Nat) : Prop extends Carriable length segment block where
  listed : ring.base ≠ 0
  ringEnds : ring.place (Geometry.ofLength length segment block).segments < wordSpan
  ringReached : reach.holds ring.base.toNat
    ((Geometry.ofLength length segment block).segments * descriptorSize) = true
  bufferEnds : buffer.toNat + length < wordSpan
  bufferReached : reach.holds buffer.toNat length = true

theorem toNat_of_le_maxSegment {size : Nat} (h : size ≤ maxSegment) :
    (UInt32.ofNat size).toNat = size := by
  refine UInt32.toNat_ofNat_of_lt' (Nat.lt_of_le_of_lt h ?_)
  decide

section Carriable

variable {length segment block : Nat}

/-- The size of a descriptor, which its field holds. -/
theorem Carriable.size_eq (h : Carriable length segment block) (ring : Ring) (buffer : UInt64)
    (i : Nat) :
    (ring.segmentEntry (Geometry.ofLength length segment block) buffer segment i).size.toNat =
      if i + 1 = (Geometry.ofLength length segment block).segments
      then (Geometry.ofLength length segment block).lastSegment else segment := by
  have hlast := Geometry.lastSegment_le h.lengthPos h.segmentPos h.blockPos h.whole
  have hsegment := h.segmentLe
  unfold Ring.segmentEntry
  dsimp only
  by_cases hend : i + 1 = (Geometry.ofLength length segment block).segments
  · rw [if_pos hend, if_pos (beq_iff_eq.mpr hend)]
    exact toNat_of_le_maxSegment (Nat.le_trans hlast hsegment)
  · rw [if_neg hend, if_neg fun hbeq => hend (beq_iff_eq.mp hbeq)]
    exact toNat_of_le_maxSegment hsegment

/-- The chain of a transfer, once laid, is there to be followed. -/
theorem Carriable.chained_lay (h : Carriable length segment block) (ring : Ring) (buffer : UInt64)
    (memory : Memory) :
    Chained ring (Geometry.ofLength length segment block) buffer segment 0
      (ring.lay 0 (ring.chain (Geometry.ofLength length segment block) buffer segment) memory) := by
  intro j _ hj
  have hsizes : ∀ descriptor ∈
      ring.chain (Geometry.ofLength length segment block) buffer segment,
      descriptor.size.toNat ≤ maxSegment := by
    intro descriptor hmem
    obtain ⟨i, -, rfl⟩ := List.mem_map.mp hmem
    have hlast := Geometry.lastSegment_le h.lengthPos h.segmentPos h.blockPos h.whole
    have hsegment := h.segmentLe
    rw [h.size_eq]
    split
    · omega
    · exact hsegment
  have hplace := ring.descriptorAt_lay 0 memory hsizes (ring.getElem?_chain buffer segment hj)
  rw [Nat.zero_add] at hplace
  exact hplace

end Carriable

section Walk

variable {reach : Reach} {ring : Ring} {buffer : UInt64} {length segment block : Nat}

/-- A segment begins inside the transfer. -/
theorem Traversable.begin_lt (h : Traversable reach ring buffer length segment block) {i : Nat}
    (hi : i < (Geometry.ofLength length segment block).segments) : i * segment < length := by
  have hbefore : ((Geometry.ofLength length segment block).segments - 1) * segment < length :=
    Geometry.before_last_lt h.lengthPos h.segmentPos
  have hle : i * segment ≤ ((Geometry.ofLength length segment block).segments - 1) * segment :=
    Nat.mul_le_mul_right segment (by omega)
  omega

/-- A transfer through addresses gets its descriptors. -/
theorem Traversable.chain?_eq (h : Traversable reach ring buffer length segment block) :
    ring.chain? (Geometry.ofLength length segment block) buffer segment =
      some (ring.chain (Geometry.ofLength length segment block) buffer segment) := by
  have hbefore : ((Geometry.ofLength length segment block).segments - 1) * segment < length :=
    Geometry.before_last_lt h.lengthPos h.segmentPos
  have hbuffer := h.bufferEnds
  exact if_pos ⟨by omega, h.ringEnds⟩

/-- A descriptor in front of another one points to it, if that has an address. -/
theorem segmentEntry_next {geometry : Geometry} {i : Nat} (hnext : i + 1 < geometry.segments)
    (haddress : ring.place (i + 1) < wordSpan) :
    (ring.segmentEntry geometry buffer segment i).next.toNat = ring.place (i + 1) := by
  have hend : ¬ i + 1 = geometry.segments := by omega
  unfold Ring.segmentEntry
  dsimp only
  rw [if_neg fun hbeq => hend (beq_iff_eq.mp hbeq)]
  exact UInt64.toNat_ofNat_of_lt' haddress

theorem Traversable.next_eq (h : Traversable reach ring buffer length segment block) {i : Nat}
    (hnext : i + 1 < (Geometry.ofLength length segment block).segments) :
    (ring.segmentEntry (Geometry.ofLength length segment block) buffer segment i).next.toNat =
      ring.place (i + 1) := by
  have hbehind := ring.place_behind hnext
  have hring := h.ringEnds
  exact segmentEntry_next hnext (by omega)

/-- The memory after a descriptor was given back. -/
def givenBack (ring : Ring) (geometry : Geometry) (buffer : UInt64) (segment i : Nat)
    (memory : Memory) : Memory :=
  memory.writeWord (ring.place i)
    (without (ring.segmentEntry geometry buffer segment i).flags DescriptorFlags.owned)

theorem givenBack_sameOutside (ring : Ring) (geometry : Geometry) (buffer : UInt64)
    (segment i : Nat) (memory : Memory) :
    Memory.SameOutside (ring.place i) (ring.place (i + 1)) memory
      (givenBack ring geometry buffer segment i memory) := by
  have hbehind := ring.place_behind (Nat.lt_add_one i)
  refine Memory.sameOutside_write memory (Nat.le_refl _) ?_
  rw [Bytes.length_toBytes]
  unfold descriptorSize at hbehind
  omega

/-- A descriptor of the chain names the segment of the buffer that begins there. -/
theorem Traversable.buffer_eq (h : Traversable reach ring buffer length segment block) {i : Nat}
    (hi : i < (Geometry.ofLength length segment block).segments) :
    (ring.segmentEntry (Geometry.ofLength length segment block) buffer segment i).buffer.toNat =
      buffer.toNat + i * segment := by
  have hbegin := h.begin_lt hi
  have hbuffer := h.bufferEnds
  exact UInt64.toNat_ofNat_of_lt' (show buffer.toNat + i * segment < wordSpan by omega)

/-- A chain of a transfer goes on with each of its descriptors. -/
theorem Traversable.follows (h : Traversable reach ring buffer length segment block)
    {i left count : Nat} (hi : i < (Geometry.ofLength length segment block).segments)
    (hleft : left + 1 + i * segment ≤ length)
    (hcount : min (ring.segmentEntry (Geometry.ofLength length segment block) buffer segment
      i).size.toNat (left + 1) = count) :
    reach.follows (ring.place i)
      (ring.segmentEntry (Geometry.ofLength length segment block) buffer segment i) count =
        true := by
  have hbase : ring.base.toNat ≤ ring.place i := Nat.le_add_right _ _
  have hstart : ring.base.toNat ≠ 0 := fun hzero => h.listed (UInt64.toNat_inj.mp hzero)
  have hbehind : ring.place i + descriptorSize ≤
      ring.base.toNat + (Geometry.ofLength length segment block).segments * descriptorSize :=
    ring.place_behind hi
  have howned : hasAll (ring.segmentEntry (Geometry.ofLength length segment block) buffer
      segment i).flags DescriptorFlags.owned = true := hasAll_owned _ _
  have hdescriptor := Reach.holds_of_part h.ringReached hbase hbehind
  have hdata : reach.holds (buffer.toNat + i * segment) count = true :=
    Reach.holds_of_part h.bufferReached (Nat.le_add_right _ _) (by omega)
  rw [Reach.follows, h.buffer_eq hi, howned, hdescriptor, hdata, bne_iff_ne.mpr (by omega)]
  rfl

/-- One step along the chain of a transfer: the descriptor is given back, and what is left goes to
the next one, unless it was the last. -/
theorem Traversable.walk_succ (h : Traversable reach ring buffer length segment block)
    {i left count : Nat} {memory : Memory}
    (hchained : Chained ring (Geometry.ofLength length segment block) buffer segment i memory)
    (hi : i < (Geometry.ofLength length segment block).segments)
    (hleft : left + 1 + i * segment ≤ length) (steps : Nat)
    (hcount : min (ring.segmentEntry (Geometry.ofLength length segment block) buffer segment
      i).size.toNat (left + 1) = count) :
    walk reach (steps + 1) memory (ring.place i) (left + 1) =
      (if i + 1 = (Geometry.ofLength length segment block).segments then
        ⟨givenBack ring (Geometry.ofLength length segment block) buffer segment i memory, [],
          if left + 1 - count = 0 then .ok [] else .error transferShort⟩
      else
        walk reach steps
          (givenBack ring (Geometry.ofLength length segment block) buffer segment i memory)
          (ring.place (i + 1)) (left + 1 - count)).after (ring.place i)
        (ring.segmentEntry (Geometry.ofLength length segment block) buffer segment i) count := by
  have hentry := hchained i (Nat.le_refl i) hi
  have hfollows := h.follows hi hleft hcount
  have hlast : hasAll (ring.segmentEntry (Geometry.ofLength length segment block) buffer
      segment i).flags DescriptorFlags.last =
      (i + 1 == (Geometry.ofLength length segment block).segments) := hasAll_last _ _
  rw [walk]
  simp only [hentry, hcount, hfollows, hlast, if_true, beq_iff_eq]
  by_cases hend : i + 1 = (Geometry.ofLength length segment block).segments
  · rw [if_pos hend, if_pos hend]
    rfl
  · rw [if_neg hend, if_neg hend, h.next_eq (by omega)]
    rfl

/-- The card follows the chain of a transfer from any descriptor on. -/
theorem walk_chain (h : Traversable reach ring buffer length segment block) {steps i left : Nat}
    {memory : Memory}
    (hchained : Chained ring (Geometry.ofLength length segment block) buffer segment i memory)
    (hi : i < (Geometry.ofLength length segment block).segments)
    (hsteps : (Geometry.ofLength length segment block).segments ≤ i + steps)
    (hleft : left + i * segment ≤ length) :
    ∃ buffers, (walk reach steps memory (ring.place i) left).buffers = .ok buffers
      ∧ Contiguous (buffer.toNat + i * segment) left buffers
      ∧ Memory.SameOutside (ring.place i)
          (ring.place (Geometry.ofLength length segment block).segments) memory
          (walk reach steps memory (ring.place i) left).memory := by
  induction steps generalizing i left memory with
  | zero => omega
  | succ steps ih =>
      cases left with
      | zero => exact ⟨[], rfl, rfl, Memory.SameOutside.refl _ _ _⟩
      | succ left =>
          have hgiven := givenBack_sameOutside ring (Geometry.ofLength length segment block) buffer
            segment i memory
          rw [h.walk_succ hchained hi hleft steps rfl, h.size_eq ring buffer i, Walk.after,
            h.buffer_eq hi]
          by_cases hend : i + 1 = (Geometry.ofLength length segment block).segments
          · -- The last descriptor covers what is left.
            have hcovers : length - ((Geometry.ofLength length segment block).segments - 1) *
                segment ≤ (Geometry.ofLength length segment block).lastSegment :=
              Geometry.rest_le_lastSegment h.blockPos
            have hcount : min (Geometry.ofLength length segment block).lastSegment (left + 1) =
                left + 1 := by
              refine Nat.min_eq_right ?_
              rw [← hend, Nat.add_sub_cancel] at hcovers
              omega
            simp only [if_pos hend, hcount, Nat.sub_self, if_true]
            rw [hend] at hgiven
            exact ⟨[(buffer.toNat + i * segment, left + 1)], rfl,
              ⟨rfl, Nat.le_refl _, Nat.sub_self _⟩, hgiven⟩
          · -- Any other is full, unless it already covers what is left.
            have hnext : i + 1 < (Geometry.ofLength length segment block).segments := by omega
            have hbegin := h.begin_lt hnext
            have hrest : left + 1 - min segment (left + 1) + (i + 1) * segment ≤ length := by
              rw [Nat.succ_mul] at hbegin ⊢
              omega
            simp only [if_neg hend]
            obtain ⟨buffers, hbuffers, hcontiguous, hsame⟩ :=
              ih (hchained.step _) hnext (by omega) hrest
            refine ⟨(buffer.toNat + i * segment, min segment (left + 1)) :: buffers, ?_, ?_, ?_⟩
            · rw [givenBack, hbuffers]
              rfl
            · refine ⟨rfl, Nat.min_le_right _ _, ?_⟩
              by_cases hfull : segment ≤ left + 1
              · rw [Nat.min_eq_left hfull] at hcontiguous ⊢
                rw [Nat.succ_mul, ← Nat.add_assoc] at hcontiguous
                exact hcontiguous
              · -- Nothing is left, so no buffer follows.
                have hmin : min segment (left + 1) = left + 1 := Nat.min_eq_right (by omega)
                rw [hmin, Nat.sub_self] at hcontiguous ⊢
                cases buffers with
                | nil => exact rfl
                | cons entry rest =>
                    obtain ⟨other, count⟩ := entry
                    rw [hmin, Nat.sub_self] at hbuffers
                    unfold walk at hbuffers
                    cases hbuffers
            · have hstep := ring.place_behind (Nat.lt_add_one i)
              have hlater := ring.place_behind hnext
              exact (hgiven.mono (Nat.le_refl _) (by omega)).trans
                (hsame.mono (by omega) (Nat.le_refl _))

end Walk

/-! ## Moving the data -/

namespace Card

/-- Data from buffers one behind the other, on the card. -/
theorem get_ofBuffers {memory : Memory} {address total offset : Nat} {buffers : List (Nat × Nat)}
    (h : Contiguous address total buffers) (card : Card) :
    (ofBuffers memory offset buffers card).blocks = card.blocks
      ∧ ∀ i, (ofBuffers memory offset buffers card).bytes.get i =
        if offset ≤ i ∧ i < offset + total then memory.get (address + (i - offset))
        else card.bytes.get i := by
  induction buffers generalizing address total offset card with
  | nil =>
      have htotal : total = 0 := h
      refine ⟨rfl, fun i => ?_⟩
      rw [if_neg (by omega)]
      rfl
  | cons entry rest ih =>
      obtain ⟨buffer, count⟩ := entry
      obtain ⟨rfl, hcount, hrest⟩ := h
      rw [ofBuffers]
      obtain ⟨hblocks, hget⟩ := ih hrest
        { card with bytes := card.bytes.write offset (memory.read buffer count) }
      refine ⟨hblocks, fun i => ?_⟩
      rw [hget, Memory.get_write_read]
      by_cases hbehind : offset + count ≤ i ∧ i < offset + count + (total - count)
      · rw [if_pos hbehind, if_pos (by omega)]
        congr 1
        omega
      · rw [if_neg hbehind]
        by_cases hhere : offset ≤ i ∧ i < offset + count
        · rw [if_pos hhere, if_pos (by omega)]
        · rw [if_neg hhere, if_neg (by omega)]

/-- Data of the card, in buffers one behind the other. -/
theorem get_toBuffers (card : Card) {address total offset : Nat} {buffers : List (Nat × Nat)}
    (h : Contiguous address total buffers) (memory : Memory) (i : Nat) :
    (card.toBuffers offset buffers memory).get i =
      if address ≤ i ∧ i < address + total then card.bytes.get (offset + (i - address))
      else memory.get i := by
  induction buffers generalizing address total offset memory with
  | nil =>
      have htotal : total = 0 := h
      rw [if_neg (by omega)]
      rfl
  | cons entry rest ih =>
      obtain ⟨buffer, count⟩ := entry
      obtain ⟨rfl, hcount, hrest⟩ := h
      rw [toBuffers, ih hrest, Memory.get_write_read]
      by_cases hbehind : buffer + count ≤ i ∧ i < buffer + count + (total - count)
      · rw [if_pos hbehind, if_pos (by omega)]
        congr 1
        omega
      · rw [if_neg hbehind]
        by_cases hhere : buffer ≤ i ∧ i < buffer + count
        · rw [if_pos hhere, if_pos (by omega)]
        · rw [if_neg hhere, if_neg (by omega)]

end Card

end Bench

end CardHost
