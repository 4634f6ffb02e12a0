import CardHost.Proofs.Budgets
import CardHost.Proofs.Exposure

/-!
# The advertised limits are what the ring carries

A length is rounded up twice, to segments and to blocks, and the limits that a host advertises are
products and quotients of its configuration.  `Host.capacity` is the one number behind them: the
bytes that the descriptors of the ring address together, as an unbounded product.

Both checks of a transfer against the ring accept exactly the lengths up to it
(`Host.ChecksCapacity`), the advertised limits lie within it, and a length that does has no more
segments, and no larger ones, than advertised (`Host.limits_exact`).
-/

namespace CardHost

namespace Host

variable (host : Host)

/-- The bytes that the descriptors of the ring can address together. -/
def capacity : Nat :=
  host.config.descriptorCount.toNat * host.config.segmentSize.toNat

/-- A split has enough descriptors exactly if the length is within the capacity. -/
theorem segments_le_iff (length : Nat) :
    (host.split length).segments ≤ host.config.descriptorCount.toNat ↔ length ≤ host.capacity := by
  obtain ⟨⟨hsegment, -⟩, -⟩ := host.config.usable_iff.mp host.usable
  exact ceilDiv_le_iff hsegment

/-- The advertised largest request is within the capacity. -/
theorem maxRequest_le_capacity : host.limits.maxRequest.toNat ≤ host.capacity := by
  obtain ⟨-, -, hring, -⟩ := host.config.usable_iff.mp host.usable
  exact Nat.le_trans hring (Nat.min_le_left _ _)

/-- So are the advertised blocks together. -/
theorem maxBlocks_le_maxRequest :
    host.limits.maxBlockCount.toNat * host.limits.maxBlockSize.toNat ≤
      host.limits.maxRequest.toNat := by
  show (host.config.maxRequest / host.config.blockSize).toNat * host.config.blockSize.toNat ≤
    host.config.maxRequest.toNat
  rw [UInt64.toNat_div]
  exact Nat.div_mul_le_self _ _

section Split

variable {length : Nat}

/-- The whole blocks of a slice fit a word. -/
theorem bytes_lt_wordSpan (sliced : length < sliceLimit) :
    (host.split length).bytes < wordSpan := by
  have hsplits := host.splits_of_lt sliced
  unfold Geometry.ofLength? at hsplits
  split at hsplits
  · cases hsplits
  · rename_i hfits
    rw [not_or, not_or] at hfits
    exact Nat.lt_of_not_le hfits.2.2

/-- A segment has at most the advertised size, which its field keeps. -/
theorem segment_le_maxSegmentSize (positive : 0 < length) (ring : Ring) (address : UInt64)
    (index : Nat) :
    let entry := ring.segmentEntry (host.split length) address host.config.segmentSize.toNat index
    entry.size.toNat ≤ host.limits.maxSegmentSize.toNat ∧ entry.encode.decode = entry := by
  have hcarriable := host.carriable positive
  have hlast := Geometry.lastSegment_le hcarriable.lengthPos hcarriable.segmentPos
    hcarriable.blockPos hcarriable.whole
  have hsize := hcarriable.size_eq ring address index
  have hle : (ring.segmentEntry (host.split length) address host.config.segmentSize.toNat
      index).size.toNat ≤ host.config.segmentSize.toNat := by
    show (ring.segmentEntry (.ofLength length _ _) address _ index).size.toNat ≤ _
    rw [hsize]
    split
    · exact hlast
    · exact Nat.le_refl _
  exact ⟨hle, Descriptor.decode_encode (Nat.le_trans hle hcarriable.segmentLe)⟩

end Split

/-! ## The checks -/

/-- Both checks against the ring accept a length exactly if it is within the capacity: a data phase
that is fine otherwise then borrows its staging pages, and preparing the ring then stores the chain.
A longer length is out of resources for either. -/
structure ChecksCapacity (ring : Ring) (length : Nat) : Prop where
  phase (latch : Latch) (buffer : DataBuffer) (direction : latch.word.isWrite = buffer.isWrite)
      (supplied : length ≤ buffer.size) :
    (host.runLatched ring latch length buffer : Action HostState (List UInt8)).run =
      if length ≤ host.capacity then
        (Pages.borrow host.services (host.split length).stagingPages .stagingNotAllocated
          (host.moveThrough ring latch length buffer)).run
      else
        (Prog.log (.transferExceedsRing length)).bind fun _ => .done (.error .outOfResources)
  prepare (address : UInt64) :
    (ring.prepare length address host.config.segmentSize.toNat host.config.blockSize.toNat :
        Action HostState Geometry).run =
      if length ≤ host.capacity then
        (Prog.require (ring.chain? (host.split length) address
          host.config.segmentSize.toNat)).bind fun descriptors =>
            (ring.putChain 0 descriptors).bind fun _ => .done (.ok (host.split length))
      else
        (Prog.log (.ringExceeded length (host.split length).segments ring.count)).bind fun _ =>
          .done (.error .outOfResources)

theorem checksCapacity {ring : Ring} (count : ring.count = host.config.descriptorCount.toNat)
    {length : Nat} (positive : 0 < length) (sliced : length < sliceLimit) :
    host.ChecksCapacity ring length := by
  have hsplits := host.splits_of_lt sliced
  have hroom : ring.count < (host.split length).segments ↔ ¬ length ≤ host.capacity := by
    rw [← segments_le_iff, count, Nat.not_le]
  constructor
  · intro latch buffer direction supplied
    by_cases hwithin : length ≤ host.capacity
    · rw [if_pos hwithin]
      apply runLatched_moves host direction positive supplied hsplits
      rw [count]
      exact (host.segments_le_iff length).mpr hwithin
    · have hlength : ¬ (length = 0 ∨ buffer.size < length) := by omega
      rw [if_neg hwithin]
      unfold runLatched
      rw [if_neg (Decidable.not_not.mpr direction), if_neg hlength, Action.run_lift_bind, hsplits]
      simp only [Prog.require, Prog.bind, if_pos (hroom.mpr hwithin)]
      rfl
  · intro address
    unfold Ring.prepare
    rw [if_neg (Nat.pos_iff_ne_zero.mp positive), hsplits, Action.run_lift_bind]
    simp only [Prog.require, Prog.bind]
    by_cases hwithin : length ≤ host.capacity
    · rw [if_pos hwithin, if_neg fun hexceeds => hroom.mp hexceeds hwithin, Action.run_lift_bind]
      simp only [Action.run_lift_bind]
      rfl
    · rw [if_neg hwithin, if_pos (hroom.mpr hwithin)]
      rfl

/-- The advertised limits are exact.  Every length of a slice has a split, computed without leaving
the range of a word; the ring of a loaded host takes it exactly if it is within the capacity, and
then it has no more segments than advertised.  What is advertised, as one request or as blocks, is
within the capacity, and no segment is larger than advertised or than its field. -/
theorem limits_exact {length : Nat} (positive : 0 < length) (sliced : length < sliceLimit) :
    (Geometry.ofLength? length host.config.segmentSize.toNat host.config.blockSize.toNat =
        some (host.split length)
      ∧ (host.split length).bytes < wordSpan
      ∧ ((host.split length).segments - 1) * host.config.segmentSize.toNat <
        (host.split length).bytes)
    ∧ (∀ state, host.Reached state → host.ChecksCapacity state.ring length)
    ∧ (length ≤ host.limits.maxRequest.toNat
        ∨ length ≤ host.limits.maxBlockCount.toNat * host.limits.maxBlockSize.toNat →
      length ≤ host.capacity)
    ∧ (length ≤ host.capacity → (host.split length).segments ≤ host.limits.maxSegments.toNat)
    ∧ (∀ (ring : Ring) (address : UInt64) (index : Nat),
      let entry := ring.segmentEntry (host.split length) address host.config.segmentSize.toNat index
      entry.size.toNat ≤ host.limits.maxSegmentSize.toNat ∧ entry.encode.decode = entry)
    ∧ host.limits.maxSegmentSize.toNat < 0x2000 := by
  refine ⟨⟨host.splits_of_lt sliced, host.bytes_lt_wordSpan sliced,
    host.before_last_lt_bytes positive⟩, ?_, ?_, ?_, ?_, ?_⟩
  · intro state reached
    exact host.checksCapacity reached.sized_proper.1.1 positive sliced
  · have hrequest := host.maxRequest_le_capacity
    have hblocks := host.maxBlocks_le_maxRequest
    omega
  · exact (host.segments_le_iff length).mpr
  · exact host.segment_le_maxSegmentSize positive
  · exact Nat.lt_succ_of_le (host.carriable positive).segmentLe

/-- One byte is within the limits of a host with a single descriptor, and so it is for its ring. -/
theorem one_byte_within_limits :
    1 ≤ hastyHost.capacity ∧ hastyHost.ChecksCapacity latchedState.ring 1 := by
  obtain ⟨-, hchecks, hwithin, -⟩ := hastyHost.limits_exact
    (show 0 < 1 by decide) (show 1 < sliceLimit by decide)
  exact ⟨hwithin (.inl (by decide)), hchecks latchedState latchedState_reached⟩

end Host

end CardHost
