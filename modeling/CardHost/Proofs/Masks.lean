import CardHost.Command

/-!
# Masks on words

How the tests `hasAll` and `hasAny` see through the operations that build register values: bits put
in, bits cleared, and bits without a name dropped.  What is left to check at a use is one equation
between two constants.  Of two operations on the same bits the later one decides.
-/

namespace CardHost

theorem or_and_distrib (word bits mask : UInt32) :
    (word ||| bits) &&& mask = (word &&& mask) ||| (bits &&& mask) := by
  apply UInt32.toBitVec_inj.mp
  exact BitVec.and_or_distrib_right

/-- Bits that were put in are there. -/
theorem hasAll_or {bits mask : UInt32} (h : bits &&& mask = mask) (word : UInt32) :
    hasAll (word ||| bits) mask = true := by
  have habsorb : (word &&& mask) ||| mask = mask := by
    apply UInt32.toBitVec_inj.mp
    apply BitVec.eq_of_getElem_eq
    intro i hi
    simp
  rw [hasAll, or_and_distrib, h, habsorb, beq_self_eq_true]

/-- Other bits put in do not matter. -/
theorem hasAll_or_of_disjoint {bits mask : UInt32} (h : bits &&& mask = 0) (word : UInt32) :
    hasAll (word ||| bits) mask = hasAll word mask := by
  rw [hasAll, or_and_distrib, h, UInt32.or_zero, hasAll]

/-- Other bits cleared do not matter. -/
theorem hasAll_without {bits mask : UInt32} (h : ~~~bits &&& mask = mask) (word : UInt32) :
    hasAll (without word bits) mask = hasAll word mask := by
  rw [hasAll, without, UInt32.and_assoc, h, hasAll]

/-- Bits that were cleared are not there, nor is any part of them. -/
theorem hasAny_without_of_part {bits part : UInt32} (h : ~~~bits &&& part = 0) (word : UInt32) :
    hasAny (without word bits) part = false := by
  rw [hasAny, without, UInt32.and_assoc, h, UInt32.and_zero]
  rfl

theorem hasAny_without (word bits : UInt32) : hasAny (without word bits) bits = false :=
  hasAny_without_of_part (by rw [UInt32.and_comm, UInt32.and_not_self]) word

/-- A word that has a mask has every part of it. -/
theorem hasAll_of_part {word mask part : UInt32} (h : hasAll word mask = true)
    (hpart : mask &&& part = part) : hasAll word part = true := by
  have hmask : word &&& mask = mask := beq_iff_eq.mp h
  refine beq_iff_eq.mpr ?_
  rw [← hpart, ← UInt32.and_assoc, hmask]

/-- A word that has a part of a mask has some of the mask. -/
theorem hasAny_of_part {word mask part : UInt32} (h : hasAll word part = true)
    (hpart : mask &&& part = part) (hsome : part ≠ 0) : hasAny word mask = true := by
  have hword : word &&& part = part := beq_iff_eq.mp h
  refine bne_iff_ne.mpr fun hnone => hsome ?_
  rw [← hpart, ← UInt32.and_assoc, hnone, UInt32.zero_and] at hword
  rw [← hpart, hword]

/-- Some of two masks is some of the one or of the other. -/
theorem hasAny_mask_or (word first second : UInt32) :
    hasAny word (first ||| second) = (hasAny word first || hasAny word second) := by
  have hmask : word &&& (first ||| second) = (word &&& first) ||| (word &&& second) := by
    rw [UInt32.and_comm, or_and_distrib, UInt32.and_comm first, UInt32.and_comm second]
  rw [Bool.eq_iff_iff]
  simp only [hasAny, hmask, bne_iff_ne, ne_eq, Bool.or_eq_true, UInt32.or_eq_zero_iff]
  exact Decidable.not_and_iff_not_or_not

/-- Of a single bit, all of it is some of it. -/
theorem hasAll_eq_hasAny {bit : UInt32} {i : Nat} (hbit : bit.toBitVec = BitVec.twoPow 32 i)
    (hsome : bit ≠ 0) (word : UInt32) : hasAll word bit = hasAny word bit := by
  have hword : word &&& bit = 0 ∨ word &&& bit = bit := by
    rw [← UInt32.toBitVec_inj, ← UInt32.toBitVec_inj, UInt32.toBitVec_and, hbit,
      BitVec.and_twoPow]
    split
    · exact .inr rfl
    · exact .inl rfl
  rcases hword with hnone | hall
  · rw [hasAll, hasAny, hnone, beq_false_of_ne hsome.symm]
    rfl
  · rw [hasAll, hasAny, hall, beq_self_eq_true, bne_iff_ne.mpr hsome]

/-! ## Bits put in and cleared -/

theorem without_zero (word : UInt32) : without word 0 = word := by
  rw [without, UInt32.not_zero, UInt32.and_neg_one]

theorem without_without (word bits : UInt32) :
    without (without word bits) bits = without word bits := by
  rw [without, without, UInt32.and_assoc, UInt32.and_self]

theorem without_comm (word bits mask : UInt32) :
    without (without word bits) mask = without (without word mask) bits := by
  rw [without, without, UInt32.and_assoc, UInt32.and_comm (~~~bits), ← UInt32.and_assoc]
  rfl

theorem without_or (word bits mask : UInt32) :
    without (word ||| bits) mask = without word mask ||| without bits mask :=
  or_and_distrib word bits (~~~mask)

/-- Clearing bits undoes putting them in. -/
theorem without_or_self (word bits : UInt32) :
    without (word ||| bits) bits = without word bits := by
  have hnone : without bits bits = 0 := UInt32.and_not_self
  rw [without_or, hnone, UInt32.or_zero]

/-- Putting bits in undoes clearing them. -/
theorem or_without (word bits : UInt32) : without word bits ||| bits = word ||| bits := by
  apply UInt32.toBitVec_inj.mp
  apply BitVec.eq_of_getElem_eq
  intro i hi
  simp only [without, UInt32.toBitVec_or, UInt32.toBitVec_and, UInt32.toBitVec_not,
    BitVec.getElem_or, BitVec.getElem_and, BitVec.getElem_not]
  cases word.toBitVec[i] <;> cases bits.toBitVec[i] <;> rfl

/-- Bits are put in once. -/
theorem or_or_self (word bits : UInt32) : word ||| bits ||| bits = word ||| bits := by
  rw [UInt32.or_assoc, UInt32.or_self]

/-- Clearing every bit leaves none. -/
theorem without_all (word : UInt32) : without word 0xFFFFFFFF = 0 := by
  rw [without, show ~~~(0xFFFFFFFF : UInt32) = 0 by decide, UInt32.and_zero]

/-! ## Bits with names -/

/-- Named bits survive the loss of bits without a name. -/
theorem Layout.hasAll_truncate {layout : Layout} {mask : UInt32}
    (h : layout.known &&& mask = mask) (word : UInt32) :
    hasAll (layout.truncate word) mask = hasAll word mask := by
  rw [hasAll, truncate, UInt32.and_assoc, h, hasAll]

namespace CommandWord

/-- Whether a word moves data is one bit of it. -/
theorem isData_eq (word : CommandWord) :
    word.isData = hasAll word.bits CommandFlags.dataExpected :=
  Layout.hasAll_truncate (by decide) word.bits

/-- Which way the data goes is another. -/
theorem isWrite_eq (word : CommandWord) :
    word.isWrite = (word.isData && hasAll word.bits CommandFlags.toCard) := by
  unfold isWrite flags
  rw [Layout.hasAll_truncate (by decide)]

/-- The start bit says nothing about data. -/
theorem hasAll_withStart_data (word : CommandWord) :
    hasAll word.withStart.bits CommandFlags.dataExpected = word.isData := by
  rw [isData_eq]
  exact hasAll_or_of_disjoint (by decide) word.bits

end CommandWord

end CardHost
