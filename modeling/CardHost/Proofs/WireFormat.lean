import CardHost.Descriptor

/-!
# Descriptors on the wire

A descriptor has two forms: whole addresses and a size of any 32 bits (`Descriptor`), and the eight
words that the DMA engine fetches (`DescriptorWords`), which keep thirteen bits of the size and have
two words to spare.  Neither conversion is the inverse of the other on everything.  What is lost
either way is one function on each side: `Descriptor.narrowed` cuts the size to its field, and
`DescriptorWords.tidied` does the same and clears the spare words.

Main statement: `Descriptor.round_trips_on_wire`.  There and back is `narrowed` on descriptors and
`tidied` on words, each the identity exactly where nothing is to be lost, and the bytes in memory
determine the words.
-/

namespace CardHost

/-! ## Bytes of words -/

namespace Bytes

/-- Bytes of a list of words, least significant first in each. -/
theorem getElem?_ofWords {words : List UInt32} {i j : Nat} (hi : i < words.length) (hj : j < 4) :
    (ofWords words)[4 * i + j]? = some (UInt8.ofNat (words[i].toNat >>> (8 * j))) := by
  induction words generalizing i with
  | nil => simp at hi
  | cons word rest ih =>
      show (toBytes word ++ ofWords rest)[4 * i + j]? = _
      cases i with
      | zero =>
          rw [List.getElem?_append_left (by simpa using hj)]
          obtain rfl | rfl | rfl | rfl : j = 0 ∨ j = 1 ∨ j = 2 ∨ j = 3 := by omega
          all_goals simp [toBytes, Nat.shiftRight_eq_div_pow]
      | succ i =>
          have hbehind : 4 * (i + 1) + j - (toBytes word).length = 4 * i + j := by
            rw [length_toBytes]
            omega
          rw [List.getElem?_append_right (by rw [length_toBytes]; omega), hbehind]
          exact ih (Nat.lt_of_succ_lt_succ hi)

end Bytes

/-! ## The size field -/

/-- The size field keeps what is left of a size modulo its span. -/
theorem sizeField_eq_mod (size : UInt32) : size &&& 0x1FFF = size % 0x2000 := by
  apply UInt32.toNat_inj.mp
  rw [UInt32.toNat_and, UInt32.toNat_mod]
  exact Nat.and_two_pow_sub_one_eq_mod size.toNat 13

theorem sizeField_twice (size : UInt32) : size &&& 0x1FFF &&& 0x1FFF = size % 0x2000 := by
  rw [UInt32.and_assoc, UInt32.and_self, sizeField_eq_mod]

/-- A size that fits the field is kept. -/
theorem sizeField_eq_self_iff (size : UInt32) : size % 0x2000 = size ↔ size ≤ 0x1FFF := by
  rw [← UInt32.toNat_inj, UInt32.toNat_mod, UInt32.le_iff_toNat_le]
  show size.toNat % 0x2000 = size.toNat ↔ size.toNat ≤ 0x1FFF
  omega

/-! ## There and back -/

/-- The descriptor with its size cut to the thirteen bits of the field. -/
def Descriptor.narrowed (d : Descriptor) : Descriptor :=
  { d with size := d.size % 0x2000 }

/-- The words with the spare ones cleared and the size cut to the thirteen bits of its field. -/
def DescriptorWords.tidied (w : DescriptorWords) : DescriptorWords :=
  { w with reserved1 := 0, size := w.size % 0x2000, reserved3 := 0 }

namespace Descriptor

variable {d : Descriptor}

theorem decode_encode_eq_narrowed (d : Descriptor) : d.encode.decode = d.narrowed := by
  unfold encode DescriptorWords.decode narrowed
  simp only [Bytes.join_halves, sizeField_twice]

/-- What the field does not hold does not reach the words. -/
theorem encode_narrowed (d : Descriptor) : d.narrowed.encode = d.encode := by
  unfold narrowed encode
  simp only [← sizeField_eq_mod, UInt32.and_assoc, UInt32.and_self]

theorem narrowed_eq_self_iff : d.narrowed = d ↔ d.size ≤ 0x1FFF := by
  rw [← sizeField_eq_self_iff]
  constructor
  · intro h
    exact congrArg Descriptor.size h
  · intro h
    unfold narrowed
    rw [h]

/-- A descriptor whose size fits its field is read back as it was stored. -/
theorem decode_encode (hsize : d.size.toNat ≤ maxSegment) : d.encode.decode = d := by
  rw [decode_encode_eq_narrowed, narrowed_eq_self_iff, UInt32.le_iff_toNat_le]
  exact hsize

end Descriptor

namespace DescriptorWords

variable {w : DescriptorWords}

theorem encode_decode_eq_tidied (w : DescriptorWords) : w.decode.encode = w.tidied := by
  unfold decode Descriptor.encode tidied
  simp only [Bytes.lowHalf_join, Bytes.highHalf_join, sizeField_twice]

theorem tidied_eq_self_iff :
    w.tidied = w ↔ w.reserved1 = 0 ∧ w.reserved3 = 0 ∧ w.size ≤ 0x1FFF := by
  rw [← sizeField_eq_self_iff]
  constructor
  · intro h
    have hreserved1 : 0 = w.reserved1 := congrArg reserved1 h
    have hreserved3 : 0 = w.reserved3 := congrArg reserved3 h
    exact ⟨hreserved1.symm, hreserved3.symm, congrArg DescriptorWords.size h⟩
  · rintro ⟨hfirst, hthird, hsize⟩
    obtain ⟨flags, reserved1, size, reserved3, bufferLow, bufferHigh, nextLow, nextHigh⟩ := w
    subst hfirst hthird
    exact congrArg (DescriptorWords.mk flags 0 · 0 bufferLow bufferHigh nextLow nextHigh) hsize

/-- The bytes in memory determine the words. -/
theorem toBytes_injective : Function.Injective toBytes :=
  Function.LeftInverse.injective ofBytes_toBytes

theorem getElem?_toBytes (w : DescriptorWords) {i j : Nat} (hi : i < 8) (hj : j < 4) :
    w.toBytes[4 * i + j]? = some (UInt8.ofNat ((w.toList.getD i 0).toNat >>> (8 * j))) := by
  have hlength : i < w.toList.length := hi
  rw [toBytes, Bytes.getElem?_ofWords hlength hj, List.getD_eq_getElem?_getD,
    List.getElem?_eq_getElem hlength, Option.getD_some]

end DescriptorWords

/-- Storing a descriptor and reading it back cuts its size to the field and changes nothing else, so
exactly those whose size fits come back as they were.  Reading words and storing them again clears
the spare ones and cuts the size, so exactly those that are tidy already come back.  The image in
memory is the eight words, each with its least significant byte first, and two images are the same
only if they are of one descriptor. -/
theorem Descriptor.round_trips_on_wire :
    (∀ d : Descriptor, d.encode.decode = d.narrowed ∧ (d.encode.decode = d ↔ d.size ≤ 0x1FFF))
    ∧ (∀ w : DescriptorWords, w.decode.encode = w.tidied
      ∧ (w.decode.encode = w ↔ w.reserved1 = 0 ∧ w.reserved3 = 0 ∧ w.size ≤ 0x1FFF))
    ∧ (∀ w : DescriptorWords, w.toBytes.length = 32
      ∧ ∀ i < 8, ∀ j < 4,
        w.toBytes[4 * i + j]? = some (UInt8.ofNat ((w.toList.getD i 0).toNat >>> (8 * j))))
    ∧ (∀ v w : DescriptorWords, v.toBytes = w.toBytes → v.decode = w.decode)
    ∧ ∀ d e : Descriptor, d.encode.toBytes = e.encode.toBytes ↔ d.narrowed = e.narrowed := by
  refine ⟨fun d => ?_, fun w => ?_, fun w => ?_, fun v w himages => ?_, fun d e => ?_⟩
  · rw [decode_encode_eq_narrowed]
    exact ⟨rfl, narrowed_eq_self_iff⟩
  · rw [DescriptorWords.encode_decode_eq_tidied]
    exact ⟨rfl, DescriptorWords.tidied_eq_self_iff⟩
  · exact ⟨w.length_toBytes, fun i hi j hj => w.getElem?_toBytes hi hj⟩
  · rw [DescriptorWords.toBytes_injective himages]
  · constructor
    · intro himages
      rw [← decode_encode_eq_narrowed, DescriptorWords.toBytes_injective himages,
        decode_encode_eq_narrowed]
    · intro hnarrowed
      rw [← d.encode_narrowed, hnarrowed, e.encode_narrowed]

/-- Two sizes that differ in a bit above the field have one image, which is read back as the
smaller. -/
theorem Descriptor.image_of_wide_size :
    (Descriptor.mk 0x80000008 0x3000 0x123456000 0x200000020).encode.toBytes =
        (Descriptor.mk 0x80000008 0x1000 0x123456000 0x200000020).encode.toBytes
      ∧ (Descriptor.mk 0x80000008 0x3000 0x123456000 0x200000020).encode.decode =
        (Descriptor.mk 0x80000008 0x1000 0x123456000 0x200000020).encode.decode := by
  have himages : (Descriptor.mk 0x80000008 0x3000 0x123456000 0x200000020).encode.toBytes =
      (Descriptor.mk 0x80000008 0x1000 0x123456000 0x200000020).encode.toBytes := by decide
  exact ⟨himages, round_trips_on_wire.2.2.2.1 _ _ himages⟩

end CardHost
