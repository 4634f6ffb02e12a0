/-!
# Little endian words

Memory holds bytes; descriptors and registers are 32-bit words stored with the least significant
byte first.  `toBytes` and `ofBytes` convert one word, and `ofBytes_toBytes` says that nothing is
lost on the way.
-/

namespace CardHost.Bytes

/-- The four bytes of a word, least significant first. -/
def toBytes (w : UInt32) : List UInt8 :=
  [UInt8.ofNat w.toNat, UInt8.ofNat (w.toNat / 0x100), UInt8.ofNat (w.toNat / 0x10000),
    UInt8.ofNat (w.toNat / 0x1000000)]

/-- The word of four bytes, least significant first. -/
def ofBytes (b0 b1 b2 b3 : UInt8) : UInt32 :=
  UInt32.ofNat (b0.toNat + 0x100 * b1.toNat + 0x10000 * b2.toNat + 0x1000000 * b3.toNat)

@[simp]
theorem length_toBytes (w : UInt32) : (toBytes w).length = 4 := rfl

theorem toNat_ofBytes (b0 b1 b2 b3 : UInt8) :
    (ofBytes b0 b1 b2 b3).toNat =
      b0.toNat + 0x100 * b1.toNat + 0x10000 * b2.toNat + 0x1000000 * b3.toNat := by
  have h0 := b0.toNat_lt
  have h1 := b1.toNat_lt
  have h2 := b2.toNat_lt
  have h3 := b3.toNat_lt
  rw [ofBytes, UInt32.toNat_ofNat_of_lt']
  change _ < 2 ^ 32
  omega

/-- A word is read back from its four bytes. -/
theorem ofBytes_toBytes (w : UInt32) :
    ofBytes (UInt8.ofNat w.toNat) (UInt8.ofNat (w.toNat / 0x100))
      (UInt8.ofNat (w.toNat / 0x10000)) (UInt8.ofNat (w.toNat / 0x1000000)) = w := by
  have hw := w.toNat_lt
  apply UInt32.toNat_inj.mp
  simp only [toNat_ofBytes, UInt8.toNat_ofNat']
  omega

/-- The words of a byte string, four bytes each; a rest of fewer than four bytes is dropped. -/
def toWords : List UInt8 → List UInt32
  | b0 :: b1 :: b2 :: b3 :: rest => ofBytes b0 b1 b2 b3 :: toWords rest
  | _ => []

/-- The bytes of a list of words. -/
def ofWords (words : List UInt32) : List UInt8 :=
  words.flatMap toBytes

theorem toWords_ofWords (words : List UInt32) : toWords (ofWords words) = words := by
  induction words with
  | nil => rfl
  | cons w rest ih =>
      change toWords (toBytes w ++ ofWords rest) = w :: rest
      simp only [toBytes, List.cons_append, List.nil_append, toWords, ih, ofBytes_toBytes]

/-- The low half of a 64-bit address. -/
def lowHalf (address : UInt64) : UInt32 :=
  UInt32.ofNat address.toNat

/-- The high half of a 64-bit address. -/
def highHalf (address : UInt64) : UInt32 :=
  UInt32.ofNat (address.toNat / 0x100000000)

/-- The address of two halves. -/
def join (low high : UInt32) : UInt64 :=
  UInt64.ofNat (0x100000000 * high.toNat + low.toNat)

theorem toNat_join (low high : UInt32) :
    (join low high).toNat = 0x100000000 * high.toNat + low.toNat := by
  have hl := low.toNat_lt
  have hh := high.toNat_lt
  rw [join, UInt64.toNat_ofNat_of_lt']
  change _ < 2 ^ 64
  omega

/-- An address is its two halves. -/
theorem join_halves (address : UInt64) : join (lowHalf address) (highHalf address) = address := by
  have h := address.toNat_lt
  apply UInt64.toNat_inj.mp
  simp only [toNat_join, lowHalf, highHalf, UInt32.toNat_ofNat']
  omega

theorem lowHalf_join (low high : UInt32) : lowHalf (join low high) = low := by
  have hl := low.toNat_lt
  apply UInt32.toNat_inj.mp
  simp only [lowHalf, toNat_join, UInt32.toNat_ofNat']
  omega

theorem highHalf_join (low high : UInt32) : highHalf (join low high) = high := by
  have hl := low.toNat_lt
  have hh := high.toNat_lt
  apply UInt32.toNat_inj.mp
  simp only [highHalf, toNat_join, UInt32.toNat_ofNat']
  omega

end CardHost.Bytes
