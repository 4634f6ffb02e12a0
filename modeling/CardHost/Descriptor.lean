import CardHost.Bytes
import CardHost.Config
import CardHost.Flags

/-!
# DMA descriptors

A transfer of some length is rounded up to whole blocks for the card and cut into segments for the
descriptors.  `Geometry.ofLength?` computes both roundings; it has no answer where a size is zero or
where the rounded length does not fit a 64-bit word.

The DMA engine follows a chain of descriptors of eight words each.  A descriptor names one buffer
segment and the next descriptor; addresses are stored as two halves and the size has thirteen bits.

Main definitions: `Geometry` (the split of a transfer), `Descriptor` (whole addresses),
`DescriptorWords` (the eight words in memory), `Descriptor.encode` and `DescriptorWords.decode`.
-/

namespace CardHost

/-! ## How a transfer is split -/

/-- The bytes of one page. -/
def pageSize : Nat := 0x1000

/-- How many whole pages hold a number of bytes. -/
def pagesFor (bytes : Nat) : Nat :=
  ceilDiv bytes pageSize

theorem le_pagesFor (bytes : Nat) : bytes ≤ pagesFor bytes * pageSize :=
  (ceilDiv_le_iff (by decide)).mp (Nat.le_refl _)

/-- How a transfer is split over descriptors and blocks. -/
structure Geometry where
  /-- Descriptors used. -/
  segments : Nat
  /-- Whole blocks moved. -/
  blocks : Nat
  /-- The bytes of these blocks. -/
  bytes : Nat
  /-- The bytes of the last descriptor. -/
  lastSegment : Nat
deriving DecidableEq

namespace Geometry

/-- The split itself: all segments are full but the last, which takes what is left of the blocks. -/
def ofLength (length segment block : Nat) : Geometry where
  segments := ceilDiv length segment
  blocks := ceilDiv length block
  bytes := ceilDiv length block * block
  lastSegment := ceilDiv length block * block - (ceilDiv length segment - 1) * segment

/-- The split of a length, if its sizes are positive and its bytes fit a word. -/
def ofLength? (length segment block : Nat) : Option Geometry :=
  if segment = 0 ∨ block = 0 ∨ wordSpan ≤ ceilDiv length block * block then none
  else some (ofLength length segment block)

/-- The pages of a staging buffer for the transfer. -/
def stagingPages (geometry : Geometry) : Nat :=
  pagesFor geometry.bytes

end Geometry

/-! ## Flags -/

namespace DescriptorFlags

/-- No interrupt when the segment is done. -/
def quiet : UInt32 := 0x2
/-- The last descriptor of the transfer. -/
def last : UInt32 := 0x4
/-- The first descriptor of the transfer. -/
def first : UInt32 := 0x8
/-- The second address is the next descriptor. -/
def chained : UInt32 := 0x10
/-- The end of the ring. -/
def endOfRing : UInt32 := 0x20
/-- Owned by the DMA engine. -/
def owned : UInt32 := 0x80000000

/-- The bits of the first word of a descriptor. -/
def layout : Layout where
  title := "DescriptorFlags"
  entries :=
    [("DIC", quiet), ("LD", last), ("FS", first), ("CH", chained), ("ER", endOfRing),
      ("OWN", owned)]

end DescriptorFlags

/-! ## Descriptors -/

/-- The bytes of one descriptor. -/
def descriptorSize : Nat := 32

/-- The eight words of a descriptor in memory.  The second and the fourth are reserved. -/
structure DescriptorWords where
  flags : UInt32
  reserved1 : UInt32
  size : UInt32
  reserved3 : UInt32
  bufferLow : UInt32
  bufferHigh : UInt32
  nextLow : UInt32
  nextHigh : UInt32
deriving DecidableEq

/-- A descriptor with whole addresses. -/
structure Descriptor where
  flags : UInt32
  size : UInt32
  buffer : UInt64
  next : UInt64
deriving DecidableEq

namespace Descriptor

/-- The words of a descriptor; of the size only the thirteen bits of the field are kept. -/
def encode (d : Descriptor) : DescriptorWords where
  flags := d.flags
  reserved1 := 0
  size := d.size &&& 0x1FFF
  reserved3 := 0
  bufferLow := Bytes.lowHalf d.buffer
  bufferHigh := Bytes.highHalf d.buffer
  nextLow := Bytes.lowHalf d.next
  nextHigh := Bytes.highHalf d.next

def render (d : Descriptor) : String :=
  Text.record "Descriptor"
    [("flags", DescriptorFlags.layout.render d.flags), ("size", Text.hex d.size.toNat),
      ("buffer", Text.hex d.buffer.toNat), ("next", Text.hex d.next.toNat)]

end Descriptor

namespace DescriptorWords

/-- The descriptor that eight words stand for. -/
def decode (w : DescriptorWords) : Descriptor where
  flags := w.flags
  size := w.size &&& 0x1FFF
  buffer := Bytes.join w.bufferLow w.bufferHigh
  next := Bytes.join w.nextLow w.nextHigh

/-- The words in the order of memory. -/
def toList (w : DescriptorWords) : List UInt32 :=
  [w.flags, w.reserved1, w.size, w.reserved3, w.bufferLow, w.bufferHigh, w.nextLow, w.nextHigh]

/-- Eight words as a descriptor; missing words count as zero. -/
def ofList (words : List UInt32) : DescriptorWords where
  flags := words.getD 0 0
  reserved1 := words.getD 1 0
  size := words.getD 2 0
  reserved3 := words.getD 3 0
  bufferLow := words.getD 4 0
  bufferHigh := words.getD 5 0
  nextLow := words.getD 6 0
  nextHigh := words.getD 7 0

@[simp]
theorem ofList_toList (w : DescriptorWords) : ofList w.toList = w := rfl

/-- The thirty-two bytes in memory. -/
def toBytes (w : DescriptorWords) : List UInt8 :=
  Bytes.ofWords w.toList

/-- The descriptor stored as bytes. -/
def ofBytes (bytes : List UInt8) : DescriptorWords :=
  ofList (Bytes.toWords bytes)

theorem length_toBytes (w : DescriptorWords) : w.toBytes.length = descriptorSize := rfl

/-- A descriptor is read back from its bytes. -/
@[simp]
theorem ofBytes_toBytes (w : DescriptorWords) : ofBytes w.toBytes = w := by
  rw [ofBytes, toBytes, Bytes.toWords_ofWords, ofList_toList]

end DescriptorWords

end CardHost
