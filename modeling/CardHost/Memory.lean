import CardHost.Bytes
import Std.Data.TreeMap

/-!
# Byte memory

The driver, the DMA engine and the bench share one memory of bytes, zero where nothing was ever
written.  It is kept as lines of sixty-four bytes so that a transfer touches few table entries, in a
tree ordered by line number, but everything said about it goes through `get`, the byte at an
address.

Main statements: `get_write` and `get_fill` (what each operation does to every byte), `read_write`
(bytes written are read back) and `read_eq_of_get_eq`.
-/

namespace CardHost

/-- The bytes of one line. -/
abbrev lineSize : Nat := 64

/-- A line of zeros. -/
def blankLine : Vector UInt8 lineSize :=
  Vector.replicate lineSize 0

/-- Memory, by lines; a missing line is blank. -/
structure Memory where
  lines : Std.TreeMap Nat (Vector UInt8 lineSize) compare

namespace Memory

/-- Memory that was never written. -/
def blank : Memory := ⟨∅⟩

/-- The byte at an address. -/
def get (memory : Memory) (address : Nat) : UInt8 :=
  have inLine : address % lineSize < lineSize := Nat.mod_lt _ (by decide)
  (memory.lines.getD (address / lineSize) blankLine)[address % lineSize]

/-- A list with others put over it from an offset on; what reaches past its end is dropped. -/
def splice : Nat → List UInt8 → List UInt8 → List UInt8
  | _, _, [] => []
  | 0, [], old => old
  | 0, byte :: bytes, _ :: old => byte :: splice 0 bytes old
  | offset + 1, bytes, byte :: old => byte :: splice offset bytes old

@[simp]
theorem length_splice (offset : Nat) (bytes old : List UInt8) :
    (splice offset bytes old).length = old.length := by
  fun_induction splice offset bytes old <;> simp_all

theorem getD_splice (offset : Nat) (bytes old : List UInt8) (index : Nat)
    (inOld : index < old.length) (fallback : UInt8) :
    (splice offset bytes old).getD index fallback =
      if offset ≤ index then bytes.getD (index - offset) (old.getD index fallback)
      else old.getD index fallback := by
  fun_induction splice offset bytes old generalizing index with
  | case1 => simp at inOld
  | case2 => simp
  | case3 => cases index <;> simp_all
  | case4 => cases index <;> simp_all

/-- A line with bytes put over it from an offset on. -/
def overlay (old : Vector UInt8 lineSize) (offset : Nat) (bytes : List UInt8) :
    Vector UInt8 lineSize :=
  ⟨(splice offset bytes old.toList).toArray, by simp⟩

/-- The memory with bytes put over `count` lines, from an offset in the first of them on. -/
def overlayLines : Nat → Memory → Nat → Nat → List UInt8 → Memory
  | 0, memory, _, _, _ => memory
  | count + 1, ⟨lines⟩, line, offset, bytes =>
    overlayLines count
      ⟨lines.alter line fun old => some (overlay (old.getD blankLine) offset bytes)⟩
      (line + 1) 0 (bytes.drop (lineSize - offset))

/-- The memory with bytes stored from an address on. -/
def write (memory : Memory) (address : Nat) (bytes : List UInt8) : Memory :=
  let offset := address % lineSize
  overlayLines ((offset + bytes.length + (lineSize - 1)) / lineSize) memory (address / lineSize)
    offset bytes

/-- The memory with `count` bytes from an address on set to one value. -/
def fill (memory : Memory) (address count : Nat) (byte : UInt8) : Memory :=
  memory.write address (List.replicate count byte)

/-- The bytes of a range. -/
def read (memory : Memory) (address count : Nat) : List UInt8 :=
  (List.range count).map fun i => memory.get (address + i)

/-- The little endian word at an address. -/
def readWord (memory : Memory) (address : Nat) : UInt32 :=
  Bytes.ofBytes (memory.get address) (memory.get (address + 1)) (memory.get (address + 2))
    (memory.get (address + 3))

/-- The memory with a little endian word stored at an address. -/
def writeWord (memory : Memory) (address : Nat) (word : UInt32) : Memory :=
  memory.write address (Bytes.toBytes word)

@[simp]
theorem get_blank (address : Nat) : blank.get address = 0 := by
  simp [get, blank, blankLine]

theorem getElem_overlay (old : Vector UInt8 lineSize) (offset : Nat) (bytes : List UInt8)
    (index : Nat) (h : index < lineSize) :
    (overlay old offset bytes)[index] =
      if offset ≤ index then bytes.getD (index - offset) old[index] else old[index] := by
  have hs := getD_splice offset bytes old.toList index (by simpa using h) 0
  simpa [overlay, h] using hs

/-- Overlaying one line changes what the bytes cover of it. -/
theorem get_alter_overlay (memory : Memory) (line offset : Nat) (bytes : List UInt8) (other : Nat) :
    (Memory.mk (memory.lines.alter line fun old =>
        some (overlay (old.getD blankLine) offset bytes))).get other =
      if other / lineSize = line ∧ offset ≤ other % lineSize then
        bytes.getD (other % lineSize - offset) (memory.get other)
      else memory.get other := by
  simp only [get, Std.TreeMap.getD_alter, Nat.compare_eq_eq]
  by_cases hl : other / lineSize = line
  · subst hl
    simp only [if_true, true_and, Option.getD_some, getElem_overlay,
      Std.TreeMap.getD_eq_getD_getElem?]
  · simp only [Ne.symm hl, hl, false_and, if_false]

/-- Overlaying lines changes what the bytes cover of them. -/
theorem get_overlayLines (count : Nat) (memory : Memory) (line offset : Nat) (bytes : List UInt8)
    (hoffset : offset < lineSize) (other : Nat) :
    (overlayLines count memory line offset bytes).get other =
      if line * lineSize + offset ≤ other ∧ other < (line + count) * lineSize then
        bytes.getD (other - (line * lineSize + offset)) (memory.get other)
      else memory.get other := by
  induction count generalizing memory line offset bytes with
  | zero =>
      have h : ¬ (line * lineSize + offset ≤ other ∧ other < (line + 0) * lineSize) := by
        simp only [lineSize]
        omega
      rw [overlayLines, if_neg h]
  | succ count ih =>
      simp only [overlayLines]
      rw [ih _ _ _ _ (by decide), get_alter_overlay]
      simp only [lineSize] at hoffset ⊢
      by_cases behind : (line + 1) * 64 + 0 ≤ other ∧ other < (line + 1 + count) * 64
      · have hl : ¬ (other / 64 = line ∧ offset ≤ other % 64) := by omega
        have ht : line * 64 + offset ≤ other ∧ other < (line + (count + 1)) * 64 := by omega
        have hi : 64 - offset + (other - ((line + 1) * 64 + 0)) = other - (line * 64 + offset) := by
          omega
        rw [if_pos behind, if_neg hl, if_pos ht, List.getD_eq_getElem?_getD, List.getElem?_drop, hi,
          List.getD_eq_getElem?_getD]
      · by_cases inLine : other / 64 = line ∧ offset ≤ other % 64
        · have ht : line * 64 + offset ≤ other ∧ other < (line + (count + 1)) * 64 := by omega
          have hi : other % 64 - offset = other - (line * 64 + offset) := by omega
          rw [if_neg behind, if_pos inLine, if_pos ht, hi]
        · have ht : ¬ (line * 64 + offset ≤ other ∧ other < (line + (count + 1)) * 64) := by omega
          rw [if_neg behind, if_neg inLine, if_neg ht]

/-- Storing bytes changes exactly the range they cover. -/
theorem get_write (memory : Memory) (address other : Nat) (bytes : List UInt8) :
    (memory.write address bytes).get other =
      if address ≤ other then bytes.getD (other - address) (memory.get other)
      else memory.get other := by
  rw [write, get_overlayLines _ _ _ _ _ (Nat.mod_lt _ (by decide))]
  have hd : address / lineSize * lineSize + address % lineSize = address :=
    Nat.div_add_mod' address lineSize
  rw [hd]
  by_cases h : address ≤ other
  · rw [if_pos h]
    by_cases covered : other < address + bytes.length
    · rw [if_pos]
      simp only [lineSize] at hd ⊢
      omega
    · rw [List.getD_eq_getElem?_getD, List.getElem?_eq_none (by omega), Option.getD_none, ite_self]
  · rw [if_neg h, if_neg fun hc => h hc.1]

/-- Filling changes exactly the range filled. -/
theorem get_fill (memory : Memory) (address count other : Nat) (byte : UInt8) :
    (memory.fill address count byte).get other =
      if address ≤ other ∧ other < address + count then byte else memory.get other := by
  rw [fill, get_write]
  by_cases h : address ≤ other
  · by_cases hc : other < address + count
    · have hi : other - address < count := by omega
      simp [h, hc, hi, List.getD_eq_getElem?_getD]
    · have hi : ¬ other - address < count := by omega
      simp [h, hc, hi, List.getD_eq_getElem?_getD]
  · simp [h]

@[simp]
theorem length_read (memory : Memory) (address count : Nat) :
    (memory.read address count).length = count := by
  simp [read]

/-- A range reads the same in two memories that agree on it. -/
theorem read_eq_of_get_eq {memory other : Memory} {address count : Nat}
    (h : ∀ i < count, memory.get (address + i) = other.get (address + i)) :
    memory.read address count = other.read address count := by
  simp only [read]
  exact List.map_congr_left fun i hi => h i (List.mem_range.mp hi)

/-- Bytes stored are read back. -/
theorem read_write (memory : Memory) (address : Nat) (bytes : List UInt8) :
    (memory.write address bytes).read address bytes.length = bytes := by
  apply List.ext_getElem
  · simp
  · intro i h1 h2
    simp only [read, List.getElem_map, List.getElem_range, get_write, Nat.le_add_right, if_true,
      Nat.add_sub_cancel_left]
    simp [List.getD_eq_getElem?_getD, List.getElem?_eq_getElem h2]

theorem readWord_writeWord (memory : Memory) (address : Nat) (word : UInt32) :
    (memory.writeWord address word).readWord address = word := by
  have h (i : Nat) : address ≤ address + i := Nat.le_add_right address i
  simp only [writeWord, readWord, get_write, Nat.le_refl, h, if_true, Nat.sub_self,
    Nat.add_sub_cancel_left]
  exact Bytes.ofBytes_toBytes word

end Memory

end CardHost
