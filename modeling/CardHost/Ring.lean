import CardHost.Pages
import CardHost.Window

/-!
# The descriptor ring

One run of descriptors serves every transfer of a controller.  A fresh ring is closed: each
descriptor names the next one and the last names the first.  A transfer writes over the descriptors
it needs, from the first on, with a chain that ends at the last of them.

The descriptors themselves are computed by pure functions (`fresh`, `chain`), and the programs only
store them; addresses past the end of the address space have no descriptors.
-/

namespace CardHost

/-- A ring of descriptors in pages of its own. -/
structure Ring where
  base : UInt64
  count : Nat
  pages : Nat
deriving DecidableEq

namespace Ring

/-- A ring that was freed. -/
def freed : Ring := ⟨0, 0, 0⟩

def isEmpty (ring : Ring) : Bool :=
  ring.count == 0

/-- The place of a descriptor. -/
def place (ring : Ring) (index : Nat) : Nat :=
  ring.base.toNat + index * descriptorSize

/-- The address of a descriptor. -/
def address (ring : Ring) (index : Nat) : UInt64 :=
  UInt64.ofNat (ring.place index)

/-- The address of a descriptor, if it is one. -/
def address? (ring : Ring) (index : Nat) : Option UInt64 :=
  if ring.place index < wordSpan then some (ring.address index) else none

/-! ## The contents of a ring -/

/-- The descriptor of a fresh ring: it names the next one, the last one the first. -/
def freshEntry (ring : Ring) (index : Nat) : Descriptor where
  flags := 0
  size := 0
  buffer := 0
  next := ring.address ((index + 1) % ring.count)

/-- The descriptors of a fresh ring. -/
def fresh (ring : Ring) : List Descriptor :=
  (List.range ring.count).map ring.freshEntry

/-- The flags of a segment.  All belong to the DMA engine; the last one ends the chain and is the
only one that reports. -/
def segmentFlags (first last : Bool) : UInt32 :=
  DescriptorFlags.owned
    ||| (if first then DescriptorFlags.first else 0)
    ||| (if last then DescriptorFlags.last ||| DescriptorFlags.endOfRing
      else DescriptorFlags.chained ||| DescriptorFlags.quiet)

/-- The descriptor of one segment of a transfer through `buffer`. -/
def segmentEntry (ring : Ring) (geometry : Geometry) (buffer : UInt64) (segment index : Nat) :
    Descriptor :=
  let last := index + 1 == geometry.segments
  { flags := segmentFlags (index == 0) last
    size := UInt32.ofNat (if last then geometry.lastSegment else segment)
    buffer := UInt64.ofNat (buffer.toNat + index * segment)
    next := if last then 0 else ring.address (index + 1) }

/-- The descriptors of a transfer. -/
def chain (ring : Ring) (geometry : Geometry) (buffer : UInt64) (segment : Nat) :
    List Descriptor :=
  (List.range geometry.segments).map (ring.segmentEntry geometry buffer segment)

/-- The descriptors of a transfer, if every address they are computed from is one; the place behind
the last descriptor counts among them. -/
def chain? (ring : Ring) (geometry : Geometry) (buffer : UInt64) (segment : Nat) :
    Option (List Descriptor) :=
  if buffer.toNat + (geometry.segments - 1) * segment < wordSpan
      ∧ ring.place geometry.segments < wordSpan then
    some (ring.chain geometry buffer segment)
  else
    none

/-! ## Programs -/

/-- Stores a descriptor. -/
def put (ring : Ring) (index : Nat) (descriptor : Descriptor) : Prog σ Unit :=
  Prog.request (.store (ring.place index) descriptor.encode.toBytes)

/-- The descriptor at an index; a ring holds as many as its count. -/
def get? (ring : Ring) (index : Nat) : Prog σ (Option Descriptor) :=
  if index < ring.count then do
    let bytes ← Prog.request (.load (ring.place index) descriptorSize)
    pure (some (DescriptorWords.ofBytes bytes).decode)
  else
    pure none

/-- Stores descriptors from an index on. -/
def putFrom (ring : Ring) : Nat → List Descriptor → Prog σ Unit
  | _, [] => pure ()
  | index, descriptor :: rest => do
    ring.put index descriptor
    ring.putFrom (index + 1) rest

/-- Makes the ring fresh. -/
def reset (ring : Ring) : Prog σ Unit :=
  if ring.count = 0 ∨ ring.place (ring.count - 1) < wordSpan then
    ring.putFrom 0 ring.fresh
  else
    .fault

/-- Allocates a fresh ring. -/
def allocate (services : Services) (count : Nat) : Action σ Ring := do
  if count = 0 then
    throw .invalidArgument
  else if wordSpan ≤ count * descriptorSize then
    Prog.fault.lift
  else do
    let pages ← (Pages.allocate services (pagesFor (count * descriptorSize))).onError
      fun error => .ringNotAllocated count error
    let ring : Ring := ⟨pages.address, count, pages.count⟩
    ring.reset.lift
    (Prog.log (.ringReady count ring.base)).lift
    pure ring

/-- Gives the pages of a ring back.  A ring that was freed has none. -/
def free (ring : Ring) (services : Services) : Action σ Unit :=
  if ring.isEmpty then pure () else services.free ring.base ring.pages

/-- Stores the descriptors of a transfer, saying so for each. -/
def putChain (ring : Ring) : Nat → List Descriptor → Prog σ Unit
  | _, [] => pure ()
  | index, descriptor :: rest => do
    Prog.log (.chainEntry index descriptor)
    ring.put index descriptor
    ring.putChain (index + 1) rest

/-- Describes a transfer of `length` bytes through `buffer` in the ring. -/
def prepare (ring : Ring) (length : Nat) (buffer : UInt64) (segment block : Nat) :
    Action σ Geometry := do
  if length = 0 then
    throw .invalidArgument
  else do
    let geometry ← (Prog.require (Geometry.ofLength? length segment block)).lift
    if ring.count < geometry.segments then do
      (Prog.log (.ringExceeded length geometry.segments ring.count)).lift
      throw .outOfResources
    else do
      let descriptors ← (Prog.require (ring.chain? geometry buffer segment)).lift
      (ring.putChain 0 descriptors).lift
      pure geometry

/-- Points the DMA engine at the first descriptor and soft resets it. -/
def program (ring : Ring) (window : Window) : Prog σ Unit := do
  window.write Register.listLow.offset (Bytes.lowHalf ring.base)
  window.write Register.listHigh.offset (Bytes.highHalf ring.base)
  window.setBits Register.busMode.offset BusMode.softReset

/-- Enables the DMA engine and sets block size and byte count. -/
def start (window : Window) (length block : Nat) : Prog σ Unit := do
  window.setBits Register.control.offset (Control.interruptEnable ||| Control.internalDma)
  window.setBits Register.busMode.offset BusMode.enable
  window.write Register.blockSize.offset (UInt32.ofNat block)
  window.write Register.byteCount.offset (UInt32.ofNat length)

def render (ring : Ring) : String :=
  Text.record "DescriptorRing"
    [("base", Text.hex ring.base.toNat), ("count", toString ring.count),
      ("pages", toString ring.pages)]

end Ring

end CardHost
