import CardHost.Bench.RegisterFile
import CardHost.Descriptor
import CardHost.Memory

/-!
# The simulated card and its DMA engine

The card is a run of blocks.  A command answers through the response registers; a data command
also follows the descriptor chain in memory, collects the buffers it names and then moves the data.
Nothing moves unless the chain covers the whole transfer, and every descriptor followed goes back to
the driver by losing its ownership bit.

The engine follows a chain wherever it leads (`Reach.all`).  A bench may keep it to one range of
memory, for want of any other; a descriptor or a buffer outside is then as broken as a descriptor
that is not owned.

Main definitions: `walk` (follows a chain) and `CardBus.execute`.
-/

namespace CardHost.Bench

/-! ## Memory that DMA may touch -/

/-- The memory that the DMA engine reaches: all there is, or one range. -/
inductive Reach where
  | all
  | range (start stop : Nat)

/-- Whether the engine reaches some bytes. -/
def Reach.holds : Reach → Nat → Nat → Bool
  | all, _, _ => true
  | range start stop, address, count => start ≤ address && address + count ≤ stop

/-- With some bytes the engine reaches every part of them. -/
theorem Reach.holds_of_part {reach : Reach} {address count first part : Nat}
    (h : reach.holds address count = true) (hfirst : address ≤ first)
    (hpart : first + part ≤ address + count) : reach.holds first part = true := by
  cases reach with
  | all => rfl
  | range start stop =>
      simp only [holds, Bool.and_eq_true, decide_eq_true_eq] at h ⊢
      omega

/-! ## Status bits of data commands -/

/-- The command and its data are done. -/
def transferDone : UInt32 := RawInterrupt.commandDone ||| RawInterrupt.transferOver

/-- The chain does not reach as far as the transfer, or the card does not. -/
def transferShort : UInt32 := RawInterrupt.commandDone ||| RawInterrupt.readTimeout

/-- The chain cannot be followed. -/
def transferBroken : UInt32 := RawInterrupt.commandDone ||| RawInterrupt.endBit

/-! ## Following a chain -/

/-- What following a chain gives: the memory with ownership given back, the descriptors followed
with their addresses, and the buffers with their byte counts or the bits of a failure. -/
structure Walk where
  memory : Memory
  followed : List (Nat × Descriptor)
  buffers : Except UInt32 (List (Nat × Nat))

/-- A walk with one descriptor in front, of whose buffer some bytes are used. -/
def Walk.after (walk : Walk) (address : Nat) (descriptor : Descriptor) (count : Nat) : Walk where
  memory := walk.memory
  followed := (address, descriptor) :: walk.followed
  buffers := walk.buffers.map ((descriptor.buffer.toNat, count) :: ·)

/-- The descriptor at an address. -/
def descriptorAt (memory : Memory) (address : Nat) : Descriptor :=
  (DescriptorWords.ofBytes (memory.read address descriptorSize)).decode

/-- Whether a chain goes on with a descriptor, of whose buffer some bytes are used: there is one at
the address, it is owned by the engine, and the engine reaches it and the bytes of its buffer. -/
def Reach.follows (reach : Reach) (address : Nat) (descriptor : Descriptor) (count : Nat) : Bool :=
  address != 0 && hasAll descriptor.flags DescriptorFlags.owned
    && reach.holds address descriptorSize && reach.holds descriptor.buffer.toNat count

/-- Follows a chain until its buffers cover `left` bytes, over `steps` descriptors at most. -/
def walk (reach : Reach) : Nat → Memory → Nat → Nat → Walk
  | _, memory, _, 0 => ⟨memory, [], .ok []⟩
  | 0, memory, _, _ + 1 => ⟨memory, [], .error transferBroken⟩
  | steps + 1, memory, address, left + 1 =>
    let descriptor := descriptorAt memory address
    let count := min descriptor.size.toNat (left + 1)
    if reach.follows address descriptor count then
      let memory := memory.writeWord address (without descriptor.flags DescriptorFlags.owned)
      let rest := left + 1 - count
      let walked :=
        if hasAll descriptor.flags DescriptorFlags.last then
          ⟨memory, [], if rest = 0 then .ok [] else .error transferShort⟩
        else
          walk reach steps memory descriptor.next.toNat rest
      walked.after address descriptor count
    else
      ⟨memory, [], .error transferBroken⟩

/-- How many descriptors a walk can follow: each step clears the ownership bit in a byte of its own,
so a walk ends before it has used up the bytes that have addresses. -/
def walkSteps : Nat := wordSpan

/-! ## The card -/

/-- The bytes of a block. -/
def blockBytes : Nat := 512

/-- A card of a number of blocks. -/
structure Card where
  blocks : Nat
  bytes : Memory

namespace Card

/-- A card of zeros. -/
def blank (blocks : Nat) : Card := ⟨blocks, .blank⟩

def size (card : Card) : Nat :=
  card.blocks * blockBytes

/-- The extended card data: the block count at 212 and the device type at 196. -/
def extendedData (card : Card) : List UInt8 :=
  List.replicate 196 0 ++ [0x57] ++ List.replicate 15 0
    ++ Bytes.toBytes (UInt32.ofNat card.blocks) ++ List.replicate 296 0

/-- Moves bytes of the card into buffers, in order. -/
def toBuffers (card : Card) : Nat → List (Nat × Nat) → Memory → Memory
  | _, [], memory => memory
  | offset, (buffer, count) :: rest, memory =>
    card.toBuffers (offset + count) rest (memory.write buffer (card.bytes.read offset count))

/-- Moves a byte string into buffers, in order. -/
def fillBuffers : List UInt8 → List (Nat × Nat) → Memory → Memory
  | _, [], memory => memory
  | bytes, (buffer, count) :: rest, memory =>
    fillBuffers (bytes.drop count) rest (memory.write buffer (bytes.take count))

/-- Moves the bytes of buffers to the card, in order. -/
def ofBuffers : Memory → Nat → List (Nat × Nat) → Card → Card
  | _, _, [], card => card
  | memory, offset, (buffer, count) :: rest, card =>
    ofBuffers memory (offset + count) rest
      { card with bytes := card.bytes.write offset (memory.read buffer count) }

end Card

/-! ## Executing commands -/

/-- The parts of the bench that a command acts on. -/
structure CardBus where
  registers : RegisterFile
  card : Card
  memory : Memory
  reach : Reach
  /-- The sizes of the descriptors that the last data command followed. -/
  segments : List UInt32

namespace CardBus

/-- Whether the DMA engine is enabled. -/
def dmaReady (bus : CardBus) : Bool :=
  hasAll (bus.registers.held .control) Control.internalDma
    && hasAll (bus.registers.held .busMode) BusMode.enable

/-- The address of the descriptor list. -/
def listAddress (bus : CardBus) : Nat :=
  (Bytes.join (bus.registers.held .listLow) (bus.registers.held .listHigh)).toNat

/-- Follows the chain of a transfer of some bytes and moves the data with `move` if the chain covers
it.  The answer is the status bits to raise. -/
def transfer (bus : CardBus) (length : Nat)
    (move : List (Nat × Nat) → Memory → Card → Memory × Card) : UInt32 × CardBus :=
  if bus.dmaReady then
    let walked := walk bus.reach walkSteps bus.memory bus.listAddress length
    let sizes := walked.followed.map fun entry => entry.2.size
    match walked.buffers with
    | .error bits => (bits, { bus with memory := walked.memory, segments := sizes })
    | .ok buffers =>
      let moved := move buffers walked.memory bus.card
      (transferDone, { bus with memory := moved.1, card := moved.2, segments := sizes })
  else
    (transferBroken, { bus with segments := [] })

/-- Sends the extended card data. -/
def sendExtended (bus : CardBus) : UInt32 × CardBus :=
  let length := min (bus.registers.held .byteCount).toNat blockBytes
  bus.transfer length fun buffers memory card =>
    (Card.fillBuffers card.extendedData buffers memory, card)

/-- Moves blocks from or to the card. -/
def moveBlocks (bus : CardBus) (argument : UInt32) (toCard : Bool) : UInt32 × CardBus :=
  let start := argument.toNat * blockBytes
  let length := (bus.registers.held .byteCount).toNat
  if bus.card.size < start + length then
    (transferShort, { bus with segments := [] })
  else
    bus.transfer length fun buffers memory card =>
      if toCard then (memory, Card.ofBuffers memory start buffers card)
      else (card.toBuffers start buffers memory, card)

/-- Sets the response registers. -/
def respond (bus : CardBus) (r0 r1 r2 r3 : UInt32) : CardBus :=
  { bus with registers := bus.registers.respond r0 r1 r2 r3 }

/-- The response of a card that is ready for data in its transfer state. -/
def respondReady (bus : CardBus) : CardBus :=
  bus.respond 0x900 0 0 0

/-- Executes a command; the answer is the status bits to raise. -/
def execute (bus : CardBus) (word : UInt32) : UInt32 × CardBus :=
  let argument := bus.registers.held .argument
  let data := hasAll word CommandFlags.dataExpected
  match (word &&& CommandIndex.mask).toNat, data with
  | 1, _ => (RawInterrupt.commandDone, bus.respond 0xC0FF8080 0 0 0)
  | 2, _ =>
    (RawInterrupt.commandDone, bus.respond 0x12345678 0x9ABCDEF0 0x0F1E2D3C 0x4B5A6978)
  | 9, _ =>
    (RawInterrupt.commandDone, bus.respond 0x0A400040 0x5B590000 0x3A837F80 0xD04F0132)
  | 8, true => bus.respondReady.sendExtended
  | 17, true => bus.respondReady.moveBlocks argument (hasAll word CommandFlags.toCard)
  | 18, true => bus.respondReady.moveBlocks argument (hasAll word CommandFlags.toCard)
  | 24, true => bus.respondReady.moveBlocks argument (hasAll word CommandFlags.toCard)
  | 25, true => bus.respondReady.moveBlocks argument (hasAll word CommandFlags.toCard)
  | _, _ => (RawInterrupt.commandDone, bus.respondReady)

end CardBus

end CardHost.Bench
