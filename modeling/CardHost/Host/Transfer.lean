import CardHost.Host.Issue

/-!
# Data phases

A data phase takes the latched command, stages the data in pages of its own, describes them in the
ring, starts the DMA engine and issues the command.  The pages go back before the lock does, on
every outcome, and the caller's buffer changes only when the whole phase succeeded.

Whatever a phase answers, the latch is empty afterwards: it is taken before anything is checked.
-/

namespace CardHost

/-- The caller's side of a data phase: room for so many bytes, or the bytes to send. -/
inductive DataBuffer where
  | incoming (size : Nat)
  | outgoing (bytes : List UInt8)

namespace DataBuffer

def size : DataBuffer → Nat
  | incoming size => size
  | outgoing bytes => bytes.length

def isWrite : DataBuffer → Bool
  | incoming _ => false
  | outgoing _ => true

end DataBuffer

namespace Host

/-- Puts the data to send into the staging pages and zeros behind them. -/
def stage (pages : Pages) (length : Nat) : DataBuffer → Prog σ Unit
  | .incoming _ => pure ()
  | .outgoing bytes =>
    Prog.request (.store pages.address.toNat
      (bytes.take length ++ List.replicate (pages.size - length) 0))

/-- The data that arrived in the staging pages. -/
def collect (pages : Pages) (length : Nat) : DataBuffer → Prog σ (List UInt8)
  | .incoming _ => Prog.request (.load pages.address.toNat length)
  | .outgoing _ => pure []

/-- Moves the data through staging pages. -/
def moveThrough (host : Host) (ring : Ring) (latch : Latch) (length : Nat) (buffer : DataBuffer)
    (pages : Pages) : Action σ (List UInt8) := do
  (stage pages length buffer).lift
  let geometry ← ring.prepare length pages.address host.config.segmentSize.toNat
    host.config.blockSize.toNat
  (ring.program host.window).lift
  (Ring.start host.window length host.config.blockSize.toNat).lift
  host.issue latch.word latch.argument
  host.awaitData
  let arrived ← (collect pages length buffer).lift
  report (.moved latch.word geometry.blocks geometry.segments)
  pure arrived

/-- The data phase of a latched command: direction, length and ring are checked before any page is
allocated. -/
def runLatched (host : Host) (ring : Ring) (latch : Latch) (length : Nat) (buffer : DataBuffer) :
    Action σ (List UInt8) := do
  if latch.word.isWrite ≠ buffer.isWrite then do
    report (.wrongDirection latch.word)
    throw .invalidArgument
  else if length = 0 ∨ buffer.size < length then do
    report (.badLength length buffer.size)
    throw .invalidArgument
  else do
    let geometry ← (Prog.require (Geometry.ofLength? length host.config.segmentSize.toNat
      host.config.blockSize.toNat)).lift
    if ring.count < geometry.segments then do
      report (.transferExceedsRing length)
      throw .outOfResources
    else
      Pages.borrow host.services geometry.stagingPages .stagingNotAllocated
        (host.moveThrough ring latch length buffer)

/-- A data phase on the shared state: the latch is taken, whatever comes of it. -/
def runPhase (host : Host) (length : Nat) (buffer : DataBuffer) (state : HostState) :
    Prog σ (Except HostError (List UInt8) × HostState) := do
  match state.latch with
  | none => do
    Prog.log .nothingLatched
    pure (.error .invalidArgument, state)
  | some latch => do
    let outcome ← (host.runLatched state.ring latch length buffer).run
    pure (outcome, { state with latch := none })

/-- Runs the data phase of a latched read.  The answer comes with the buffer as it is afterwards. -/
def readData (host : Host) (length : Nat) (buffer : List UInt8) :
    Prog HostState (Except HostError Unit × List UInt8) := do
  match ← host.lock.holding (host.runPhase length (.incoming buffer.length)) with
  | .ok arrived => pure (.ok (), arrived ++ buffer.drop length)
  | .error error => pure (.error error, buffer)

/-- Runs the data phase of a latched write. -/
def writeData (host : Host) (length : Nat) (source : List UInt8) :
    Prog HostState (Except HostError Unit) := do
  match ← host.lock.holding (host.runPhase length (.outgoing source)) with
  | .ok _ => pure (.ok ())
  | .error error => pure (.error error)

end Host

end CardHost
