import CardHost.Host.Clock
import CardHost.Host.Transfer

/-!
# The operations of a host

What a block layer does with a host, each operation as a program and all of them as data: a `Call`
with its `Answer`.  Calls as data are what sequences of operations and re-entrant callers are made
of.

Every operation that touches the controller or the shared state runs under the lock.  Checks that
need neither come before it, so they answer the same to a re-entrant caller.
-/

namespace CardHost

/-- The fixed answers of a host: the card is soldered down and writable, and every transfer goes
through the DMA engine. -/
structure Facts where
  cardPresent : Bool
  readOnly : Bool
  dmaSupported : Bool
  multiBlock : Bool
deriving DecidableEq

namespace Host

def facts : Facts where
  cardPresent := true
  readOnly := false
  dmaSupported := true
  multiBlock := true

/-- Issues a command.  A command that moves data is only latched, for the data phase that
follows. -/
def sendCommand (host : Host) (index argument : UInt32) : Prog HostState (Except HostError Unit) :=
  let word := CommandWord.ofCommand index argument
  host.lock.holding fun state => do
    if word.isData then do
      match state.latch with
      | some waiting => Prog.log (.latchReplaced word waiting.word)
      | none => pure ()
      Prog.log (.latched word argument)
      pure (.ok (), { state with latch := some ⟨word, argument⟩ })
    else do
      match state.latch with
      | some waiting => Prog.log (.latchWaiting index waiting.word)
      | none => pure ()
      let outcome ← (host.issue word argument).run
      pure (outcome, state)

/-- The values of some registers. -/
def readRegisters (host : Host) : List Register → Prog σ (List UInt32)
  | [] => pure []
  | register :: registers => do
    let value ← host.window.read register.offset
    let values ← host.readRegisters registers
    pure (value :: values)

/-- Copies the last response into a buffer; the answer comes with the buffer as it is
afterwards. -/
def receiveResponse (host : Host) (type : ResponseType) (buffer : List UInt32) :
    Prog HostState (Except HostError Unit × List UInt32) := do
  if buffer.length < type.wordCount then do
    Prog.log (.responseTooLong type buffer.length)
    pure (.error .invalidArgument, buffer)
  else do
    match ← host.lock.during
        (host.readRegisters (Register.responses.take type.wordCount)).lift with
    | .ok words => pure (.ok (), words ++ buffer.drop type.wordCount)
    | .error error => pure (.error error, buffer)

/-- Sets bus width and, unless it is zero, the bus clock.  The timing is accepted and ignored. -/
def setBus (host : Host) (frequency lines : UInt32) (timing : BusTiming) :
    Prog HostState (Except HostError Unit) := do
  match BusWidth.ofLines lines with
  | .error error => do
    Prog.log (.widthUnsupported lines)
    pure (.error error)
  | .ok width => do
    host.lock.during do
      report (.busSet width frequency timing)
      host.write .cardType width.cardType
      if frequency = 0 then
        pure ()
      else
        host.programClock frequency

/-- Sets the card clock. -/
def setClock (host : Host) (frequency : UInt32) : Prog HostState (Except HostError Unit) :=
  host.lock.during (host.programClock frequency)

/-- Resets the controller and leaves it ready for commands. -/
def bringUp (host : Host) : Prog HostState (Except HostError Unit) :=
  host.lock.during host.bringUpController

/-- Hears about a card state.  Only hardware initialisation acts: it brings the controller up and
starts the identification clock. -/
def notify (host : Host) (state : CardState) : Prog HostState (Except HostError Unit) := do
  match state with
  | .hardwareInit =>
    host.lock.during do
      host.bringUpController
      host.programClock identificationClock
  | other => do
    Prog.log (.stateIgnored other)
    pure (.ok ())

/-- The latched data command. -/
def pending (host : Host) : Prog HostState (Except HostError (Option Latch)) :=
  host.lock.holding fun state => pure (.ok state.latch, state)

end Host

/-- An operation of a host. -/
inductive Call where
  | sendCommand (index argument : UInt32)
  | readData (length : Nat) (buffer : List UInt8)
  | writeData (length : Nat) (source : List UInt8)
  | receiveResponse (type : ResponseType) (buffer : List UInt32)
  | setBus (frequency lines : UInt32) (timing : BusTiming)
  | setClock (frequency : UInt32)
  | bringUp
  | notify (state : CardState)
  | pending
  | dump
  | limits
  | config
  | facts

/-- What an operation answers. -/
inductive Answer where
  | outcome (outcome : Except HostError Unit)
  | data (outcome : Except HostError Unit) (buffer : List UInt8)
  | response (outcome : Except HostError Unit) (buffer : List UInt32)
  | pending (outcome : Except HostError (Option Latch))
  | dumped
  | limits (limits : Capabilities)
  | config (config : HostConfig)
  | facts (facts : Facts)
  | noHost

/-- Performs an operation. -/
def Host.perform (host : Host) : Call → Prog HostState Answer
  | .sendCommand index argument => do
    let outcome ← host.sendCommand index argument
    pure (.outcome outcome)
  | .readData length buffer => do
    let answer ← host.readData length buffer
    pure (.data answer.1 answer.2)
  | .writeData length source => do
    let outcome ← host.writeData length source
    pure (.outcome outcome)
  | .receiveResponse type buffer => do
    let answer ← host.receiveResponse type buffer
    pure (.response answer.1 answer.2)
  | .setBus frequency lines timing => do
    let outcome ← host.setBus frequency lines timing
    pure (.outcome outcome)
  | .setClock frequency => do
    let outcome ← host.setClock frequency
    pure (.outcome outcome)
  | .bringUp => do
    let outcome ← host.bringUp
    pure (.outcome outcome)
  | .notify state => do
    let outcome ← host.notify state
    pure (.outcome outcome)
  | .pending => do
    let outcome ← host.pending
    pure (.pending outcome)
  | .dump => do
    host.window.dump
    pure .dumped
  | .limits => pure (.limits host.limits)
  | .config => pure (.config host.config)
  | .facts => pure (.facts Host.facts)

end CardHost
