import CardHost.Host.Basic

/-!
# Issuing commands

A command is handed to the controller only when the card is not busy, and taken as accepted when the
controller clears the start bit.  Card commands then poll the raw interrupt status.  Every poll
looks for errors first, so a sample with both an error and a completion fails.
-/

namespace CardHost

/-- How polling ended. -/
inductive Poll where
  | finished
  | failed (status : UInt32)
  | exhausted
deriving DecidableEq

namespace Host

/-- Polls the raw interrupt status a number of times, until a sample shows an error or is
finished. -/
def poll (host : Host) (finished : UInt32 → Bool) : Nat → Prog σ Poll
  | 0 => pure .exhausted
  | polls + 1 => do
    let status ← host.window.read Register.rawInterrupt.offset
    if hasAny status RawInterrupt.errors then
      pure (.failed status)
    else if finished status then
      pure .finished
    else do
      host.services.stall host.config.pollInterval.toNat
      host.poll finished polls

/-- Whether a sample completes a command. -/
def commandFinished (status : UInt32) : Bool :=
  hasAny status (RawInterrupt.transferOver ||| RawInterrupt.commandDone)

/-- Whether a sample completes a data phase. -/
def dataFinished (status : UInt32) : Bool :=
  hasAll status RawInterrupt.transferOver

/-- Hands a command to the controller and waits until it is accepted. -/
def post (host : Host) (word : CommandWord) (argument : UInt32) : Action σ Unit := do
  host.write .argument argument
  host.awaitClear .status ControllerStatus.cardBusy
  host.write .command word.withStart.bits
  host.awaitClear .command CommandFlags.start

/-- Makes the card interface take over new clock settings; no completion follows. -/
def updateClock (host : Host) : Action σ Unit :=
  host.post .updateClock 0

/-- Polls for a completion, and fails with a message where a sample shows an error or no sample
decides. -/
def completion (host : Host) (finished : UInt32 → Bool) (polls : Nat)
    (failed : UInt32 → Message) (timedOut : Message) : Action σ Unit := do
  match ← (host.poll finished polls).lift with
  | .finished => pure ()
  | .failed status => do
    report (failed status)
    throw .deviceError
  | .exhausted => do
    report timedOut
    throw .timeout

/-- Waits for a command to complete. -/
def awaitCommand (host : Host) (word : CommandWord) : Action σ Unit :=
  host.completion commandFinished host.config.commandPolls (.commandFailed word)
    (.commandTimedOut word)

/-- Waits for a data phase to complete. -/
def awaitData (host : Host) : Action σ Unit :=
  host.completion dataFinished host.config.dataPolls .dataFailed .dataTimedOut

/-- Issues a card command and waits for its completion.  Pending status is cleared before the
command is posted, so what is polled afterwards belongs to it. -/
def issue (host : Host) (word : CommandWord) (argument : UInt32) : Action σ Unit := do
  report (.issued word argument)
  host.awaitClear .status ControllerStatus.dataBusy
  host.write .rawInterrupt clearAll
  host.post word argument
  host.write .interruptMask RawInterrupt.errorMask
  host.awaitCommand word

end Host

end CardHost
