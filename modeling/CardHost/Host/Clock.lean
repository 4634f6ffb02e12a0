import CardHost.Host.Issue

/-!
# Bring-up and card clock

A clock change loads the profile of the new frequency, gates the card clock and lets the controller
take that over, sets the divider, and turns the card clock on the same way.  The divider register is
so only written while the card clock is off.
-/

namespace CardHost

/-- The remark that a divider had to be clamped. -/
def Divider.notice? (baseClock profile frequency : UInt32) : Option Message :=
  let quotient := Divider.quotient baseClock profile frequency
  if Divider.clamp quotient = quotient then none
  else some (.dividerClamped quotient frequency (Divider.compute baseClock profile frequency))

namespace Host

/-- The divider of a frequency through a profile. -/
def divider (host : Host) (profile frequency : UInt32) : Action σ Divider := do
  match Divider.notice? host.config.baseClock profile frequency with
  | some message => report message
  | none => pure ()
  pure (.compute host.config.baseClock profile frequency)

/-- Loads a clock profile and waits until the card interface clock is stable. -/
def loadProfile (host : Host) (profile : UInt32) : Action σ Unit := do
  host.write .clockExtension 0
  host.write .clockExtension profile
  host.awaitSet .clockStatus clockStatusReady

/-- Sets the card clock; a frequency of zero stops it. -/
def programClock (host : Host) (frequency : UInt32) : Action σ Unit := do
  if frequency = 0 then do
    host.clearBits .clockEnable clockEnableCard
    host.clearBits .clockExtension ClockExtension.externalClock
    report .clockStopped
  else do
    let profile := host.config.profiles.select frequency
    host.loadProfile profile
    host.clearBits .clockEnable clockEnableCard
    host.updateClock
    let divider ← host.divider profile frequency
    host.write .clockDivider divider.encode
    host.setBits .clockEnable clockEnableCard
    host.updateClock
    report (.clockSet frequency profile divider)

/-- The resets of a bring-up. -/
def bringUpResets : UInt32 :=
  Control.fifoReset ||| Control.dmaReset

/-- Resets the controller and leaves it ready for commands. -/
def bringUpController (host : Host) : Action σ Unit := do
  host.write .fifoThreshold host.config.fifo.encode
  host.write .cardThreshold host.config.cardReadThreshold
  host.clearBits .clockEnable clockEnableCard
  host.loadProfile host.config.profiles.identification
  host.write .power powerOn
  host.setBits .clockEnable clockEnableCard
  host.setBits .clockExtension ClockExtension.externalClock
  host.clearBits .uhs uhsLowVoltage
  host.setBits .control bringUpResets
  host.awaitClear .control bringUpResets
  host.updateClock
  host.setBits .cardReset cardResetRelease
  host.write .interruptMask 0
  host.write .rawInterrupt clearAll
  host.write .dmaInterrupt 0
  host.setBits .control (Control.interruptEnable ||| Control.internalDma)
  host.write .timeouts timeoutsLongest
  report (.broughtUp host.config.baseAddress)

end Host

end CardHost
