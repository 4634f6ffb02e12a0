import CardHost.Lock
import CardHost.Ring

/-!
# One controller

A host is a usable configuration with the services it runs on.  What its operations share, the ring
and the latch of a data command, sits behind the host's lock and not in the host itself.
-/

namespace CardHost

/-- A data command that waits for its data phase. -/
structure Latch where
  word : CommandWord
  argument : UInt32
deriving DecidableEq

/-- What the operations of a host share. -/
structure HostState where
  ring : Ring
  latch : Option Latch
deriving DecidableEq

/-- The driver of one controller. -/
structure Host where
  config : HostConfig
  services : Services
  usable : config.Usable

namespace Host

/-- The register window. -/
def window (host : Host) : Window where
  base := host.config.baseAddress
  services := host.services

/-- The lock around the shared state. -/
def lock (host : Host) : Lock where
  name := "EmmcHostLock"
  level := host.config.lockLevel

/-- The advertised limits. -/
def limits (host : Host) : Capabilities :=
  .ofConfig host.config

/-- Writes a register. -/
def write (host : Host) (register : Register) (value : UInt32) : Action σ Unit :=
  (host.window.write register.offset value).lift

/-- Sets bits of a register. -/
def setBits (host : Host) (register : Register) (bits : UInt32) : Action σ Unit :=
  (host.window.setBits register.offset bits).lift

/-- Clears bits of a register. -/
def clearBits (host : Host) (register : Register) (bits : UInt32) : Action σ Unit :=
  (host.window.clearBits register.offset bits).lift

/-- Waits until bits of a register are clear, within the handshake bound. -/
def awaitClear (host : Host) (register : Register) (mask : UInt32) : Action σ Unit :=
  host.window.awaitClear host.services register.offset mask host.config.handshakeTimeout

/-- Waits until bits of a register are set, within the handshake bound. -/
def awaitSet (host : Host) (register : Register) (mask : UInt32) : Action σ Unit :=
  host.window.awaitSet host.services register.offset mask host.config.handshakeTimeout

/-- Logs a message. -/
def report (message : Message) : Action σ Unit :=
  (Prog.log message).lift

end Host

end CardHost
