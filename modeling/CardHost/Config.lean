import CardHost.Status

/-!
# The configuration of a host

Everything one controller instance can be tuned by: where it lives, how it is clocked, how large a
transfer may be and how long the driver waits.  `defect?` finds the first reason why a configuration
cannot be used; `Usable` says that there is none, and a host carries a proof of it.

Sizes are 64-bit words, as the platform counts bytes; arithmetic on them is done in `Nat`, where a
result that does not fit is refused by the function that computes it.
-/

namespace CardHost

/-- One more than the largest 64-bit word. -/
def wordSpan : Nat := 0x10000000000000000

/-- The quotient rounded up. -/
def ceilDiv (n d : Nat) : Nat :=
  (n + d - 1) / d

theorem ceilDiv_le_iff {n d k : Nat} (hd : 0 < d) : ceilDiv n d ≤ k ↔ n ≤ k * d := by
  unfold ceilDiv
  rw [← Nat.lt_succ_iff, Nat.div_lt_iff_lt_mul hd, Nat.succ_mul]
  omega

/-- The largest buffer of one descriptor: its size field has thirteen bits. -/
def maxSegment : Nat := 0x1FFF

/-- FIFO watermarks and burst size. -/
structure FifoThreshold where
  /-- The code of the DMA burst size, three bits. -/
  burstSize : UInt32
  /-- The receive watermark, twelve bits. -/
  receiveMark : UInt32
  /-- The transmit watermark, twelve bits. -/
  transmitMark : UInt32
deriving DecidableEq

namespace FifoThreshold

/-- The value of the threshold register; each field keeps to its own bits. -/
def encode (fifo : FifoThreshold) : UInt32 :=
  ((fifo.burstSize &&& 0x7) <<< 28) ||| ((fifo.receiveMark &&& 0xFFF) <<< 16)
    ||| (fifo.transmitMark &&& 0xFFF)

def standard : FifoThreshold := ⟨2, 0x7, 0x100⟩

end FifoThreshold

/-- The identification clock, in hertz. -/
def identificationClock : UInt32 := 400000

/-- The lowest frequency served by the high speed profile. -/
def highSpeedClock : UInt32 := 25000000

/-- Clock profiles, one per range of bus clocks. -/
structure ClockProfiles where
  highSpeed : UInt32
  identification : UInt32
  defaultSpeed : UInt32
deriving DecidableEq

namespace ClockProfiles

/-- The profile of a bus clock. -/
def select (profiles : ClockProfiles) (frequency : UInt32) : UInt32 :=
  if highSpeedClock ≤ frequency then profiles.highSpeed
  else if frequency = identificationClock then profiles.identification
  else profiles.defaultSpeed

def standard : ClockProfiles := ⟨0x202, 0x502, 0x302⟩

def render (profiles : ClockProfiles) : String :=
  Text.record "ClockProfiles"
    [("high_speed", toString profiles.highSpeed.toNat),
      ("identification", toString profiles.identification.toNat),
      ("default_speed", toString profiles.defaultSpeed.toNat)]

end ClockProfiles

/-- The tunables of one controller instance. -/
structure HostConfig where
  /-- The base address of the register window. -/
  baseAddress : UInt64
  /-- The reference clock, in hertz. -/
  baseClock : UInt32
  fifo : FifoThreshold
  /-- The value of the card read threshold register. -/
  cardReadThreshold : UInt32
  profiles : ClockProfiles
  /-- Bytes addressed by one descriptor. -/
  segmentSize : UInt64
  /-- Bytes of one block. -/
  blockSize : UInt64
  /-- The largest single request, in bytes. -/
  maxRequest : UInt64
  /-- Descriptors in the ring. -/
  descriptorCount : UInt64
  /-- Microseconds between completion polls. -/
  pollInterval : UInt32
  /-- The budget of a command completion, in microseconds. -/
  commandTimeout : UInt32
  /-- The budget of a data completion, in microseconds. -/
  dataTimeout : UInt32
  /-- The bound of a register handshake, in microseconds; without one a handshake waits until the
  controller answers. -/
  handshakeTimeout : Option UInt32
  /-- The task priority held during an operation. -/
  lockLevel : UInt64
deriving DecidableEq

/-! ## Standard values -/

/-- The reference clock of the controller. -/
def standardBaseClock : UInt32 := 1200000000

/-- The standard segment: one page. -/
def standardSegment : UInt64 := 0x1000

/-- The block of an eMMC card. -/
def standardBlock : UInt64 := 512

/-- The standard largest request. -/
def standardRequest : UInt64 := 0x80000

/-- The standard spacing of polls. -/
def standardPollInterval : UInt32 := 500

/-- The standard command budget: ten thousand polls. -/
def standardCommandTimeout : UInt32 := 5000000

/-- A data budget for slow cards. -/
def longDataTimeout : UInt32 := 50000000

/-- The standard bound of a handshake. -/
def standardHandshake : UInt32 := 1000000

/-- The card read threshold: 128 bytes, enabled. -/
def standardReadThreshold : UInt32 := 0x800001

/-- The priority of notification functions. -/
def notifyLevel : UInt64 := 16

namespace HostConfig

/-- The configuration of the reference boards; only the base address is missing. -/
def standard : HostConfig where
  baseAddress := 0
  baseClock := standardBaseClock
  fifo := .standard
  cardReadThreshold := standardReadThreshold
  profiles := .standard
  segmentSize := standardSegment
  blockSize := standardBlock
  maxRequest := standardRequest
  descriptorCount := 128
  pollInterval := standardPollInterval
  commandTimeout := standardCommandTimeout
  dataTimeout := standardCommandTimeout
  handshakeTimeout := some standardHandshake
  lockLevel := notifyLevel

def render (config : HostConfig) : String :=
  Text.record "EmmcHostConfig"
    [("base_address", Text.hex config.baseAddress.toNat),
      ("base_clock_hz", toString config.baseClock.toNat),
      ("fifo_threshold", Text.word config.fifo.encode),
      ("card_read_threshold", Text.word config.cardReadThreshold),
      ("clock_profiles", config.profiles.render),
      ("segment_size", toString config.segmentSize.toNat),
      ("block_size", toString config.blockSize.toNat),
      ("max_request_size", toString config.maxRequest.toNat),
      ("descriptor_count", toString config.descriptorCount.toNat),
      ("poll_interval_us", toString config.pollInterval.toNat),
      ("command_timeout_us", toString config.commandTimeout.toNat),
      ("data_timeout_us", toString config.dataTimeout.toNat),
      ("handshake_timeout_us",
        Text.optional (fun b : UInt32 => toString b.toNat) config.handshakeTimeout),
      ("tpl", toString config.lockLevel.toNat)]

end HostConfig

/-! ## Usable configurations -/

/-- Why a configuration cannot be used. -/
inductive Defect where
  /-- A size or the descriptor count is zero. -/
  | zeroSize
  /-- A segment is not a whole number of blocks, or too large for a descriptor. -/
  | segment
  /-- The ring cannot carry the largest request. -/
  | ringTooSmall
  /-- The poll interval or the reference clock is zero. -/
  | zeroTiming
deriving DecidableEq

/-- Every defect makes the configuration an invalid argument. -/
def Defect.error : Defect → HostError
  | _ => .invalidArgument

namespace HostConfig

/-- What the ring can carry, held at the largest word if it does not fit one. -/
def ringBytes (config : HostConfig) : Nat :=
  min (config.descriptorCount.toNat * config.segmentSize.toNat) (wordSpan - 1)

/-- The first reason why a configuration cannot be used. -/
def defect? (config : HostConfig) : Option Defect :=
  if config.segmentSize = 0 ∨ config.blockSize = 0 ∨ config.maxRequest = 0
      ∨ config.descriptorCount = 0 then
    some .zeroSize
  else if config.segmentSize.toNat % config.blockSize.toNat ≠ 0
      ∨ maxSegment < config.segmentSize.toNat then
    some .segment
  else if config.ringBytes < config.maxRequest.toNat then
    some .ringTooSmall
  else if config.pollInterval = 0 ∨ config.baseClock = 0 then
    some .zeroTiming
  else
    none

/-- A configuration that describes a usable setup. -/
def Usable (config : HostConfig) : Prop :=
  config.defect? = none

instance (config : HostConfig) : Decidable config.Usable :=
  inferInstanceAs (Decidable (config.defect? = none))

/-- What a usable configuration promises. -/
theorem usable_iff (config : HostConfig) :
    config.Usable ↔
      (0 < config.segmentSize.toNat ∧ 0 < config.blockSize.toNat ∧ 0 < config.maxRequest.toNat
        ∧ 0 < config.descriptorCount.toNat)
      ∧ (config.segmentSize.toNat % config.blockSize.toNat = 0
        ∧ config.segmentSize.toNat ≤ maxSegment)
      ∧ config.maxRequest.toNat ≤ config.ringBytes
      ∧ 0 < config.pollInterval.toNat ∧ 0 < config.baseClock.toNat := by
  simp only [Usable, defect?, ← UInt64.toNat_inj, ← UInt32.toNat_inj, UInt64.toNat_zero,
    UInt32.toNat_zero]
  repeat' split
  all_goals simp_all
  all_goals omega

theorem standard_usable : standard.Usable := by decide

/-- How often a command completion is polled; no number of polls fits a poll interval of zero. -/
def commandPolls? (config : HostConfig) : Option Nat :=
  if config.pollInterval = 0 then none
  else some (config.commandTimeout.toNat / config.pollInterval.toNat)

/-- How often a data completion is polled. -/
def dataPolls? (config : HostConfig) : Option Nat :=
  if config.pollInterval = 0 then none
  else some (config.dataTimeout.toNat / config.pollInterval.toNat)

/-- How often a command completion is polled when the poll interval is not zero. -/
def commandPolls (config : HostConfig) : Nat :=
  config.commandTimeout.toNat / config.pollInterval.toNat

/-- How often a data completion is polled when the poll interval is not zero. -/
def dataPolls (config : HostConfig) : Nat :=
  config.dataTimeout.toNat / config.pollInterval.toNat

end HostConfig

/-! ## Advertised limits -/

/-- The transfer limits a host advertises. -/
structure Capabilities where
  maxSegments : UInt64
  maxSegmentSize : UInt64
  maxBlockSize : UInt64
  maxRequest : UInt64
  maxBlockCount : UInt64
deriving DecidableEq

namespace Capabilities

/-- The limits of a configuration whose block size is not zero. -/
def ofConfig (config : HostConfig) : Capabilities where
  maxSegments := config.descriptorCount
  maxSegmentSize := config.segmentSize
  maxBlockSize := config.blockSize
  maxRequest := config.maxRequest
  maxBlockCount := config.maxRequest / config.blockSize

/-- The limits of any configuration; there are none without blocks. -/
def ofConfig? (config : HostConfig) : Option Capabilities :=
  if config.blockSize = 0 then none else some (ofConfig config)

def render (limits : Capabilities) : String :=
  Text.record "HostCapabilities"
    [("max_segments", toString limits.maxSegments.toNat),
      ("max_segment_size", toString limits.maxSegmentSize.toNat),
      ("max_block_size", toString limits.maxBlockSize.toNat),
      ("max_request_size", toString limits.maxRequest.toNat),
      ("max_block_count", toString limits.maxBlockCount.toNat)]

end Capabilities

end CardHost
