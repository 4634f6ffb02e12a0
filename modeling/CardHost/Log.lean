import CardHost.Bus
import CardHost.Clock.Divider
import CardHost.Command
import CardHost.Descriptor
import CardHost.Register
import CardHost.Text.Quoted

/-!
# What the driver logs

Every log line of the driver is a `Message`; its level and its wording are functions of it, so the
places that log say what happened and nothing about text.

Main definitions: `Message.level`, `Message.text` and `Message.line`.
-/

namespace CardHost

/-- How severe a message is, the most severe first. -/
inductive Level where
  | error | warn | info | debug | trace
deriving DecidableEq

namespace Level

/-- The place in the order of severity. -/
def rank : Level → Nat
  | error => 1
  | warn => 2
  | info => 3
  | debug => 4
  | trace => 5

def name : Level → String
  | error => "ERROR"
  | warn => "WARN"
  | info => "INFO"
  | debug => "DEBUG"
  | trace => "TRACE"

end Level

/-- The least severe level that is logged, if any is. -/
abbrev Verbosity := Option Level

/-- Whether messages of a level are logged. -/
def Verbosity.shows (verbosity : Verbosity) (level : Level) : Bool :=
  match verbosity with
  | none => false
  | some limit => level.rank ≤ limit.rank

/-- Why a configuration is refused, in words. -/
def Defect.text (config : HostConfig) : Defect → String
  | zeroSize => "Invalid eMMC configuration: zero sized field in " ++ config.render
  | segment =>
    "Invalid eMMC configuration: segment size " ++ Text.hex config.segmentSize.toNat
      ++ " with block size " ++ Text.hex config.blockSize.toNat
  | ringTooSmall =>
    "Invalid eMMC configuration: " ++ toString config.descriptorCount.toNat ++ " descriptors of "
      ++ Text.hex config.segmentSize.toNat ++ " bytes cannot carry a "
      ++ Text.hex config.maxRequest.toNat ++ " byte request"
  | zeroTiming => "Invalid eMMC configuration: zero poll interval or base clock"

/-- Everything the driver has to say. -/
inductive Message where
  | registerWrite (offset : Nat) (value : UInt32)
  | chainEntry (index : Nat) (descriptor : Descriptor)
  | dumpHeader (base : UInt64)
  | dumpLine (register : Register) (value : UInt32)
  | ringReady (count : Nat) (base : UInt64)
  | issued (word : CommandWord) (argument : UInt32)
  | latched (word : CommandWord) (argument : UInt32)
  | moved (word : CommandWord) (blocks segments : Nat)
  | stateIgnored (state : CardState)
  | busSet (width : BusWidth) (frequency : UInt32) (timing : BusTiming)
  | broughtUp (base : UInt64)
  | clockStopped
  | clockSet (frequency profile : UInt32) (divider : Divider)
  | loaded (base : UInt64) (limits : Capabilities)
  | unloaded (base : UInt64)
  | dividerClamped (quotient : Nat) (frequency : UInt32) (divider : Divider)
  | lockRefused (name : String)
  | nothingLatched
  | wrongDirection (word : CommandWord)
  | badLength (length buffer : Nat)
  | latchReplaced (word waiting : CommandWord)
  | latchWaiting (index : UInt32) (waiting : CommandWord)
  | responseTooLong (type : ResponseType) (held : Nat)
  | widthUnsupported (lines : UInt32)
  | stallFailed (microseconds : Nat) (status : Status)
  | neverCleared (offset : Nat) (mask : UInt32)
  | neverSet (offset : Nat) (mask : UInt32)
  | configRefused (config : HostConfig) (defect : Defect)
  | ringNotAllocated (count : Nat) (error : HostError)
  | ringExceeded (length segments count : Nat)
  | transferExceedsRing (length : Nat)
  | stagingNotAllocated (error : HostError)
  | pagesNotFreed (pages : Nat) (address : UInt64) (error : HostError)
  | ringNotFreed (error : HostError)
  | commandFailed (word : CommandWord) (status : UInt32)
  | commandTimedOut (word : CommandWord)
  | dataFailed (status : UInt32)
  | dataTimedOut
  | firmwareMissing
  | loadFailed (error : HostError)

namespace Message

def level : Message → Level
  | registerWrite .. | chainEntry .. => .trace
  | dumpHeader .. | dumpLine .. | ringReady .. | issued .. | latched .. | moved ..
  | stateIgnored .. | busSet .. => .debug
  | broughtUp .. | clockStopped | clockSet .. | loaded .. | unloaded .. => .info
  | dividerClamped .. | lockRefused .. | nothingLatched | wrongDirection .. | badLength ..
  | latchReplaced .. | latchWaiting .. | responseTooLong .. | widthUnsupported ..
  | stallFailed .. => .warn
  | neverCleared .. | neverSet .. | configRefused .. | ringNotAllocated .. | ringExceeded ..
  | transferExceedsRing .. | stagingNotAllocated .. | pagesNotFreed .. | ringNotFreed ..
  | commandFailed .. | commandTimedOut .. | dataFailed .. | dataTimedOut | firmwareMissing
  | loadFailed .. => .error

/-- The short name of a command: its index behind `CMD`. -/
def commandName (index : UInt32) : String :=
  "CMD" ++ toString index.toNat

def text : Message → String
  | registerWrite offset value => "write " ++ Text.offset offset ++ " <- " ++ Text.word value
  | chainEntry index descriptor => "desc[" ++ toString index ++ "] = " ++ descriptor.render
  | dumpHeader base => "Controller registers at " ++ Text.hex base.toNat ++ ":"
  | dumpLine register value =>
    "  " ++ Text.padRight 16 register.name ++ " [" ++ Text.offset register.offset ++ "] = "
      ++ Text.word value
  | ringReady count base =>
    "Descriptor ring of " ++ toString count ++ " entries at " ++ Text.hex base.toNat
  | issued word argument => "Issue " ++ word.render ++ " arg " ++ Text.word argument
  | latched word argument => "Latch " ++ word.render ++ " arg " ++ Text.word argument
  | moved word blocks segments =>
    commandName word.index ++ " moved " ++ toString blocks ++ " blocks over "
      ++ toString segments ++ " descriptors."
  | stateIgnored state => "State " ++ state.name ++ " needs no host action."
  | busSet width frequency timing =>
    "Bus " ++ width.name ++ " at " ++ toString frequency.toNat ++ " Hz, timing " ++ timing.name
      ++ " runs as SDR."
  | broughtUp base => "Controller at " ++ Text.hex base.toNat ++ " initialized."
  | clockStopped => "Card clock stopped."
  | clockSet frequency profile divider =>
    "Card clock " ++ toString frequency.toNat ++ " Hz, profile " ++ Text.hex profile.toNat ++ ", "
      ++ divider.render
  | loaded base limits =>
    "eMMC host at " ++ Text.hex base.toNat ++ " loaded, " ++ limits.render
  | unloaded base => "eMMC host at " ++ Text.hex base.toNat ++ " unloaded."
  | dividerClamped quotient frequency divider =>
    "Clock divider " ++ toString quotient ++ " for " ++ toString frequency.toNat
      ++ " Hz clamped to " ++ toString divider.divider.toNat ++ "."
  | lockRefused name => "Re-entrant lock of " ++ Text.quoted name ++ " refused."
  | nothingLatched => "Data phase requested with no data command latched."
  | wrongDirection word => word.render ++ " latched but data phase runs the other direction."
  | badLength length buffer =>
    "Bad data phase length " ++ Text.hex length ++ " for a " ++ Text.hex buffer
      ++ " byte buffer."
  | latchReplaced word waiting =>
    word.render ++ " replaces latched " ++ waiting.render ++ " that never ran."
  | latchWaiting index waiting =>
    commandName index ++ " issued while " ++ waiting.render ++ " waits for its data phase."
  | responseTooLong type held =>
    type.name ++ " needs " ++ toString type.wordCount ++ " response words, buffer holds "
      ++ toString held ++ "."
  | widthUnsupported lines => "Unsupported bus width " ++ toString lines.toNat ++ "."
  | stallFailed microseconds status =>
    "Stall of " ++ toString microseconds ++ "us failed: " ++ status.render
  | neverCleared offset mask =>
    "Register " ++ Text.offset offset ++ " bits " ++ Text.word mask ++ " never cleared."
  | neverSet offset mask =>
    "Register " ++ Text.offset offset ++ " bits " ++ Text.word mask ++ " never set."
  | configRefused config defect => defect.text config
  | ringNotAllocated count error =>
    "Failed to allocate descriptor ring of " ++ toString count ++ " entries: " ++ error.message
  | ringExceeded length segments count =>
    "Transfer of " ++ Text.hex length ++ " bytes needs " ++ toString segments
      ++ " descriptors, ring holds " ++ toString count ++ "."
  | transferExceedsRing length =>
    "Transfer of " ++ Text.hex length ++ " bytes exceeds the descriptor ring."
  | stagingNotAllocated error => "Failed to allocate staging buffer: " ++ error.message
  | pagesNotFreed pages address error =>
    "Failed to free " ++ toString pages ++ " DMA pages at " ++ Text.hex address.toNat ++ ": "
      ++ error.message
  | ringNotFreed error => "Failed to free descriptor ring: " ++ error.message
  | commandFailed word status =>
    commandName word.index ++ " failed, RINTSTS " ++ Text.word status
  | commandTimedOut word => commandName word.index ++ " timed out."
  | dataFailed status => "Data phase failed, RINTSTS " ++ Text.word status
  | dataTimedOut => "Data transfer did not complete."
  | firmwareMissing => "Boot services table is null."
  | loadFailed error => "eMMC host load failed: " ++ error.message

/-- A log line: level, target, text. -/
def line (message : Message) : String :=
  message.level.name ++ " emmc " ++ message.text

end Message

end CardHost
