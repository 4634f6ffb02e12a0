import CardHost.Flags

/-!
# Command words

A command is written to the controller as one word: the command index in the low six bits and a
set of flags above it.  Each index has one flag set, read off the response and the data that the
card standard gives it; index 7 alone also looks at the argument.

Main definitions: `commandFlags` (the table), `CommandWord.ofCommand`, `CommandWord.updateClock`.
-/

namespace CardHost

namespace CommandIndex

def goIdle : UInt32 := 0
def sendOpCond : UInt32 := 1
def allSendCid : UInt32 := 2
def setRelativeAddress : UInt32 := 3
def switchMode : UInt32 := 6
def selectCard : UInt32 := 7
def sendExtCsd : UInt32 := 8
def sendCsd : UInt32 := 9
def stopTransmission : UInt32 := 12
def sendStatus : UInt32 := 13
def setBlockLength : UInt32 := 16
def readBlock : UInt32 := 17
def readBlocks : UInt32 := 18
def writeBlock : UInt32 := 24
def writeBlocks : UInt32 := 25
def sendWriteProtection : UInt32 := 30
def appSendOpCond : UInt32 := 41
def appSendScr : UInt32 := 51

/-- The bits of a command word that hold the index. -/
def mask : UInt32 := 0x3F

end CommandIndex

namespace CommandFlags

def responseExpect : UInt32 := 0x40
def longResponse : UInt32 := 0x80
def checkCrc : UInt32 := 0x100
def dataExpected : UInt32 := 0x200
/-- The data goes to the card; without it the data comes from the card. -/
def toCard : UInt32 := 0x400
def streaming : UInt32 := 0x800
def autoStop : UInt32 := 0x1000
def waitPrevious : UInt32 := 0x2000
def stopAbort : UInt32 := 0x4000
def sendInit : UInt32 := 0x8000
def updateClockOnly : UInt32 := 0x200000
def readCeata : UInt32 := 0x400000
def ccsExpected : UInt32 := 0x800000
def enableBoot : UInt32 := 0x1000000
def expectBootAck : UInt32 := 0x2000000
def disableBoot : UInt32 := 0x4000000
def bootMode : UInt32 := 0x8000000
def voltageSwitch : UInt32 := 0x10000000
def useHold : UInt32 := 0x20000000
def start : UInt32 := 0x80000000

/-- The bits of a command word above the index. -/
def layout : Layout where
  title := "CommandFlags"
  entries :=
    [("RESPONSE_EXPECT", responseExpect), ("LONG_RESPONSE", longResponse),
      ("CHECK_RESPONSE_CRC", checkCrc), ("DATA_EXPECTED", dataExpected), ("WRITE", toCard),
      ("STREAM", streaming), ("SEND_AUTO_STOP", autoStop),
      ("WAIT_PRVDATA_COMPLETE", waitPrevious), ("STOP_ABORT", stopAbort), ("SEND_INIT", sendInit),
      ("UPDATE_CLOCK_ONLY", updateClockOnly), ("READ_CEATA", readCeata),
      ("CCS_EXPECTED", ccsExpected), ("ENABLE_BOOT", enableBoot),
      ("EXPECT_BOOT_ACK", expectBootAck), ("DISABLE_BOOT", disableBoot), ("BOOT_MODE", bootMode),
      ("VOLT_SWITCH", voltageSwitch), ("USE_HOLD_REG", useHold), ("START", start)]

/-- A checked response. -/
def checked : UInt32 := responseExpect ||| checkCrc

/-- A checked response after the data of the previous command. -/
def afterData : UInt32 := checked ||| waitPrevious

/-- Data from the card. -/
def reading : UInt32 := afterData ||| dataExpected

/-- Data to the card. -/
def writing : UInt32 := reading ||| toCard

end CommandFlags

open CommandFlags in
/-- The flags of a command, before the hold and start bits are added.  Selecting with argument zero
deselects every card, and no card answers that. -/
def commandFlags (index argument : UInt32) : UInt32 :=
  match index.toNat with
  | 0 => sendInit
  | 1 => responseExpect
  | 2 => responseExpect ||| longResponse ||| checkCrc ||| sendInit
  | 3 => checked ||| sendInit
  | 6 => afterData
  | 7 => if argument = 0 then 0 else checked
  | 8 => reading
  | 9 => checked ||| longResponse
  | 12 => checked ||| stopAbort
  | 13 => afterData
  | 16 => afterData
  | 17 => reading
  | 18 => reading
  | 24 => writing
  | 25 => writing
  | 30 => checked ||| dataExpected
  | 41 => responseExpect
  | 51 => reading
  | _ => checked

/-- A complete value of the command register. -/
structure CommandWord where
  bits : UInt32
deriving DecidableEq

namespace CommandWord

/-- The word of command `index` with `argument`. -/
def ofCommand (index argument : UInt32) : CommandWord :=
  ⟨commandFlags index argument ||| CommandFlags.useHold ||| CommandFlags.start
    ||| (index &&& CommandIndex.mask)⟩

/-- The command that only makes the card interface take over new clock settings. -/
def updateClock : CommandWord :=
  ⟨CommandFlags.updateClockOnly ||| CommandFlags.waitPrevious⟩

/-- The command index. -/
def index (word : CommandWord) : UInt32 :=
  word.bits &&& CommandIndex.mask

/-- The named flags. -/
def flags (word : CommandWord) : UInt32 :=
  CommandFlags.layout.truncate word.bits

/-- Whether the command moves data and so needs a data phase. -/
def isData (word : CommandWord) : Bool :=
  hasAll word.flags CommandFlags.dataExpected

/-- Whether the command moves data to the card. -/
def isWrite (word : CommandWord) : Bool :=
  word.isData && hasAll word.flags CommandFlags.toCard

/-- The word with the start bit. -/
def withStart (word : CommandWord) : CommandWord :=
  ⟨word.bits ||| CommandFlags.start⟩

/-- A word in writing: its index, then all of it. -/
def render (word : CommandWord) : String :=
  "CommandWord(CMD" ++ toString word.index.toNat ++ " " ++ Text.word word.bits ++ ")"

end CommandWord

/-- The formats a response may have. -/
inductive ResponseType where
  | r1 | r1b | r2 | r3 | r6 | r7
deriving DecidableEq

namespace ResponseType

/-- How many response registers a format fills; the card identification and the card specific data
take all four. -/
def wordCount : ResponseType → Nat
  | r2 => 4
  | _ => 1

def name : ResponseType → String
  | r1 => "R1"
  | r1b => "R1b"
  | r2 => "R2"
  | r3 => "R3"
  | r6 => "R6"
  | r7 => "R7"

end ResponseType

end CardHost
