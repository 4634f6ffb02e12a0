import CardHost.Flags

/-!
# The register window of the controller

Thirty registers at fixed offsets from the base of a window, and the names of the bits that the
driver looks at.  Offsets stay plain numbers in every access, since a window may also be addressed
at an offset that has no name.
-/

namespace CardHost

/-- The registers of the controller. -/
inductive Register where
  | control | power | clockDivider | clockEnable | timeouts | cardType | blockSize | byteCount
  | interruptMask | argument | command | response0 | response1 | response2 | response3
  | maskedInterrupt | rawInterrupt | status | fifoThreshold | clockStatus | uhs | cardReset
  | busMode | listLow | listHigh | dmaStatus | dmaInterrupt | cardThreshold | clockExtension | ddr
deriving DecidableEq

namespace Register

/-- The distance of a register from the base of its window. -/
def offset : Register → Nat
  | control => 0x00
  | power => 0x04
  | clockDivider => 0x08
  | clockEnable => 0x10
  | timeouts => 0x14
  | cardType => 0x18
  | blockSize => 0x1C
  | byteCount => 0x20
  | interruptMask => 0x24
  | argument => 0x28
  | command => 0x2C
  | response0 => 0x30
  | response1 => 0x34
  | response2 => 0x38
  | response3 => 0x3C
  | maskedInterrupt => 0x40
  | rawInterrupt => 0x44
  | status => 0x48
  | fifoThreshold => 0x4C
  | clockStatus => 0x58
  | uhs => 0x74
  | cardReset => 0x78
  | busMode => 0x80
  | listLow => 0x88
  | listHigh => 0x8C
  | dmaStatus => 0x90
  | dmaInterrupt => 0x94
  | cardThreshold => 0x100
  | clockExtension => 0x108
  | ddr => 0x10C

/-- The name a register has in the log. -/
def name : Register → String
  | control => "CNTRL"
  | power => "PWREN"
  | clockDivider => "CLKDIV"
  | clockEnable => "CLKENA"
  | timeouts => "TMOUT"
  | cardType => "CTYPE"
  | blockSize => "BLKSIZ"
  | byteCount => "BYTCNT"
  | interruptMask => "INTMASK"
  | argument => "CMDARG"
  | command => "CMD"
  | response0 => "RESP0"
  | response1 => "RESP1"
  | response2 => "RESP2"
  | response3 => "RESP3"
  | maskedInterrupt => "MINTSTS"
  | rawInterrupt => "RINTSTS"
  | status => "STATUS"
  | fifoThreshold => "FIFOTH"
  | clockStatus => "CKSTS"
  | uhs => "UHS_REG"
  | cardReset => "CARD_RESET"
  | busMode => "BUS_MODE"
  | listLow => "DESC_LIST_ADDRL"
  | listHigh => "DESC_LIST_ADDRH"
  | dmaStatus => "DMAC_STATUS"
  | dmaInterrupt => "DMAC_INT_EN"
  | cardThreshold => "CARD_THRCTL"
  | clockExtension => "UHS_REG_EXT"
  | ddr => "EMMC_DDR_REG"

/-- Every register, by offset. -/
def all : List Register :=
  [control, power, clockDivider, clockEnable, timeouts, cardType, blockSize, byteCount,
    interruptMask, argument, command, response0, response1, response2, response3,
    maskedInterrupt, rawInterrupt, status, fifoThreshold, clockStatus, uhs, cardReset, busMode,
    listLow, listHigh, dmaStatus, dmaInterrupt, cardThreshold, clockExtension, ddr]

/-- The registers that hold the response of the last command. -/
def responses : List Register :=
  [response0, response1, response2, response3]

/-- The registers that a dump shows: all but the responses. -/
def dumped : List Register :=
  all.filter fun r => !responses.contains r

theorem mem_all (r : Register) : r ∈ all := by
  cases r <;> decide

/-- The register at an offset, if one is there. -/
def ofOffset? (n : Nat) : Option Register :=
  all.find? fun r => r.offset == n

theorem ofOffset?_offset (r : Register) : ofOffset? r.offset = some r := by
  cases r <;> rfl

/-- No two registers share an offset. -/
theorem offset_injective {r s : Register} (h : r.offset = s.offset) : r = s := by
  have hr := ofOffset?_offset r
  rw [h, ofOffset?_offset s] at hr
  exact (Option.some.inj hr).symm

end Register

/-! ## Single bits -/

/-- Card clock on, in the clock enable register. -/
def clockEnableCard : UInt32 := 0x1

/-- Card interface clock stable, in the clock status register. -/
def clockStatusReady : UInt32 := 0x1

/-- Signalling at 1.8 V, in the UHS register. -/
def uhsLowVoltage : UInt32 := 0x1

/-- Card out of reset. -/
def cardResetRelease : UInt32 := 0x1

/-- Card power on. -/
def powerOn : UInt32 := 0x1

/-- The longest response and data timeouts. -/
def timeoutsLongest : UInt32 := 0xFFFFFFFF

/-- Written to the raw interrupt status, clears every pending bit. -/
def clearAll : UInt32 := 0xFFFFFFFF

/-! ## Named bits -/

namespace Control

def controllerReset : UInt32 := 0x1
def fifoReset : UInt32 := 0x2
def dmaReset : UInt32 := 0x4
def interruptEnable : UInt32 := 0x10
def dmaEnable : UInt32 := 0x20
def internalDma : UInt32 := 0x2000000

/-- The bits of the control register. -/
def layout : Layout where
  title := "Control"
  entries :=
    [("CONTROLLER_RESET", controllerReset), ("FIFO_RESET", fifoReset), ("DMA_RESET", dmaReset),
      ("INT_ENABLE", interruptEnable), ("DMA_ENABLE", dmaEnable),
      ("USE_INTERNAL_DMAC", internalDma)]

end Control

namespace RawInterrupt

def cardDetect : UInt32 := 0x1
def responseError : UInt32 := 0x2
def commandDone : UInt32 := 0x4
def transferOver : UInt32 := 0x8
def transmitReady : UInt32 := 0x10
def receiveReady : UInt32 := 0x20
def responseCrc : UInt32 := 0x40
def dataCrc : UInt32 := 0x80
def responseTimeout : UInt32 := 0x100
def readTimeout : UInt32 := 0x200
def starvation : UInt32 := 0x400
def fifoRun : UInt32 := 0x800
def lockedWrite : UInt32 := 0x1000
def startBit : UInt32 := 0x2000
def autoCommandDone : UInt32 := 0x4000
def endBit : UInt32 := 0x8000

/-- The sources unmasked while a command is in flight. -/
def errorMask : UInt32 :=
  endBit ||| lockedWrite ||| responseTimeout ||| responseCrc ||| dataCrc ||| readTimeout
    ||| startBit

/-- Every bit that fails a command or a data phase. -/
def errors : UInt32 :=
  errorMask ||| responseError ||| fifoRun

/-- The bits of the raw interrupt status and of the interrupt mask. -/
def layout : Layout where
  title := "RawInterrupt"
  entries :=
    [("CD", cardDetect), ("RE", responseError), ("CMD_DONE", commandDone), ("DTO", transferOver),
      ("TXDR", transmitReady), ("RXDR", receiveReady), ("RCRC", responseCrc), ("DCRC", dataCrc),
      ("RTO", responseTimeout), ("DRTO", readTimeout), ("HTO", starvation), ("FRUN", fifoRun),
      ("HLE", lockedWrite), ("SBE", startBit), ("ACD", autoCommandDone), ("EBE", endBit),
      ("ERROR_MASK", errorMask), ("ERRORS", errors)]

theorem errorMask_eq : errorMask = 0xB3C0 := by decide

theorem errors_eq : errors = 0xBBC2 := by decide

end RawInterrupt

namespace ControllerStatus

def cardBusy : UInt32 := 0x200
def dataBusy : UInt32 := 0x400

/-- The bits of the status register that the driver looks at. -/
def layout : Layout where
  title := "Status"
  entries := [("CARD_BUSY", cardBusy), ("DATA_BUSY", dataBusy)]

end ControllerStatus

namespace BusMode

/-- Soft reset of the DMA engine; the controller clears it when the reset is over. -/
def softReset : UInt32 := 0x1
def enable : UInt32 := 0x80

/-- The bits of the bus mode register. -/
def layout : Layout where
  title := "BusMode"
  entries := [("SWR", softReset), ("DE", enable)]

end BusMode

namespace ClockExtension

def externalClock : UInt32 := 0x2

/-- The bits of the clock extension register. -/
def layout : Layout where
  title := "UhsExt"
  entries := [("EXT_CLK_ENABLE", externalClock)]

end ClockExtension

end CardHost
