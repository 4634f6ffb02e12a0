import CardHost.Status

/-!
# Bus settings and card states

What a block layer asks for when it sets up the bus, and the card states that it reports.
-/

namespace CardHost

/-- How many data lines the bus uses. -/
inductive BusWidth where
  | one | four | eight
deriving DecidableEq

namespace BusWidth

/-- The width of a number of lines. -/
def ofLines (lines : UInt32) : Except HostError BusWidth :=
  match lines.toNat with
  | 1 => .ok one
  | 4 => .ok four
  | 8 => .ok eight
  | _ => .error .invalidArgument

/-- The value of the card type register that selects a width. -/
def cardType : BusWidth → UInt32
  | one => 0
  | four => 1
  | eight => 0x10000

def name : BusWidth → String
  | one => "Bits1"
  | four => "Bits4"
  | eight => "Bits8"

end BusWidth

/-- Timing modes a block layer may ask for.  The host runs all of them at single data rate. -/
inductive BusTiming where
  | backward | hs26 | hs52 | hs52Ddr12 | hs52Ddr18 | hs200 | hs400
deriving DecidableEq

namespace BusTiming

def name : BusTiming → String
  | backward => "Backward"
  | hs26 => "Hs26"
  | hs52 => "Hs52"
  | hs52Ddr12 => "Hs52Ddr1V2"
  | hs52Ddr18 => "Hs52Ddr1V8"
  | hs200 => "Hs200"
  | hs400 => "Hs400"

def all : List BusTiming :=
  [backward, hs26, hs52, hs52Ddr12, hs52Ddr18, hs200, hs400]

end BusTiming

/-- Card states a block layer reports. -/
inductive CardState where
  | invalid | hardwareInit | idle | ready | identification | standBy | transfer | sendingData
  | receiveData | programming | disconnect
deriving DecidableEq

namespace CardState

def name : CardState → String
  | invalid => "Invalid"
  | hardwareInit => "HwInitialization"
  | idle => "Idle"
  | ready => "Ready"
  | identification => "Identification"
  | standBy => "StandBy"
  | transfer => "Transfer"
  | sendingData => "SendingData"
  | receiveData => "ReceiveData"
  | programming => "Programming"
  | disconnect => "Disconnect"

def all : List CardState :=
  [invalid, hardwareInit, idle, ready, identification, standBy, transfer, sendingData,
    receiveData, programming, disconnect]

end CardState

end CardHost
