/-!
# Faults and reading quality

A node reports its faults as eight independent bits of one byte, and the quality of a reading as
four bits of another.  Inside telemetry the faults travel by name instead; a receiver ignores names
it does not know, a person typing a command is told about them.
-/

namespace HubLink.Node

/-- The faults a node can report, in the order of their bits. -/
inductive Fault where
  /-- Reading above the configured high limit. -/
  | sensorHigh
  /-- Reading below the configured low limit. -/
  | sensorLow
  /-- Probe disconnected. -/
  | sensorDisconnected
  /-- Converter input saturated. -/
  | adcSaturation
  /-- Battery below its threshold. -/
  | lowBattery
  /-- The last boot was caused by the watchdog. -/
  | watchdogReset
  /-- The stored configuration failed its validation. -/
  | configCorrupt
  /-- Kept free for later use. -/
  | reserved
  deriving DecidableEq, Repr

namespace Fault

/-- Every fault, lowest bit first. -/
def all : List Fault :=
  [.sensorHigh, .sensorLow, .sensorDisconnected, .adcSaturation, .lowBattery, .watchdogReset,
    .configCorrupt, .reserved]

/-- The name of a fault in a fault list. -/
def name : Fault → String
  | .sensorHigh => "sensor_high"
  | .sensorLow => "sensor_low"
  | .sensorDisconnected => "sensor_disconnected"
  | .adcSaturation => "adc_saturation"
  | .lowBattery => "low_battery"
  | .watchdogReset => "watchdog_reset"
  | .configCorrupt => "config_corrupt"
  | .reserved => "reserved"

/-- The bit of a fault. -/
def mask : Fault → UInt8
  | .sensorHigh => 0x01
  | .sensorLow => 0x02
  | .sensorDisconnected => 0x04
  | .adcSaturation => 0x08
  | .lowBattery => 0x10
  | .watchdogReset => 0x20
  | .configCorrupt => 0x40
  | .reserved => 0x80

/-- The fault with the given name, the case of ASCII letters aside. -/
def ofName? (name : String) : Option Fault :=
  all.find? fun fault => fault.name == name.map Char.toLower

end Fault

/-- The faults of a node, one bit each. -/
structure FaultFlags where
  /-- The byte as it is advertised. -/
  bits : UInt8
  deriving DecidableEq, Repr, Inhabited

namespace FaultFlags

/-- No fault. -/
def empty : FaultFlags := ⟨0⟩

/-- Whether a fault is reported. -/
def has (flags : FaultFlags) (fault : Fault) : Bool :=
  flags.bits &&& fault.mask != 0

/-- Reports the given faults as well. -/
def insert (flags more : FaultFlags) : FaultFlags :=
  ⟨flags.bits ||| more.bits⟩

/-- Reports the given faults no longer. -/
def remove (flags gone : FaultFlags) : FaultFlags :=
  ⟨flags.bits &&& ~~~gone.bits⟩

/-- One fault alone. -/
def single (fault : Fault) : FaultFlags :=
  ⟨fault.mask⟩

/-- The names of the reported faults, lowest bit first. -/
def names (flags : FaultFlags) : List String :=
  (Fault.all.filter flags.has).map Fault.name

/-- The faults that the known names of a list stand for. -/
def ofNames (names : List String) : FaultFlags :=
  (names.filterMap Fault.ofName?).foldl (fun flags fault => flags.insert (single fault)) empty

/-- The faults of a list of names, or the first name that is not known. -/
def ofNames? (names : List String) : Except String FaultFlags :=
  match names.find? fun name => (Fault.ofName? name).isNone with
  | some unknown => .error unknown
  | none => .ok (ofNames names)

end FaultFlags

/-- The quality of a reading, one bit a property. -/
structure QualityFlags where
  /-- The byte as it travels. -/
  bits : UInt8
  deriving DecidableEq, Repr, Inhabited

namespace QualityFlags

/-- The reading is valid. -/
def valid (flags : QualityFlags) : Bool :=
  flags.bits &&& 0x01 != 0

/-- A calibration was applied. -/
def calibrated (flags : QualityFlags) : Bool :=
  flags.bits &&& 0x02 != 0

/-- The reading is within the rated range of the sensor. -/
def inRange (flags : QualityFlags) : Bool :=
  flags.bits &&& 0x04 != 0

/-- The signal had settled before it was sampled. -/
def stable (flags : QualityFlags) : Bool :=
  flags.bits &&& 0x08 != 0

end QualityFlags

end HubLink.Node
