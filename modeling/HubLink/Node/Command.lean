import HubLink.Json.TextRecord

/-!
# Commands and node states

Commands to a node, and to the scanner of a hub, are one byte on the air and a name in JSON.  The
state of a node has a name only.
-/

namespace HubLink.Node

/-- Commands to a node. -/
inductive Command where
  | enterCommissioning
  | exitCommissioning
  | enterMaintenance
  | exitMaintenance
  | triggerSample
  | clearFaults
  | factoryReset
  | reboot
  deriving DecidableEq, Repr

namespace Command

/-- Every command under its name, in the order of the codes, which count from one. -/
def named : List (String × Command) :=
  [("EnterCommissioning", .enterCommissioning), ("ExitCommissioning", .exitCommissioning),
    ("EnterMaintenance", .enterMaintenance), ("ExitMaintenance", .exitMaintenance),
    ("TriggerSample", .triggerSample), ("ClearFaults", .clearFaults),
    ("FactoryReset", .factoryReset), ("Reboot", .reboot)]

/-- The byte of a command. -/
def code : Command → UInt8
  | .enterCommissioning => 1
  | .exitCommissioning => 2
  | .enterMaintenance => 3
  | .exitMaintenance => 4
  | .triggerSample => 5
  | .clearFaults => 6
  | .factoryReset => 7
  | .reboot => 8

/-- The command of a byte, with its name. -/
def ofCode? (code : UInt8) : Option (String × Command) :=
  named.find? fun entry => entry.2.code == code

/-- Reads a command from JSON text. -/
def parse (text : List UInt8) : Except Json.Fault Command :=
  Json.readAll (Json.readName (Json.oneOf named) Json.nestingLimit) text

end Command

/-- Commands to the scanner of a hub. -/
inductive ScanCommand where
  | startScan
  | stopScan
  | refreshNodes
  deriving DecidableEq, Repr

namespace ScanCommand

/-- Every command under its name, in the order of the codes, which count from one. -/
def named : List (String × ScanCommand) :=
  [("StartScan", .startScan), ("StopScan", .stopScan), ("RefreshNodes", .refreshNodes)]

/-- The byte of a command. -/
def code : ScanCommand → UInt8
  | .startScan => 1
  | .stopScan => 2
  | .refreshNodes => 3

/-- The command of a byte, with its name. -/
def ofCode? (code : UInt8) : Option (String × ScanCommand) :=
  named.find? fun entry => entry.2.code == code

/-- Reads a command from JSON text. -/
def parse (text : List UInt8) : Except Json.Fault ScanCommand :=
  Json.readAll (Json.readName (Json.oneOf named) Json.nestingLimit) text

end ScanCommand

/-- The life of a node. -/
inductive State where
  /-- Fresh from the factory. -/
  | factory
  /-- Provisioned but not bound to a hub. -/
  | uncommissioned
  /-- Commissioning is in progress. -/
  | commissioning
  /-- Sampling and advertising. -/
  | operational
  /-- Under maintenance. -/
  | maintenance
  /-- Stopped by a latched fault. -/
  | fault
  deriving DecidableEq, Repr

namespace State

/-- The name of a state. -/
def name : State → String
  | .factory => "factory"
  | .uncommissioned => "uncommissioned"
  | .commissioning => "commissioning"
  | .operational => "operational"
  | .maintenance => "maintenance"
  | .fault => "fault"

/-- Every state. -/
def all : List State :=
  [.factory, .uncommissioned, .commissioning, .operational, .maintenance, .fault]

/-- Reads a state from JSON text. -/
def parse (text : List UInt8) : Except Json.Fault State :=
  Json.readAll (Json.readName (Json.oneOf (all.map fun s => (s.name, s))) Json.nestingLimit) text

end State

end HubLink.Node
