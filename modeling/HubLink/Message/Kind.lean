import HubLink.Json.TextRecord

/-!
# Message kinds

Every message has one of twelve kinds, known to both processors by name.  A kind also says which way
its messages go.
-/

namespace HubLink.Message

/-- Which way messages of a kind go. -/
inductive Direction where
  | bleToCellular
  | cellularToBle
  | either
  deriving DecidableEq, Repr

/-- The kinds of messages. -/
inductive Kind where
  | nodeDiscovered
  | nodeTelemetry
  | applyNodeConfig
  | nodeConfigResult
  | pullNodeLogs
  | nodeLogChunk
  | twinDesiredUpdate
  | twinReportedUpdate
  | publishTelemetry
  | connectionStatus
  | heartbeat
  | error
  deriving DecidableEq, Repr

namespace Kind

/-- Every kind, in the order of the catalogue. -/
def all : List Kind :=
  [.nodeDiscovered, .nodeTelemetry, .applyNodeConfig, .nodeConfigResult, .pullNodeLogs,
    .nodeLogChunk, .twinDesiredUpdate, .twinReportedUpdate, .publishTelemetry, .connectionStatus,
    .heartbeat, .error]

/-- The name of a kind. -/
def name : Kind → String
  | .nodeDiscovered => "node_discovered"
  | .nodeTelemetry => "node_telemetry"
  | .applyNodeConfig => "apply_node_config"
  | .nodeConfigResult => "node_config_result"
  | .pullNodeLogs => "pull_node_logs"
  | .nodeLogChunk => "node_log_chunk"
  | .twinDesiredUpdate => "twin_desired_update"
  | .twinReportedUpdate => "twin_reported_update"
  | .publishTelemetry => "publish_telemetry"
  | .connectionStatus => "connection_status"
  | .heartbeat => "heartbeat"
  | .error => "error"

/-- The direction of a kind. -/
def direction : Kind → Direction
  | .nodeDiscovered | .nodeTelemetry | .nodeConfigResult | .nodeLogChunk | .twinReportedUpdate
  | .publishTelemetry => .bleToCellular
  | .applyNodeConfig | .pullNodeLogs | .twinDesiredUpdate => .cellularToBle
  | .connectionStatus | .heartbeat | .error => .either

/-- The kind of a name. -/
def ofName? (name : String) : Option Kind :=
  all.find? fun kind => kind.name == name

/-- The kinds under their names, as a reader knows them. -/
def named : List (String × Kind) :=
  all.map fun kind => (kind.name, kind)

/-- Reads a kind from JSON text. -/
def parse (text : List UInt8) : Except Json.Fault Kind :=
  Json.readAll (Json.readName (Json.oneOf named) Json.nestingLimit) text

end Kind

/-- The wording for a name that no kind has. -/
def unknownKindMessage (name : String) : String :=
  "unknown message kind " ++ Text.quoted name

end HubLink.Message
