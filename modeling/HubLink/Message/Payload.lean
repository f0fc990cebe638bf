import HubLink.Json.Value
import HubLink.Message.Kind
import HubLink.Node.Advertisement

/-!
# Payloads

The body of a message, one type a kind.  `Payload` is the closed union of the twelve, so a payload
can never disagree with the kind that it travels under.  Free-form parts (desired and reported state,
error details, some sections of a node configuration) are JSON values.
-/

namespace HubLink.Message

open Node (FaultFlags QualityFlags Advertisement)

/-- What a discovery tells of an advertisement. -/
structure AdvertisementSummary where
  batteryPercent : UInt8
  lastReading : Single
  faultFlags : FaultFlags
  counter : UInt16
  deriving DecidableEq, Repr

/-- The scanner received an advertisement. -/
structure NodeDiscovered where
  nodeId : String
  rssi : Int16
  advertisementData : AdvertisementSummary
  deriving DecidableEq, Repr

/-- The discovery of a decoded advertisement at the given signal strength. -/
def NodeDiscovered.ofAdvertisement (adv : Advertisement) (rssi : Int16) : NodeDiscovered where
  nodeId := adv.nodeId.text
  rssi := rssi
  advertisementData :=
    { batteryPercent := adv.batteryPercent
      lastReading := adv.lastReading
      faultFlags := adv.faultFlags
      counter := adv.counter }

/-- One sensor reading. -/
structure Reading where
  /-- The time of the sample in milliseconds. -/
  timestamp : Int64
  value : Double
  unit : String
  quality : QualityFlags
  deriving DecidableEq, Repr

/-- The state of a battery. -/
structure Battery where
  millivolts : UInt16
  percent : UInt8
  deriving DecidableEq, Repr

/-- A whole sample of a node. -/
structure NodeTelemetry where
  nodeId : String
  /-- The group that the node is assigned to. -/
  groupId : Option String
  reading : Reading
  battery : Battery
  /-- The names of the active faults. -/
  faults : List String
  rssi : Int16
  deriving DecidableEq, Repr

/-- The faults that the known names stand for. -/
def NodeTelemetry.faultFlags (telemetry : NodeTelemetry) : FaultFlags :=
  .ofNames telemetry.faults

/-- How a node samples. -/
structure SamplingConfig where
  intervalSeconds : UInt32
  warmupMs : UInt32
  burstCount : UInt32
  aggregation : String
  deriving DecidableEq, Repr

/-- The configuration of a node; what is left out does not change. -/
structure NodeConfig where
  sampling : Option SamplingConfig
  calibration : Option Json
  advertisement : Option Json
  faults : Option Json
  deriving BEq, Repr

/-- A request to configure a node. -/
structure ApplyNodeConfig where
  jobId : String
  nodeId : String
  config : NodeConfig
  timeoutSeconds : UInt32
  deriving BEq, Repr

/-- The result of configuring a node. -/
structure NodeConfigResult where
  jobId : String
  nodeId : String
  success : Bool
  errorCode : Option String
  errorMessage : Option String
  appliedAt : Option Int64
  deriving DecidableEq, Repr

/-- A request for the log of a node. -/
structure PullNodeLogs where
  jobId : String
  nodeId : String
  maxBytes : UInt32
  deriving DecidableEq, Repr

/-- One piece of the log of a node. -/
structure LogChunk where
  jobId : String
  nodeId : String
  chunkIndex : UInt32
  totalChunks : UInt32
  /-- The bytes of the piece as base64 text. -/
  data : String
  /-- Set on the last piece. -/
  complete : Bool
  deriving DecidableEq, Repr

/-- A change of the desired state. -/
structure TwinDesiredUpdate where
  version : UInt64
  desired : Json
  deriving BEq, Repr

/-- A change of the reported state. -/
structure TwinReportedUpdate where
  reported : Json
  deriving BEq, Repr

/-- Samples to publish together. -/
structure PublishTelemetry where
  telemetry : List NodeTelemetry
  /-- The time of the batch in milliseconds. -/
  timestamp : Int64
  deriving DecidableEq, Repr

/-- The state of the cellular link. -/
structure ConnectionStatus where
  connected : Bool
  reason : Option String
  lastSync : Option Int64
  queuedMessages : Option UInt32
  deriving DecidableEq, Repr

/-- An error notification. -/
structure ErrorNotice where
  code : String
  message : String
  details : Option Json
  deriving BEq, Repr

/-- The body of a message. -/
inductive Payload where
  | nodeDiscovered (body : NodeDiscovered)
  | nodeTelemetry (body : NodeTelemetry)
  | applyNodeConfig (body : ApplyNodeConfig)
  | nodeConfigResult (body : NodeConfigResult)
  | pullNodeLogs (body : PullNodeLogs)
  | nodeLogChunk (body : LogChunk)
  | twinDesiredUpdate (body : TwinDesiredUpdate)
  | twinReportedUpdate (body : TwinReportedUpdate)
  | publishTelemetry (body : PublishTelemetry)
  | connectionStatus (body : ConnectionStatus)
  /-- A sign of life without content. -/
  | heartbeat
  | error (body : ErrorNotice)
  deriving BEq, Repr

/-- The kind that a payload travels under. -/
def Payload.kind : Payload → Kind
  | .nodeDiscovered _ => .nodeDiscovered
  | .nodeTelemetry _ => .nodeTelemetry
  | .applyNodeConfig _ => .applyNodeConfig
  | .nodeConfigResult _ => .nodeConfigResult
  | .pullNodeLogs _ => .pullNodeLogs
  | .nodeLogChunk _ => .nodeLogChunk
  | .twinDesiredUpdate _ => .twinDesiredUpdate
  | .twinReportedUpdate _ => .twinReportedUpdate
  | .publishTelemetry _ => .publishTelemetry
  | .connectionStatus _ => .connectionStatus
  | .heartbeat => .heartbeat
  | .error _ => .error

end HubLink.Message
