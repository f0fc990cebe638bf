import HubLink.Json.Shape
import HubLink.Message.Payload

/-!
# Reading payloads

The shape that each kind gives to its JSON body.  Members with unknown names are ignored, optional
members may be absent or null, and a heartbeat has no body to look at.
-/

namespace HubLink.Message

open Json (Shape Record)

/-- The fields of an advertisement summary. -/
def AdvertisementSummary.record : Record AdvertisementSummary :=
  Record.unit AdvertisementSummary.mk
    |>.required "batteryPercent" Shape.u8
    |>.required "lastReading" Shape.single
    |>.required "faultFlags" (fun value => (Shape.u8 value).map Node.FaultFlags.mk)
    |>.required "counter" Shape.u16

/-- The fields of a discovery. -/
def NodeDiscovered.record : Record NodeDiscovered :=
  Record.unit NodeDiscovered.mk
    |>.required "nodeId" Shape.string
    |>.required "rssi" Shape.i16
    |>.required "advertisementData" (AdvertisementSummary.record.shape "AdvertisementSummary")

/-- The fields of a reading. -/
def Reading.record : Record Reading :=
  Record.unit Reading.mk
    |>.required "timestamp" Shape.i64
    |>.required "value" Shape.double
    |>.required "unit" Shape.string
    |>.required "quality" (fun value => (Shape.u8 value).map Node.QualityFlags.mk)

/-- The fields of a battery. -/
def Battery.record : Record Battery :=
  Record.unit Battery.mk
    |>.required "millivolts" Shape.u16
    |>.required "percent" Shape.u8

/-- The fields of a sample. -/
def NodeTelemetry.record : Record NodeTelemetry :=
  Record.unit NodeTelemetry.mk
    |>.required "nodeId" Shape.string
    |>.optional "machineId" Shape.string
    |>.required "reading" (Reading.record.shape "Reading")
    |>.required "battery" (Battery.record.shape "Battery")
    |>.required "faults" (Shape.list Shape.string)
    |>.required "rssi" Shape.i16

/-- The fields of a sampling section. -/
def SamplingConfig.record : Record SamplingConfig :=
  Record.unit SamplingConfig.mk
    |>.required "intervalSeconds" Shape.u32
    |>.required "warmupMs" Shape.u32
    |>.required "burstCount" Shape.u32
    |>.required "aggregation" Shape.string

/-- The fields of a node configuration. -/
def NodeConfig.record : Record NodeConfig :=
  Record.unit NodeConfig.mk
    |>.optional "sampling" (SamplingConfig.record.shape "SamplingConfig")
    |>.optional "calibration" Shape.any
    |>.optional "advertisement" Shape.any
    |>.optional "faults" Shape.any

/-- The fields of a configuration request. -/
def ApplyNodeConfig.record : Record ApplyNodeConfig :=
  Record.unit ApplyNodeConfig.mk
    |>.required "jobId" Shape.string
    |>.required "nodeId" Shape.string
    |>.required "config" (NodeConfig.record.shape "NodeConfig")
    |>.required "timeoutSeconds" Shape.u32

/-- The fields of a configuration result. -/
def NodeConfigResult.record : Record NodeConfigResult :=
  Record.unit NodeConfigResult.mk
    |>.required "jobId" Shape.string
    |>.required "nodeId" Shape.string
    |>.required "success" Shape.bool
    |>.optional "errorCode" Shape.string
    |>.optional "errorMessage" Shape.string
    |>.optional "appliedAt" Shape.i64

/-- The fields of a log request. -/
def PullNodeLogs.record : Record PullNodeLogs :=
  Record.unit PullNodeLogs.mk
    |>.required "jobId" Shape.string
    |>.required "nodeId" Shape.string
    |>.required "maxBytes" Shape.u32

/-- The fields of a piece of a log. -/
def LogChunk.record : Record LogChunk :=
  Record.unit LogChunk.mk
    |>.required "jobId" Shape.string
    |>.required "nodeId" Shape.string
    |>.required "chunkIndex" Shape.u32
    |>.required "totalChunks" Shape.u32
    |>.required "data" Shape.string
    |>.required "complete" Shape.bool

/-- The fields of a desired-state change. -/
def TwinDesiredUpdate.record : Record TwinDesiredUpdate :=
  Record.unit TwinDesiredUpdate.mk
    |>.required "version" Shape.u64
    |>.required "desired" Shape.any

/-- The fields of a reported-state change. -/
def TwinReportedUpdate.record : Record TwinReportedUpdate :=
  Record.unit TwinReportedUpdate.mk
    |>.required "reported" Shape.any

/-- The fields of a batch. -/
def PublishTelemetry.record : Record PublishTelemetry :=
  Record.unit PublishTelemetry.mk
    |>.required "telemetry" (Shape.list (NodeTelemetry.record.shape "NodeTelemetryPayload"))
    |>.required "timestamp" Shape.i64

/-- The fields of a link state. -/
def ConnectionStatus.record : Record ConnectionStatus :=
  Record.unit ConnectionStatus.mk
    |>.required "connected" Shape.bool
    |>.optional "reason" Shape.string
    |>.optional "lastSync" Shape.i64
    |>.optional "queuedMessages" Shape.u32

/-- The fields of an error notification. -/
def ErrorNotice.record : Record ErrorNotice :=
  Record.unit ErrorNotice.mk
    |>.required "code" Shape.string
    |>.required "message" Shape.string
    |>.optional "details" Shape.any

/-- The shape of a record as a payload of its own. -/
private def bodyOf {α : Type} (record : Record α) (name : String) (make : α → Payload) :
    Shape Payload :=
  fun value => (record.shape name value).map make

/-- The payload of the given kind in a JSON body. -/
def Payload.ofJson : Kind → Shape Payload
  | .nodeDiscovered => bodyOf NodeDiscovered.record "NodeDiscoveredPayload" .nodeDiscovered
  | .nodeTelemetry => bodyOf NodeTelemetry.record "NodeTelemetryPayload" .nodeTelemetry
  | .applyNodeConfig => bodyOf ApplyNodeConfig.record "ApplyNodeConfigPayload" .applyNodeConfig
  | .nodeConfigResult => bodyOf NodeConfigResult.record "NodeConfigResultPayload" .nodeConfigResult
  | .pullNodeLogs => bodyOf PullNodeLogs.record "PullNodeLogsPayload" .pullNodeLogs
  | .nodeLogChunk => bodyOf LogChunk.record "NodeLogChunkPayload" .nodeLogChunk
  | .twinDesiredUpdate =>
    bodyOf TwinDesiredUpdate.record "TwinDesiredUpdatePayload" .twinDesiredUpdate
  | .twinReportedUpdate =>
    bodyOf TwinReportedUpdate.record "TwinReportedUpdatePayload" .twinReportedUpdate
  | .publishTelemetry => bodyOf PublishTelemetry.record "PublishTelemetryPayload" .publishTelemetry
  | .connectionStatus => bodyOf ConnectionStatus.record "ConnectionStatusPayload" .connectionStatus
  | .heartbeat => fun _ => .ok .heartbeat
  | .error => bodyOf ErrorNotice.record "ErrorPayload" .error

end HubLink.Message
