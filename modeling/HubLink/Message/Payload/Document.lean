import HubLink.Message.Payload

/-!
# Payloads as JSON documents

Every payload has one JSON form: camel-case members in the order of their names, optional ones left
out when there is nothing to say.  JSON has no NaN and no infinity, so a reading that is not finite
has no form at all; nothing else stands in the way of writing a payload.
-/

namespace HubLink.Message

open Binary (NonFinite)

/-- A member that is always written. -/
def member (name : String) (value : Json) : List (String × Json) :=
  [(name, value)]

/-- A member that is written only if there is a value. -/
def optionalMember {α : Type} (name : String) (write : α → Json) :
    Option α → List (String × Json)
  | none => []
  | some value => [(name, write value)]

/-- A 32-bit reading, widened, if it is finite. -/
def singleJson (number : Single) : Except NonFinite Json :=
  match number.nonFinite? with
  | some fault => .error fault
  | none => .ok (.real number.widen)

/-- A 64-bit reading, if it is finite. -/
def doubleJson (number : Double) : Except NonFinite Json :=
  match number.nonFinite? with
  | some fault => .error fault
  | none => .ok (.real number)

/-- A text as a value. -/
def stringJson (value : String) : Json := .string value

/-- A signed 64-bit integer as a value. -/
def i64Json (n : Int64) : Json := .integer n.toInt

/-- An unsigned 32-bit integer as a value. -/
def u32Json (n : UInt32) : Json := .integer n.toNat

/-- The JSON form of an advertisement summary. -/
def AdvertisementSummary.toJson (body : AdvertisementSummary) : Except NonFinite Json := do
  let lastReading ← singleJson body.lastReading
  return .ofMembers <|
    member "batteryPercent" (.integer body.batteryPercent.toNat) ++
    member "lastReading" lastReading ++
    member "faultFlags" (.integer body.faultFlags.bits.toNat) ++
    member "counter" (.integer body.counter.toNat)

/-- The JSON form of a discovery. -/
def NodeDiscovered.toJson (body : NodeDiscovered) : Except NonFinite Json := do
  let advertisementData ← body.advertisementData.toJson
  return .ofMembers <|
    member "nodeId" (.string body.nodeId) ++
    member "rssi" (.integer body.rssi.toInt) ++
    member "advertisementData" advertisementData

/-- The JSON form of a reading. -/
def Reading.toJson (body : Reading) : Except NonFinite Json := do
  let value ← doubleJson body.value
  return .ofMembers <|
    member "timestamp" (i64Json body.timestamp) ++
    member "value" value ++
    member "unit" (.string body.unit) ++
    member "quality" (.integer body.quality.bits.toNat)

/-- The JSON form of a battery. -/
def Battery.toJson (body : Battery) : Json :=
  .ofMembers <|
    member "millivolts" (.integer body.millivolts.toNat) ++
    member "percent" (.integer body.percent.toNat)

/-- The JSON form of a sample. -/
def NodeTelemetry.toJson (body : NodeTelemetry) : Except NonFinite Json := do
  let reading ← body.reading.toJson
  return .ofMembers <|
    member "nodeId" (.string body.nodeId) ++
    optionalMember "machineId" stringJson body.groupId ++
    member "reading" reading ++
    member "battery" body.battery.toJson ++
    member "faults" (.array (body.faults.map stringJson)) ++
    member "rssi" (.integer body.rssi.toInt)

/-- The JSON form of a sampling section. -/
def SamplingConfig.toJson (body : SamplingConfig) : Json :=
  .ofMembers <|
    member "intervalSeconds" (u32Json body.intervalSeconds) ++
    member "warmupMs" (u32Json body.warmupMs) ++
    member "burstCount" (u32Json body.burstCount) ++
    member "aggregation" (.string body.aggregation)

/-- The JSON form of a node configuration. -/
def NodeConfig.toJson (body : NodeConfig) : Json :=
  .ofMembers <|
    optionalMember "sampling" SamplingConfig.toJson body.sampling ++
    optionalMember "calibration" id body.calibration ++
    optionalMember "advertisement" id body.advertisement ++
    optionalMember "faults" id body.faults

/-- The JSON form of a configuration request. -/
def ApplyNodeConfig.toJson (body : ApplyNodeConfig) : Json :=
  .ofMembers <|
    member "jobId" (.string body.jobId) ++
    member "nodeId" (.string body.nodeId) ++
    member "config" body.config.toJson ++
    member "timeoutSeconds" (u32Json body.timeoutSeconds)

/-- The JSON form of a configuration result. -/
def NodeConfigResult.toJson (body : NodeConfigResult) : Json :=
  .ofMembers <|
    member "jobId" (.string body.jobId) ++
    member "nodeId" (.string body.nodeId) ++
    member "success" (.bool body.success) ++
    optionalMember "errorCode" stringJson body.errorCode ++
    optionalMember "errorMessage" stringJson body.errorMessage ++
    optionalMember "appliedAt" i64Json body.appliedAt

/-- The JSON form of a log request. -/
def PullNodeLogs.toJson (body : PullNodeLogs) : Json :=
  .ofMembers <|
    member "jobId" (.string body.jobId) ++
    member "nodeId" (.string body.nodeId) ++
    member "maxBytes" (u32Json body.maxBytes)

/-- The JSON form of a piece of a log. -/
def LogChunk.toJson (body : LogChunk) : Json :=
  .ofMembers <|
    member "jobId" (.string body.jobId) ++
    member "nodeId" (.string body.nodeId) ++
    member "chunkIndex" (u32Json body.chunkIndex) ++
    member "totalChunks" (u32Json body.totalChunks) ++
    member "data" (.string body.data) ++
    member "complete" (.bool body.complete)

/-- The JSON form of a desired-state change. -/
def TwinDesiredUpdate.toJson (body : TwinDesiredUpdate) : Json :=
  .ofMembers <|
    member "version" (.integer body.version.toNat) ++
    member "desired" body.desired

/-- The JSON form of a reported-state change. -/
def TwinReportedUpdate.toJson (body : TwinReportedUpdate) : Json :=
  .ofMembers (member "reported" body.reported)

/-- The JSON form of a batch. -/
def PublishTelemetry.toJson (body : PublishTelemetry) : Except NonFinite Json := do
  let telemetry ← body.telemetry.mapM NodeTelemetry.toJson
  return .ofMembers <|
    member "telemetry" (.array telemetry) ++
    member "timestamp" (i64Json body.timestamp)

/-- The JSON form of a link state. -/
def ConnectionStatus.toJson (body : ConnectionStatus) : Json :=
  .ofMembers <|
    member "connected" (.bool body.connected) ++
    optionalMember "reason" stringJson body.reason ++
    optionalMember "lastSync" i64Json body.lastSync ++
    optionalMember "queuedMessages" u32Json body.queuedMessages

/-- The JSON form of an error notification. -/
def ErrorNotice.toJson (body : ErrorNotice) : Json :=
  .ofMembers <|
    member "code" (.string body.code) ++
    member "message" (.string body.message) ++
    optionalMember "details" id body.details

/-- The JSON form of a payload. -/
def Payload.toJson : Payload → Except NonFinite Json
  | .nodeDiscovered body => body.toJson
  | .nodeTelemetry body => body.toJson
  | .applyNodeConfig body => .ok body.toJson
  | .nodeConfigResult body => .ok body.toJson
  | .pullNodeLogs body => .ok body.toJson
  | .nodeLogChunk body => .ok body.toJson
  | .twinDesiredUpdate body => .ok body.toJson
  | .twinReportedUpdate body => .ok body.toJson
  | .publishTelemetry body => body.toJson
  | .connectionStatus body => .ok body.toJson
  | .heartbeat => .ok (.object [])
  | .error body => .ok body.toJson

end HubLink.Message
