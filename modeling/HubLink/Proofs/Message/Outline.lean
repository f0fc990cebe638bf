import HubLink.Message.Payload.Shape
import HubLink.Proofs.Json.RecordOutline

/-!
# Bodies along their outlines

The outline of a kind says what its body must be: which records it is made of, which of their members
must be there, and what stands in each.  Free-form parts are nobody's to read, so any value may stand
there.  A body is read exactly if the outline admits it (`Payload.exists_ofJson_iff`), and growth along
the outline, by members that a newer peer has added, is not noticed (`Payload.ofJson_grown`).
-/

namespace HubLink.Message

open Json
open Json.Outline (required optional any text truth number u8 u16 u32 u64 i16 i64)

/-! ## Outlines -/

/-- The fields of an advertisement summary. -/
def AdvertisementSummary.outline : List Outline.Field :=
  [required "batteryPercent" u8, required "lastReading" number, required "faultFlags" u8,
    required "counter" u16]

/-- The fields of a discovery. -/
def NodeDiscovered.outline : List Outline.Field :=
  [required "nodeId" text, required "rssi" i16,
    required "advertisementData" (.record AdvertisementSummary.outline)]

/-- The fields of a reading. -/
def Reading.outline : List Outline.Field :=
  [required "timestamp" i64, required "value" number, required "unit" text, required "quality" u8]

/-- The fields of a battery. -/
def Battery.outline : List Outline.Field :=
  [required "millivolts" u16, required "percent" u8]

/-- The fields of a sample. -/
def NodeTelemetry.outline : List Outline.Field :=
  [required "nodeId" text, optional "machineId" text, required "reading" (.record Reading.outline),
    required "battery" (.record Battery.outline), required "faults" (.list text),
    required "rssi" i16]

/-- The fields of a sampling section. -/
def SamplingConfig.outline : List Outline.Field :=
  [required "intervalSeconds" u32, required "warmupMs" u32, required "burstCount" u32,
    required "aggregation" text]

/-- The fields of a node configuration. -/
def NodeConfig.outline : List Outline.Field :=
  [optional "sampling" (.record SamplingConfig.outline), optional "calibration" any,
    optional "advertisement" any, optional "faults" any]

/-- The fields of a configuration request. -/
def ApplyNodeConfig.outline : List Outline.Field :=
  [required "jobId" text, required "nodeId" text, required "config" (.record NodeConfig.outline),
    required "timeoutSeconds" u32]

/-- The fields of a configuration result. -/
def NodeConfigResult.outline : List Outline.Field :=
  [required "jobId" text, required "nodeId" text, required "success" truth,
    optional "errorCode" text, optional "errorMessage" text, optional "appliedAt" i64]

/-- The fields of a log request. -/
def PullNodeLogs.outline : List Outline.Field :=
  [required "jobId" text, required "nodeId" text, required "maxBytes" u32]

/-- The fields of a piece of a log. -/
def LogChunk.outline : List Outline.Field :=
  [required "jobId" text, required "nodeId" text, required "chunkIndex" u32,
    required "totalChunks" u32, required "data" text, required "complete" truth]

/-- The fields of a desired-state change. -/
def TwinDesiredUpdate.outline : List Outline.Field :=
  [required "version" u64, required "desired" any]

/-- The fields of a reported-state change. -/
def TwinReportedUpdate.outline : List Outline.Field :=
  [required "reported" any]

/-- The fields of a batch. -/
def PublishTelemetry.outline : List Outline.Field :=
  [required "telemetry" (.list (.record NodeTelemetry.outline)), required "timestamp" i64]

/-- The fields of a link state. -/
def ConnectionStatus.outline : List Outline.Field :=
  [required "connected" truth, optional "reason" text, optional "lastSync" i64,
    optional "queuedMessages" u32]

/-- The fields of an error notification. -/
def ErrorNotice.outline : List Outline.Field :=
  [required "code" text, required "message" text, optional "details" any]

/-- The fields of a kind's body; a heartbeat has none. -/
def Kind.fields : Kind → List Outline.Field
  | .nodeDiscovered => NodeDiscovered.outline
  | .nodeTelemetry => NodeTelemetry.outline
  | .applyNodeConfig => ApplyNodeConfig.outline
  | .nodeConfigResult => NodeConfigResult.outline
  | .pullNodeLogs => PullNodeLogs.outline
  | .nodeLogChunk => LogChunk.outline
  | .twinDesiredUpdate => TwinDesiredUpdate.outline
  | .twinReportedUpdate => TwinReportedUpdate.outline
  | .publishTelemetry => PublishTelemetry.outline
  | .connectionStatus => ConnectionStatus.outline
  | .heartbeat => []
  | .error => ErrorNotice.outline

/-- The outline of a kind's body. -/
def Kind.outline (kind : Kind) : Outline :=
  .record kind.fields

/-- The body has the shape of the kind; that of a heartbeat is not looked at. -/
def Kind.Admits (kind : Kind) (body : Json) : Prop :=
  kind = .heartbeat ∨ Json.Admits kind.outline body

/-! ## Records read along their outlines -/

theorem AdvertisementSummary.readsAlong (name : String) :
    ReadsAlong (.record outline) (record.shape name) := by
  have houtlines : Outlines outline record :=
    outlines_unit _
      |>.required "batteryPercent" readsAlong_u8
      |>.required "lastReading" readsAlong_single
      |>.required "faultFlags" (readsAlong_u8.map _)
      |>.required "counter" readsAlong_u16
  exact houtlines.readsAlong (by decide) name

theorem NodeDiscovered.readsAlong (name : String) :
    ReadsAlong (.record outline) (record.shape name) := by
  have houtlines : Outlines outline record :=
    outlines_unit _
      |>.required "nodeId" readsAlong_string
      |>.required "rssi" readsAlong_i16
      |>.required "advertisementData" (AdvertisementSummary.readsAlong _)
  exact houtlines.readsAlong (by decide) name

theorem Reading.readsAlong (name : String) :
    ReadsAlong (.record outline) (record.shape name) := by
  have houtlines : Outlines outline record :=
    outlines_unit _
      |>.required "timestamp" readsAlong_i64
      |>.required "value" readsAlong_double
      |>.required "unit" readsAlong_string
      |>.required "quality" (readsAlong_u8.map _)
  exact houtlines.readsAlong (by decide) name

theorem Battery.readsAlong (name : String) :
    ReadsAlong (.record outline) (record.shape name) := by
  have houtlines : Outlines outline record :=
    outlines_unit _
      |>.required "millivolts" readsAlong_u16
      |>.required "percent" readsAlong_u8
  exact houtlines.readsAlong (by decide) name

theorem NodeTelemetry.readsAlong (name : String) :
    ReadsAlong (.record outline) (record.shape name) := by
  have houtlines : Outlines outline record :=
    outlines_unit _
      |>.required "nodeId" readsAlong_string
      |>.optional "machineId" readsAlong_string
      |>.required "reading" (Reading.readsAlong _)
      |>.required "battery" (Battery.readsAlong _)
      |>.required "faults" readsAlong_string.list
      |>.required "rssi" readsAlong_i16
  exact houtlines.readsAlong (by decide) name

theorem SamplingConfig.readsAlong (name : String) :
    ReadsAlong (.record outline) (record.shape name) := by
  have houtlines : Outlines outline record :=
    outlines_unit _
      |>.required "intervalSeconds" readsAlong_u32
      |>.required "warmupMs" readsAlong_u32
      |>.required "burstCount" readsAlong_u32
      |>.required "aggregation" readsAlong_string
  exact houtlines.readsAlong (by decide) name

theorem NodeConfig.readsAlong (name : String) :
    ReadsAlong (.record outline) (record.shape name) := by
  have houtlines : Outlines outline record :=
    outlines_unit _
      |>.optional "sampling" (SamplingConfig.readsAlong _)
      |>.optional "calibration" readsAlong_any
      |>.optional "advertisement" readsAlong_any
      |>.optional "faults" readsAlong_any
  exact houtlines.readsAlong (by decide) name

theorem ApplyNodeConfig.readsAlong (name : String) :
    ReadsAlong (.record outline) (record.shape name) := by
  have houtlines : Outlines outline record :=
    outlines_unit _
      |>.required "jobId" readsAlong_string
      |>.required "nodeId" readsAlong_string
      |>.required "config" (NodeConfig.readsAlong _)
      |>.required "timeoutSeconds" readsAlong_u32
  exact houtlines.readsAlong (by decide) name

theorem NodeConfigResult.readsAlong (name : String) :
    ReadsAlong (.record outline) (record.shape name) := by
  have houtlines : Outlines outline record :=
    outlines_unit _
      |>.required "jobId" readsAlong_string
      |>.required "nodeId" readsAlong_string
      |>.required "success" readsAlong_bool
      |>.optional "errorCode" readsAlong_string
      |>.optional "errorMessage" readsAlong_string
      |>.optional "appliedAt" readsAlong_i64
  exact houtlines.readsAlong (by decide) name

theorem PullNodeLogs.readsAlong (name : String) :
    ReadsAlong (.record outline) (record.shape name) := by
  have houtlines : Outlines outline record :=
    outlines_unit _
      |>.required "jobId" readsAlong_string
      |>.required "nodeId" readsAlong_string
      |>.required "maxBytes" readsAlong_u32
  exact houtlines.readsAlong (by decide) name

theorem LogChunk.readsAlong (name : String) :
    ReadsAlong (.record outline) (record.shape name) := by
  have houtlines : Outlines outline record :=
    outlines_unit _
      |>.required "jobId" readsAlong_string
      |>.required "nodeId" readsAlong_string
      |>.required "chunkIndex" readsAlong_u32
      |>.required "totalChunks" readsAlong_u32
      |>.required "data" readsAlong_string
      |>.required "complete" readsAlong_bool
  exact houtlines.readsAlong (by decide) name

theorem TwinDesiredUpdate.readsAlong (name : String) :
    ReadsAlong (.record outline) (record.shape name) := by
  have houtlines : Outlines outline record :=
    outlines_unit _
      |>.required "version" readsAlong_u64
      |>.required "desired" readsAlong_any
  exact houtlines.readsAlong (by decide) name

theorem TwinReportedUpdate.readsAlong (name : String) :
    ReadsAlong (.record outline) (record.shape name) := by
  have houtlines : Outlines outline record :=
    outlines_unit _
      |>.required "reported" readsAlong_any
  exact houtlines.readsAlong (by decide) name

theorem PublishTelemetry.readsAlong (name : String) :
    ReadsAlong (.record outline) (record.shape name) := by
  have houtlines : Outlines outline record :=
    outlines_unit _
      |>.required "telemetry" (NodeTelemetry.readsAlong _).list
      |>.required "timestamp" readsAlong_i64
  exact houtlines.readsAlong (by decide) name

theorem ConnectionStatus.readsAlong (name : String) :
    ReadsAlong (.record outline) (record.shape name) := by
  have houtlines : Outlines outline record :=
    outlines_unit _
      |>.required "connected" readsAlong_bool
      |>.optional "reason" readsAlong_string
      |>.optional "lastSync" readsAlong_i64
      |>.optional "queuedMessages" readsAlong_u32
  exact houtlines.readsAlong (by decide) name

theorem ErrorNotice.readsAlong (name : String) :
    ReadsAlong (.record outline) (record.shape name) := by
  have houtlines : Outlines outline record :=
    outlines_unit _
      |>.required "code" readsAlong_string
      |>.required "message" readsAlong_string
      |>.optional "details" readsAlong_any
  exact houtlines.readsAlong (by decide) name

/-! ## Bodies -/

/-- A body is read along the outline of its kind, unless that looks at no body. -/
theorem Payload.readsAlong_ofJson {kind : Kind} (hkind : kind ≠ .heartbeat) :
    ReadsAlong kind.outline (Payload.ofJson kind) := by
  cases kind with
  | nodeDiscovered => exact (NodeDiscovered.readsAlong _).map _
  | nodeTelemetry => exact (NodeTelemetry.readsAlong _).map _
  | applyNodeConfig => exact (ApplyNodeConfig.readsAlong _).map _
  | nodeConfigResult => exact (NodeConfigResult.readsAlong _).map _
  | pullNodeLogs => exact (PullNodeLogs.readsAlong _).map _
  | nodeLogChunk => exact (LogChunk.readsAlong _).map _
  | twinDesiredUpdate => exact (TwinDesiredUpdate.readsAlong _).map _
  | twinReportedUpdate => exact (TwinReportedUpdate.readsAlong _).map _
  | publishTelemetry => exact (PublishTelemetry.readsAlong _).map _
  | connectionStatus => exact (ConnectionStatus.readsAlong _).map _
  | heartbeat => exact absurd rfl hkind
  | error => exact (ErrorNotice.readsAlong _).map _

/-- **A payload is read from the bodies of its kind's shape**, and from no other. -/
theorem Payload.exists_ofJson_iff {kind : Kind} {body : Json} :
    (∃ payload, Payload.ofJson kind body = .ok payload) ↔ kind.Admits body := by
  by_cases hkind : kind = .heartbeat
  · subst hkind
    exact iff_of_true ⟨.heartbeat, rfl⟩ (.inl rfl)
  · rw [(Payload.readsAlong_ofJson hkind).accepts, Kind.Admits, or_iff_right hkind]

/-- **A payload does not notice that its body has grown.** -/
theorem Payload.ofJson_grown {kind : Kind} {old new : Json} (hgrows : Grows kind.outline old new) :
    Payload.ofJson kind new = Payload.ofJson kind old := by
  by_cases hkind : kind = .heartbeat
  · subst hkind
    rfl
  · exact (Payload.readsAlong_ofJson hkind).preserves _ _ hgrows

end HubLink.Message
