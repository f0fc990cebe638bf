import HubLink.Message.Payload.Document
import HubLink.Message.Payload.Shape
import HubLink.Proofs.Binary.Widening
import HubLink.Proofs.Json.Record

/-!
# Records of messages are read back

Each record of a payload is read from the document that it was written as.  A field is found under
its name because the names of a record differ, and its value is read back by the law of its type, so
each proof goes through the fields from the last to the first.  The one thing that is lost is a
free-form part that is an explicit null: it counts as absent (`keptDocument`).
-/

namespace HubLink.Message

open Json (Shape Record last? last?_singleton)

/-! ## Finding members -/

@[simp]
theorem last?_member (key name : String) (value : Json) :
    last? key (member name value) = if key = name then some value else none :=
  last?_singleton key name value

@[simp]
theorem last?_optionalMember {α : Type} (key name : String) (write : α → Json) (field : Option α) :
    last? key (optionalMember name write field) = if key = name then field.map write else none := by
  cases field with
  | none => exact (ite_self none).symm
  | some value => exact last?_singleton key name (write value)

/-! ## Fields of one type -/

theorem singleJson_eq_ok {number : Single} {json : Json} (hjson : singleJson number = .ok json) :
    number.isFinite = true ∧ json = .real number.widen := by
  unfold singleJson at hjson
  split at hjson
  · cases hjson
  next hfinite =>
    cases hjson
    exact ⟨(Single.nonFinite?_eq_none_iff number).mp hfinite, rfl⟩

theorem doubleJson_eq_ok {number : Double} {json : Json} (hjson : doubleJson number = .ok json) :
    number.isFinite = true ∧ json = .real number := by
  unfold doubleJson at hjson
  split at hjson
  · cases hjson
  next hfinite =>
    cases hjson
    exact ⟨(Double.nonFinite?_eq_none_iff number).mp hfinite, rfl⟩

theorem single_singleJson {number : Single} {json : Json} (hjson : singleJson number = .ok json) :
    Shape.single json = .ok number := by
  obtain ⟨hfinite, rfl⟩ := singleJson_eq_ok hjson
  exact congrArg Except.ok (Single.narrow_widen hfinite)

theorem double_doubleJson {number : Double} {json : Json} (hjson : doubleJson number = .ok json) :
    Shape.double json = .ok number := by
  obtain ⟨_, rfl⟩ := doubleJson_eq_ok hjson
  rfl

theorem i64_i64Json (n : Int64) : Shape.i64 (i64Json n) = .ok n :=
  Shape.i64_toInt n

theorem u32_u32Json (n : UInt32) : Shape.u32 (u32Json n) = .ok n :=
  Shape.u32_toNat n

theorem list_string_map (texts : List String) :
    Shape.list Shape.string (.array (texts.map stringJson)) = .ok texts := by
  show (texts.map stringJson).mapM Shape.string = .ok texts
  induction texts with
  | nil => rfl
  | cons text rest ih =>
      rw [List.map_cons, List.mapM_cons, ih]
      rfl

theorem optionalValue_string (field : Option String) :
    Shape.optionalValue Shape.string (field.map stringJson) = .ok field := by
  refine @Shape.optionalValue_map _ Shape.string stringJson ?_ field
  intro value
  refine ⟨?_, rfl⟩
  intro hnull
  cases hnull

theorem optionalValue_i64 (field : Option Int64) :
    Shape.optionalValue Shape.i64 (field.map i64Json) = .ok field := by
  refine @Shape.optionalValue_map _ Shape.i64 i64Json ?_ field
  intro value
  refine ⟨?_, i64_i64Json value⟩
  intro hnull
  cases hnull

theorem optionalValue_u32 (field : Option UInt32) :
    Shape.optionalValue Shape.u32 (field.map u32Json) = .ok field := by
  refine @Shape.optionalValue_map _ Shape.u32 u32Json ?_ field
  intro value
  refine ⟨?_, u32_u32Json value⟩
  intro hnull
  cases hnull

/-- What is left of a free-form part after it was written and read: an explicit null is gone. -/
def keptDocument : Option Json → Option Json
  | some .null => none
  | document => document

theorem optionalValue_any (document : Option Json) :
    Shape.optionalValue Shape.any (document.map id) = .ok (keptDocument document) := by
  rcases document with _ | _ | _ | _ | _ | _ | _ | _ <;> rfl

/-! ## Samples -/

theorem AdvertisementSummary.shape_toJson {body : AdvertisementSummary} {json : Json}
    (hjson : body.toJson = .ok json) (name : String) :
    AdvertisementSummary.record.shape name json = .ok body := by
  obtain ⟨percent, reading, flags, counter⟩ := body
  obtain ⟨readingJson, hreading, hjson⟩ := bind_eq_ok.mp hjson
  obtain rfl := Except.ok.inj hjson
  refine Record.shape_ofMembers ?_
  refine .required ?_ (by simp) (Shape.u16_toNat counter)
  refine .required ?_ (by simp) (map_eq_ok.mpr ⟨_, Shape.u8_toNat flags.bits, rfl⟩)
  refine .required ?_ (by simp) (single_singleJson hreading)
  refine .required ?_ (by simp) (Shape.u8_toNat percent)
  exact Record.builds_unit _ _

theorem NodeDiscovered.shape_toJson {body : NodeDiscovered} {json : Json}
    (hjson : body.toJson = .ok json) (name : String) :
    NodeDiscovered.record.shape name json = .ok body := by
  obtain ⟨nodeId, rssi, data⟩ := body
  obtain ⟨dataJson, hdata, hjson⟩ := bind_eq_ok.mp hjson
  obtain rfl := Except.ok.inj hjson
  refine Record.shape_ofMembers ?_
  refine .required ?_ (by simp) (data.shape_toJson hdata _)
  refine .required ?_ (by simp) (Shape.i16_toInt rssi)
  refine .required ?_ (by simp) (Shape.string_string nodeId)
  exact Record.builds_unit _ _

theorem Reading.shape_toJson {body : Reading} {json : Json}
    (hjson : body.toJson = .ok json) (name : String) :
    Reading.record.shape name json = .ok body := by
  obtain ⟨timestamp, value, unit, quality⟩ := body
  obtain ⟨valueJson, hvalue, hjson⟩ := bind_eq_ok.mp hjson
  obtain rfl := Except.ok.inj hjson
  refine Record.shape_ofMembers ?_
  refine .required ?_ (by simp) (map_eq_ok.mpr ⟨_, Shape.u8_toNat quality.bits, rfl⟩)
  refine .required ?_ (by simp) (Shape.string_string unit)
  refine .required ?_ (by simp) (double_doubleJson hvalue)
  refine .required ?_ (by simp) (i64_i64Json timestamp)
  exact Record.builds_unit _ _

theorem Battery.shape_toJson (body : Battery) (name : String) :
    Battery.record.shape name body.toJson = .ok body := by
  obtain ⟨millivolts, percent⟩ := body
  refine Record.shape_ofMembers ?_
  refine .required ?_ (by simp) (Shape.u8_toNat percent)
  refine .required ?_ (by simp) (Shape.u16_toNat millivolts)
  exact Record.builds_unit _ _

theorem NodeTelemetry.shape_toJson {body : NodeTelemetry} {json : Json}
    (hjson : body.toJson = .ok json) (name : String) :
    NodeTelemetry.record.shape name json = .ok body := by
  obtain ⟨nodeId, groupId, reading, battery, faults, rssi⟩ := body
  obtain ⟨readingJson, hreading, hjson⟩ := bind_eq_ok.mp hjson
  obtain rfl := Except.ok.inj hjson
  refine Record.shape_ofMembers ?_
  refine .required ?_ (by simp) (Shape.i16_toInt rssi)
  refine .required ?_ (by simp) (list_string_map faults)
  refine .required ?_ (by simp) (battery.shape_toJson _)
  refine .required ?_ (by simp) (reading.shape_toJson hreading _)
  refine .optional ?_ (by simp) (optionalValue_string groupId)
  refine .required ?_ (by simp) (Shape.string_string nodeId)
  exact Record.builds_unit _ _

theorem PublishTelemetry.shape_toJson {body : PublishTelemetry} {json : Json}
    (hjson : body.toJson = .ok json) (name : String) :
    PublishTelemetry.record.shape name json = .ok body := by
  obtain ⟨telemetry, timestamp⟩ := body
  obtain ⟨documents, hdocuments, hjson⟩ := bind_eq_ok.mp hjson
  obtain rfl := Except.ok.inj hjson
  have hback : Shape.list (NodeTelemetry.record.shape "NodeTelemetryPayload") (.array documents) =
      .ok telemetry :=
    mapM_mapM_eq_ok hdocuments fun sample _ json hjson => sample.shape_toJson hjson _
  refine Record.shape_ofMembers ?_
  refine .required ?_ (by simp) (i64_i64Json timestamp)
  refine .required ?_ (by simp) hback
  exact Record.builds_unit _ _

/-! ## Configurations and logs -/

theorem SamplingConfig.shape_toJson (body : SamplingConfig) (name : String) :
    SamplingConfig.record.shape name body.toJson = .ok body := by
  obtain ⟨intervalSeconds, warmupMs, burstCount, aggregation⟩ := body
  refine Record.shape_ofMembers ?_
  refine .required ?_ (by simp) (Shape.string_string aggregation)
  refine .required ?_ (by simp) (u32_u32Json burstCount)
  refine .required ?_ (by simp) (u32_u32Json warmupMs)
  refine .required ?_ (by simp) (u32_u32Json intervalSeconds)
  exact Record.builds_unit _ _

theorem optionalValue_sampling (field : Option SamplingConfig) (name : String) :
    Shape.optionalValue (SamplingConfig.record.shape name) (field.map SamplingConfig.toJson) =
      .ok field := by
  refine Shape.optionalValue_map (fun value => ⟨?_, value.shape_toJson name⟩) field
  intro hnull
  cases hnull

/-- The configuration without the parts that are an explicit null. -/
def NodeConfig.withoutNulls (config : NodeConfig) : NodeConfig where
  sampling := config.sampling
  calibration := keptDocument config.calibration
  advertisement := keptDocument config.advertisement
  faults := keptDocument config.faults

theorem NodeConfig.shape_toJson (body : NodeConfig) (name : String) :
    NodeConfig.record.shape name body.toJson = .ok body.withoutNulls := by
  obtain ⟨sampling, calibration, advertisement, faults⟩ := body
  refine Record.shape_ofMembers ?_
  refine .optional ?_ (by simp) (optionalValue_any faults)
  refine .optional ?_ (by simp) (optionalValue_any advertisement)
  refine .optional ?_ (by simp) (optionalValue_any calibration)
  refine .optional ?_ (by simp) (optionalValue_sampling sampling _)
  exact Record.builds_unit _ _

theorem ApplyNodeConfig.shape_toJson (body : ApplyNodeConfig) (name : String) :
    ApplyNodeConfig.record.shape name body.toJson =
      .ok { body with config := body.config.withoutNulls } := by
  obtain ⟨jobId, nodeId, config, timeoutSeconds⟩ := body
  refine Record.shape_ofMembers ?_
  refine .required ?_ (by simp) (u32_u32Json timeoutSeconds)
  refine .required ?_ (by simp) (config.shape_toJson _)
  refine .required ?_ (by simp) (Shape.string_string nodeId)
  refine .required ?_ (by simp) (Shape.string_string jobId)
  exact Record.builds_unit _ _

theorem NodeConfigResult.shape_toJson (body : NodeConfigResult) (name : String) :
    NodeConfigResult.record.shape name body.toJson = .ok body := by
  obtain ⟨jobId, nodeId, success, errorCode, errorMessage, appliedAt⟩ := body
  refine Record.shape_ofMembers ?_
  refine .optional ?_ (by simp) (optionalValue_i64 appliedAt)
  refine .optional ?_ (by simp) (optionalValue_string errorMessage)
  refine .optional ?_ (by simp) (optionalValue_string errorCode)
  refine .required ?_ (by simp) (Shape.bool_bool success)
  refine .required ?_ (by simp) (Shape.string_string nodeId)
  refine .required ?_ (by simp) (Shape.string_string jobId)
  exact Record.builds_unit _ _

theorem PullNodeLogs.shape_toJson (body : PullNodeLogs) (name : String) :
    PullNodeLogs.record.shape name body.toJson = .ok body := by
  obtain ⟨jobId, nodeId, maxBytes⟩ := body
  refine Record.shape_ofMembers ?_
  refine .required ?_ (by simp) (u32_u32Json maxBytes)
  refine .required ?_ (by simp) (Shape.string_string nodeId)
  refine .required ?_ (by simp) (Shape.string_string jobId)
  exact Record.builds_unit _ _

theorem LogChunk.shape_toJson (body : LogChunk) (name : String) :
    LogChunk.record.shape name body.toJson = .ok body := by
  obtain ⟨jobId, nodeId, chunkIndex, totalChunks, data, complete⟩ := body
  refine Record.shape_ofMembers ?_
  refine .required ?_ (by simp) (Shape.bool_bool complete)
  refine .required ?_ (by simp) (Shape.string_string data)
  refine .required ?_ (by simp) (u32_u32Json totalChunks)
  refine .required ?_ (by simp) (u32_u32Json chunkIndex)
  refine .required ?_ (by simp) (Shape.string_string nodeId)
  refine .required ?_ (by simp) (Shape.string_string jobId)
  exact Record.builds_unit _ _

/-! ## Twins, links, errors -/

theorem TwinDesiredUpdate.shape_toJson (body : TwinDesiredUpdate) (name : String) :
    TwinDesiredUpdate.record.shape name body.toJson = .ok body := by
  obtain ⟨version, desired⟩ := body
  refine Record.shape_ofMembers ?_
  refine .required ?_ (by simp) (Shape.any_eq desired)
  refine .required ?_ (by simp) (Shape.u64_toNat version)
  exact Record.builds_unit _ _

theorem TwinReportedUpdate.shape_toJson (body : TwinReportedUpdate) (name : String) :
    TwinReportedUpdate.record.shape name body.toJson = .ok body := by
  obtain ⟨reported⟩ := body
  refine Record.shape_ofMembers ?_
  refine .required ?_ (by simp) (Shape.any_eq reported)
  exact Record.builds_unit _ _

theorem ConnectionStatus.shape_toJson (body : ConnectionStatus) (name : String) :
    ConnectionStatus.record.shape name body.toJson = .ok body := by
  obtain ⟨connected, reason, lastSync, queuedMessages⟩ := body
  refine Record.shape_ofMembers ?_
  refine .optional ?_ (by simp) (optionalValue_u32 queuedMessages)
  refine .optional ?_ (by simp) (optionalValue_i64 lastSync)
  refine .optional ?_ (by simp) (optionalValue_string reason)
  refine .required ?_ (by simp) (Shape.bool_bool connected)
  exact Record.builds_unit _ _

theorem ErrorNotice.shape_toJson (body : ErrorNotice) (name : String) :
    ErrorNotice.record.shape name body.toJson =
      .ok { body with details := keptDocument body.details } := by
  obtain ⟨code, message, details⟩ := body
  refine Record.shape_ofMembers ?_
  refine .optional ?_ (by simp) (optionalValue_any details)
  refine .required ?_ (by simp) (Shape.string_string message)
  refine .required ?_ (by simp) (Shape.string_string code)
  exact Record.builds_unit _ _

end HubLink.Message
