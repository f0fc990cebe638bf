import HubLink.Proofs.Message.Document

/-!
# Payloads are read back

A payload is read from its document under its own kind, and comes back as it was but for free-form
parts that are an explicit null (`Payload.ofJson_toJson`).  What has to be asked of the free-form
parts for this to carry over to the text is asked of them alone: all other members are well formed
by their types, and only free-form parts can nest without bound (`Payload.fits_toJson`).
-/

namespace HubLink.Message

open Json (Shape Record Fits fits_string fits_bool fits_natural fits_u8 fits_u16 fits_u32 fits_u64
  fits_i16 fits_i64)

/-! ## Free-form parts -/

/-- The free-form parts of a configuration. -/
def NodeConfig.optionalDocuments (config : NodeConfig) : List (Option Json) :=
  [config.calibration, config.advertisement, config.faults]

namespace Payload

/-- The free-form parts that may be left out. -/
def optionalDocuments : Payload → List (Option Json)
  | .applyNodeConfig body => body.config.optionalDocuments
  | .error body => [body.details]
  | _ => []

/-- The free-form parts that are always there. -/
def requiredDocuments : Payload → List Json
  | .twinDesiredUpdate body => [body.desired]
  | .twinReportedUpdate body => [body.reported]
  | _ => []

/-- Every free-form part that is there is good. -/
def EveryDocument (good : Json → Prop) (payload : Payload) : Prop :=
  (∀ document ∈ payload.requiredDocuments, good document) ∧
    ∀ optional ∈ payload.optionalDocuments, ∀ document ∈ optional, good document

/-- No free-form part that may be left out is an explicit null. -/
def NoNullDocument (payload : Payload) : Prop :=
  ∀ optional ∈ payload.optionalDocuments, optional ≠ some .null

/-- The payload without the free-form parts that are an explicit null. -/
def withoutNulls : Payload → Payload
  | .applyNodeConfig body => .applyNodeConfig { body with config := body.config.withoutNulls }
  | .error body => .error { body with details := keptDocument body.details }
  | payload => payload

/-- How many brackets a payload puts around its free-form parts. -/
def level : Payload → Nat
  | .applyNodeConfig _ => 2
  | _ => 1

end Payload

theorem keptDocument_eq_self_iff {document : Option Json} :
    keptDocument document = document ↔ document ≠ some .null := by
  rcases document with _ | _ | _ | _ | _ | _ | _ | _ <;> simp [keptDocument]

theorem Payload.withoutNulls_eq_self_iff {payload : Payload} :
    payload.withoutNulls = payload ↔ payload.NoNullDocument := by
  cases payload with
  | applyNodeConfig body =>
      obtain ⟨jobId, nodeId, ⟨sampling, calibration, advertisement, faults⟩, timeout⟩ := body
      simp [withoutNulls, NodeConfig.withoutNulls, NoNullDocument, optionalDocuments,
        NodeConfig.optionalDocuments, keptDocument_eq_self_iff]
  | error body =>
      obtain ⟨code, message, details⟩ := body
      simp [withoutNulls, NoNullDocument, optionalDocuments, keptDocument_eq_self_iff]
  | _ => simp [withoutNulls, NoNullDocument, optionalDocuments]

/-- **A payload is read back from its document**, explicit nulls apart. -/
theorem Payload.ofJson_toJson {payload : Payload} {json : Json}
    (hjson : payload.toJson = .ok json) :
    Payload.ofJson payload.kind json = .ok payload.withoutNulls := by
  cases payload with
  | nodeDiscovered body =>
      have hread := body.shape_toJson hjson "NodeDiscoveredPayload"
      have hpayload := congrArg (Except.map Payload.nodeDiscovered) hread
      exact hpayload
  | nodeTelemetry body =>
      have hread := body.shape_toJson hjson "NodeTelemetryPayload"
      have hpayload := congrArg (Except.map Payload.nodeTelemetry) hread
      exact hpayload
  | publishTelemetry body =>
      have hread := body.shape_toJson hjson "PublishTelemetryPayload"
      have hpayload := congrArg (Except.map Payload.publishTelemetry) hread
      exact hpayload
  | heartbeat => rfl
  | applyNodeConfig body =>
      obtain rfl := Except.ok.inj hjson
      have hread := body.shape_toJson "ApplyNodeConfigPayload"
      have hpayload := congrArg (Except.map Payload.applyNodeConfig) hread
      exact hpayload
  | nodeConfigResult body =>
      obtain rfl := Except.ok.inj hjson
      have hread := body.shape_toJson "NodeConfigResultPayload"
      have hpayload := congrArg (Except.map Payload.nodeConfigResult) hread
      exact hpayload
  | pullNodeLogs body =>
      obtain rfl := Except.ok.inj hjson
      have hread := body.shape_toJson "PullNodeLogsPayload"
      have hpayload := congrArg (Except.map Payload.pullNodeLogs) hread
      exact hpayload
  | nodeLogChunk body =>
      obtain rfl := Except.ok.inj hjson
      have hread := body.shape_toJson "NodeLogChunkPayload"
      have hpayload := congrArg (Except.map Payload.nodeLogChunk) hread
      exact hpayload
  | twinDesiredUpdate body =>
      obtain rfl := Except.ok.inj hjson
      have hread := body.shape_toJson "TwinDesiredUpdatePayload"
      have hpayload := congrArg (Except.map Payload.twinDesiredUpdate) hread
      exact hpayload
  | twinReportedUpdate body =>
      obtain rfl := Except.ok.inj hjson
      have hread := body.shape_toJson "TwinReportedUpdatePayload"
      have hpayload := congrArg (Except.map Payload.twinReportedUpdate) hread
      exact hpayload
  | connectionStatus body =>
      obtain rfl := Except.ok.inj hjson
      have hread := body.shape_toJson "ConnectionStatusPayload"
      have hpayload := congrArg (Except.map Payload.connectionStatus) hread
      exact hpayload
  | error body =>
      obtain rfl := Except.ok.inj hjson
      have hread := body.shape_toJson "ErrorPayload"
      have hpayload := congrArg (Except.map Payload.error) hread
      exact hpayload

/-! ## What is written is well formed -/

variable {budget : Nat}

theorem forall_mem_member {good : Json → Prop} {name : String} {value : Json} :
    (∀ m ∈ member name value, good m.2) ↔ good value := by
  simp [member]

theorem forall_mem_optionalMember {α : Type} {good : Json → Prop} {name : String}
    {write : α → Json} {field : Option α} :
    (∀ m ∈ optionalMember name write field, good m.2) ↔ ∀ value ∈ field, good (write value) := by
  cases field <;> simp [optionalMember]

theorem fits_single {number : Single} {json : Json} (hjson : singleJson number = .ok json) :
    Fits budget json := by
  obtain ⟨hfinite, rfl⟩ := singleJson_eq_ok hjson
  exact ⟨(Single.widen_spec hfinite).1, Nat.zero_le _⟩

theorem fits_double {number : Double} {json : Json} (hjson : doubleJson number = .ok json) :
    Fits budget json := by
  obtain ⟨hfinite, rfl⟩ := doubleJson_eq_ok hjson
  exact ⟨hfinite, Nat.zero_le _⟩

theorem AdvertisementSummary.fits_toJson {body : AdvertisementSummary} {json : Json}
    (hjson : body.toJson = .ok json) : Fits (budget + 1) json := by
  obtain ⟨reading, hreading, hjson⟩ := bind_eq_ok.mp hjson
  obtain rfl := Except.ok.inj hjson
  refine Json.fits_ofMembers ?_
  simp only [List.forall_mem_append, forall_mem_member]
  exact ⟨⟨⟨fits_u8 _, fits_single hreading⟩, fits_u8 _⟩, fits_u16 _⟩

theorem NodeDiscovered.fits_toJson {body : NodeDiscovered} {json : Json}
    (hjson : body.toJson = .ok json) : Fits (budget + 2) json := by
  obtain ⟨data, hdata, hjson⟩ := bind_eq_ok.mp hjson
  obtain rfl := Except.ok.inj hjson
  refine Json.fits_ofMembers ?_
  simp only [List.forall_mem_append, forall_mem_member]
  exact ⟨⟨fits_string _, fits_i16 _⟩, AdvertisementSummary.fits_toJson hdata⟩

theorem Reading.fits_toJson {body : Reading} {json : Json} (hjson : body.toJson = .ok json) :
    Fits (budget + 1) json := by
  obtain ⟨value, hvalue, hjson⟩ := bind_eq_ok.mp hjson
  obtain rfl := Except.ok.inj hjson
  refine Json.fits_ofMembers ?_
  simp only [List.forall_mem_append, forall_mem_member]
  exact ⟨⟨⟨fits_i64 _, fits_double hvalue⟩, fits_string _⟩, fits_u8 _⟩

theorem Battery.fits_toJson (body : Battery) : Fits (budget + 1) body.toJson := by
  refine Json.fits_ofMembers ?_
  simp only [List.forall_mem_append, forall_mem_member]
  exact ⟨fits_u16 _, fits_u8 _⟩

theorem NodeTelemetry.fits_toJson {body : NodeTelemetry} {json : Json}
    (hjson : body.toJson = .ok json) : Fits (budget + 2) json := by
  obtain ⟨reading, hreading, hjson⟩ := bind_eq_ok.mp hjson
  obtain rfl := Except.ok.inj hjson
  have hfaults : Fits (budget + 1) (.array (body.faults.map stringJson)) := by
    refine Json.fits_array fun item hitem => ?_
    obtain ⟨text, _, rfl⟩ := List.mem_map.mp hitem
    exact fits_string text
  refine Json.fits_ofMembers ?_
  simp only [List.forall_mem_append, forall_mem_member, forall_mem_optionalMember]
  exact ⟨⟨⟨⟨⟨fits_string _, fun text _ => fits_string text⟩, Reading.fits_toJson hreading⟩,
    Battery.fits_toJson _⟩, hfaults⟩, fits_i16 _⟩

theorem PublishTelemetry.fits_toJson {body : PublishTelemetry} {json : Json}
    (hjson : body.toJson = .ok json) : Fits (budget + 4) json := by
  obtain ⟨samples, hsamples, hjson⟩ := bind_eq_ok.mp hjson
  obtain rfl := Except.ok.inj hjson
  refine Json.fits_ofMembers ?_
  simp only [List.forall_mem_append, forall_mem_member]
  refine ⟨Json.fits_array fun item hitem => ?_, fits_i64 _⟩
  obtain ⟨sample, _, hsample⟩ := mem_of_mapM_eq_ok hsamples hitem
  exact NodeTelemetry.fits_toJson hsample

theorem SamplingConfig.fits_toJson (body : SamplingConfig) : Fits (budget + 1) body.toJson := by
  refine Json.fits_ofMembers ?_
  simp only [List.forall_mem_append, forall_mem_member]
  exact ⟨⟨⟨fits_u32 _, fits_u32 _⟩, fits_u32 _⟩, fits_string _⟩

theorem NodeConfig.fits_toJson {body : NodeConfig}
    (hdocuments : ∀ optional ∈ body.optionalDocuments, ∀ document ∈ optional,
      Fits (budget + 1) document) : Fits (budget + 2) body.toJson := by
  refine Json.fits_ofMembers ?_
  simp only [NodeConfig.optionalDocuments, List.forall_mem_cons] at hdocuments
  simp only [List.forall_mem_append, forall_mem_optionalMember]
  exact ⟨⟨⟨fun sampling _ => sampling.fits_toJson, hdocuments.1⟩, hdocuments.2.1⟩,
    hdocuments.2.2.1⟩

theorem ApplyNodeConfig.fits_toJson {body : ApplyNodeConfig}
    (hdocuments : ∀ optional ∈ body.config.optionalDocuments, ∀ document ∈ optional,
      Fits (budget + 1) document) : Fits (budget + 3) body.toJson := by
  refine Json.fits_ofMembers ?_
  simp only [List.forall_mem_append, forall_mem_member]
  exact ⟨⟨⟨fits_string _, fits_string _⟩, NodeConfig.fits_toJson hdocuments⟩, fits_u32 _⟩

theorem NodeConfigResult.fits_toJson (body : NodeConfigResult) : Fits (budget + 1) body.toJson := by
  refine Json.fits_ofMembers ?_
  simp only [List.forall_mem_append, forall_mem_member, forall_mem_optionalMember]
  exact ⟨⟨⟨⟨⟨fits_string _, fits_string _⟩, fits_bool _⟩, fun text _ => fits_string text⟩,
    fun text _ => fits_string text⟩, fun time _ => fits_i64 time⟩

theorem PullNodeLogs.fits_toJson (body : PullNodeLogs) : Fits (budget + 1) body.toJson := by
  refine Json.fits_ofMembers ?_
  simp only [List.forall_mem_append, forall_mem_member]
  exact ⟨⟨fits_string _, fits_string _⟩, fits_u32 _⟩

theorem LogChunk.fits_toJson (body : LogChunk) : Fits (budget + 1) body.toJson := by
  refine Json.fits_ofMembers ?_
  simp only [List.forall_mem_append, forall_mem_member]
  exact ⟨⟨⟨⟨⟨fits_string _, fits_string _⟩, fits_u32 _⟩, fits_u32 _⟩, fits_string _⟩, fits_bool _⟩

theorem TwinDesiredUpdate.fits_toJson {body : TwinDesiredUpdate}
    (hdesired : Fits budget body.desired) : Fits (budget + 1) body.toJson := by
  refine Json.fits_ofMembers ?_
  simp only [List.forall_mem_append, forall_mem_member]
  exact ⟨fits_u64 _, hdesired⟩

theorem TwinReportedUpdate.fits_toJson {body : TwinReportedUpdate}
    (hreported : Fits budget body.reported) : Fits (budget + 1) body.toJson :=
  Json.fits_ofMembers (forall_mem_member.mpr hreported)

theorem ConnectionStatus.fits_toJson (body : ConnectionStatus) : Fits (budget + 1) body.toJson := by
  refine Json.fits_ofMembers ?_
  simp only [List.forall_mem_append, forall_mem_member, forall_mem_optionalMember]
  exact ⟨⟨⟨fits_bool _, fun text _ => fits_string text⟩, fun time _ => fits_i64 time⟩,
    fun count _ => fits_u32 count⟩

theorem ErrorNotice.fits_toJson {body : ErrorNotice}
    (hdetails : ∀ document ∈ body.details, Fits budget document) :
    Fits (budget + 1) body.toJson := by
  refine Json.fits_ofMembers ?_
  simp only [List.forall_mem_append, forall_mem_member, forall_mem_optionalMember]
  exact ⟨⟨fits_string _, fits_string _⟩, hdetails⟩

/-- **A document is well formed if its free-form parts are**, and nests no deeper than they do. -/
theorem Payload.fits_toJson {payload : Payload} {json : Json} (hjson : payload.toJson = .ok json)
    (hdocuments : payload.EveryDocument (Fits (budget + 3))) :
    Fits (budget + 3 + payload.level) json := by
  obtain ⟨hrequired, hoptional⟩ := hdocuments
  cases payload with
  | nodeDiscovered body => exact NodeDiscovered.fits_toJson hjson
  | nodeTelemetry body => exact NodeTelemetry.fits_toJson hjson
  | publishTelemetry body => exact PublishTelemetry.fits_toJson hjson
  | heartbeat =>
      obtain rfl := Except.ok.inj hjson
      exact ⟨⟨List.Pairwise.nil, trivial⟩, Nat.le_add_left 1 _⟩
  | applyNodeConfig body =>
      obtain rfl := Except.ok.inj hjson
      exact ApplyNodeConfig.fits_toJson hoptional
  | nodeConfigResult body =>
      obtain rfl := Except.ok.inj hjson
      exact body.fits_toJson
  | pullNodeLogs body =>
      obtain rfl := Except.ok.inj hjson
      exact body.fits_toJson
  | nodeLogChunk body =>
      obtain rfl := Except.ok.inj hjson
      exact body.fits_toJson
  | twinDesiredUpdate body =>
      obtain rfl := Except.ok.inj hjson
      exact TwinDesiredUpdate.fits_toJson (hrequired _ List.mem_cons_self)
  | twinReportedUpdate body =>
      obtain rfl := Except.ok.inj hjson
      exact TwinReportedUpdate.fits_toJson (hrequired _ List.mem_cons_self)
  | connectionStatus body =>
      obtain rfl := Except.ok.inj hjson
      exact body.fits_toJson
  | error body =>
      obtain rfl := Except.ok.inj hjson
      exact ErrorNotice.fits_toJson (hoptional _ List.mem_cons_self)

end HubLink.Message
