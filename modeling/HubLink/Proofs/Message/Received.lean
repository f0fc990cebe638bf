import HubLink.Proofs.Message.Payload

/-!
# Payloads as they are received

A payload that was read from any document, however it is spelled, is one that survives being written
and read again: its free-form parts come from inside the document, so they are well formed and nest
less deep, and an explicit null never stays in an optional place (`Payload.received`).
-/

namespace HubLink.Message

open Json (Shape Record Fits)

/-- An optional free-form part is what stands under its name, unless that is null. -/
theorem optionalValue_any_eq_ok {found value : Option Json}
    (hread : Shape.optionalValue Shape.any found = .ok value) :
    value ≠ some .null ∧ ∀ document ∈ value, found = some document := by
  rcases found with _ | _ | _ | _ | _ | _ | _ | _ <;> cases hread <;> simp

/-- Found in a document: not null, and well formed in less brackets than the document. -/
def FoundIn (value : Json) (optional : Option Json) : Prop :=
  optional ≠ some .null ∧
    ∀ {budget}, Fits (budget + 1) value → ∀ document ∈ optional, Fits budget document

theorem NodeConfig.foundIn_of_shape {value : Json} {config : NodeConfig} {name : String}
    (hread : NodeConfig.record.shape name value = .ok config) :
    ∀ optional ∈ config.optionalDocuments, FoundIn value optional := by
  obtain ⟨find, hbuild, hinside⟩ := Record.exists_find_of_shape hread
  have hfound : ∀ {key optional}, Shape.optionalValue Shape.any (find key) = .ok optional →
      FoundIn value optional := by
    intro key optional hoptional
    obtain ⟨hnull, hdocument⟩ := optionalValue_any_eq_ok hoptional
    exact ⟨hnull, fun hfits document hmem => hinside hfits (hdocument document hmem)⟩
  obtain ⟨_, hbuild, faults, hfaults, hmake₁⟩ := Record.build_optional_eq_ok.mp hbuild
  obtain ⟨_, hbuild, advertisement, hadvertisement, hmake₂⟩ := Record.build_optional_eq_ok.mp hbuild
  obtain ⟨_, hbuild, calibration, hcalibration, hmake₃⟩ := Record.build_optional_eq_ok.mp hbuild
  obtain ⟨_, hbuild, sampling, hsampling, hmake₄⟩ := Record.build_optional_eq_ok.mp hbuild
  obtain rfl := Except.ok.inj hbuild
  subst hmake₄ hmake₃ hmake₂ hmake₁
  simp only [NodeConfig.optionalDocuments, List.forall_mem_cons]
  exact ⟨hfound hcalibration, hfound hadvertisement, hfound hfaults, List.forall_mem_nil _⟩

theorem ApplyNodeConfig.exists_config_of_shape {value : Json} {body : ApplyNodeConfig}
    {name : String} (hread : ApplyNodeConfig.record.shape name value = .ok body) :
    ∃ inner, (∀ {budget}, Fits (budget + 1) value → Fits budget inner) ∧
      ∀ optional ∈ body.config.optionalDocuments, FoundIn inner optional := by
  obtain ⟨find, hbuild, hinside⟩ := Record.exists_find_of_shape hread
  obtain ⟨_, hbuild, _, _, timeout, _, hmake₁⟩ := Record.build_required_eq_ok.mp hbuild
  obtain ⟨_, hbuild, inner, hinner, config, hconfig, hmake₂⟩ :=
    Record.build_required_eq_ok.mp hbuild
  obtain ⟨_, hbuild, _, _, nodeId, _, hmake₃⟩ := Record.build_required_eq_ok.mp hbuild
  obtain ⟨_, hbuild, _, _, jobId, _, hmake₄⟩ := Record.build_required_eq_ok.mp hbuild
  obtain rfl := Except.ok.inj hbuild
  subst hmake₄ hmake₃ hmake₂ hmake₁
  exact ⟨inner, fun hfits => hinside hfits hinner, NodeConfig.foundIn_of_shape hconfig⟩

theorem TwinDesiredUpdate.fits_of_shape {value : Json} {body : TwinDesiredUpdate} {name : String}
    (hread : TwinDesiredUpdate.record.shape name value = .ok body) {budget : Nat}
    (hfits : Fits (budget + 1) value) : Fits budget body.desired := by
  obtain ⟨find, hbuild, hinside⟩ := Record.exists_find_of_shape hread
  obtain ⟨_, hbuild, found, hfound, desired, hdesired, hmake₁⟩ :=
    Record.build_required_eq_ok.mp hbuild
  obtain ⟨_, hbuild, _, _, version, _, hmake₂⟩ := Record.build_required_eq_ok.mp hbuild
  obtain rfl := Except.ok.inj hbuild
  subst hmake₂ hmake₁
  obtain rfl := Except.ok.inj hdesired
  exact hinside hfits hfound

theorem TwinReportedUpdate.fits_of_shape {value : Json} {body : TwinReportedUpdate} {name : String}
    (hread : TwinReportedUpdate.record.shape name value = .ok body) {budget : Nat}
    (hfits : Fits (budget + 1) value) : Fits budget body.reported := by
  obtain ⟨find, hbuild, hinside⟩ := Record.exists_find_of_shape hread
  obtain ⟨_, hbuild, found, hfound, reported, hreported, hmake₁⟩ :=
    Record.build_required_eq_ok.mp hbuild
  obtain rfl := Except.ok.inj hbuild
  subst hmake₁
  obtain rfl := Except.ok.inj hreported
  exact hinside hfits hfound

theorem ErrorNotice.foundIn_of_shape {value : Json} {body : ErrorNotice} {name : String}
    (hread : ErrorNotice.record.shape name value = .ok body) : FoundIn value body.details := by
  obtain ⟨find, hbuild, hinside⟩ := Record.exists_find_of_shape hread
  obtain ⟨_, hbuild, details, hdetails, hmake₁⟩ := Record.build_optional_eq_ok.mp hbuild
  obtain ⟨_, hbuild, _, _, message, _, hmake₂⟩ := Record.build_required_eq_ok.mp hbuild
  obtain ⟨_, hbuild, _, _, code, _, hmake₃⟩ := Record.build_required_eq_ok.mp hbuild
  obtain rfl := Except.ok.inj hbuild
  subst hmake₃ hmake₂ hmake₁
  obtain ⟨hnull, hdocument⟩ := optionalValue_any_eq_ok hdetails
  exact ⟨hnull, fun hfits document hmem => hinside hfits (hdocument document hmem)⟩

namespace Payload

/-- What a received payload is known to be. -/
structure Received (kind : Kind) (value : Json) (payload : Payload) : Prop where
  kind_eq : payload.kind = kind
  no_null : payload.NoNullDocument
  fits : ∀ {budget}, Fits (budget + payload.level) value → payload.EveryDocument (Fits budget)

theorem received_plain {kind : Kind} {value : Json} {payload : Payload}
    (hkind : payload.kind = kind) (hrequired : payload.requiredDocuments = [])
    (hoptional : payload.optionalDocuments = []) :
    Received kind value payload where
  kind_eq := hkind
  no_null := by
    intro optional hmem
    rw [hoptional] at hmem
    cases hmem
  fits _ := by
    refine ⟨fun document hmem => ?_, fun optional hmem => ?_⟩
    · rw [hrequired] at hmem
      cases hmem
    · rw [hoptional] at hmem
      cases hmem

/-- **Whatever document a payload is read from, it can be written and read again.** -/
theorem received {kind : Kind} {value : Json} {payload : Payload}
    (hread : Payload.ofJson kind value = .ok payload) : Received kind value payload := by
  cases kind with
  | nodeDiscovered =>
      obtain ⟨body, _, rfl⟩ := map_eq_ok.mp hread
      exact received_plain rfl rfl rfl
  | nodeTelemetry =>
      obtain ⟨body, _, rfl⟩ := map_eq_ok.mp hread
      exact received_plain rfl rfl rfl
  | applyNodeConfig =>
      obtain ⟨body, hbody, rfl⟩ := map_eq_ok.mp hread
      obtain ⟨inner, hinner, hfound⟩ := ApplyNodeConfig.exists_config_of_shape hbody
      refine ⟨rfl, fun optional hmem => (hfound optional hmem).1, fun hfits => ⟨List.forall_mem_nil _, ?_⟩⟩
      exact fun optional hmem => (hfound optional hmem).2 (hinner hfits)
  | nodeConfigResult =>
      obtain ⟨body, _, rfl⟩ := map_eq_ok.mp hread
      exact received_plain rfl rfl rfl
  | pullNodeLogs =>
      obtain ⟨body, _, rfl⟩ := map_eq_ok.mp hread
      exact received_plain rfl rfl rfl
  | nodeLogChunk =>
      obtain ⟨body, _, rfl⟩ := map_eq_ok.mp hread
      exact received_plain rfl rfl rfl
  | twinDesiredUpdate =>
      obtain ⟨body, hbody, rfl⟩ := map_eq_ok.mp hread
      refine ⟨rfl, List.forall_mem_nil _, fun hfits => ⟨?_, List.forall_mem_nil _⟩⟩
      exact List.forall_mem_singleton.mpr (TwinDesiredUpdate.fits_of_shape hbody hfits)
  | twinReportedUpdate =>
      obtain ⟨body, hbody, rfl⟩ := map_eq_ok.mp hread
      refine ⟨rfl, List.forall_mem_nil _, fun hfits => ⟨?_, List.forall_mem_nil _⟩⟩
      exact List.forall_mem_singleton.mpr (TwinReportedUpdate.fits_of_shape hbody hfits)
  | publishTelemetry =>
      obtain ⟨body, _, rfl⟩ := map_eq_ok.mp hread
      exact received_plain rfl rfl rfl
  | connectionStatus =>
      obtain ⟨body, _, rfl⟩ := map_eq_ok.mp hread
      exact received_plain rfl rfl rfl
  | heartbeat =>
      obtain rfl := Except.ok.inj hread
      exact received_plain rfl rfl rfl
  | error =>
      obtain ⟨body, hbody, rfl⟩ := map_eq_ok.mp hread
      obtain ⟨hnull, hdetails⟩ := ErrorNotice.foundIn_of_shape hbody
      refine ⟨rfl, List.forall_mem_singleton.mpr hnull, fun hfits => ⟨List.forall_mem_nil _, ?_⟩⟩
      exact List.forall_mem_singleton.mpr (hdetails hfits)

end Payload

end HubLink.Message
