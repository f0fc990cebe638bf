import HubLink.Proofs.Binary.Overflow
import HubLink.Proofs.Message.RoundTrip

/-!
# Which received envelopes can be written

JSON has no infinite numbers, so an envelope can be written exactly when its readings are finite.
Numbers in a JSON text are finite long numbers, or whole numbers of 64 bits, and a sample keeps them
as long numbers: what was read there can always be written.  Only the reading in a discovery is
short.  It is rounded when it is read, to infinity if it is too large, and then the envelope was
accepted but cannot be written again (`Codec.printable_iff_of_decode`).
-/

namespace HubLink.Message

open Binary (Format NonFinite)
open Json (Shape Record Fits WellFormed)

/-! ## Numbers -/

theorem isFinite_wholeDouble {n : Int} (hwhole : Json.IsWhole n) :
    (Shape.wholeDouble n).isFinite = true := by
  obtain ⟨hleast, hmost⟩ := hwhole
  have hsize : Int64.size = UInt64.size := rfl
  exact Double.isFinite_ofDecimal_whole _ (by omega)

theorem isFinite_wholeSingle {n : Int} (hwhole : Json.IsWhole n) :
    (Shape.wholeSingle n).isFinite = true := by
  obtain ⟨hleast, hmost⟩ := hwhole
  have hsize : Int64.size = UInt64.size := rfl
  exact Single.isFinite_ofDecimal_whole _ (by omega)

theorem isFinite_of_double {value : Json} {number : Double} (hvalue : WellFormed value)
    (hread : Shape.double value = .ok number) : number.isFinite = true := by
  cases value with
  | integer n =>
      cases hread
      exact isFinite_wholeDouble hvalue
  | real found =>
      cases hread
      exact hvalue
  | null => cases hread
  | bool value => cases hread
  | string text => cases hread
  | array items => cases hread
  | object members => cases hread

/-- A short number is finite unless it was a long one beyond the edge. -/
theorem isFinite_of_single {value : Json} {number : Single} (hvalue : WellFormed value)
    (hread : Shape.single value = .ok number) :
    number.isFinite = true ∨ ∃ long : Double, long.isFinite = true ∧ number = long.narrow ∧
      Double.narrowEdge ≤ 2 * Format.double.units long.magnitude := by
  cases value with
  | integer n =>
      cases hread
      exact .inl (isFinite_wholeSingle hvalue)
  | real long =>
      cases hread
      by_cases hbelow : 2 * Format.double.units long.magnitude < Double.narrowEdge
      · exact .inl (long.narrow_isFinite_iff.mpr hbelow)
      · exact .inr ⟨long, hvalue, rfl, Nat.le_of_not_lt hbelow⟩
  | null => cases hread
  | bool value => cases hread
  | string text => cases hread
  | array items => cases hread
  | object members => cases hread

/-! ## Samples -/

variable {budget : Nat} {value : Json} {name : String}

theorem Reading.isFinite_of_shape {body : Reading} (hfits : Fits (budget + 1) value)
    (hread : Reading.record.shape name value = .ok body) : body.value.isFinite = true := by
  obtain ⟨find, hbuild, hinside⟩ := Record.exists_find_of_shape hread
  obtain ⟨_, hbuild, _, _, quality, _, hmake₁⟩ := Record.build_required_eq_ok.mp hbuild
  obtain ⟨_, hbuild, _, _, unit, _, hmake₂⟩ := Record.build_required_eq_ok.mp hbuild
  obtain ⟨_, hbuild, found, hfound, number, hnumber, hmake₃⟩ :=
    Record.build_required_eq_ok.mp hbuild
  obtain ⟨_, hbuild, _, _, timestamp, _, hmake₄⟩ := Record.build_required_eq_ok.mp hbuild
  obtain rfl := Except.ok.inj hbuild
  subst hmake₄ hmake₃ hmake₂ hmake₁
  exact isFinite_of_double (hinside hfits hfound).1 hnumber

theorem NodeTelemetry.isFinite_of_shape {body : NodeTelemetry} (hfits : Fits (budget + 2) value)
    (hread : NodeTelemetry.record.shape name value = .ok body) :
    body.reading.value.isFinite = true := by
  obtain ⟨find, hbuild, hinside⟩ := Record.exists_find_of_shape hread
  obtain ⟨_, hbuild, _, _, rssi, _, hmake₁⟩ := Record.build_required_eq_ok.mp hbuild
  obtain ⟨_, hbuild, _, _, faults, _, hmake₂⟩ := Record.build_required_eq_ok.mp hbuild
  obtain ⟨_, hbuild, _, _, battery, _, hmake₃⟩ := Record.build_required_eq_ok.mp hbuild
  obtain ⟨_, hbuild, found, hfound, reading, hreading, hmake₄⟩ :=
    Record.build_required_eq_ok.mp hbuild
  obtain ⟨_, hbuild, groupId, _, hmake₅⟩ := Record.build_optional_eq_ok.mp hbuild
  obtain ⟨_, hbuild, _, _, nodeId, _, hmake₆⟩ := Record.build_required_eq_ok.mp hbuild
  obtain rfl := Except.ok.inj hbuild
  subst hmake₆ hmake₅ hmake₄ hmake₃ hmake₂ hmake₁
  exact Reading.isFinite_of_shape (hinside hfits hfound) hreading

theorem PublishTelemetry.isFinite_of_shape {body : PublishTelemetry}
    (hfits : Fits (budget + 4) value)
    (hread : PublishTelemetry.record.shape name value = .ok body) :
    ∀ sample ∈ body.telemetry, sample.reading.value.isFinite = true := by
  obtain ⟨find, hbuild, hinside⟩ := Record.exists_find_of_shape hread
  obtain ⟨_, hbuild, _, _, timestamp, _, hmake₁⟩ := Record.build_required_eq_ok.mp hbuild
  obtain ⟨_, hbuild, found, hfound, samples, hsamples, hmake₂⟩ :=
    Record.build_required_eq_ok.mp hbuild
  obtain rfl := Except.ok.inj hbuild
  subst hmake₂ hmake₁
  intro sample hsample
  have hlist := hinside hfits hfound
  cases found with
  | array items =>
      obtain ⟨item, hitem, hread⟩ := mem_of_mapM_eq_ok hsamples hsample
      have hinner : Fits (budget + 2) item :=
        ⟨Json.wellFormedItems_iff.mp hlist.1 item hitem,
          Json.depthItems_le_iff.mp (Nat.le_of_succ_le_succ hlist.2) item hitem⟩
      exact NodeTelemetry.isFinite_of_shape hinner hread
  | null => cases hsamples
  | bool value => cases hsamples
  | integer n => cases hsamples
  | real number => cases hsamples
  | string text => cases hsamples
  | object members => cases hsamples

/-! ## Discoveries -/

theorem AdvertisementSummary.exists_lastReading_of_shape {body : AdvertisementSummary}
    (hfits : Fits (budget + 1) value)
    (hread : AdvertisementSummary.record.shape name value = .ok body) :
    ∃ found, WellFormed found ∧ Shape.single found = .ok body.lastReading := by
  obtain ⟨find, hbuild, hinside⟩ := Record.exists_find_of_shape hread
  obtain ⟨_, hbuild, _, _, counter, _, hmake₁⟩ := Record.build_required_eq_ok.mp hbuild
  obtain ⟨_, hbuild, _, _, faultFlags, _, hmake₂⟩ := Record.build_required_eq_ok.mp hbuild
  obtain ⟨_, hbuild, found, hfound, number, hnumber, hmake₃⟩ :=
    Record.build_required_eq_ok.mp hbuild
  obtain ⟨_, hbuild, _, _, percent, _, hmake₄⟩ := Record.build_required_eq_ok.mp hbuild
  obtain rfl := Except.ok.inj hbuild
  subst hmake₄ hmake₃ hmake₂ hmake₁
  exact ⟨found, (hinside hfits hfound).1, hnumber⟩

theorem NodeDiscovered.exists_lastReading_of_shape {body : NodeDiscovered}
    (hfits : Fits (budget + 2) value) (hread : NodeDiscovered.record.shape name value = .ok body) :
    ∃ found, WellFormed found ∧ Shape.single found = .ok body.advertisementData.lastReading := by
  obtain ⟨find, hbuild, hinside⟩ := Record.exists_find_of_shape hread
  obtain ⟨_, hbuild, found, hfound, data, hdata, hmake₁⟩ := Record.build_required_eq_ok.mp hbuild
  obtain ⟨_, hbuild, _, _, rssi, _, hmake₂⟩ := Record.build_required_eq_ok.mp hbuild
  obtain ⟨_, hbuild, _, _, nodeId, _, hmake₃⟩ := Record.build_required_eq_ok.mp hbuild
  obtain rfl := Except.ok.inj hbuild
  subst hmake₃ hmake₂ hmake₁
  exact AdvertisementSummary.exists_lastReading_of_shape (hinside hfits hfound) hdata

/-! ## Writing -/

theorem singleJson_eq_error_iff {number : Single} {reading : NonFinite} :
    singleJson number = .error reading ↔ number.nonFinite? = some reading := by
  unfold singleJson
  cases number.nonFinite? <;> simp

theorem doubleJson_eq_error_iff {number : Double} {reading : NonFinite} :
    doubleJson number = .error reading ↔ number.nonFinite? = some reading := by
  unfold doubleJson
  cases number.nonFinite? <;> simp

theorem NodeDiscovered.toJson_eq_error_iff {body : NodeDiscovered} {reading : NonFinite} :
    body.toJson = .error reading ↔
      body.advertisementData.lastReading.nonFinite? = some reading :=
  calc body.toJson = .error reading
    _ ↔ body.advertisementData.toJson = .error reading := bind_pure_eq_error_iff
    _ ↔ singleJson body.advertisementData.lastReading = .error reading := bind_pure_eq_error_iff
    _ ↔ body.advertisementData.lastReading.nonFinite? = some reading := singleJson_eq_error_iff

theorem NodeTelemetry.toJson_eq_error_iff {body : NodeTelemetry} {reading : NonFinite} :
    body.toJson = .error reading ↔ body.reading.value.nonFinite? = some reading :=
  calc body.toJson = .error reading
    _ ↔ body.reading.toJson = .error reading := bind_pure_eq_error_iff
    _ ↔ doubleJson body.reading.value = .error reading := bind_pure_eq_error_iff
    _ ↔ body.reading.value.nonFinite? = some reading := doubleJson_eq_error_iff

/-- A batch is written sample by sample, up to the first that cannot be. -/
theorem PublishTelemetry.toJson_eq_error_iff {body : PublishTelemetry} {reading : NonFinite} :
    body.toJson = .error reading ↔
      (body.telemetry.findSome? fun sample => sample.reading.value.nonFinite?) = some reading :=
  calc body.toJson = .error reading
    _ ↔ body.telemetry.mapM NodeTelemetry.toJson = .error reading := bind_pure_eq_error_iff
    _ ↔ (body.telemetry.findSome? fun sample => sample.reading.value.nonFinite?) =
        some reading := mapM_eq_error_iff fun _ _ => NodeTelemetry.toJson_eq_error_iff

theorem NodeDiscovered.exists_toJson {body : NodeDiscovered}
    (hfinite : body.advertisementData.lastReading.isFinite = true) :
    ∃ json, body.toJson = .ok json := by
  rw [exists_ok_iff fun _ => NodeDiscovered.toJson_eq_error_iff]
  exact (Single.nonFinite?_eq_none_iff _).mpr hfinite

theorem NodeTelemetry.exists_toJson {body : NodeTelemetry}
    (hfinite : body.reading.value.isFinite = true) : ∃ json, body.toJson = .ok json := by
  rw [exists_ok_iff fun _ => NodeTelemetry.toJson_eq_error_iff]
  exact (Double.nonFinite?_eq_none_iff _).mpr hfinite

theorem PublishTelemetry.exists_toJson {body : PublishTelemetry}
    (hfinite : ∀ sample ∈ body.telemetry, sample.reading.value.isFinite = true) :
    ∃ json, body.toJson = .ok json := by
  rw [exists_ok_iff fun _ => PublishTelemetry.toJson_eq_error_iff, List.findSome?_eq_none_iff]
  intro sample hsample
  exact (Double.nonFinite?_eq_none_iff _).mpr (hfinite sample hsample)

namespace Payload

/-- A discovery whose reading was this finite long number, too large for the short one that it was
rounded to. -/
def Overflown (payload : Payload) (long : Double) : Prop :=
  long.isFinite = true ∧ Double.narrowEdge ≤ 2 * Format.double.units long.magnitude ∧
    ∃ body, payload = .nodeDiscovered body ∧ body.advertisementData.lastReading = long.narrow

theorem Overflown.toJson_eq {payload : Payload} {long : Double} (hover : payload.Overflown long) :
    payload.toJson = .error (.infinity long.negative) := by
  obtain ⟨-, hedge, body, rfl, hreading⟩ := hover
  rw [toJson, NodeDiscovered.toJson_eq_error_iff, hreading]
  exact Double.nonFinite?_narrow hedge

/-- What was read from a document can be written, unless it is a discovery whose reading was rounded
to infinity. -/
theorem printable_or_overflown {kind : Kind} {payload : Payload} (hfits : Fits (budget + 4) value)
    (hread : Payload.ofJson kind value = .ok payload) :
    (∃ json, payload.toJson = .ok json) ∨ ∃ long, payload.Overflown long := by
  cases kind with
  | nodeDiscovered =>
      obtain ⟨body, hbody, rfl⟩ := map_eq_ok.mp hread
      obtain ⟨found, hfound, hreading⟩ := NodeDiscovered.exists_lastReading_of_shape hfits hbody
      rcases isFinite_of_single hfound hreading with hfinite | ⟨long, hlong, hnarrow, hedge⟩
      · exact .inl (NodeDiscovered.exists_toJson hfinite)
      · exact .inr ⟨long, hlong, hedge, body, rfl, hnarrow⟩
  | nodeTelemetry =>
      obtain ⟨body, hbody, rfl⟩ := map_eq_ok.mp hread
      exact .inl (NodeTelemetry.exists_toJson (NodeTelemetry.isFinite_of_shape hfits hbody))
  | publishTelemetry =>
      obtain ⟨body, hbody, rfl⟩ := map_eq_ok.mp hread
      exact .inl (PublishTelemetry.exists_toJson (PublishTelemetry.isFinite_of_shape hfits hbody))
  | heartbeat =>
      obtain rfl := Except.ok.inj hread
      exact .inl ⟨_, rfl⟩
  | applyNodeConfig | nodeConfigResult | pullNodeLogs | nodeLogChunk | twinDesiredUpdate
  | twinReportedUpdate | connectionStatus | error =>
      obtain ⟨body, _, rfl⟩ := map_eq_ok.mp hread
      exact .inl ⟨_, rfl⟩

end Payload

namespace Envelope

/-- Nothing but the payload stands in the way of writing an envelope, compact or indented. -/
theorem print_eq_error {envelope : Envelope} {reading : NonFinite}
    (hjson : envelope.payload.toJson = .error reading) :
    envelope.print = .error reading ∧ envelope.printIndented = .error reading :=
  ⟨bind_eq_error hjson _, bind_eq_error hjson _⟩

theorem printable_or_overflown {text : List UInt8} {envelope : Envelope}
    (hparse : parse text = .ok envelope) :
    (∃ json, envelope.payload.toJson = .ok json) ∨ ∃ long, envelope.payload.Overflown long := by
  unfold parse at hparse
  split at hparse
  · cases hparse
  next header hheader =>
    obtain ⟨kind, hpayload⟩ := ofHeader_eq_ok hparse
    have hfits : Fits (122 + 4) header.payload := payload_fits hheader
    exact Payload.printable_or_overflown hfits hpayload

end Envelope

namespace Codec

variable {limit : Nat} {buffer : List UInt8} {envelope : Envelope}

theorem exists_parse_of_decode (hdecode : decode limit buffer = .ok (some envelope)) :
    ∃ text, Envelope.parse text = .ok envelope := by
  unfold decode ofFrame at hdecode
  split at hdecode
  · cases hdecode
  · cases hdecode
  next frame _ =>
    split at hdecode
    · cases hdecode
    next hparse =>
      cases hdecode
      exact ⟨frame.payload, hparse⟩

/-- An accepted envelope can be written unless its reading was too large; then writing fails at an
infinite number. -/
theorem printable_iff_of_decode (hdecode : decode limit buffer = .ok (some envelope)) :
    ((∃ json, envelope.payload.toJson = .ok json) ↔ ¬ ∃ long, envelope.payload.Overflown long) ∧
      ∀ reading, envelope.payload.toJson = .error reading →
        ∃ negative, reading = .infinity negative := by
  obtain ⟨text, hparse⟩ := exists_parse_of_decode hdecode
  rcases Envelope.printable_or_overflown hparse with ⟨json, hjson⟩ | ⟨long, hover⟩
  · refine ⟨iff_of_true ⟨json, hjson⟩ ?_, fun reading hreading => ?_⟩
    · rintro ⟨long, hover⟩
      rw [hover.toJson_eq] at hjson
      cases hjson
    · rw [hjson] at hreading
      cases hreading
  · refine ⟨iff_of_false ?_ (not_not_intro ⟨long, hover⟩), fun reading hreading => ?_⟩
    · rintro ⟨json, hjson⟩
      rw [hover.toJson_eq] at hjson
      cases hjson
    · rw [hover.toJson_eq] at hreading
      cases hreading
      exact ⟨long.negative, rfl⟩

end Codec

end HubLink.Message
