import HubLink.Proofs.Frame.Layout
import HubLink.Proofs.Json.Nesting
import HubLink.Proofs.Message.Header
import HubLink.Proofs.Message.Received
import HubLink.Message.Codec

/-!
# Envelopes are read back

An envelope comes back from its text, and from its frame, as it was sent, readings bit for bit, with
two exceptions that are exactly described: a free-form part that is an explicit null is dropped, and
a text whose brackets nest deeper than the reader admits is refused (`Codec.decode_encode`).
Neither can happen to an envelope that was itself read from some text, so what a receiver accepts it
can pass on (`Envelope.parse_print_of_parse`).
-/

namespace HubLink.Message

open Json (Fits)

theorem Kind.ofName?_name (kind : Kind) : Kind.ofName? kind.name = some kind := by
  cases kind <;> rfl

namespace Envelope

/-- The free-form parts of the payload are what any JSON value in memory is: whole numbers are
within 64 bits, other numbers are finite, and the keys of an object ascend. -/
def WellFormed (envelope : Envelope) : Prop :=
  envelope.payload.EveryDocument Json.WellFormed

/-- The envelope without the free-form parts that are an explicit null. -/
def withoutNulls (envelope : Envelope) : Envelope :=
  { envelope with payload := envelope.payload.withoutNulls }

theorem withoutNulls_eq_self_iff {envelope : Envelope} :
    envelope.withoutNulls = envelope ↔ envelope.payload.NoNullDocument := by
  rw [← Payload.withoutNulls_eq_self_iff]
  refine ⟨fun heq => congrArg Envelope.payload heq, fun heq => ?_⟩
  rw [withoutNulls, heq]

/-! ## To the text -/

/-- An envelope has a text, compact or indented, as soon as its payload has a value. -/
theorem exists_print {envelope : Envelope} {json : Json}
    (hjson : envelope.payload.toJson = .ok json) :
    (∃ text, envelope.print = .ok text) ∧ ∃ text, envelope.printIndented = .ok text :=
  ⟨⟨_, bind_eq_ok.mpr ⟨json, hjson, rfl⟩⟩, ⟨_, bind_eq_ok.mpr ⟨json, hjson, rfl⟩⟩⟩

theorem exists_toJson {envelope : Envelope} {text : List UInt8}
    (hprint : envelope.print = .ok text) : ∃ json, envelope.payload.toJson = .ok json := by
  obtain ⟨json, hjson, -⟩ := bind_eq_ok.mp hprint
  exact ⟨json, hjson⟩

/-! ## From the text -/

theorem ofHeader_header (envelope : Envelope) {payload : Json}
    (hpayload : envelope.payload.toJson = .ok payload) :
    ofHeader (envelope.header payload) = .ok envelope.withoutNulls := by
  have hread := Payload.ofJson_toJson hpayload
  have hkind : Kind.ofName? (envelope.header payload).kind = some envelope.payload.kind :=
    Kind.ofName?_name _
  rw [ofHeader, hkind]
  simp only [header, hread]
  rfl

/-- Some budget is large enough for all free-form parts. -/
theorem exists_fits {payload : Payload} (hpayload : payload.EveryDocument Json.WellFormed) :
    ∃ budget, payload.EveryDocument (Fits (budget + 3)) := by
  have hrequired := Json.depthItems_le_iff.mp
    (Nat.le_refl (Json.depthItems payload.requiredDocuments))
  have hoptional := Json.depthItems_le_iff.mp
    (Nat.le_refl (Json.depthItems (payload.optionalDocuments.filterMap id)))
  refine ⟨Json.depthItems payload.requiredDocuments +
    Json.depthItems (payload.optionalDocuments.filterMap id), ?_, ?_⟩
  · intro document hmem
    have hdepth := hrequired document hmem
    exact ⟨hpayload.1 document hmem, by omega⟩
  · intro optional hmem document hdocument
    have hdepth := hoptional document (List.mem_filterMap.mpr ⟨optional, hmem, hdocument⟩)
    exact ⟨hpayload.2 optional hmem document hdocument, by omega⟩

theorem wellFormed_toJson {payload : Payload} {json : Json}
    (hpayload : payload.EveryDocument Json.WellFormed) (hjson : payload.toJson = .ok json) :
    Json.WellFormed json := by
  obtain ⟨budget, hfits⟩ := exists_fits hpayload
  exact (Payload.fits_toJson hjson hfits).1

theorem nesting_print_fields (envelope : Envelope) {payload : Json}
    (hpayload : Json.WellFormed payload) :
    Json.nesting (Json.print (.object (envelope.fields payload))) = payload.depth + 1 := by
  have htimestamp : Json.WellFormed (.integer envelope.timestamp.toInt) :=
    (@Json.fits_i64 0 envelope.timestamp).1
  have hmembers : Json.WellFormedMembers (envelope.fields payload) :=
    Json.wellFormedMembers_iff.mpr <| by
      simp only [fields, List.forall_mem_cons]
      exact ⟨trivial, trivial, trivial, htimestamp, hpayload, List.forall_mem_nil _⟩
  rw [Json.nesting_print_object hmembers]
  simp [fields, Json.depthMembers, Json.depth]

/-- **An envelope is read back from its text**, explicit nulls apart, unless the text nests too
deep. -/
theorem parse_print {envelope : Envelope} {text : List UInt8} (hwell : envelope.WellFormed)
    (hprint : envelope.print = .ok text) :
    parse text = if Json.nesting text ≤ 127 then .ok envelope.withoutNulls
      else .error (.malformed .malformed) := by
  obtain ⟨payload, hpayload, htext⟩ := bind_eq_ok.mp hprint
  obtain rfl := Except.ok.inj htext
  have hjson := wellFormed_toJson hwell hpayload
  rw [parse_print_fields envelope hjson, nesting_print_fields envelope hjson,
    ofHeader_header envelope hpayload]
  have hnested : payload.depth + 1 ≤ 127 ↔ payload.depth ≤ bodyBudget := Nat.add_le_add_iff_right
  by_cases hdepth : payload.depth ≤ bodyBudget
  · rw [if_pos hdepth, if_pos (hnested.mpr hdepth)]
  · rw [if_neg hdepth, if_neg fun hle => hdepth (hnested.mp hle)]

end Envelope

/-! ## From the frame -/

namespace Codec

theorem decode_layout {limit : Nat} {text : List UInt8} (hlimit : text.length ≤ limit)
    (hsize : text.length < UInt32.size) (rest : List UInt8) :
    decode limit (Frame.layout text ++ rest) = match Envelope.parse text with
      | .ok envelope => .ok (some envelope)
      | .error fault => .error (.ofEnvelope fault) := by
  rw [decode, Frame.decode_layout hlimit hsize]
  simp only [Except.map, Option.map, ofFrame]
  cases Envelope.parse text <;> rfl

/-- An envelope that has a text is framed, unless the text is too long. -/
theorem encode_of_print {envelope : Envelope} {text : List UInt8}
    (hprint : envelope.print = .ok text) (limit : Nat) :
    encode limit envelope =
      if limit < text.length ∨ UInt32.size ≤ text.length then .error (.oversize text.length)
      else .ok (Frame.layout text) := by
  unfold encode Frame.encode
  rw [hprint]
  by_cases hlong : limit < text.length ∨ UInt32.size ≤ text.length
  · simp only [if_pos hlong, Fault.ofLink]
  · simp only [if_neg hlong]

theorem encode_eq_layout {limit : Nat} {envelope : Envelope} {text : List UInt8}
    (hprint : envelope.print = .ok text) (hlimit : text.length ≤ limit)
    (hsize : text.length < UInt32.size) : encode limit envelope = .ok (Frame.layout text) := by
  have hfits : ¬ (limit < text.length ∨ UInt32.size ≤ text.length) := by omega
  rw [encode_of_print hprint, if_neg hfits]

/-- An envelope that has no text has no frame, under any limit. -/
theorem encode_eq_error {envelope : Envelope} {reading : Binary.NonFinite}
    (hprint : envelope.print = .error reading) (limit : Nat) :
    encode limit envelope = .error (.encode reading) := by
  unfold encode
  rw [hprint]

theorem of_encode_eq_ok {limit : Nat} {envelope : Envelope} {frame : List UInt8}
    (hencode : encode limit envelope = .ok frame) :
    ∃ text, envelope.print = .ok text ∧ text.length ≤ limit ∧ text.length < UInt32.size ∧
      frame = Frame.layout text := by
  unfold encode at hencode
  split at hencode
  · cases hencode
  next text hprint =>
    split at hencode
    · cases hencode
    next hframe =>
      cases hencode
      exact ⟨text, hprint, Frame.of_encode_eq_ok hframe⟩

/-- **What is sent is what arrives**, exactly when no optional free-form part is an explicit null
and the brackets of the text nest no deeper than 127.  Explicit nulls alone are dropped, and a text
that nests deeper is malformed to the receiver.  What stands behind the frame does not matter. -/
theorem decode_encode {limit : Nat} {envelope : Envelope} {frame : List UInt8}
    (hwell : envelope.WellFormed) (hencode : encode limit envelope = .ok frame) :
    ∃ text, envelope.print = .ok text ∧ ∀ rest,
      (decode limit (frame ++ rest) = .ok (some envelope) ↔
        envelope.payload.NoNullDocument ∧ Json.nesting text ≤ 127) ∧
      (Json.nesting text ≤ 127 →
        decode limit (frame ++ rest) = .ok (some envelope.withoutNulls)) ∧
      (127 < Json.nesting text →
        decode limit (frame ++ rest) = .error (.malformed .malformed)) := by
  obtain ⟨text, hprint, hlimit, hsize, rfl⟩ := of_encode_eq_ok hencode
  refine ⟨text, hprint, fun rest => ?_⟩
  have hparse := Envelope.parse_print hwell hprint
  have hdecode := decode_layout hlimit hsize rest
  rw [hdecode]
  by_cases hnesting : Json.nesting text ≤ 127
  · rw [if_pos hnesting] at hparse
    rw [hparse]
    refine ⟨?_, fun _ => rfl, fun hdeep => absurd hnesting (Nat.not_le_of_gt hdeep)⟩
    rw [← Envelope.withoutNulls_eq_self_iff]
    constructor
    · intro hsame
      exact ⟨Option.some.inj (Except.ok.inj hsame), hnesting⟩
    · intro hboth
      rw [hboth.1]
  · rw [if_neg hnesting] at hparse
    rw [hparse]
    refine ⟨⟨?_, fun hboth => absurd hboth.2 hnesting⟩, fun hle => absurd hle hnesting,
      fun _ => rfl⟩
    intro hsame
    cases hsame

/-- An error notice whose details are an explicit null arrives without details. -/
theorem decode_encode_null_details :
    ∃ frame, encode 1024 ⟨"1.0.0", "7", 12, .error ⟨"code", "text", some .null⟩⟩ = .ok frame ∧
      decode 1024 (frame ++ [9]) =
        .ok (some ⟨"1.0.0", "7", 12, .error ⟨"code", "text", none⟩⟩) := by
  let envelope : Envelope := ⟨"1.0.0", "7", 12, .error ⟨"code", "text", some .null⟩⟩
  have hwell : envelope.WellFormed :=
    ⟨List.forall_mem_nil _, List.forall_mem_singleton.mpr (by rintro _ ⟨⟩; trivial)⟩
  have hshallow : (envelope.print.map fun text => decide (Json.nesting text ≤ 127)) = .ok true := by
    decide +kernel
  cases hencode : encode 1024 envelope with
  | error fault =>
      have hfits : (encode 1024 envelope).toOption.isSome = true := by decide +kernel
      rw [hencode] at hfits
      cases hfits
  | ok frame =>
      obtain ⟨text, hprint, hdecode⟩ := decode_encode hwell hencode
      rw [hprint] at hshallow
      have hnesting := of_decide_eq_true (Except.ok.inj hshallow)
      exact ⟨frame, rfl, (hdecode [9]).2.1 hnesting⟩

end Codec

/-! ## From any text -/

namespace Envelope

theorem ofHeader_eq_ok {header : Header} {envelope : Envelope}
    (hread : ofHeader header = .ok envelope) :
    ∃ kind, Payload.ofJson kind header.payload = .ok envelope.payload := by
  unfold ofHeader at hread
  split at hread
  · cases hread
  next kind _ =>
    split at hread
    · cases hread
    next payload hpayload =>
      cases hread
      exact ⟨kind, hpayload⟩

/-- Whatever a payload puts around its free-form parts, most of the brackets are left to them. -/
theorem exists_budget_within (payload : Payload) {most : Nat} (hmost : 5 ≤ most) :
    ∃ budget, budget + 3 + payload.level = most := by
  have hlevel : payload.level ≤ 2 := by
    unfold Payload.level
    split <;> decide
  refine ⟨most - 3 - payload.level, ?_⟩
  omega

theorem exists_budget (payload : Payload) : ∃ budget, budget + 3 + payload.level = bodyBudget :=
  exists_budget_within payload (by decide)

/-- A received payload is written as a document that nests no deeper than the one it came from may
nest. -/
theorem fits_of_received_within {kind : Kind} {value json : Json} {payload : Payload} {most : Nat}
    (hmost : 5 ≤ most) (hvalue : Fits most value) (hread : Payload.ofJson kind value = .ok payload)
    (hjson : payload.toJson = .ok json) : Fits most json := by
  obtain ⟨budget, hbudget⟩ := exists_budget_within payload hmost
  rw [← hbudget] at hvalue ⊢
  exact Payload.fits_toJson hjson ((Payload.received hread).fits hvalue)

/-- A received payload is written as a document that fits a received header. -/
theorem fits_of_received {kind : Kind} {value json : Json} {payload : Payload}
    (hvalue : Fits bodyBudget value) (hread : Payload.ofJson kind value = .ok payload)
    (hjson : payload.toJson = .ok json) : Fits bodyBudget json :=
  fits_of_received_within (by decide) hvalue hread hjson

/-- **What a receiver accepts it can pass on.**  Whatever text an envelope was read from, if it has
a text of its own, that text is read as the same envelope, and is its text again. -/
theorem parse_print_of_parse {text written : List UInt8} {envelope : Envelope}
    (hparse : parse text = .ok envelope) (hprint : envelope.print = .ok written) :
    parse written = .ok envelope ∧
      ∀ again, parse written = .ok again → again.print = .ok written := by
  suffices hagain : parse written = .ok envelope by
    refine ⟨hagain, fun again hsame => ?_⟩
    rw [← Except.ok.inj (hagain.symm.trans hsame)]
    exact hprint
  obtain ⟨json, hjson, hwritten⟩ := bind_eq_ok.mp hprint
  obtain rfl := Except.ok.inj hwritten
  unfold parse at hparse
  split at hparse
  · cases hparse
  next header hheader =>
    -- a payload that was received holds no null and nests no deeper than it was read
    obtain ⟨kind, hpayload⟩ := ofHeader_eq_ok hparse
    have hfits := fits_of_received (payload_fits hheader) hpayload hjson
    have hnull := (Payload.received hpayload).no_null
    rw [parse_print_fields envelope hfits.1, if_pos hfits.2, ofHeader_header envelope hjson,
      withoutNulls_eq_self_iff.mpr hnull]

/-- A sample as nested arrays, with a whole number for its value. -/
def arrayText : List UInt8 :=
  Text.bytes "[\"1\",\"node_telemetry\",\"7\",3,[\"n\",null,[5,1,\"C\",0],[3000,90],[],-60]]"

theorem parse_print_of_arrayText :
    ∃ envelope written, parse arrayText = .ok envelope ∧ envelope.print = .ok written ∧
      parse written = .ok envelope := by
  have hprinted : ((parse arrayText).toOption.bind fun envelope =>
      envelope.print.toOption).isSome = true := by
    decide +kernel
  cases hparse : parse arrayText with
  | error fault =>
      rw [hparse] at hprinted
      cases hprinted
  | ok envelope =>
      cases hprint : envelope.print with
      | error reading =>
          simp [hparse, Except.toOption, hprint] at hprinted
      | ok written => exact ⟨envelope, written, rfl, hprint, (parse_print_of_parse hparse hprint).1⟩

end Envelope

end HubLink.Message
