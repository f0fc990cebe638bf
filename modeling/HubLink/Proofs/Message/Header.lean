import HubLink.Message.Envelope
import HubLink.Proofs.Json.Record
import HubLink.Proofs.Json.TextRecord

/-!
# Headers of envelopes

An envelope is written as one object of five members, and its header is read back field by field.
The body stands one bracket deep, so it may nest up to one bracket less than the reader admits
(`parse_print_fields`).  Whatever text a header is read from, its body fits that budget too
(`payload_fits`).
-/

namespace HubLink.Message.Envelope

open Json (TextField Fits WellFormed)
open Json.TextRecord (ReadsTo readsTo_closed readsTo_member_error printMembers_eq
  memberTexts_cons_append delimited_memberTexts)
open Text (byte)

/-- Brackets that may be open inside the body of an envelope. -/
def bodyBudget : Nat := 126

/-! ## Printed headers -/

/-- The header that an envelope is written with. -/
def header (envelope : Envelope) (payload : Json) : Header where
  version := envelope.version
  kind := envelope.kind.name
  correlationId := envelope.correlationId
  timestamp := envelope.timestamp
  payload := payload

/-- The draft that is left of a printed header. -/
def draft (envelope : Envelope) (payload : Json) : Draft where
  version := some envelope.version
  kind := some envelope.kind.name
  correlationId := some envelope.correlationId
  timestamp := some envelope.timestamp
  payload := some payload

theorem readTimestamp {timestamp : Int64} {tail : List UInt8} (htail : Json.Delimited tail) :
    Json.readWholeAs "i64" Json.Shape.i64 (Json.print (.integer timestamp.toInt) ++ tail) =
      .ok (timestamp, tail) :=
  Json.readWholeAs_integer (@Json.fits_i64 0 timestamp).1 (Json.Shape.i64_toInt timestamp) htail

/-- The members of a printed envelope are read one by one, and the body is the last of them. -/
theorem readsTo_header (envelope : Envelope) {payload : Json} (hpayload : WellFormed payload) :
    ReadsTo headerFields bodyBudget true {}
      (Json.printMembers true (envelope.fields payload) ++ [byte '\x7d'])
      (if payload.depth ≤ bodyBudget then .ok (envelope.draft payload, [])
        else .error .malformed) := by
  have hdelimited := delimited_memberTexts [("payload", Json.print payload)] []
  rw [printMembers_eq]
  simp only [fields, List.map_cons, List.map_nil]
  rw [memberTexts_cons_append]
  refine .member rfl rfl (bind_eq_ok.mpr ⟨_, Json.readText_literal envelope.version _, rfl⟩) ?_
  rw [memberTexts_cons_append]
  refine .member rfl rfl (bind_eq_ok.mpr ⟨_, Json.readText_literal envelope.kind.name _, rfl⟩) ?_
  rw [memberTexts_cons_append]
  refine .member rfl rfl
    (bind_eq_ok.mpr ⟨_, Json.readText_literal envelope.correlationId _, rfl⟩) ?_
  rw [memberTexts_cons_append]
  refine .member rfl rfl (bind_eq_ok.mpr ⟨_, readTimestamp hdelimited, rfl⟩) ?_
  rw [memberTexts_cons_append]
  -- only the body can be refused
  have hbody := @Json.readValue_print bodyBudget _ _ hpayload (@Json.delimited_members [] [])
  by_cases hdepth : payload.depth ≤ bodyBudget
  · rw [if_pos hdepth] at hbody ⊢
    refine .member rfl rfl (bind_eq_ok.mpr ⟨_, hbody, rfl⟩) ?_
    exact readsTo_closed false _ []
  · rw [if_neg hdepth] at hbody ⊢
    exact readsTo_member_error rfl rfl (bind_eq_error hbody _)

/-- **A printed envelope is read up to its body**, unless that nests too deep. -/
theorem parse_print_fields (envelope : Envelope) {payload : Json} (hpayload : WellFormed payload) :
    parse (Json.print (.object (envelope.fields payload))) =
      if payload.depth ≤ bodyBudget then ofHeader (envelope.header payload)
      else .error (.malformed .malformed) := by
  have hread := @Json.TextRecord.read_object _ _ bodyBudget "RawEnvelope" _ _ _
    (envelope.readsTo_header hpayload)
  by_cases hdepth : payload.depth ≤ bodyBudget
  · rw [if_pos hdepth] at hread ⊢
    have hheader : readHeader (Json.print (.object (envelope.fields payload))) =
        .ok (envelope.header payload, []) :=
      bind_eq_ok.mpr ⟨_, hread, rfl⟩
    have hall : Json.readAll readHeader (Json.print (.object (envelope.fields payload))) =
        .ok (envelope.header payload) :=
      bind_eq_ok.mpr ⟨_, hheader, rfl⟩
    rw [parse, hall]
  · rw [if_neg hdepth] at hread ⊢
    have hheader : readHeader (Json.print (.object (envelope.fields payload))) =
        .error .malformed :=
      bind_eq_error hread _
    have hall : Json.readAll readHeader (Json.print (.object (envelope.fields payload))) =
        .error .malformed :=
      bind_eq_error hheader _
    rw [parse, hall]

/-! ## Received headers -/

theorem keeps_payload_fits :
    Json.TextRecord.Keeps headerFields bodyBudget
      fun draft => ∀ payload ∈ draft.payload, Fits bodyBudget payload := by
  intro field hfield draft text next rest hdraft hread
  simp only [headerFields, List.mem_cons, List.not_mem_nil, or_false] at hfield
  rcases hfield with rfl | rfl | rfl | rfl | rfl
  all_goals
    obtain ⟨⟨value, behind⟩, hvalue, hread⟩ := bind_eq_ok.mp hread
    cases hread
  -- only the last field sets the payload
  · exact hdraft
  · exact hdraft
  · exact hdraft
  · exact hdraft
  · rintro _ ⟨⟩
    exact Json.readValue_fits hvalue

theorem payload_of_finish {draft : Draft} {header : Header}
    (hfinish : draft.finish = .ok header) : header.payload = draft.payload.getD .null := by
  obtain ⟨_, _, hfinish⟩ := bind_eq_ok.mp hfinish
  obtain ⟨_, _, hfinish⟩ := bind_eq_ok.mp hfinish
  obtain ⟨_, _, hfinish⟩ := bind_eq_ok.mp hfinish
  obtain ⟨_, _, hfinish⟩ := bind_eq_ok.mp hfinish
  obtain rfl := Except.ok.inj hfinish
  rfl

/-- The body of any header that is read is well formed and leaves room for the header's bracket. -/
theorem payload_fits {text : List UInt8} {header : Header}
    (hread : Json.readAll readHeader text = .ok header) : Fits bodyBudget header.payload := by
  obtain ⟨⟨header', behind⟩, hheader, hread⟩ := bind_eq_ok.mp hread
  obtain ⟨_, _, hread⟩ := bind_eq_ok.mp hread
  obtain rfl := Except.ok.inj hread
  obtain ⟨⟨draft, behind⟩, hdraft, hheader⟩ := bind_eq_ok.mp hheader
  obtain ⟨_, hfinish, hheader⟩ := bind_eq_ok.mp hheader
  cases hheader
  have hstart : ∀ payload ∈ ({} : Draft).payload, Fits bodyBudget payload := by
    intro payload hmem
    cases hmem
  have hpayload := Json.TextRecord.read_invariant keeps_payload_fits hstart hdraft
  rw [payload_of_finish hfinish]
  cases hbody : draft.payload with
  | none => exact ⟨trivial, Nat.zero_le _⟩
  | some payload => exact hpayload payload hbody

end HubLink.Message.Envelope
