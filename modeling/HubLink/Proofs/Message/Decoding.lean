import HubLink.Proofs.Frame.InPlace
import HubLink.Proofs.Message.HeaderTexts
import HubLink.Proofs.Message.Outline
import HubLink.Proofs.Message.Received
import HubLink.Proofs.Message.RoundTrip

/-!
# How decoding comes out

A decoder looks at a buffer in layers: is there a whole frame within the limit, does its checksum
hold, is its payload a header, is the kind known, does the body have the shape of the kind.  Each
layer decides one kind of outcome, and a layer is only looked at when those above it are passed; so
every outcome can be told from the buffer, by one condition each (`decode_outcome`).  Header and body
are told without their readers: a header by the members of its text (`HasHeader`), a body, once it is
a value, by the outline of its kind (`Kind.Admits`).

The layers are taken one at a time.  The three of the envelope are about its text alone
(`parse_eq_unknownKind_iff` and its neighbours), those of the frame about lengths and a checksum.
-/

namespace HubLink

/-! ## No frame reader looks at an address -/

namespace Frame

/-- A payload is refused for its checksum alone. -/
theorem map_verified_ne_address {α : Type} (payload : List UInt8) (stated : UInt32)
    (make : Frame → α) (text : String) :
    (verified payload stated).map make ≠ .error (.address text) := by
  rw [verified]
  split <;> simp [Except.map]

theorem decode_ne_address (limit : Nat) (buffer : List UInt8) (text : String) :
    decode limit buffer ≠ .error (.address text) := by
  unfold decode
  split
  · simp
  · simp
  · exact map_verified_ne_address _ _ _ text

theorem poll_ne_address (limit : Nat) (buffer : List UInt8) (text : String) :
    (poll limit buffer).1 ≠ .error (.address text) := by
  unfold poll
  split
  · simp
  · simp
  · exact map_verified_ne_address _ _ _ text

end Frame

namespace Message

open HubLink.Frame (overhead declared declaredPayload declaredTrailer)

/-! ## Kinds by name -/

theorem Kind.ofName?_eq_some_iff {name : String} {kind : Kind} :
    ofName? name = some kind ↔ kind.name = name := by
  constructor
  · intro hfound
    exact beq_iff_eq.mp (List.find?_some (p := fun kind : Kind => kind.name == name) hfound)
  · rintro rfl
    exact ofName?_name kind

theorem Kind.ofName?_eq_none_iff {name : String} :
    ofName? name = none ↔ ∀ kind : Kind, kind.name ≠ name := by
  simp only [Option.eq_none_iff_forall_ne_some, ne_eq, ofName?_eq_some_iff]

/-! ## The layers of an envelope -/

namespace Envelope

variable {text : List UInt8} {header : Header} {envelope : Envelope}

theorem parse_of_hasHeader (hheader : HasHeader text header) : parse text = ofHeader header := by
  rw [parse, hasHeader_iff.mp hheader]

/-- A text is one header at most. -/
theorem HasHeader.unique {other : Header} (hheader : HasHeader text header)
    (hother : HasHeader text other) : header = other :=
  Except.ok.inj ((hasHeader_iff.mp hheader).symm.trans (hasHeader_iff.mp hother))

/-- A text without a header is malformed, and so said by the header's reader. -/
theorem parse_of_not_hasHeader (hheader : ∀ header, ¬ HasHeader text header) :
    ∃ cause, parse text = .error (.malformed cause) := by
  cases hread : Json.readAll readHeader text with
  | error cause => exact ⟨cause, by rw [parse, hread]⟩
  | ok header => exact absurd (hasHeader_iff.mpr hread) (hheader header)

theorem ofHeader_eq_unknownKind_iff {name : String} :
    ofHeader header = .error (.unknownKind name) ↔
      header.kind = name ∧ ∀ kind : Kind, kind.name ≠ name := by
  rw [ofHeader]
  split
  next hkind =>
    rw [Kind.ofName?_eq_none_iff] at hkind
    constructor
    · intro hresult
      cases hresult
      exact ⟨rfl, hkind⟩
    · rintro ⟨rfl, -⟩
      rfl
  next kind hkind =>
    -- the kind is known, so the body decides
    refine iff_of_false ?_ fun hname => hname.2 kind (hname.1 ▸ Kind.ofName?_eq_some_iff.mp hkind)
    split <;> simp

theorem ofHeader_eq_ok_iff :
    ofHeader header = .ok envelope ↔
      header.kind = envelope.kind.name ∧ envelope.kind.Admits header.payload ∧
        Payload.ofJson envelope.kind header.payload = .ok envelope.payload ∧
        header.version = envelope.version ∧ header.correlationId = envelope.correlationId ∧
        header.timestamp = envelope.timestamp := by
  constructor
  · intro hresult
    rw [ofHeader] at hresult
    split at hresult
    · cases hresult
    next kind hkind =>
      split at hresult
      · cases hresult
      next payload hpayload =>
        cases hresult
        obtain rfl : payload.kind = kind := (Payload.received hpayload).kind_eq
        exact ⟨(Kind.ofName?_eq_some_iff.mp hkind).symm,
          Payload.exists_ofJson_iff.mp ⟨payload, hpayload⟩, hpayload, rfl, rfl, rfl⟩
  · rintro ⟨hkind, -, hpayload, hversion, hcorrelationId, htimestamp⟩
    rw [ofHeader, hkind, Kind.ofName?_name]
    simp only [hpayload, hversion, hcorrelationId, htimestamp]

/-- A known kind and a body of another shape. -/
def MisshapenBody (header : Header) : Prop :=
  ∃ kind : Kind, kind.name = header.kind ∧ ¬ kind.Admits header.payload

theorem exists_ofHeader_eq_malformed_iff :
    (∃ cause, ofHeader header = .error (.malformed cause)) ↔ MisshapenBody header := by
  constructor
  · rintro ⟨cause, hresult⟩
    rw [ofHeader] at hresult
    split at hresult
    · cases hresult
    next kind hkind =>
      split at hresult
      next reason hreason =>
        refine ⟨kind, Kind.ofName?_eq_some_iff.mp hkind, fun hadmits => ?_⟩
        obtain ⟨payload, hpayload⟩ := Payload.exists_ofJson_iff.mpr hadmits
        cases hreason.symm.trans hpayload
      · cases hresult
  · rintro ⟨kind, hkind, hbody⟩
    rw [ofHeader, Kind.ofName?_eq_some_iff.mpr hkind]
    cases hread : Payload.ofJson kind header.payload with
    | error cause => exact ⟨.mismatch cause, by simp only [hread]⟩
    | ok payload => exact absurd (Payload.exists_ofJson_iff.mp ⟨payload, hread⟩) hbody

/-- What holds of the one header that a text may have. -/
theorem parse_iff {result : Except Fault Envelope} {good : Header → Prop}
    (hgood : ∀ header, ofHeader header = result ↔ good header)
    (hheader : ∀ cause, result ≠ .error (.malformed cause)) :
    parse text = result ↔ ∃ header, HasHeader text header ∧ good header := by
  constructor
  · intro hparse
    by_cases hexists : ∃ header, HasHeader text header
    · obtain ⟨header, hread⟩ := hexists
      exact ⟨header, hread, (hgood header).mp (parse_of_hasHeader hread ▸ hparse)⟩
    · obtain ⟨cause, hmalformed⟩ := parse_of_not_hasHeader (not_exists.mp hexists)
      exact absurd (hparse.symm.trans hmalformed) (hheader cause)
  · rintro ⟨header, hread, hresult⟩
    exact (parse_of_hasHeader hread).trans ((hgood header).mpr hresult)

/-- Only a well typed header can name a kind that is not known. -/
theorem parse_eq_unknownKind_iff {name : String} :
    parse text = .error (.unknownKind name) ↔ ∃ header, HasHeader text header ∧
      header.kind = name ∧ ∀ kind : Kind, kind.name ≠ name := by
  apply parse_iff
  · intro header
    exact ofHeader_eq_unknownKind_iff
  · intro cause hsame
    cases hsame

theorem parse_eq_ok_iff :
    parse text = .ok envelope ↔ ∃ header, HasHeader text header ∧
      header.kind = envelope.kind.name ∧ envelope.kind.Admits header.payload ∧
        Payload.ofJson envelope.kind header.payload = .ok envelope.payload ∧
        header.version = envelope.version ∧ header.correlationId = envelope.correlationId ∧
        header.timestamp = envelope.timestamp := by
  apply parse_iff
  · intro header
    exact ofHeader_eq_ok_iff
  · intro cause hsame
    cases hsame

theorem exists_parse_eq_malformed_iff :
    (∃ cause, parse text = .error (.malformed cause)) ↔
      (∀ header, ¬ HasHeader text header) ∨ ∃ header, HasHeader text header ∧
        MisshapenBody header := by
  by_cases hexists : ∃ header, HasHeader text header
  · obtain ⟨header, hread⟩ := hexists
    rw [parse_of_hasHeader hread, exists_ofHeader_eq_malformed_iff]
    constructor
    · intro hbody
      exact .inr ⟨header, hread, hbody⟩
    · rintro (hnone | ⟨other, hother, hbody⟩)
      · exact absurd hread (hnone header)
      · exact hread.unique hother ▸ hbody
  · have hnone := not_exists.mp hexists
    exact iff_of_true (parse_of_not_hasHeader hnone) (.inl hnone)

end Envelope

/-! ## The layers of a frame -/

namespace Codec

open Envelope (HasHeader MisshapenBody)

variable {limit : Nat} {buffer payload : List UInt8}

/-- A whole frame within the limit at the front of a buffer, which hashes to what it states. -/
structure Sound (limit : Nat) (buffer : List UInt8) : Prop where
  within_limit : declared buffer ≤ limit
  whole : overhead + declared buffer ≤ buffer.length
  checksum_eq : checksum (declaredPayload buffer) = declaredTrailer buffer

/-- The layers in the order in which they are looked at. -/
theorem decode_eq_layers (limit : Nat) (buffer : List UInt8) :
    decode limit buffer =
      if buffer.length < overhead then .ok none
      else if limit < declared buffer then .error (.oversize (declared buffer))
      else if buffer.length < overhead + declared buffer then .ok none
      else if checksum (declaredPayload buffer) = declaredTrailer buffer then
        ofFrame (.ok (some ⟨declaredPayload buffer⟩))
      else
        .error (.corrupt (declaredTrailer buffer) (checksum (declaredPayload buffer))) := by
  rw [decode, Frame.decode_eq_inPlace, Frame.decodeInPlace]
  split
  · rfl
  split
  · rfl
  split
  · rfl
  · rw [Frame.verified]
    split <;> rfl

/-- Below the frame there is an envelope or a fault of an envelope, and nothing else. -/
theorem ofFrame_some (payload : List UInt8) :
    ofFrame (.ok (some ⟨payload⟩)) = ((Envelope.parse payload).map some).mapError .ofEnvelope := by
  rw [ofFrame]
  cases Envelope.parse payload <;> rfl

theorem ofFrame_some_eq_ok_iff {found : Option Envelope} :
    ofFrame (.ok (some ⟨payload⟩)) = .ok found ↔
      ∃ envelope, found = some envelope ∧ Envelope.parse payload = .ok envelope := by
  rw [ofFrame_some]
  cases Envelope.parse payload <;> simp [Except.map, Except.mapError, eq_comm]

theorem ofFrame_some_eq_error_iff {fault : Fault} :
    ofFrame (.ok (some ⟨payload⟩)) = .error fault ↔
      ∃ reason, fault = .ofEnvelope reason ∧ Envelope.parse payload = .error reason := by
  rw [ofFrame_some]
  cases Envelope.parse payload <;> simp [Except.map, Except.mapError, eq_comm]

/-- The outcomes that the layers of the frame decide among themselves. -/
def IsFrameOutcome : Except Fault (Option Envelope) → Prop
  | .ok found => found = none
  | .error (.oversize _) | .error (.corrupt _ _) => True
  | .error _ => False

/-- Every other outcome is that of the text in a sound frame. -/
theorem decode_eq_iff_of_not_isFrameOutcome {result : Except Fault (Option Envelope)}
    (hresult : ¬ IsFrameOutcome result) :
    decode limit buffer = result ↔
      Sound limit buffer ∧ ofFrame (.ok (some ⟨declaredPayload buffer⟩)) = result := by
  have hother : ∀ {outcome}, IsFrameOutcome outcome → outcome ≠ result := by
    rintro _ houtcome rfl
    exact hresult houtcome
  rw [decode_eq_layers]
  split
  next hshort =>
    refine iff_of_false (hother rfl) fun h => ?_
    have hwhole := h.1.whole
    omega
  split
  next hlimit =>
    refine iff_of_false (hother trivial) fun h => ?_
    exact Nat.not_le.mpr hlimit h.1.within_limit
  split
  next hpart =>
    refine iff_of_false (hother rfl) fun h => ?_
    exact Nat.not_le.mpr hpart h.1.whole
  split
  next hlimit hpart hchecksum =>
    have hsound : Sound limit buffer := ⟨Nat.le_of_not_lt hlimit, Nat.le_of_not_lt hpart, hchecksum⟩
    exact (and_iff_right hsound).symm
  next hchecksum =>
    exact iff_of_false (hother trivial) fun h => hchecksum h.1.checksum_eq

theorem ofFrame_some_not_isFrameOutcome (payload : List UInt8) :
    ¬ IsFrameOutcome (ofFrame (.ok (some ⟨payload⟩))) := by
  rw [ofFrame_some]
  cases Envelope.parse payload with
  | error fault => cases fault <;> exact id
  | ok envelope =>
      intro hfound
      cases hfound

theorem decode_eq_oversize_iff {size : Nat} :
    decode limit buffer = .error (.oversize size) ↔
      overhead ≤ buffer.length ∧ limit < declared buffer ∧ size = declared buffer := by
  have hsound := ofFrame_some_not_isFrameOutcome (declaredPayload buffer)
  rw [decode_eq_layers]
  split
  next hshort => exact iff_of_false (by simp) (by omega)
  split
  next hshort hlimit =>
    have hlong := Nat.le_of_not_lt hshort
    simp [hlong, hlimit, eq_comm]
  split
  next => exact iff_of_false (by simp) (by omega)
  split
  next =>
    refine iff_of_false (fun hresult => ?_) (by omega)
    rw [hresult] at hsound
    exact hsound trivial
  next => exact iff_of_false (by simp) (by omega)

theorem decode_eq_none_iff :
    decode limit buffer = .ok none ↔
      buffer.length < overhead ∨
        declared buffer ≤ limit ∧ buffer.length < overhead + declared buffer := by
  have hsound := ofFrame_some_not_isFrameOutcome (declaredPayload buffer)
  rw [decode_eq_layers]
  split
  next hshort => exact iff_of_true rfl (.inl hshort)
  split
  next => exact iff_of_false (by simp) (by omega)
  split
  next hlimit hpart => exact iff_of_true rfl (.inr ⟨Nat.le_of_not_lt hlimit, hpart⟩)
  split
  next =>
    refine iff_of_false (fun hresult => ?_) (by omega)
    rw [hresult] at hsound
    exact hsound rfl
  next => exact iff_of_false (by simp) (by omega)

theorem decode_eq_corrupt_iff {stated computed : UInt32} :
    decode limit buffer = .error (.corrupt stated computed) ↔
      declared buffer ≤ limit ∧ overhead + declared buffer ≤ buffer.length ∧
        computed ≠ stated ∧ stated = declaredTrailer buffer ∧
        computed = checksum (declaredPayload buffer) := by
  have hsound := ofFrame_some_not_isFrameOutcome (declaredPayload buffer)
  rw [decode_eq_layers]
  split
  next hshort => exact iff_of_false (by simp) (by omega)
  split
  next => exact iff_of_false (by simp) (by omega)
  split
  next => exact iff_of_false (by simp) (by omega)
  split
  next hchecksum =>
    refine iff_of_false (fun hresult => ?_) ?_
    · rw [hresult] at hsound
      exact hsound trivial
    · rintro ⟨-, -, hne, rfl, rfl⟩
      exact hne hchecksum
  next hlimit hpart hchecksum =>
    constructor
    · intro hresult
      cases hresult
      exact ⟨Nat.le_of_not_lt hlimit, Nat.le_of_not_lt hpart, hchecksum, rfl, rfl⟩
    · rintro ⟨-, -, -, rfl, rfl⟩
      rfl

theorem decode_eq_unknownKind_iff {name : String} :
    decode limit buffer = .error (.unknownKind name) ↔
      Sound limit buffer ∧ ∃ header, HasHeader (declaredPayload buffer) header ∧
        header.kind = name ∧ ∀ kind : Kind, kind.name ≠ name := by
  rw [decode_eq_iff_of_not_isFrameOutcome id, ofFrame_some_eq_error_iff,
    ← Envelope.parse_eq_unknownKind_iff]
  refine and_congr_right fun _ => ⟨?_, fun hparse => ⟨_, rfl, hparse⟩⟩
  rintro ⟨reason, hreason, hparse⟩
  cases reason with
  | malformed cause => cases hreason
  | unknownKind other =>
      cases hreason
      exact hparse

theorem decode_eq_some_iff {envelope : Envelope} :
    decode limit buffer = .ok (some envelope) ↔
      Sound limit buffer ∧ ∃ header, HasHeader (declaredPayload buffer) header ∧
        header.kind = envelope.kind.name ∧ envelope.kind.Admits header.payload ∧
        Payload.ofJson envelope.kind header.payload = .ok envelope.payload ∧
        header.version = envelope.version ∧ header.correlationId = envelope.correlationId ∧
        header.timestamp = envelope.timestamp := by
  have hframe : ¬ IsFrameOutcome (.ok (some envelope)) := by
    intro hnone
    cases hnone
  rw [decode_eq_iff_of_not_isFrameOutcome hframe, ofFrame_some_eq_ok_iff, ← Envelope.parse_eq_ok_iff]
  refine and_congr_right fun _ => ⟨?_, fun hparse => ⟨_, rfl, hparse⟩⟩
  rintro ⟨other, hsame, hparse⟩
  cases hsame
  exact hparse

theorem exists_decode_eq_malformed_iff :
    (∃ cause, decode limit buffer = .error (.malformed cause)) ↔
      Sound limit buffer ∧
        ((∀ header, ¬ HasHeader (declaredPayload buffer) header) ∨
          ∃ header, HasHeader (declaredPayload buffer) header ∧ MisshapenBody header) := by
  rw [← Envelope.exists_parse_eq_malformed_iff, ← exists_and_left]
  refine exists_congr fun cause => ?_
  rw [decode_eq_iff_of_not_isFrameOutcome id, ofFrame_some_eq_error_iff]
  refine and_congr_right fun _ => ⟨?_, fun hparse => ⟨_, rfl, hparse⟩⟩
  rintro ⟨reason, hreason, hparse⟩
  cases reason with
  | malformed other =>
      cases hreason
      exact hparse
  | unknownKind name => cases hreason

theorem decode_ne_encode (limit : Nat) (buffer : List UInt8) (reading : Binary.NonFinite) :
    decode limit buffer ≠ .error (.encode reading) := by
  rw [ne_eq, decode_eq_iff_of_not_isFrameOutcome id, ofFrame_some_eq_error_iff]
  rintro ⟨-, reason, hreason, -⟩
  cases reason <;> cases hreason

/-- **How decoding comes out.**  With the length that the first four bytes declare: an oversized
frame is reported exactly if eight bytes are there and the limit lies below that length; more bytes
are asked for exactly if not even eight are there, or the length is within the limit and the frame it
declares is not all there; a corrupt frame is reported exactly if it is all there and hashes to
something else than its trailer states, whatever it carries.  A sound frame is decided by its text
alone: an unknown kind if the members of the text are those of a header whose kind is none of the
twelve, an envelope if the kind is known and its outline admits the body, malformed in each case that
is left.  No fault of encoding comes out of decoding, and no frame reader finds fault with an
address. -/
theorem decode_outcome (limit : Nat) (buffer : List UInt8) :
    (∀ size, decode limit buffer = .error (.oversize size) ↔
      overhead ≤ buffer.length ∧ limit < declared buffer ∧ size = declared buffer) ∧
    (decode limit buffer = .ok none ↔
      buffer.length < overhead ∨
        declared buffer ≤ limit ∧ buffer.length < overhead + declared buffer) ∧
    (∀ stated computed, decode limit buffer = .error (.corrupt stated computed) ↔
      declared buffer ≤ limit ∧ overhead + declared buffer ≤ buffer.length ∧
        computed ≠ stated ∧ stated = declaredTrailer buffer ∧
        computed = checksum (declaredPayload buffer)) ∧
    (∀ name, decode limit buffer = .error (.unknownKind name) ↔
      Sound limit buffer ∧ ∃ header, HasHeader (declaredPayload buffer) header ∧
        header.kind = name ∧ ∀ kind : Kind, kind.name ≠ name) ∧
    (∀ envelope, decode limit buffer = .ok (some envelope) ↔
      Sound limit buffer ∧ ∃ header, HasHeader (declaredPayload buffer) header ∧
        header.kind = envelope.kind.name ∧ envelope.kind.Admits header.payload ∧
        Payload.ofJson envelope.kind header.payload = .ok envelope.payload ∧
        header.version = envelope.version ∧ header.correlationId = envelope.correlationId ∧
        header.timestamp = envelope.timestamp) ∧
    ((∃ cause, decode limit buffer = .error (.malformed cause)) ↔
      Sound limit buffer ∧
        ((∀ header, ¬ HasHeader (declaredPayload buffer) header) ∨
          ∃ header, HasHeader (declaredPayload buffer) header ∧ MisshapenBody header)) ∧
    (∀ reading, decode limit buffer ≠ .error (.encode reading)) ∧
    ∀ text, Frame.decode limit buffer ≠ .error (.address text) ∧
      (Frame.poll limit buffer).1 ≠ .error (.address text) := by
  refine ⟨?_, decode_eq_none_iff, ?_, ?_, ?_, exists_decode_eq_malformed_iff, ?_, ?_⟩
  · intro size
    exact decode_eq_oversize_iff
  · intro stated computed
    exact decode_eq_corrupt_iff
  · intro name
    exact decode_eq_unknownKind_iff
  · intro envelope
    exact decode_eq_some_iff
  · intro reading
    exact decode_ne_encode limit buffer reading
  · intro text
    exact ⟨Frame.decode_ne_address limit buffer text, Frame.poll_ne_address limit buffer text⟩

end Codec

end Message

end HubLink
