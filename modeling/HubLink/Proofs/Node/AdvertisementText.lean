import HubLink.Node.Advertisement
import HubLink.Proofs.Json.Record
import HubLink.Proofs.Json.TextRecord
import HubLink.Proofs.Node.Address

/-!
# Advertisements and their JSON form

The JSON form of an advertisement is read straight from its text, field by field in the order in
which the fields were written.  Whole numbers, flags and the address come back as they were, the
signal strength is there or left out, and a finite reading comes back bit for bit, since its text is
rounded to 32 bits once.

A reading that is not finite has no text.  It is written as null, which a reader of any value finds
there and a reader of advertisements refuses (`parse_inverts_print`).
-/

namespace HubLink.Json

open Text (byte ascii)

variable {α : Type} {name : String} {shape : Shape α} {value : α} {rest : List UInt8}

theorem decimalInt_natCast (n : Nat) : Text.decimalInt n = Text.decimal n := by
  have hpositive : ¬ (n : Int) < 0 := by omega
  rw [Text.decimalInt, if_neg hpositive, Int.natAbs_natCast]

theorem readWholeAs_decimal {n : Nat} (hwhole : IsWhole n)
    (hshape : shape (.integer n) = .ok value) (hrest : Delimited rest) :
    readWholeAs name shape (Text.decimal n ++ rest) = .ok (value, rest) := by
  rw [← decimalInt_natCast]
  exact readWholeAs_integer hwhole hshape hrest

theorem readWholeAs_u8 (n : UInt8) (hrest : Delimited rest) :
    readWholeAs name Shape.u8 (Text.decimal n.toNat ++ rest) = .ok (n, rest) :=
  readWholeAs_decimal (@fits_u8 0 n).1 (Shape.u8_toNat n) hrest

theorem readWholeAs_u16 (n : UInt16) (hrest : Delimited rest) :
    readWholeAs name Shape.u16 (Text.decimal n.toNat ++ rest) = .ok (n, rest) :=
  readWholeAs_decimal (@fits_u16 0 n).1 (Shape.u16_toNat n) hrest

/-- What starts like a number is not null. -/
theorem readOptional_integer {reader : Reader α} {n : Int}
    (hread : reader (Text.decimalInt n ++ rest) = .ok (value, rest)) :
    readOptional reader (Text.decimalInt n ++ rest) = .ok (some value, rest) := by
  obtain ⟨b, text, hspell, hhead⟩ := exists_head_spell (wellSpelled_ofInt n)
  rw [spell_ofInt] at hspell
  have hletter : b ≠ byte 'n' := numeral_head_ne hhead (by decide) (by decide)
  rw [hspell, List.cons_append] at hread ⊢
  simp only [readOptional, skipBlanks_cons (isBlank_numeral_head hhead), if_neg hletter, hread,
    bind, Except.bind]

theorem readOptional_i16 (n : Int16) (hrest : Delimited rest) :
    readOptional (readWholeAs name Shape.i16) (Text.decimalInt n.toInt ++ rest) =
      .ok (some n, rest) :=
  readOptional_integer (readWholeAs_integer (@fits_i16 0 n).1 (Shape.i16_toInt n) hrest)

/-- Null is not a number. -/
theorem readSingle_null (rest : List UInt8) :
    readSingle (ascii ['n', 'u', 'l', 'l'] ++ rest) =
      .error (.mismatch (.wrongType .null "f32")) :=
  rfl

end HubLink.Json

namespace HubLink.Node.Advertisement

open Json.TextRecord (ReadsTo memberTexts memberTexts_cons_append delimited_memberTexts
  readsTo_closed readsTo_member_error)
open Text (byte)

variable {budget : Nat} {result : Except Json.Fault (Draft × List UInt8)}

/-! ## Fields in their order -/

/-- The members behind the reading. -/
def membersBehind (adv : Advertisement) : List (String × List UInt8) :=
  [("faultFlags", Text.decimal adv.faultFlags.bits.toNat),
    ("counter", Text.decimal adv.counter.toNat)] ++
  match adv.rssi with
  | none => []
  | some rssi => [("rssi", Text.decimalInt rssi.toInt)]

/-- What has been read in front of the reading. -/
def draftBefore (adv : Advertisement) : Draft where
  companyId := some adv.companyId
  version := some adv.version
  nodeId := some adv.nodeId
  batteryPercent := some adv.batteryPercent

/-- What has been read at the end. -/
def draft (adv : Advertisement) : Draft where
  companyId := some adv.companyId
  version := some adv.version
  nodeId := some adv.nodeId
  batteryPercent := some adv.batteryPercent
  lastReading := some adv.lastReading
  faultFlags := some adv.faultFlags
  counter := some adv.counter
  rssi := adv.rssi.map some

theorem finish_draft (adv : Advertisement) : adv.draft.finish = .ok adv := by
  obtain ⟨_, _, _, _, _, _, _, rssi⟩ := adv
  cases rssi <;> rfl

theorem readAddress_literal (address : Address) (rest : List UInt8) :
    Address.readJson (Json.literal address.text ++ rest) = .ok (address, rest) := by
  simp only [Address.readJson, Json.readText_literal, Address.parse_text, bind, Except.bind]

/-- The members in front of the reading are read one by one. -/
theorem readsTo_before (adv : Advertisement)
    (hreading : ReadsTo fields budget false adv.draftBefore
      (memberTexts false (("lastReading", readingText adv.lastReading) :: adv.membersBehind) ++
        [byte '\x7d']) result) :
    ReadsTo fields budget true {} (memberTexts true adv.members ++ [byte '\x7d']) result := by
  have hmembers : adv.members =
      ("companyId", Text.decimal adv.companyId.toNat) ::
      ("version", Text.decimal adv.version.toNat) ::
      ("nodeId", Json.literal adv.nodeId.text) ::
      ("batteryPercent", Text.decimal adv.batteryPercent.toNat) ::
      ("lastReading", readingText adv.lastReading) :: adv.membersBehind := rfl
  have hdelimited := @delimited_memberTexts
  rw [hmembers, memberTexts_cons_append]
  refine .member rfl rfl
    (bind_eq_ok.mpr ⟨_, Json.readWholeAs_u16 adv.companyId (hdelimited _ _), rfl⟩) ?_
  rw [memberTexts_cons_append]
  refine .member rfl rfl
    (bind_eq_ok.mpr ⟨_, Json.readWholeAs_u8 adv.version (hdelimited _ _), rfl⟩) ?_
  rw [memberTexts_cons_append]
  refine .member rfl rfl (bind_eq_ok.mpr ⟨_, readAddress_literal adv.nodeId _, rfl⟩) ?_
  rw [memberTexts_cons_append]
  exact .member rfl rfl
    (bind_eq_ok.mpr ⟨_, Json.readWholeAs_u8 adv.batteryPercent (hdelimited _ _), rfl⟩) hreading

/-- So are those behind it; the last of them may be left out. -/
theorem readsTo_behind (adv : Advertisement) :
    ReadsTo fields budget false { adv.draftBefore with lastReading := some adv.lastReading }
      (memberTexts false adv.membersBehind ++ [byte '\x7d']) (.ok (adv.draft, [])) := by
  have hdelimited := @delimited_memberTexts
  obtain ⟨company, version, nodeId, battery, reading, faults, counter, rssi⟩ := adv
  simp only [membersBehind, List.cons_append, List.nil_append]
  rw [memberTexts_cons_append]
  refine .member rfl rfl
    (bind_eq_ok.mpr ⟨_, Json.readWholeAs_u8 faults.bits (hdelimited _ _), rfl⟩) ?_
  rw [memberTexts_cons_append]
  refine .member rfl rfl (bind_eq_ok.mpr ⟨_, Json.readWholeAs_u16 counter (hdelimited _ _), rfl⟩) ?_
  cases rssi with
  | none => exact readsTo_closed false _ []
  | some strength =>
      rw [memberTexts_cons_append]
      refine .member rfl rfl
        (bind_eq_ok.mpr ⟨_, Json.readOptional_i16 strength (hdelimited _ _), rfl⟩) ?_
      exact readsTo_closed false _ []

/-! ## Finite readings and others -/

variable {adv : Advertisement}

/-- An advertisement with a finite reading is read back from what is printed for it. -/
theorem parse_print_of_isFinite (hfinite : adv.lastReading.isFinite = true) :
    parse adv.print = .ok adv := by
  have hreading : ReadsTo fields 126 true {} (memberTexts true adv.members ++ [byte '\x7d'])
      (.ok (adv.draft, [])) := by
    apply readsTo_before
    rw [memberTexts_cons_append, readingText, if_pos hfinite]
    exact .member rfl rfl (bind_eq_ok.mpr ⟨_, Json.readSingle_text hfinite
      (delimited_memberTexts _ _), rfl⟩) (readsTo_behind adv)
  have hdraft := @Json.TextRecord.read_printFields _ _ 126 "NodeAdvertisement" _ _ _ hreading
  have hadv : readJson adv.print = .ok (adv, []) :=
    bind_eq_ok.mpr ⟨_, hdraft, bind_eq_ok.mpr ⟨_, finish_draft adv, rfl⟩⟩
  exact bind_eq_ok.mpr ⟨_, hadv, rfl⟩

/-- A null in the place of the reading is refused as no number. -/
theorem parse_print_of_not_finite (hfinite : adv.lastReading.isFinite = false) :
    parse adv.print = .error (.mismatch (.wrongType .null "f32")) := by
  have hreading : ReadsTo fields 126 true {} (memberTexts true adv.members ++ [byte '\x7d'])
      (.error (.mismatch (.wrongType .null "f32"))) := by
    apply readsTo_before
    have hnull : Text.bytes "null" = Text.ascii ['n', 'u', 'l', 'l'] := by decide
    rw [memberTexts_cons_append, readingText, hfinite, if_neg Bool.false_ne_true, hnull]
    exact readsTo_member_error rfl rfl (bind_eq_error (Json.readSingle_null _) _)
  have hdraft := @Json.TextRecord.read_printFields _ _ 126 "NodeAdvertisement" _ _ _ hreading
  exact bind_eq_error (bind_eq_error hdraft _) _

/-- The values that are printed when there is null in the place of the reading. -/
def valuesWithNull (adv : Advertisement) : List (String × Json) :=
  [("companyId", .integer adv.companyId.toNat),
    ("version", .integer adv.version.toNat),
    ("nodeId", .string adv.nodeId.text),
    ("batteryPercent", .integer adv.batteryPercent.toNat),
    ("lastReading", .null),
    ("faultFlags", .integer adv.faultFlags.bits.toNat),
    ("counter", .integer adv.counter.toNat)] ++
  match adv.rssi with
  | none => []
  | some rssi => [("rssi", .integer rssi.toInt)]

theorem print_of_not_finite (hfinite : adv.lastReading.isFinite = false) :
    adv.print = Json.print (.object adv.valuesWithNull) := by
  have hnull : Text.bytes "null" = Json.print .null := by decide
  have hwhole : ∀ n : Nat, Json.print (.integer n) = Text.decimal n := Json.decimalInt_natCast
  rw [← Json.TextRecord.printFields_print, print, members, valuesWithNull, readingText, hfinite]
  cases adv.rssi <;>
    simp only [List.map_append, List.map_cons, List.map_nil, hwhole, hnull, Bool.false_eq_true,
      if_false] <;> rfl

theorem fits_valuesWithNull (adv : Advertisement) :
    ∀ m ∈ adv.valuesWithNull, Json.Fits 0 m.2 := by
  have hnull : Json.Fits 0 .null := ⟨trivial, Nat.le_refl 0⟩
  obtain ⟨company, version, nodeId, battery, reading, faults, counter, rssi⟩ := adv
  rw [valuesWithNull]
  simp only [List.cons_append, List.nil_append, List.forall_mem_cons]
  refine ⟨Json.fits_u16 _, Json.fits_u8 _, Json.fits_string _, Json.fits_u8 _, hnull,
    Json.fits_u8 _, Json.fits_u16 _, ?_⟩
  cases rssi with
  | none => exact List.forall_mem_nil _
  | some strength => exact List.forall_mem_singleton.mpr (Json.fits_i16 strength)

/-- A reader of any value finds null in the place of a reading that is not finite. -/
theorem exists_parse_print (hfinite : adv.lastReading.isFinite = false) :
    ∃ members, Json.parse adv.print = .ok (.object members) ∧
      Json.member? "lastReading" members = some .null := by
  have hfits := fits_valuesWithNull adv
  have hread := @Json.readValue_members Json.nestingLimit [] _
    (Json.wellFormedMembers_iff.mpr fun m hm => (hfits m hm).1)
  have hflat : Json.depthMembers adv.valuesWithNull ≤ 0 :=
    Json.depthMembers_le_iff.mpr fun m hm => (hfits m hm).2
  have hdepth : Json.depthMembers adv.valuesWithNull < Json.nestingLimit :=
    Nat.lt_of_le_of_lt hflat (by decide)
  rw [if_pos hdepth, List.append_nil, ← print_of_not_finite hfinite, Json.ofMembers_eq] at hread
  refine ⟨_, bind_eq_ok.mpr ⟨_, hread, rfl⟩, ?_⟩
  rw [Json.member?_putAll, valuesWithNull, Json.last?_append]
  cases adv.rssi <;> rfl

/-- **Printing and reading the JSON form.**  What is printed for an advertisement is read as that
advertisement, every bit of its reading and its signal strength included, if the reading is finite.
Otherwise null stands in the place of the reading, and the text is refused for not holding a number
there. -/
theorem parse_inverts_print (adv : Advertisement) :
    (adv.lastReading.isFinite = true → parse adv.print = .ok adv) ∧
    (adv.lastReading.isFinite = false →
      (∃ members, Json.parse adv.print = .ok (.object members) ∧
        Json.member? "lastReading" members = some .null) ∧
      parse adv.print = .error (.mismatch (.wrongType .null "f32"))) :=
  ⟨parse_print_of_isFinite, fun hfinite =>
    ⟨exists_parse_print hfinite, parse_print_of_not_finite hfinite⟩⟩

/-- The least number above zero is read back, and a NaN with a payload is not. -/
theorem parse_inverts_print_extremes :
    (Single.mk 1).isFinite = true ∧ (Single.mk 0x7FA00001).isFinite = false ∧
      parse (withRssi (initial default 200 ⟨1⟩) (-32768)).print =
        .ok (withRssi (initial default 200 ⟨1⟩) (-32768)) ∧
      parse (initial default 200 ⟨0x7FA00001⟩).print =
        .error (.mismatch (.wrongType .null "f32")) := by
  have hfinite : (Single.mk 1).isFinite = true := by decide
  have hnan : (Single.mk 0x7FA00001).isFinite = false := by decide
  have hread := (parse_inverts_print (withRssi (initial default 200 ⟨1⟩) (-32768))).1 hfinite
  have hrefused := (parse_inverts_print (initial default 200 ⟨0x7FA00001⟩)).2 hnan
  exact ⟨hfinite, hnan, hread, hrefused.2⟩

end HubLink.Node.Advertisement
