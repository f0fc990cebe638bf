import HubLink.Proofs.Json.Derived
import HubLink.Proofs.Json.PrintedNumber
import HubLink.Proofs.Json.Record
import HubLink.Proofs.Text.Whole

/-!
# How the values of fields are spelled

A reader that expects a text takes a literal that denotes it, and one that expects a whole number of
64 bits takes the decimal of that number; so which value is read from which text can be said without
the readers (`readText_eq_ok_iff`, `readWholeAs_i64_eq_ok_iff`).  A text has many spellings.  A whole
number has one: the grammar admits no zero in front, a point or an exponent makes the number another
one, and so does a minus sign before zero.
-/

namespace HubLink.Json

open Text (byte ascii IsRun)

variable {text rest : List UInt8}

/-! ## Texts -/

/-- A literal that denotes the text. -/
inductive IsLiteralOf (value : String) : List UInt8 → Prop
  | mk {content : List UInt8} (hdenotes : Denotes content (Text.bytes value)) :
      IsLiteralOf value (byte '"' :: (content ++ [byte '"']))

/-- **A text is read from the literals that denote it**, and from no other value. -/
theorem readText_eq_ok_iff (hvalue : IsValue text) {value : String} :
    readText text = .ok (value, []) ↔ IsLiteralOf value text := by
  have hquote : isBlank (byte '"') = false := by decide
  constructor
  · intro hread
    obtain ⟨b, more, rfl, hblank, -⟩ := hvalue.exists_head
    simp only [readText, skipBlanks_cons hblank] at hread
    split at hread
    next hopening =>
      obtain ⟨_, hpart, content, rfl, hdenotes⟩ := readString_taken hread
      rw [List.append_nil] at hpart
      rw [hopening, hpart]
      exact .mk hdenotes
    · exact absurd hread (wrongType_ne_ok _ _ _)
  · intro hliteral
    cases hliteral with
    | mk hdenotes =>
        simp only [readText, skipBlanks_cons hquote, if_true]
        exact readString_denotes hdenotes

/-! ## Whole numbers -/

/-- A run of digits is one of characters. -/
theorem exists_ascii_eq {digits : List UInt8} (hdigits : ∀ d ∈ digits, Text.isDigit d = true) :
    ∃ chars, digits = ascii chars ∧ ∀ c ∈ chars, c.isDigit = true := by
  have hall : ∀ n < 256, Text.isDigit (UInt8.ofNat n) = true →
      byte (Char.ofNat n) = UInt8.ofNat n ∧ (Char.ofNat n).isDigit = true := by
    decide +kernel
  have hdigit : ∀ d ∈ digits, byte (Char.ofNat d.toNat) = d ∧
      (Char.ofNat d.toNat).isDigit = true := by
    intro d hd
    have hchar := hall d.toNat d.toNat_lt
    rw [UInt8.ofNat_toNat] at hchar
    exact hchar (hdigits d hd)
  refine ⟨digits.map fun d => Char.ofNat d.toNat, ?_, ?_⟩
  · rw [ascii, List.map_map]
    exact (List.map_id digits).symm.trans
      (List.map_congr_left fun d hd => ((hdigit d hd).1).symm)
  · intro c hc
    obtain ⟨d, hd, rfl⟩ := List.mem_map.mp hc
    exact (hdigit d hd).2

/-- Digits that do not lead with a zero, unless that is all, are the decimal of their value. -/
theorem eq_decimal_of_isRun {digits : List UInt8} (hrun : IsRun digits)
    (hzero : digits.head? = some (byte '0') → digits.length = 1) :
    digits = Text.decimal (Text.digitsValue digits) := by
  obtain ⟨chars, rfl, hchars⟩ := exists_ascii_eq hrun.2
  have hne : chars ≠ [] := fun hnil => hrun.1 (hnil ▸ rfl)
  obtain ⟨zeros, hzeros⟩ := Text.exists_eq_zeros_append hne hchars
  rw [Text.digitsValue_ascii hchars, Text.decimal]
  cases zeros with
  | zero => exact congrArg ascii hzeros
  | succ zeros =>
      -- a zero in front would be all, but a decimal stands behind it
      have hhead : (ascii chars).head? = some (byte '0') := by
        rw [hzeros]
        rfl
      have hone := hzero hhead
      have hsome : 0 < (Nat.toDigits 10 (Nat.ofDigitChars 10 chars 0)).length :=
        List.length_pos_iff.mpr Nat.toDigits_ne_nil
      have hlength := congrArg List.length hzeros
      rw [Text.length_ascii] at hone
      rw [List.length_append, List.length_replicate] at hlength
      omega

theorem readFraction_eq_none {atEnd : Fault} (hread : readFraction atEnd text = .ok (none, rest)) :
    text = rest := by
  cases text with
  | nil =>
      cases hread
      rfl
  | cons b more =>
      rw [readFraction] at hread
      split at hread
      · obtain ⟨_, _, hnext⟩ := bind_eq_ok.mp hread
        cases hnext
      · cases hread
        rfl

theorem readExponent_eq_none {atEnd : Fault} (hread : readExponent atEnd text = .ok (none, rest)) :
    text = rest := by
  cases text with
  | nil =>
      cases hread
      rfl
  | cons b more =>
      rw [readExponent] at hread
      split at hread
      · obtain ⟨_, _, hnext⟩ := bind_eq_ok.mp hread
        cases hnext
      · cases hread
        rfl

/-- A numeral with neither point nor exponent is its sign and the decimal of its digits. -/
theorem readUnsigned_whole {atEnd : Fault} {negative : Bool} {numeral : Numeral}
    (hread : readUnsigned atEnd negative text = .ok (numeral, rest))
    (hwhole : numeral.isWhole = true) :
    text = Text.decimal (Text.digitsValue numeral.whole) ++ rest ∧ numeral.negative = negative := by
  obtain ⟨⟨whole, behind⟩, hdigits, hnext⟩ := bind_eq_ok.mp hread
  obtain ⟨⟨fraction?, left⟩, hfraction, hnext⟩ := bind_eq_ok.mp hnext
  obtain ⟨⟨exponent?, last⟩, hexponent, hnext⟩ := bind_eq_ok.mp hnext
  cases hnext
  obtain ⟨_, rfl, rfl, hrun, hzero⟩ := readWhole_taken atEnd hdigits
  rw [Numeral.isWhole, Bool.and_eq_true, Option.isNone_iff_eq_none, Option.isNone_iff_eq_none]
    at hwhole
  obtain ⟨rfl, rfl⟩ := hwhole
  obtain rfl := readFraction_eq_none hfraction
  obtain rfl := readExponent_eq_none hexponent
  exact ⟨congrArg (· ++ _) (eq_decimal_of_isRun hrun hzero), rfl⟩

theorem readNumeral_whole? {atEnd : Fault} {numeral : Numeral} {n : Int}
    (hread : readNumeral atEnd text = .ok (numeral, rest)) (hwhole : numeral.whole? = some n) :
    text = Text.decimalInt n ++ rest := by
  have hspelled : numeral.isWhole = true := by
    rw [Numeral.whole?] at hwhole
    split at hwhole
    · assumption
    · cases hwhole
  simp only [Numeral.whole?, if_pos hspelled] at hwhole
  cases text with
  | nil => cases hread
  | cons b more =>
      rw [readNumeral] at hread
      split at hread
      next hminus =>
        obtain ⟨hmore, hnegative⟩ := readUnsigned_whole hread hspelled
        rw [if_pos hnegative] at hwhole
        split at hwhole
        next hbounds =>
          cases hwhole
          have hbelow : -(Text.digitsValue numeral.whole : Int) < 0 := by omega
          rw [Text.decimalInt, if_pos hbelow, Int.natAbs_neg, Int.natAbs_natCast, hminus, hmore,
            List.cons_append]
        · cases hwhole
      · obtain ⟨hmore, hnegative⟩ := readUnsigned_whole hread hspelled
        rw [hnegative, if_neg Bool.false_ne_true] at hwhole
        split at hwhole
        · cases hwhole
          have hnonnegative : ¬ (Text.digitsValue numeral.whole : Int) < 0 := by omega
          rw [Text.decimalInt, if_neg hnonnegative, Int.natAbs_natCast, hmore]
        · cases hwhole

theorem Shape.i64_eq_ok_iff {value : Json} {n : Int64} :
    Shape.i64 value = .ok n ↔ value = .integer n.toInt := by
  constructor
  · intro hshape
    cases value with
    | integer m =>
        simp only [Shape.i64, Shape.integer, Shape.within] at hshape
        split at hshape
        next hsome =>
          split at hsome
          next hbounds =>
            cases hsome
            cases hshape
            rw [Int64.toInt_ofInt_of_le hbounds.1 hbounds.2]
          · cases hsome
        · cases hshape
    | _ => cases hshape
  · rintro rfl
    exact Shape.i64_toInt n

/-- **A whole number is read from its decimal**, and from no other value. -/
theorem readWholeAs_i64_eq_ok_iff (hvalue : IsValue text) {name : String} {n : Int64} :
    readWholeAs name Shape.i64 text = .ok (n, []) ↔ text = Text.decimalInt n.toInt := by
  constructor
  · intro hread
    obtain ⟨⟨numeral, behind⟩, hnumeral, hnext⟩ := bind_eq_ok.mp hread
    obtain ⟨value, hjson, hnext⟩ := bind_eq_ok.mp hnext
    obtain ⟨b, more, rfl, hblank, -⟩ := hvalue.exists_head
    simp only [readNumeralAs, skipBlanks_cons hblank] at hnumeral
    split at hnumeral
    next hhead =>
      split at hnext
      next hshape =>
        cases hnext
        rw [Shape.i64_eq_ok_iff] at hshape
        rw [hshape, Numeral.toJson] at hjson
        split at hjson
        next hwhole =>
          cases hjson
          have htext := readNumeral_whole? hnumeral hwhole
          rwa [List.append_nil] at htext
        · obtain ⟨_, _, hreal⟩ := map_eq_ok.mp hjson
          cases hreal
      · cases hnext
    · exact absurd hnumeral (wrongType_ne_ok _ _ _)
  · rintro rfl
    have hend : Delimited [] := by
      intro b hb
      cases hb
    have hread := @readWholeAs_integer _ name Shape.i64 _ _ _ (@fits_i64 0 n).1
      (Shape.i64_toInt n) hend
    rwa [List.append_nil] at hread

end HubLink.Json
