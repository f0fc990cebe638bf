import HubLink.Json.Numeral
import HubLink.Proofs.Text.Digits

/-!
# Numerals are read as they are spelled

A numeral that keeps to the spelling rules is read back part by part, and its reader stops at the
mark that delimits the value (`readNumeral_spell`).  What number a printer spells is a separate
question, so nothing here is about values.
-/

namespace HubLink.Json

open Text (byte IsRun)

/-! ## Behind a value -/

/-- What may stand behind a written value: nothing, a comma or a closing bracket. -/
def Delimited (rest : List UInt8) : Prop :=
  ∀ b ∈ rest.head?, b = byte ',' ∨ b = byte ']' ∨ b = byte '\x7d'

theorem delimited_comma (rest : List UInt8) : Delimited (byte ',' :: rest) := by
  intro b hb
  cases hb
  exact .inl rfl

theorem delimited_square (rest : List UInt8) : Delimited (byte ']' :: rest) := by
  intro b hb
  cases hb
  exact .inr (.inl rfl)

theorem delimited_curly (rest : List UInt8) : Delimited (byte '\x7d' :: rest) := by
  intro b hb
  cases hb
  exact .inr (.inr rfl)

/-- A delimiter does not continue a numeral. -/
theorem Delimited.stops {b : UInt8} {rest : List UInt8} (hrest : Delimited (b :: rest)) :
    Text.isDigit b = false ∧ b ≠ byte '.' ∧ b ≠ byte 'e' ∧ b ≠ byte 'E' := by
  obtain rfl | rfl | rfl := hrest b rfl <;> decide

/-! ## Spelling -/

namespace Numeral

/-- The point and the digits behind it. -/
def fractionText : Option (List UInt8) → List UInt8
  | none => []
  | some digits => byte '.' :: digits

/-- The exponent with its letter and its sign, a plus included. -/
def exponentText : Option (Bool × List UInt8) → List UInt8
  | none => []
  | some (negative, digits) => byte 'e' :: byte (if negative then '-' else '+') :: digits

/-- The text of a numeral. -/
def spell (numeral : Numeral) : List UInt8 :=
  (if numeral.negative then [byte '-'] else []) ++ numeral.whole ++
    fractionText numeral.fraction ++ exponentText numeral.exponent

/-- Every part has a digit, and the digits before the point do not lead with a zero. -/
structure WellSpelled (numeral : Numeral) : Prop where
  whole_run : IsRun numeral.whole
  no_leading_zero : ¬ (numeral.whole.head? = some (byte '0') ∧ 1 < numeral.whole.length)
  fraction_run : ∀ digits ∈ numeral.fraction, IsRun digits
  exponent_run : ∀ part ∈ numeral.exponent, IsRun part.2

end Numeral

/-! ## Reading -/

variable {atEnd : Fault} {rest : List UInt8}

theorem expectDigits_run {digits : List UInt8} (hdigits : IsRun digits)
    (hrest : ∀ b ∈ rest.head?, Text.isDigit b = false) :
    expectDigits atEnd (digits ++ rest) = .ok (digits, rest) := by
  unfold expectDigits
  rw [Text.span_digits hdigits.2 hrest]
  obtain ⟨d, more, rfl⟩ := List.exists_cons_of_ne_nil hdigits.1
  rfl

theorem readExponent_text {exponent : Option (Bool × List UInt8)}
    (hexponent : ∀ part ∈ exponent, IsRun part.2) (hrest : Delimited rest) :
    readExponent atEnd (Numeral.exponentText exponent ++ rest) = .ok (exponent, rest) := by
  have hstop : ∀ b ∈ rest.head?, Text.isDigit b = false := by
    intro b hb
    obtain ⟨more, rfl⟩ := List.head?_eq_some_iff.mp hb
    exact hrest.stops.1
  rcases exponent with _ | ⟨negative, digits⟩
  · rw [Numeral.exponentText, List.nil_append]
    cases rest with
    | nil => rfl
    | cons b rest =>
        obtain ⟨_, _, he, hE⟩ := hrest.stops
        rw [readExponent, if_neg (by rintro (rfl | rfl) <;> contradiction)]
  · have hsign : readExponentSign (byte (if negative then '-' else '+') :: (digits ++ rest)) =
        (negative, digits ++ rest) := by
      cases negative <;> rfl
    rw [Numeral.exponentText, List.cons_append, List.cons_append, readExponent, if_pos (.inl rfl),
      hsign]
    simp only [expectDigits_run (hexponent _ rfl) hstop]
    rfl

theorem readFraction_text {fraction : Option (List UInt8)}
    {exponent : Option (Bool × List UInt8)} (hfraction : ∀ digits ∈ fraction, IsRun digits)
    (hrest : Delimited rest) :
    readFraction atEnd (Numeral.fractionText fraction ++ (Numeral.exponentText exponent ++ rest)) =
      .ok (fraction, Numeral.exponentText exponent ++ rest) := by
  rcases fraction with _ | digits
  · rw [Numeral.fractionText, List.nil_append]
    rcases exponent with _ | ⟨negative, digits⟩
    · rw [Numeral.exponentText, List.nil_append]
      cases rest with
      | nil => rfl
      | cons b rest => rw [readFraction, if_neg hrest.stops.2.1]
    · rfl
  · have hstop : ∀ b ∈ (Numeral.exponentText exponent ++ rest).head?, Text.isDigit b = false := by
      rcases exponent with _ | ⟨negative, more⟩
      · intro b hb
        obtain ⟨more, rfl⟩ := List.head?_eq_some_iff.mp hb
        exact hrest.stops.1
      · intro b hb
        cases hb
        decide
    rw [Numeral.fractionText, List.cons_append, readFraction, if_pos rfl,
      expectDigits_run (hfraction _ rfl) hstop]
    rfl

theorem readUnsigned_parts {numeral : Numeral} (hspelled : numeral.WellSpelled)
    (hrest : Delimited rest) :
    readUnsigned atEnd numeral.negative
        (numeral.whole ++ (Numeral.fractionText numeral.fraction ++
          (Numeral.exponentText numeral.exponent ++ rest))) = .ok (numeral, rest) := by
  obtain ⟨negative, whole, fraction, exponent⟩ := numeral
  have hstop : ∀ b ∈ (Numeral.fractionText fraction ++
      (Numeral.exponentText exponent ++ rest)).head?, Text.isDigit b = false := by
    intro b hb
    rcases fraction with _ | digits
    · rcases exponent with _ | ⟨minus, digits⟩
      · obtain ⟨more, rfl⟩ := List.head?_eq_some_iff.mp hb
        exact hrest.stops.1
      · cases hb
        decide
    · cases hb
      decide
  have hwhole : readWhole atEnd (whole ++ (Numeral.fractionText fraction ++
      (Numeral.exponentText exponent ++ rest))) =
        .ok (whole, Numeral.fractionText fraction ++ (Numeral.exponentText exponent ++ rest)) := by
    simp only [readWhole, expectDigits_run hspelled.whole_run hstop]
    exact if_neg hspelled.no_leading_zero
  simp only [readUnsigned, hwhole, readFraction_text hspelled.fraction_run hrest,
    readExponent_text hspelled.exponent_run hrest, bind, Except.bind]

/-- **A well spelled numeral is read as it stands**, up to the mark that delimits it. -/
theorem readNumeral_spell {numeral : Numeral} (hspelled : numeral.WellSpelled)
    (hrest : Delimited rest) : readNumeral atEnd (numeral.spell ++ rest) = .ok (numeral, rest) := by
  have hunsigned := @readUnsigned_parts atEnd _ _ hspelled hrest
  rw [Numeral.spell, List.append_assoc, List.append_assoc, List.append_assoc]
  cases hnegative : numeral.negative with
  | true =>
      rw [hnegative] at hunsigned
      exact hunsigned
  | false =>
      rw [hnegative] at hunsigned
      obtain ⟨d, more, hwhole⟩ := List.exists_cons_of_ne_nil hspelled.whole_run.1
      have hdigit : Text.isDigit d = true := hspelled.whole_run.2 d (hwhole ▸ List.mem_cons_self)
      have hminus : d ≠ byte '-' := by
        rintro rfl
        exact absurd hdigit (by decide)
      rw [hwhole] at hunsigned ⊢
      simp only [Bool.false_eq_true, if_false, List.nil_append, List.cons_append] at hunsigned ⊢
      rw [readNumeral, if_neg hminus, hunsigned]

end HubLink.Json
