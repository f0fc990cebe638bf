import HubLink.Proofs.Json.Grammar
import HubLink.Proofs.Json.Printed

/-!
# Readers stop where the grammar does

Every reader of JSON text works on what is left of it, and the grammar says where a part of it ends.
Blanks, marks and closing brackets are told by their first byte.  A numeral has no such end of its
own, but what may follow a value does not continue it (`Bounded.stops`); so a numeral is read as far
as it goes and no further (`exists_readNumeral`).
-/

namespace HubLink.Json

open Text (byte)

variable {rest text : List UInt8}

/-! ## Between values -/

theorem skipBlanks_append {blanks : List UInt8} (hblanks : IsBlanks blanks) :
    skipBlanks (blanks ++ text) = skipBlanks text :=
  List.dropWhile_append_of_pos hblanks

/-- Behind blanks the text starts with the first byte that is none. -/
theorem skipBlanks_blanks {blanks : List UInt8} (hblanks : IsBlanks blanks) {b : UInt8}
    (hblank : isBlank b = false) : skipBlanks (blanks ++ b :: text) = b :: text :=
  (skipBlanks_append hblanks).trans (skipBlanks_cons hblank)

theorem isBlanks_nil : IsBlanks [] :=
  List.forall_mem_nil _

theorem expectMark_blanks {blanks : List UInt8} (hblanks : IsBlanks blanks) (mark : Char)
    (hmark : isBlank (byte mark) = false) (rest : List UInt8) :
    expectMark mark (blanks ++ byte mark :: rest) = .ok rest := by
  simp only [expectMark, skipBlanks_blanks hblanks hmark, if_true]

theorem Bracket.isBlank_closing (bracket : Bracket) : isBlank (byte bracket.closing) = false := by
  cases bracket <;> decide

theorem Bracket.closing_ne_comma (bracket : Bracket) : byte ',' ≠ byte bracket.closing := by
  cases bracket <;> decide

theorem nextEntry_blanks_closing (bracket : Bracket) (first : Bool) {blanks : List UInt8}
    (hblanks : IsBlanks blanks) (rest : List UInt8) :
    nextEntry bracket.closing first (blanks ++ byte bracket.closing :: rest) =
      .ok (.closed rest) := by
  simp only [nextEntry, skipBlanks_blanks hblanks bracket.isBlank_closing, if_true]

/-- An entry is found behind its lead; blanks may be left before it. -/
theorem exists_nextEntry_lead (bracket : Bracket) {first : Bool} {lead : List UInt8}
    (hlead : IsLead first lead) {b : UInt8} (hblank : isBlank b = false)
    (hclosing : b ≠ byte bracket.closing) :
    ∃ blanks, IsBlanks blanks ∧ nextEntry bracket.closing first (lead ++ b :: text) =
      .ok (.entry (blanks ++ b :: text)) := by
  cases hlead with
  | first hblanks =>
      refine ⟨[], isBlanks_nil, ?_⟩
      simp only [nextEntry, skipBlanks_blanks hblanks hblank, if_neg hclosing, if_true,
        List.nil_append]
  | @next before behind hbefore hbehind =>
      have hcomma : isBlank (byte ',') = false := by decide
      refine ⟨behind, hbehind, ?_⟩
      rw [List.append_assoc, List.cons_append]
      simp only [nextEntry, skipBlanks_blanks hbefore hcomma, if_neg bracket.closing_ne_comma,
        Bool.false_eq_true, if_false, if_true]

/-! ## What follows a value -/

theorem bounded_nil : Bounded [] := by
  intro b hb
  cases hb

theorem bounded_blanks_append {blanks : List UInt8} (hblanks : IsBlanks blanks)
    (hrest : Bounded rest) : Bounded (blanks ++ rest) := by
  cases blanks with
  | nil => exact hrest
  | cons b more =>
      rintro _ ⟨⟩
      exact .inl (hblanks b List.mem_cons_self)

theorem bounded_lead {lead : List UInt8} (hlead : IsLead false lead) : Bounded (lead ++ text) := by
  cases hlead with
  | @next before behind hbefore hbehind =>
      rw [List.append_assoc]
      apply bounded_blanks_append hbefore
      rintro _ ⟨⟩
      exact .inr (.inl rfl)

/-- What is left of an array or object behind an entry does not continue the entry. -/
theorem bounded_rest {bracket : Bracket}
    (htext : Grammatical (.rest bracket false) text) : Bounded (text ++ rest) := by
  cases htext with
  | closed _ _ hblanks =>
      rw [List.append_assoc]
      apply bounded_blanks_append hblanks
      rintro _ ⟨⟩
      cases bracket with
      | square => exact .inr (.inr (.inl rfl))
      | curly => exact .inr (.inr (.inr rfl))
  | item hlead =>
      rw [List.append_assoc]
      exact bounded_lead hlead
  | member hlead =>
      rw [List.append_assoc]
      exact bounded_lead hlead

/-- No byte behind a value continues a numeral. -/
theorem Bounded.stops {b : UInt8} (hrest : Bounded (b :: rest)) :
    Text.isDigit b = false ∧ b ≠ byte '.' ∧ b ≠ byte 'e' ∧ b ≠ byte 'E' := by
  have hblanks : ∀ b : UInt8, isBlank b = true →
      b = 32 ∨ b = 9 ∨ b = 10 ∨ b = 13 := by
    intro b hblank
    simpa [isBlank, or_assoc] using hblank
  rcases hrest b rfl with hblank | rfl | rfl | rfl
  · rcases hblanks b hblank with rfl | rfl | rfl | rfl <;> decide
  · decide
  · decide
  · decide

/-! ## Numerals -/

variable {atEnd : Fault}

/-- The text does not start with a digit. -/
def NoDigit (text : List UInt8) : Prop :=
  ∀ b ∈ text.head?, Text.isDigit b = false

theorem Bounded.noDigit (hrest : Bounded rest) : NoDigit rest := by
  intro b hb
  obtain ⟨more, rfl⟩ := List.head?_eq_some_iff.mp hb
  exact hrest.stops.1

theorem noDigit_cons {b : UInt8} (hb : Text.isDigit b = false) : NoDigit (b :: text) := by
  rintro _ ⟨⟩
  exact hb

/-- A digit is no sign and no mark. -/
theorem digit_ne {d other : UInt8} (hdigit : Text.isDigit d = true)
    (hother : Text.isDigit other = false) : d ≠ other := by
  rintro rfl
  rw [hdigit] at hother
  cases hother

theorem exists_readExponent {exponent : List UInt8} (hexponent : IsExponent exponent) :
    ∃ value, ∀ {atEnd rest}, Bounded rest →
      readExponent atEnd (exponent ++ rest) = .ok (value, rest) := by
  cases hexponent with
  | absent =>
      refine ⟨none, fun {atEnd rest} hrest => ?_⟩
      rw [List.nil_append]
      cases rest with
      | nil => rfl
      | cons b rest =>
          obtain ⟨_, _, he, hE⟩ := hrest.stops
          rw [readExponent, if_neg (not_or.mpr ⟨he, hE⟩)]
  | @present letter sign digits hletter hsign hdigits =>
      have hread : ∃ negative, ∀ {rest}, readExponentSign (sign ++ digits ++ rest) =
          (negative, digits ++ rest) := by
        rcases hsign with rfl | rfl | rfl
        · obtain ⟨d, more, rfl⟩ := List.exists_cons_of_ne_nil hdigits.1
          have hdigit := hdigits.2 d List.mem_cons_self
          have hminus : d ≠ byte '-' := digit_ne hdigit (by decide)
          have hplus : d ≠ byte '+' := digit_ne hdigit (by decide)
          refine ⟨false, fun {rest} => ?_⟩
          rw [List.nil_append, List.cons_append, readExponentSign, if_neg hminus, if_neg hplus]
        · exact ⟨false, rfl⟩
        · exact ⟨true, rfl⟩
      obtain ⟨negative, hread⟩ := hread
      refine ⟨some (negative, digits), fun {atEnd rest} hrest => ?_⟩
      rw [List.cons_append, readExponent, if_pos hletter, hread]
      simp only [expectDigits_run hdigits hrest.noDigit, bind, Except.bind]

theorem IsExponent.noDigit {exponent : List UInt8} (hexponent : IsExponent exponent)
    (hrest : Bounded rest) : NoDigit (exponent ++ rest) := by
  cases hexponent with
  | absent => exact hrest.noDigit
  | present hletter =>
      apply noDigit_cons
      rcases hletter with rfl | rfl <;> decide

theorem exists_readFraction {fraction exponent : List UInt8} (hfraction : IsFraction fraction)
    (hexponent : IsExponent exponent) :
    ∃ value, ∀ {atEnd rest}, Bounded rest →
      readFraction atEnd (fraction ++ (exponent ++ rest)) = .ok (value, exponent ++ rest) := by
  cases hfraction with
  | absent =>
      refine ⟨none, fun {atEnd rest} hrest => ?_⟩
      rw [List.nil_append]
      cases hexponent with
      | absent =>
          cases rest with
          | nil => rfl
          | cons b rest => exact if_neg hrest.stops.2.1
      | present hletter =>
          refine if_neg ?_
          rcases hletter with rfl | rfl <;> decide
  | @present digits hdigits =>
      refine ⟨some digits, fun {atEnd rest} hrest => ?_⟩
      rw [List.cons_append, readFraction, if_pos rfl]
      simp only [expectDigits_run hdigits (hexponent.noDigit hrest), bind, Except.bind]

theorem IsFraction.noDigit {fraction exponent : List UInt8} (hfraction : IsFraction fraction)
    (hexponent : IsExponent exponent) (hrest : Bounded rest) :
    NoDigit (fraction ++ (exponent ++ rest)) := by
  cases hfraction with
  | absent => exact hexponent.noDigit hrest
  | present => exact noDigit_cons (by decide)

/-- A numeral starts with a minus or a digit. -/
theorem IsNumeral.exists_head (hnumeral : IsNumeral text) :
    ∃ b more, text = b :: more ∧ (b = byte '-' ∨ Text.isDigit b = true) := by
  cases hnumeral with
  | @mk sign whole fraction exponent hsign hwhole =>
      rcases hsign with rfl | rfl
      · obtain ⟨d, more, rfl⟩ := List.exists_cons_of_ne_nil hwhole.1
        exact ⟨d, _, rfl, .inr (hwhole.2 d List.mem_cons_self)⟩
      · exact ⟨byte '-', _, rfl, .inl rfl⟩

/-- **A numeral is read as far as it goes**, to the same parts wherever it stands. -/
theorem exists_readNumeral (hnumeral : IsNumeral text) :
    ∃ numeral, ∀ atEnd {rest}, Bounded rest →
      readNumeral atEnd (text ++ rest) = .ok (numeral, rest) := by
  cases hnumeral with
  | @mk sign whole fraction exponent hsign hwhole hzero hfraction hexponent =>
      obtain ⟨behindPoint, hreadFraction⟩ := exists_readFraction hfraction hexponent
      obtain ⟨power, hreadExponent⟩ := exists_readExponent hexponent
      have hunsigned : ∀ negative atEnd {rest}, Bounded rest →
          readUnsigned atEnd negative (whole ++ (fraction ++ (exponent ++ rest))) =
            .ok (⟨negative, whole, behindPoint, power⟩, rest) := by
        intro negative atEnd rest hrest
        have hread : readWhole atEnd (whole ++ (fraction ++ (exponent ++ rest))) =
            .ok (whole, fraction ++ (exponent ++ rest)) := by
          simp only [readWhole, bind, Except.bind,
            expectDigits_run hwhole (hfraction.noDigit hexponent hrest)]
          refine if_neg fun hlead => ?_
          have hone := hzero hlead.1
          omega
        simp only [readUnsigned, hread, hreadFraction hrest, hreadExponent hrest, bind, Except.bind]
      rcases hsign with rfl | rfl
      · obtain ⟨d, more, rfl⟩ := List.exists_cons_of_ne_nil hwhole.1
        have hdigit := hwhole.2 d List.mem_cons_self
        have hminus : d ≠ byte '-' := digit_ne hdigit (by decide)
        refine ⟨⟨false, d :: more, behindPoint, power⟩, fun atEnd {rest} hrest => ?_⟩
        have hread := hunsigned false atEnd hrest
        simp only [List.nil_append, List.append_assoc, List.cons_append] at hread ⊢
        rw [readNumeral, if_neg hminus, hread]
      · refine ⟨⟨true, whole, behindPoint, power⟩, fun atEnd {rest} hrest => ?_⟩
        have hread := hunsigned true atEnd hrest
        simp only [List.append_assoc, List.cons_append, List.nil_append] at hread ⊢
        rw [readNumeral, if_pos rfl, hread]

end HubLink.Json
