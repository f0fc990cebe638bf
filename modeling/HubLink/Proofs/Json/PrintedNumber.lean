import HubLink.Json.Reader
import HubLink.Json.Printer
import HubLink.Proofs.Binary.Widening
import HubLink.Proofs.Decimal.ReadBack
import HubLink.Proofs.Json.Numeral

/-!
# Printed numbers are read back

A whole number is spelled by its digits.  A binary number is spelled by the digits of its shortest
decimal, and only the place of the point varies: a positional number may pad the digits with zeros,
a scientific one moves the point into the exponent.  In each case the numeral denotes the shortest
decimal up to trailing zeros (`Spells`), and that decimal reads back to the number.
-/

namespace HubLink.Json

open Text (byte ascii IsRun)
open Decimal (Scaled)

/-! ## Digits that do not lead with a zero -/

theorem byte_eq_zero {c : Char} (hdigit : c.isDigit = true) (hzero : byte c = byte '0') :
    c = '0' := by
  have hbounds := Text.isDigit_bounds hdigit
  have hvalue : (byte c).toNat = c.toNat := Text.toNat_byte (by omega)
  rw [hzero] at hvalue
  exact Char.toNat_inj.mp hvalue.symm

theorem head_ascii_ne_zero {digits : List Char} (hdigits : ∀ c ∈ digits, c.isDigit = true)
    (hhead : digits.head? ≠ some '0') : (ascii digits).head? ≠ some (byte '0') := by
  cases digits with
  | nil => exact (Option.some_ne_none _).symm
  | cons c rest =>
      intro hzero
      rw [ascii, List.map_cons, List.head?_cons, Option.some.injEq] at hzero
      exact hhead (congrArg some (byte_eq_zero (hdigits c List.mem_cons_self) hzero))

theorem decimal_no_leading_zero (n : Nat) :
    ¬ ((Text.decimal n).head? = some (byte '0') ∧ 1 < (Text.decimal n).length) := by
  rintro ⟨hhead, hlength⟩
  rcases Nat.eq_zero_or_pos n with rfl | hpositive
  · exact absurd hlength (by decide)
  · exact head_ascii_ne_zero (fun _ => Text.isDigit_of_mem_digits)
      (Text.head_digits_ne_zero hpositive) hhead

/-! ## Whole numbers -/

/-- The numeral that a whole number is printed as. -/
def Numeral.ofInt (n : Int) : Numeral :=
  ⟨decide (n < 0), Text.decimal n.natAbs, none, none⟩

theorem spell_ofInt (n : Int) : (Numeral.ofInt n).spell = Text.decimalInt n := by
  unfold Numeral.spell Numeral.ofInt Text.decimalInt
  by_cases hnegative : n < 0 <;> simp [hnegative, Numeral.fractionText, Numeral.exponentText]

theorem wellSpelled_ofInt (n : Int) : (Numeral.ofInt n).WellSpelled where
  whole_run := Text.isRun_decimal _
  no_leading_zero := decimal_no_leading_zero _
  fraction_run _ hrun := by cases hrun
  exponent_run _ hrun := by cases hrun

/-- A whole number within 64 bits is kept exactly. -/
theorem toJson_ofInt {n : Int} (hwhole : IsWhole n) :
    (Numeral.ofInt n).toJson = .ok (.integer n) := by
  obtain ⟨hleast, hmost⟩ := hwhole
  have hkept : (Numeral.ofInt n).whole? = some n := by
    simp only [Numeral.whole?, Numeral.ofInt, Numeral.isWhole, Text.digitsValue_decimal,
      decide_eq_true_eq, Option.isNone_none, Bool.and_self, if_true]
    split
    · rw [if_pos (by omega)]
      exact congrArg some (by omega)
    · rw [if_pos (by omega)]
      exact congrArg some (by omega)
  rw [Numeral.toJson, hkept]

/-! ## Binary numbers -/

/-- With or without a minus sign, the characters spell a numeral that is not whole and that rounds
like the decimal in every format. -/
def Spells (chars : List Char) (decimal : Scaled) : Prop :=
  ∀ negative : Bool, ∃ numeral : Numeral,
    ascii ((if negative then ['-'] else []) ++ chars) = numeral.spell ∧ numeral.WellSpelled ∧
      numeral.isWhole = false ∧ numeral.negative = negative ∧
      ∀ format, numeral.decimal.nearest format = decimal.nearest format

/-- A point between two runs of digits.  `padding` zeros were added to the digits of the decimal. -/
theorem spells_point {whole fraction : List Char} {decimal : Scaled} {padding : Nat}
    (hwhole : ∀ c ∈ whole, c.isDigit = true) (hfraction : ∀ c ∈ fraction, c.isDigit = true)
    (hwholeNe : whole ≠ []) (hfractionNe : fraction ≠ [])
    (hleading : whole.head? ≠ some '0' ∨ whole.length = 1)
    (hdigits : Nat.ofDigitChars 10 (whole ++ fraction) 0 = decimal.digits * 10 ^ padding)
    (hexponent : decimal.exponent - padding = -(fraction.length : Int)) :
    Spells (whole ++ '.' :: fraction) decimal := by
  intro negative
  refine ⟨⟨negative, ascii whole, some (ascii fraction), none⟩, ?_, ?_, rfl, rfl, ?_⟩
  · cases negative <;>
      simp [Numeral.spell, Numeral.fractionText, Numeral.exponentText, ascii]
  · refine ⟨Text.isRun_ascii hwholeNe hwhole, ?_, ?_, ?_⟩
    · rintro ⟨hhead, hlength⟩
      rw [Text.length_ascii] at hlength
      rcases hleading with hleading | hleading
      · exact head_ascii_ne_zero hwhole hleading hhead
      · omega
    · rintro _ ⟨⟩
      exact Text.isRun_ascii hfractionNe hfraction
    · intro _ hrun
      cases hrun
  · intro format
    have hboth : ∀ c ∈ whole ++ fraction, c.isDigit = true := fun c hc =>
      (List.mem_append.mp hc).elim (hwhole c) (hfraction c)
    simp only [Numeral.decimal, Numeral.power, Option.getD_some, ← Text.ascii_append,
      Text.digitsValue_ascii hboth, Text.length_ascii, hdigits, Int.zero_sub, ← hexponent]
    exact Scaled.nearest_scale decimal.digits padding decimal.exponent

theorem isDigit_of_mem_zeros (count : Nat) : ∀ c ∈ List.replicate count '0', c.isDigit = true := by
  intro c hc
  rw [List.eq_of_mem_replicate hc]
  rfl

theorem spells_zero : Spells ['0', '.', '0'] ⟨0, 0⟩ :=
  @spells_point ['0'] ['0'] ⟨0, 0⟩ 1 (isDigit_of_mem_zeros 1) (isDigit_of_mem_zeros 1) (by decide)
    (by decide) (.inr rfl) rfl rfl

section Digits

variable {digits : List Char} {decimal : Scaled}

/-- Digits with the point at some place spell their decimal. -/
theorem spells_positional (hdigits : ∀ c ∈ digits, c.isDigit = true) (hne : digits ≠ [])
    (hhead : digits.head? ≠ some '0') (hvalue : Nat.ofDigitChars 10 digits 0 = decimal.digits) :
    Spells (Decimal.positional digits (decimal.exponent + (digits.length - 1 : Nat))) decimal := by
  have hlength := List.length_pos_iff.mpr hne
  unfold Decimal.positional
  split
  next zeros hplace =>
    -- the point stands before all digits
    have hfraction : ∀ c ∈ List.replicate zeros '0' ++ digits, c.isDigit = true := fun c hc =>
      (List.mem_append.mp hc).elim (isDigit_of_mem_zeros zeros c) (hdigits c)
    refine @spells_point ['0'] (List.replicate zeros '0' ++ digits) decimal 0
      (isDigit_of_mem_zeros 1) hfraction (by decide) (by simp [hne]) (.inr rfl) ?_ ?_
    · rw [List.singleton_append, ← List.cons_append, ← List.replicate_succ, Nat.ofDigitChars_append,
        Nat.ofDigitChars_replicate_zero, Nat.mul_zero, hvalue, Nat.pow_zero, Nat.mul_one]
    · rw [List.length_append, List.length_replicate]
      omega
  next before hplace =>
    rw [Int.ofNat_eq_natCast] at hplace
    have hpadded : (digits.take (before + 1) ++
        List.replicate (before + 1 - digits.length) '0').head? ≠ some '0' := by
      obtain ⟨c, rest, rfl⟩ := List.exists_cons_of_ne_nil hne
      exact hhead
    have hwhole : ∀ c ∈ digits.take (before + 1) ++
        List.replicate (before + 1 - digits.length) '0', c.isDigit = true := fun c hc =>
      (List.mem_append.mp hc).elim (fun hc => hdigits c (List.mem_of_mem_take hc))
        (isDigit_of_mem_zeros _ c)
    have hwholeNe : digits.take (before + 1) ++
        List.replicate (before + 1 - digits.length) '0' ≠ [] := by
      obtain ⟨c, rest, rfl⟩ := List.exists_cons_of_ne_nil hne
      exact List.cons_ne_nil _ _
    by_cases hshort : digits.length ≤ before + 1
    · -- the point stands behind all digits
      simp only [List.drop_eq_nil_of_le hshort, List.isEmpty_nil, if_true]
      refine @spells_point _ _ decimal (before + 1 - digits.length + 1) hwhole
        (isDigit_of_mem_zeros 1) hwholeNe (by decide) (.inl hpadded) ?_ ?_
      · rw [List.take_of_length_le hshort, List.append_assoc, ← List.replicate_one,
          List.replicate_append_replicate, Nat.ofDigitChars_append,
          Nat.ofDigitChars_replicate_zero, hvalue, Nat.mul_comm]
      · rw [List.length_singleton]
        omega
    · -- the point stands between two digits
      have hfractionNe : digits.drop (before + 1) ≠ [] := by
        rw [Ne, List.drop_eq_nil_iff]
        exact hshort
      simp only [List.isEmpty_iff, if_neg hfractionNe]
      refine @spells_point _ _ decimal 0 hwhole (fun c hc => hdigits c (List.mem_of_mem_drop hc))
        hwholeNe hfractionNe (.inl hpadded) ?_ ?_
      · rw [show before + 1 - digits.length = 0 by omega, List.replicate_zero, List.append_nil,
          List.take_append_drop, hvalue, Nat.pow_zero, Nat.mul_one]
      · rw [List.length_drop]
        omega

/-- Digits with an exponent spell their decimal. -/
theorem spells_scientific (hdigits : ∀ c ∈ digits, c.isDigit = true) (hne : digits ≠ [])
    (hvalue : Nat.ofDigitChars 10 digits 0 = decimal.digits) :
    Spells (Decimal.scientific digits (decimal.exponent + (digits.length - 1 : Nat))) decimal := by
  intro negative
  obtain ⟨c, fraction, rfl⟩ := List.exists_cons_of_ne_nil hne
  set place := decimal.exponent + ((c :: fraction).length - 1 : Nat) with hplace
  have hfraction : ∀ c ∈ fraction, c.isDigit = true := fun c hc =>
    hdigits c (List.mem_cons_of_mem _ hc)
  have hlength : place - fraction.length = decimal.exponent := by
    rw [hplace, List.length_cons]
    omega
  have hpower :
      (if decide (place < 0) = true then -(place.natAbs : Int) else place.natAbs) = place := by
    simp only [decide_eq_true_eq]
    omega
  refine ⟨⟨negative, ascii [c], if fraction.isEmpty then none else some (ascii fraction),
    some (decide (place < 0), Text.decimal place.natAbs)⟩, ?_, ?_, ?_, rfl, ?_⟩
  · cases negative <;> cases fraction <;>
      simp [Numeral.spell, Numeral.fractionText, Numeral.exponentText, Decimal.scientific,
        Decimal.signed, ascii, Text.decimal, apply_ite]
  · refine ⟨Text.isRun_ascii (List.cons_ne_nil _ _) ?_, ?_, ?_, ?_⟩
    · exact fun d hd => hdigits d (by rw [List.mem_singleton.mp hd]; exact List.mem_cons_self)
    · exact fun hboth => absurd hboth.2 (by simp)
    · intro run hrun
      cases fraction with
      | nil => cases hrun
      | cons d more =>
          cases hrun
          exact Text.isRun_ascii (List.cons_ne_nil _ _) hfraction
    · rintro _ ⟨⟩
      exact Text.isRun_decimal _
  · rw [Numeral.isWhole, Option.isNone_some, Bool.and_false]
  · intro format
    have hparts : (if fraction.isEmpty then none else some (ascii fraction)).getD [] =
        ascii fraction := by
      cases fraction <;> rfl
    simp only [Numeral.decimal, Numeral.power, hparts, ← Text.ascii_append, List.singleton_append,
      Text.digitsValue_ascii hdigits, hvalue, Text.length_ascii, Text.digitsValue_decimal, hpower,
      hlength]

end Digits

/-- A decimal above zero is spelled by what is written for it. -/
theorem spells_write (convention : Decimal.Convention) {decimal : Scaled}
    (hpositive : 0 < decimal.digits) : Spells (convention.write decimal) decimal := by
  have hvalue : Nat.ofDigitChars 10 (Nat.toDigits 10 decimal.digits) 0 = decimal.digits :=
    Nat.ofDigitChars_ten_toDigits
  simp only [Decimal.Convention.write]
  split
  · exact spells_positional (fun _ => Text.isDigit_of_mem_digits) Nat.toDigits_ne_nil
      (Text.head_digits_ne_zero hpositive) hvalue
  · exact spells_scientific (fun _ => Text.isDigit_of_mem_digits) Nat.toDigits_ne_nil hvalue

/-- The text of a finite magnitude is a numeral that rounds to it. -/
theorem exists_numeral_text {format : Binary.Format} (convention : Decimal.Convention)
    (negative : Bool) {magnitude : Nat} (hfinite : magnitude < format.infinity) :
    ∃ numeral : Numeral,
      ascii (Binary.text format convention negative magnitude) = numeral.spell ∧
        numeral.WellSpelled ∧ numeral.isWhole = false ∧ numeral.negative = negative ∧
        numeral.decimal.nearest format = magnitude := by
  simp only [Binary.text]
  by_cases hzero : magnitude = 0
  · rw [if_pos hzero]
    obtain ⟨numeral, htext, hspelled, hwhole, hnegative, hnearest⟩ := spells_zero negative
    refine ⟨numeral, htext, hspelled, hwhole, hnegative, ?_⟩
    rw [hnearest, hzero]
    rfl
  · rw [if_neg hzero]
    have hpositive := Decimal.digits_shortest_pos (Nat.pos_of_ne_zero hzero) hfinite
    obtain ⟨numeral, htext, hspelled, hwhole, hnegative, hnearest⟩ :=
      spells_write convention hpositive negative
    refine ⟨numeral, htext, hspelled, hwhole, hnegative, ?_⟩
    rw [hnearest]
    exact Decimal.nearest_shortest hfinite

/-- **A finite number is read back bit for bit from its text.** -/
theorem exists_numeral_double {number : Double} (hfinite : number.isFinite = true) :
    ∃ numeral : Numeral, ascii number.text = numeral.spell ∧ numeral.WellSpelled ∧
      numeral.toJson = .ok (.real number) := by
  obtain ⟨numeral, htext, hspelled, hwhole, hnegative, hnearest⟩ :=
    exists_numeral_text Double.convention number.negative (decide_eq_true_iff.mp hfinite)
  refine ⟨numeral, htext, hspelled, ?_⟩
  have hnumber : Double.ofDecimal numeral.negative numeral.decimal = number := by
    rw [Double.ofDecimal, hnearest, hnegative, Double.ofMagnitude_self]
  have hnone : numeral.whole? = none := by
    simp only [Numeral.whole?, hwhole, Bool.false_eq_true, if_false]
  rw [Numeral.toJson, hnone]
  simp only [Numeral.toDouble, hnumber, hfinite, if_true, Except.map]

/-- A finite short number is read back bit for bit from its text. -/
theorem exists_numeral_single {number : Single} (hfinite : number.isFinite = true) :
    ∃ numeral : Numeral, ascii number.text = numeral.spell ∧ numeral.WellSpelled ∧
      numeral.toSingle = .ok number := by
  obtain ⟨numeral, htext, hspelled, hwhole, hnegative, hnearest⟩ :=
    exists_numeral_text Single.convention number.negative (decide_eq_true_iff.mp hfinite)
  refine ⟨numeral, htext, hspelled, ?_⟩
  have hnumber : Single.ofDecimal numeral.negative numeral.decimal = number := by
    rw [Single.ofDecimal, hnearest, hnegative, Single.ofMagnitude_self]
  -- the detour over a long number is for whole numerals alone
  simp only [Numeral.toSingle, hwhole, Bool.false_eq_true, false_and, if_false, hnumber, hfinite,
    if_true]

end HubLink.Json
