import HubLink.Text.Ascii
import Mathlib.Data.List.TakeDrop

/-!
# Runs of decimal digits

Readers and printers of numbers meet in runs of digits: a printer makes characters of a number, a
reader takes bytes while they are digits and gives them their value.  The value of a run is what the
core library gives to its characters (`digitsValue_ascii`), so a number is read back from its own
digits, and a reader stops exactly where the digits do (`span_digits`).
-/

namespace HubLink.Text

theorem toNat_byte {c : Char} (hascii : c.toNat < 256) : (byte c).toNat = c.toNat :=
  UInt8.toNat_ofNat_of_lt' hascii

theorem isDigit_bounds {c : Char} (hdigit : c.isDigit = true) : 48 ≤ c.toNat ∧ c.toNat ≤ 57 := by
  rw [Char.isDigit, Bool.and_eq_true, decide_eq_true_iff, decide_eq_true_iff] at hdigit
  exact hdigit

theorem isDigit_byte {c : Char} (hdigit : c.isDigit = true) : isDigit (byte c) = true := by
  have hbounds := isDigit_bounds hdigit
  have hvalue := toNat_byte (c := c) (by omega)
  rw [isDigit, Bool.and_eq_true, decide_eq_true_iff, decide_eq_true_iff, UInt8.le_iff_toNat_le,
    UInt8.le_iff_toNat_le, hvalue]
  exact hbounds

@[simp]
theorem ascii_append (first second : List Char) :
    ascii (first ++ second) = ascii first ++ ascii second :=
  List.map_append

@[simp]
theorem length_ascii (chars : List Char) : (ascii chars).length = chars.length :=
  List.length_map _

/-! ## Values -/

theorem digitsValue_ascii {digits : List Char} (hdigits : ∀ c ∈ digits, c.isDigit = true) :
    digitsValue (ascii digits) = Nat.ofDigitChars 10 digits 0 := by
  suffices hstart : ∀ start, (ascii digits).foldl (fun n d => 10 * n + (d.toNat - 48)) start =
      Nat.ofDigitChars 10 digits start from hstart 0
  induction digits with
  | nil => exact fun _ => rfl
  | cons c rest ih =>
      intro start
      have hbounds := isDigit_bounds (hdigits c List.mem_cons_self)
      have hvalue := toNat_byte (c := c) (by omega)
      rw [Nat.ofDigitChars_cons, ← ih fun c hc => hdigits c (List.mem_cons_of_mem _ hc), ascii,
        List.map_cons, List.foldl_cons, hvalue]
      rfl

theorem isDigit_of_mem_digits {n : Nat} {c : Char} (hc : c ∈ Nat.toDigits 10 n) :
    c.isDigit = true :=
  Nat.isDigit_of_mem_toDigits (by decide) (Nat.le_refl 10) hc

/-- A number is the value of its digits. -/
@[simp]
theorem digitsValue_decimal (n : Nat) : digitsValue (decimal n) = n := by
  rw [decimal, digitsValue_ascii fun _ => isDigit_of_mem_digits, Nat.ofDigitChars_ten_toDigits]

/-- The digits of a number above zero do not start with a zero. -/
theorem head_digits_ne_zero {n : Nat} (hpositive : 0 < n) :
    (Nat.toDigits 10 n).head? ≠ some '0' := by
  induction n using Nat.strongRecOn with
  | ind n ih =>
      by_cases hsmall : n < 10
      · rw [Nat.toDigits_of_lt_base hsmall, List.head?_cons]
        intro hzero
        rw [Option.some.injEq, Nat.digitChar_eq_zero] at hzero
        omega
      · rw [Nat.toDigits_of_base_le (by decide) (by omega),
          List.head?_append, List.head?_eq_some_head Nat.toDigits_ne_nil, Option.some_or,
          ← List.head?_eq_some_head]
        exact ih (n / 10) (by omega) (by omega)

/-! ## Runs -/

/-- A run of at least one digit. -/
def IsRun (digits : List UInt8) : Prop :=
  digits ≠ [] ∧ ∀ d ∈ digits, isDigit d = true

theorem isRun_ascii {digits : List Char} (hne : digits ≠ [])
    (hdigits : ∀ c ∈ digits, c.isDigit = true) : IsRun (ascii digits) := by
  refine ⟨fun hnil => hne (List.map_eq_nil_iff.mp hnil), fun d hd => ?_⟩
  obtain ⟨c, hc, rfl⟩ := List.mem_map.mp hd
  exact isDigit_byte (hdigits c hc)

theorem isRun_decimal (n : Nat) : IsRun (decimal n) :=
  isRun_ascii Nat.toDigits_ne_nil fun _ => isDigit_of_mem_digits

/-- A reader of digits takes a whole run and nothing more. -/
theorem span_digits {digits rest : List UInt8} (hdigits : ∀ d ∈ digits, isDigit d = true)
    (hrest : ∀ b ∈ rest.head?, isDigit b = false) :
    (digits ++ rest).span isDigit = (digits, rest) := by
  have hstop : rest.takeWhile isDigit = [] ∧ rest.dropWhile isDigit = rest := by
    cases rest with
    | nil => exact ⟨rfl, rfl⟩
    | cons b rest => simp [hrest b rfl]
  rw [List.span_eq_takeWhile_dropWhile, List.takeWhile_append_of_pos hdigits,
    List.dropWhile_append_of_pos hdigits, hstop.1, hstop.2, List.append_nil]

end HubLink.Text
