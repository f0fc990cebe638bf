import HubLink.Proofs.Text.Digits
import HubLink.Text.Whole
import Mathlib.Data.List.Induction

/-!
# Texts that stand for whole numbers

What people type as a number is digits of ASCII, perhaps behind a plus sign (`Spells`).  The sign
and zeros in front are the only freedom there is: apart from them a number is written by its own
digits (`spells_iff`).  So which texts are read as one particular number can be said without any
arithmetic.

A reader with a bound takes the spellings of the numbers below it (`natBelow?_eq_some_iff`), and
what it turns down has a mark that can be pointed at (`natBelow?_eq_none_iff`).
-/

namespace HubLink.Text

variable {bound n m : Nat} {c : Char} {digits chars : List Char} {text : String}

/-- A text spells a number: digits of ASCII with that value, perhaps behind a plus sign. -/
def Spells (chars : List Char) (n : Nat) : Prop :=
  ∃ digits, digits ≠ [] ∧ (∀ c ∈ digits, c.isDigit = true) ∧ Nat.ofDigitChars 10 digits 0 = n ∧
    (chars = digits ∨ chars = '+' :: digits)

/-! ## What the reader takes -/

theorem digitsNat?_eq_some_iff :
    digitsNat? digits = some n ↔
      digits ≠ [] ∧ (∀ c ∈ digits, c.isDigit = true) ∧ Nat.ofDigitChars 10 digits 0 = n := by
  simp [digitsNat?, and_assoc]

/-- A plus sign in front is all that is dropped. -/
theorem eq_or_eq_cons_dropPlus (chars : List Char) :
    chars = '+' :: dropPlus chars ∨ chars = dropPlus chars ∧ chars.head? ≠ some '+' := by
  unfold dropPlus
  split
  next rest => exact .inl rfl
  next hother =>
    refine .inr ⟨rfl, fun hhead => ?_⟩
    obtain ⟨rest, hrest⟩ := List.head?_eq_some_iff.mp hhead
    exact hother rest hrest

theorem dropPlus_eq_iff (hdigits : ∀ c ∈ digits, c.isDigit = true) :
    dropPlus chars = digits ↔ chars = digits ∨ chars = '+' :: digits := by
  constructor
  · rintro rfl
    rcases eq_or_eq_cons_dropPlus chars with hplus | ⟨hbare, -⟩
    · exact .inr hplus
    · exact .inl hbare
  · rintro (rfl | rfl)
    · rcases eq_or_eq_cons_dropPlus chars with hplus | ⟨hbare, -⟩
      · have hsign := hdigits '+' (hplus ▸ List.mem_cons_self)
        cases hsign
      · exact hbare.symm
    · rfl

theorem digitsNat?_dropPlus_eq_some_iff :
    digitsNat? (dropPlus chars) = some n ↔ Spells chars n := by
  rw [digitsNat?_eq_some_iff]
  constructor
  · rintro ⟨hne, hdigits, hvalue⟩
    exact ⟨_, hne, hdigits, hvalue, (dropPlus_eq_iff hdigits).mp rfl⟩
  · rintro ⟨digits, hne, hdigits, hvalue, hchars⟩
    rw [(dropPlus_eq_iff hdigits).mpr hchars]
    exact ⟨hne, hdigits, hvalue⟩

/-- A text spells one number at most. -/
theorem Spells.unique (hfirst : Spells chars n) (hsecond : Spells chars m) : n = m := by
  rw [← digitsNat?_dropPlus_eq_some_iff] at hfirst hsecond
  exact Option.some.inj (hfirst.symm.trans hsecond)

theorem natBelow?_eq_some_iff :
    natBelow? bound text = some n ↔ Spells text.toList n ∧ n < bound := by
  rw [natBelow?, Option.filter_eq_some_iff, digitsNat?_dropPlus_eq_some_iff, decide_eq_true_iff]

/-! ## Spellings of one number -/

theorem toDigits_digit (hdigit : c.isDigit = true) :
    Nat.toDigits 10 (c.toNat - '0'.toNat) = [c] := by
  have hall : ∀ k < 10, Nat.toDigits 10 k = [Char.ofNat (48 + k)] := by decide
  have hbounds := isDigit_bounds hdigit
  have hzero : '0'.toNat = 48 := rfl
  rw [hzero, hall (c.toNat - 48) (by omega), Nat.add_sub_cancel' hbounds.1, Char.ofNat_toNat]

/-- A run of digits is the digits of its value behind some zeros. -/
theorem exists_eq_zeros_append (hne : digits ≠ []) (hdigits : ∀ c ∈ digits, c.isDigit = true) :
    ∃ zeros, digits =
      List.replicate zeros '0' ++ Nat.toDigits 10 (Nat.ofDigitChars 10 digits 0) := by
  induction digits using List.reverseRecOn with
  | nil => exact absurd rfl hne
  | append_singleton front c ih =>
      have hfront : ∀ d ∈ front, d.isDigit = true := fun d hd =>
        hdigits d (List.mem_append_left _ hd)
      have hlast : c.isDigit = true := hdigits c (List.mem_append_right _ List.mem_cons_self)
      have hc := toDigits_digit hlast
      have hbounds := isDigit_bounds hlast
      have hzero : '0'.toNat = 48 := rfl
      rw [Nat.ofDigitChars_append, Nat.ofDigitChars_cons, Nat.ofDigitChars_nil]
      rcases eq_or_ne front [] with rfl | hsome
      · exact ⟨0, by rw [Nat.ofDigitChars_nil, Nat.mul_zero, Nat.zero_add, hc]; rfl⟩
      · obtain ⟨zeros, hzeros⟩ := ih hsome hfront
        rcases Nat.eq_zero_or_pos (Nat.ofDigitChars 10 front 0) with hvalue | hvalue
        -- A front without a value is zeros alone, and its own digit is one more of them.
        · rw [hvalue, Nat.toDigits_zero] at hzeros
          refine ⟨zeros + 1, ?_⟩
          rw [hvalue, Nat.mul_zero, Nat.zero_add, hc, hzeros, List.replicate_succ']
        · refine ⟨zeros, ?_⟩
          rw [← Nat.toDigits_append_toDigits (by decide) hvalue (by omega), hc,
            ← List.append_assoc, ← hzeros]

theorem ofDigitChars_zeros_append (zeros n : Nat) :
    Nat.ofDigitChars 10 (List.replicate zeros '0' ++ Nat.toDigits 10 n) 0 = n := by
  rw [Nat.ofDigitChars_append, Nat.ofDigitChars_replicate_zero, Nat.mul_zero,
    Nat.ofDigitChars_ten_toDigits]

theorem isDigit_of_mem_zeros_append {zeros : Nat}
    (hc : c ∈ List.replicate zeros '0' ++ Nat.toDigits 10 n) : c.isDigit = true := by
  rcases List.mem_append.mp hc with hzero | hdigit
  · rw [List.eq_of_mem_replicate hzero]
    rfl
  · exact isDigit_of_mem_digits hdigit

/-- A number is spelled by its own digits, perhaps with zeros and then a sign in front. -/
theorem spells_iff :
    Spells chars n ↔
      ∃ zeros, chars = List.replicate zeros '0' ++ Nat.toDigits 10 n ∨
        chars = '+' :: (List.replicate zeros '0' ++ Nat.toDigits 10 n) := by
  constructor
  · rintro ⟨digits, hne, hdigits, rfl, hchars⟩
    obtain ⟨zeros, hzeros⟩ := exists_eq_zeros_append hne hdigits
    exact ⟨zeros, hzeros ▸ hchars⟩
  · rintro ⟨zeros, hchars⟩
    exact ⟨_, List.append_ne_nil_of_right_ne_nil _ Nat.toDigits_ne_nil,
      fun _ => isDigit_of_mem_zeros_append, ofDigitChars_zeros_append zeros n, hchars⟩

/-! ## What the reader turns down -/

/-- A text that is no number below a bound, by what is wrong with it. -/
inductive Unreadable (bound : Nat) : List Char → Prop where
  /-- Nothing is written. -/
  | empty : Unreadable bound []
  /-- Nothing is written behind the sign. -/
  | sign : Unreadable bound ['+']
  /-- A character that is no digit of ASCII, be it a minus sign, a blank, or a digit of another
  script; a plus sign may stand at the front only. -/
  | foreign {front rest : List Char} {c : Char} (hdigit : c.isDigit = false)
      (hplace : front = [] → c ≠ '+') : Unreadable bound (front ++ c :: rest)
  /-- A number that is too large. -/
  | tooLarge {chars : List Char} {n : Nat} (hspells : Spells chars n) (hbound : bound ≤ n) :
      Unreadable bound chars

theorem Unreadable.not_spells (hunreadable : Unreadable bound chars) (hbelow : n < bound) :
    ¬ Spells chars n := by
  rintro ⟨digits, hne, hdigits, hvalue, hchars⟩
  cases hunreadable with
  | empty =>
      rcases hchars with rfl | hchars
      · exact hne rfl
      · cases hchars
  | sign =>
      rcases hchars with rfl | hchars
      · have hsign := hdigits '+' List.mem_cons_self
        cases hsign
      · exact hne (List.cons.inj hchars).2.symm
  | @foreign front rest c hdigit hplace =>
      have hmem : c ∉ digits := fun hc => by simp [hdigits c hc] at hdigit
      rcases hchars with rfl | hchars
      · exact hmem (List.mem_append_right _ List.mem_cons_self)
      · cases front with
        | nil => exact hplace rfl (List.cons.inj hchars).1
        | cons first front =>
            rw [List.cons_append] at hchars
            exact hmem ((List.cons.inj hchars).2 ▸ List.mem_append_right _ List.mem_cons_self)
  | tooLarge hspells hbound =>
      have hsame := hspells.unique ⟨digits, hne, hdigits, hvalue, hchars⟩
      omega

theorem natBelow?_eq_none_iff :
    natBelow? bound text = none ↔ Unreadable bound text.toList := by
  constructor
  · intro hnone
    generalize hchars : text.toList = chars
    by_cases hall : ∀ c ∈ dropPlus chars, c.isDigit = true
    · rcases eq_or_ne (dropPlus chars) [] with hnil | hne
      · rcases (dropPlus_eq_iff (List.forall_mem_nil _)).mp hnil with rfl | rfl
        · exact .empty
        · exact .sign
      · have hspells : Spells chars _ :=
          digitsNat?_dropPlus_eq_some_iff.mp (digitsNat?_eq_some_iff.mpr ⟨hne, hall, rfl⟩)
        refine .tooLarge hspells (Nat.not_lt.mp fun hlt => ?_)
        rw [natBelow?_eq_some_iff.mpr ⟨hchars ▸ hspells, hlt⟩] at hnone
        cases hnone
    · push Not at hall
      obtain ⟨c, hmem, hdigit⟩ := hall
      obtain ⟨front, rest, hsplit⟩ := List.append_of_mem hmem
      rcases eq_or_eq_cons_dropPlus chars with hplus | ⟨hbare, hhead⟩
      · rw [hplus, hsplit, ← List.cons_append]
        exact .foreign (Bool.eq_false_iff.mpr hdigit) fun hnil => by cases hnil
      · rw [hbare, hsplit] at hhead ⊢
        refine .foreign (Bool.eq_false_iff.mpr hdigit) ?_
        rintro rfl rfl
        exact hhead rfl
  · intro hunreadable
    rw [Option.eq_none_iff_forall_ne_some]
    intro n hread
    obtain ⟨hspells, hbelow⟩ := natBelow?_eq_some_iff.mp hread
    exact hunreadable.not_spells hbelow hspells

end HubLink.Text
