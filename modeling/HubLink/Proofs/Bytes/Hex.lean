import HubLink.Proofs.Text.Plain
import HubLink.Bytes.Hex
import HubLink.Text.Trim

/-!
# Hexadecimal text is read back

What is shown as hexadecimal digits is read as the bytes that were shown (`decode?_encode`).  A
digit stands for its number, and a byte is its upper half and its lower half.  Digits are no white
space, so a reader that trims its text loses none (`trim_encode`).

A digit is read in either case, and nothing else is: the characters with a value are those whose
lower case is a digit that is written (`value?_eq_some_iff`).
-/

namespace HubLink.Text

/-- A text without white space has none around it. -/
theorem trim_eq_self {text : String} (htext : ∀ c ∈ text.toList, isWhiteSpace c = false) :
    trim text = text := by
  have hkept : ∀ {chars : List Char}, (∀ c ∈ chars, isWhiteSpace c = false) →
      chars.dropWhile isWhiteSpace = chars := by
    intro chars hchars
    cases chars with
    | nil => rfl
    | cons c rest => exact List.dropWhile_cons_of_neg (by simp [hchars c List.mem_cons_self])
  have hreversed : ∀ c ∈ text.toList.reverse, isWhiteSpace c = false := fun c hc =>
    htext c (List.mem_reverse.mp hc)
  simp only [trim]
  rw [hkept htext, hkept hreversed, List.reverse_reverse, String.ofList_toList]

end HubLink.Text

namespace HubLink.Hex

theorem value?_digit {n : Nat} (hn : n < 16) : value? (digit n) = some n := by
  have hall : ∀ n < 16, value? (digit n) = some n := by decide +kernel
  exact hall n hn

theorem value?_high (byte : UInt8) : value? (digit (byte.toNat / 16)) = some (byte.toNat / 16) := by
  have hbyte := byte.toNat_lt
  exact value?_digit (by omega)

theorem value?_low (byte : UInt8) : value? (digit (byte.toNat % 16)) = some (byte.toNat % 16) :=
  value?_digit (Nat.mod_lt _ (by decide))

/-- A byte is its two halves. -/
theorem ofNat_halves (byte : UInt8) :
    UInt8.ofNat (16 * (byte.toNat / 16) + byte.toNat % 16) = byte := by
  rw [Nat.div_add_mod, UInt8.ofNat_toNat]

/-! ## Digits of either case -/

theorem digit_lt {n : Nat} (hn : n < 16) : (digit n).toNat < 128 := by
  revert n
  decide

theorem value?_ascii_iff {c : Char} (hascii : c.toNat < 128) :
    ∀ n < 16, value? c = some n ↔ c.toLower = digit n :=
  Text.forall_ascii (P := fun c => ∀ n < 16, value? c = some n ↔ c.toLower = digit n)
    (by decide +kernel) hascii

theorem value?_of_not_ascii {c : Char} (hforeign : 128 ≤ c.toNat) : value? c = none := by
  have hnot : ∀ last : Char, last.toNat < 128 → ¬ c ≤ last := by
    intro last hlast hle
    have hbound : c.toNat ≤ last.toNat := hle
    omega
  rw [value?, if_neg fun h => hnot _ (by decide) h.2, if_neg fun h => hnot _ (by decide) h.2,
    if_neg fun h => hnot _ (by decide) h.2]

theorem toLower_of_not_ascii {c : Char} (hforeign : 128 ≤ c.toNat) : c.toLower = c := by
  apply dif_neg
  rintro ⟨-, hupper⟩
  have hbound : c.toNat ≤ 'Z'.toNat := UInt32.le_iff_toNat_le.mp hupper
  have hlast : 'Z'.toNat = 90 := rfl
  omega

theorem value?_lt {c : Char} {n : Nat} (hvalue : value? c = some n) : n < 16 := by
  rcases Nat.lt_or_ge c.toNat 128 with hascii | hforeign
  · have hbelow : (value? c).all (· < 16) = true :=
      Text.forall_ascii (P := fun c => (value? c).all (· < 16) = true) (by decide +kernel) hascii
    rw [hvalue] at hbelow
    exact of_decide_eq_true hbelow
  · rw [value?_of_not_ascii hforeign] at hvalue
    cases hvalue

/-- The characters that are read as digits are the written digits in either case. -/
theorem value?_eq_some_iff {c : Char} {n : Nat} :
    value? c = some n ↔ n < 16 ∧ c.toLower = digit n := by
  rcases Nat.lt_or_ge c.toNat 128 with hascii | hforeign
  · constructor
    · intro hvalue
      exact ⟨value?_lt hvalue, (value?_ascii_iff hascii n (value?_lt hvalue)).mp hvalue⟩
    · rintro ⟨hn, hlower⟩
      exact (value?_ascii_iff hascii n hn).mpr hlower
  · rw [value?_of_not_ascii hforeign, toLower_of_not_ascii hforeign]
    constructor
    · intro hvalue
      cases hvalue
    · rintro ⟨hn, rfl⟩
      have hdigit := digit_lt hn
      omega

/-- A hexadecimal digit of either case. -/
def isDigit (c : Char) : Bool :=
  ('0' ≤ c && c ≤ '9') || ('a' ≤ c && c ≤ 'f') || ('A' ≤ c && c ≤ 'F')

theorem isDigit_iff {c : Char} : isDigit c = true ↔ ∃ n, value? c = some n := by
  simp only [isDigit, Bool.or_eq_true, Bool.and_eq_true, decide_eq_true_eq]
  unfold value?
  split
  next hrange => simp [hrange]
  next hdecimal =>
    split
    next hrange => simp [hrange]
    next hlower =>
      split
      next hrange => simp [hrange]
      next hupper => simp [hdecimal, hlower, hupper]

theorem isDigit_lt {c : Char} (hdigit : isDigit c = true) : c.toNat < 128 := by
  obtain ⟨n, hvalue⟩ := isDigit_iff.mp hdigit
  apply Nat.lt_of_not_le
  intro hforeign
  rw [value?_of_not_ascii hforeign] at hvalue
  cases hvalue

/-! ## Bytes -/

theorem decodeChars?_digits (byte : UInt8) (rest : List Char) :
    decodeChars? (digits byte ++ rest) = (decodeChars? rest).map (byte :: ·) := by
  simp only [digits, List.cons_append, List.nil_append, decodeChars?, value?_high, value?_low,
    ofNat_halves]

/-- **Bytes are read back from their hexadecimal text.** -/
theorem decode?_encode (content : List UInt8) : decode? (encode content) = some content := by
  have hchars : decodeChars? (content.flatMap digits) = some content := by
    induction content with
    | nil => rfl
    | cons byte rest ih => rw [List.flatMap_cons, decodeChars?_digits, ih, Option.map_some]
  rw [decode?, encode, String.toList_ofList, hchars]

theorem trim_encode (content : List UInt8) : Text.trim (encode content) = encode content := by
  have hdigit : ∀ n < 16, Text.isWhiteSpace (digit n) = false := by decide +kernel
  apply Text.trim_eq_self
  intro c hc
  rw [encode, String.toList_ofList, List.mem_flatMap] at hc
  obtain ⟨byte, -, hc⟩ := hc
  have hbyte := byte.toNat_lt
  rw [digits, List.mem_cons, List.mem_singleton] at hc
  rcases hc with rfl | rfl
  · exact hdigit _ (by omega)
  · exact hdigit _ (Nat.mod_lt _ (by decide))

theorem mapM_decode?_encode (frames : List (List UInt8)) :
    (frames.map encode).mapM decode? = some frames := by
  induction frames with
  | nil => rfl
  | cons frame frames ih =>
      rw [List.map_cons, List.mapM_cons, decode?_encode, ih]
      rfl

end HubLink.Hex
