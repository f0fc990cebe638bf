import HubLink.Json.Printer
import HubLink.Json.StringLiteral
import HubLink.Proofs.Outcome
import Mathlib.Tactic.SplitIfs

/-!
# String literals are read back

A printer escapes a text byte by byte, and each byte, escaped or not, is one element to the reader
(`readElement_escapedByte`).  So the elements of a literal are the bytes of its text, and a text is
read from exactly those.
-/

namespace HubLink.Json

open Text (byte ascii)

theorem literal_append (value : String) (rest : List UInt8) :
    literal value ++ rest =
      byte '"' :: ((Text.bytes value).flatMap escapedByte ++ byte '"' :: rest) := by
  simp [literal]

/-! ## One byte -/

theorem hexValue?_hexDigit {n : Nat} (hdigit : n < 16) : hexValue? (hexDigit n) = some n := by
  revert n
  decide

theorem encodeChar_control {n : Nat} (hcontrol : n < 32) : encodeChar n = [UInt8.ofNat n] := by
  revert n
  decide

/-- The long escape of a control stands for that control. -/
theorem readCodeUnit_control {b : UInt8} (hcontrol : b < 32) (rest : List UInt8) :
    readCodeUnit true
        (byte '0' :: byte '0' :: hexDigit (b.toNat / 16) :: hexDigit (b.toNat % 16) :: rest) =
      .ok ([b], rest) := by
  have hvalue : b.toNat < 32 := UInt8.lt_iff_toNat_lt.mp hcontrol
  have hcode : readHex4
      (byte '0' :: byte '0' :: hexDigit (b.toNat / 16) :: hexDigit (b.toNat % 16) :: rest) =
        .ok (b.toNat, rest) := by
    have hzero : hexValue? (byte '0') = some 0 := by decide
    simp only [readHex4, hzero, hexValue?_hexDigit (show b.toNat / 16 < 16 by omega),
      hexValue?_hexDigit (show b.toNat % 16 < 16 by omega)]
    exact congrArg (fun n => Except.ok (n, rest)) (by omega)
  have htrailing : isTrailing b.toNat = false := by
    rw [isTrailing, decide_eq_false (by omega), Bool.false_and]
  have hleading : isLeading b.toNat = false := by
    rw [isLeading, decide_eq_false (by omega), Bool.false_and]
  simp only [readCodeUnit, hcode, htrailing, hleading, encodeChar_control hvalue, bind, Except.bind,
    Bool.not_true, Bool.false_eq_true, if_false, UInt8.ofNat_toNat]

theorem shortEscape?_of_shortLetter? {b : UInt8} {letter : Char}
    (hletter : shortLetter? b = some letter) :
    byte letter ≠ byte 'u' ∧ shortEscape? (byte letter) = some b := by
  -- five letters, each for one control
  simp only [shortLetter?] at hletter
  split_ifs at hletter <;> cases hletter <;> subst b <;> decide

/-- **A byte as it stands in a literal is one element to the reader.** -/
theorem readElement_escapedByte (b : UInt8) (rest : List UInt8) :
    readElement true (escapedByte b ++ rest) = .ok (some [b], rest) := by
  unfold escapedByte
  split
  next hmark =>
    obtain rfl | rfl := hmark <;> rfl
  next hmark =>
    obtain ⟨hquote, hbackslash⟩ := not_or.mp hmark
    split
    next hcontrol =>
      cases hletter : shortLetter? b with
      | some letter =>
          obtain ⟨hu, hescape⟩ := shortEscape?_of_shortLetter? hletter
          have hread : readEscape true (byte letter :: rest) = .ok ([b], rest) := by
            rw [readEscape, if_neg hu, hescape]
          exact bind_eq_ok.mpr ⟨_, hread, rfl⟩
      | none => exact bind_eq_ok.mpr ⟨_, readCodeUnit_control hcontrol rest, rfl⟩
    next hcontrol =>
      rw [List.singleton_append, readElement, if_neg hquote, if_neg hbackslash, if_neg hcontrol]

/-! ## All bytes -/

theorem escapedByte_ne_nil (b : UInt8) : escapedByte b ≠ [] := by
  unfold escapedByte
  split
  · exact List.cons_ne_nil _ _
  · split
    · split <;> exact List.cons_ne_nil _ _
    · exact List.cons_ne_nil _ _

theorem length_le_flatMap_escapedByte (content : List UInt8) :
    content.length ≤ (content.flatMap escapedByte).length := by
  induction content with
  | nil => exact Nat.le_refl 0
  | cons b more ih =>
      have hone : 0 < (escapedByte b).length := List.length_pos_iff.mpr (escapedByte_ne_nil b)
      rw [List.flatMap_cons, List.length_append, List.length_cons]
      omega

theorem readElements_escaped (content : List UInt8) (rest : List UInt8) {fuel : Nat}
    (hfuel : content.length < fuel) :
    readElements true fuel (content.flatMap escapedByte ++ byte '"' :: rest) =
      .ok (content, rest) := by
  induction content generalizing fuel with
  | nil =>
      obtain ⟨fuel, rfl⟩ := Nat.exists_eq_succ_of_ne_zero (Nat.ne_zero_of_lt hfuel)
      rfl
  | cons b more ih =>
      obtain ⟨fuel, rfl⟩ := Nat.exists_eq_succ_of_ne_zero (Nat.ne_zero_of_lt hfuel)
      have hmore : more.length < fuel := Nat.lt_of_succ_lt_succ hfuel
      rw [List.flatMap_cons, List.append_assoc]
      simp only [readElements, readElement_escapedByte, ih hmore, bind, Except.bind]
      rfl

/-- **A text is read back from its literal**, whatever stands behind the closing quote. -/
theorem readString_literal (value : String) (rest : List UInt8) :
    readString ((Text.bytes value).flatMap escapedByte ++ byte '"' :: rest) =
      .ok (value, rest) := by
  have hlength := length_le_flatMap_escapedByte (Text.bytes value)
  have hfuel : (Text.bytes value).length <
      ((Text.bytes value).flatMap escapedByte ++ byte '"' :: rest).length + 1 := by
    rw [List.length_append]
    omega
  simp only [readString, readElements_escaped _ rest hfuel, bind, Except.bind, Text.ofBytes?_bytes]

end HubLink.Json
