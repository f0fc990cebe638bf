import HubLink.Proofs.Json.TextMembers

/-!
# What is written is grammatical

The compact form of a well formed value is a JSON text (`isValue_print`), and an object that is
written from the texts of its members' values has exactly these members (`objectText_printFields`).
-/

namespace HubLink.Json

open Text (byte)
open TextRecord (memberTexts memberTexts_cons_append printFields_eq)

/-! ## Literals -/

theorem mem_hexDigits {n : Nat} (hn : n < 16) : (hexDigit n, n) ∈ hexDigits := by
  revert n
  decide

theorem hexCode_control {b : UInt8} (hcontrol : b < 32) :
    HexCode [byte '0', byte '0', hexDigit (b.toNat / 16), hexDigit (b.toNat % 16)] b.toNat := by
  have hvalue : b.toNat < 32 := UInt8.lt_iff_toNat_lt.mp hcontrol
  have hzero : (byte '0', 0) ∈ hexDigits := by decide
  have hcode := HexCode.mk hzero hzero (mem_hexDigits (n := b.toNat / 16) (by omega))
    (mem_hexDigits (n := b.toNat % 16) (by omega))
  rwa [show 4096 * 0 + 256 * 0 + 16 * (b.toNat / 16) + b.toNat % 16 = b.toNat by omega] at hcode

theorem mem_shortEscapes {b : UInt8} {letter : Char} (hletter : shortLetter? b = some letter) :
    (byte letter, b) ∈ shortEscapes := by
  simp only [shortLetter?] at hletter
  split_ifs at hletter <;> cases hletter <;> subst b <;> decide

/-- A byte as it stands in a literal denotes itself. -/
theorem Denotes.escapedByte {more bytes : List UInt8} (b : UInt8) (hmore : Denotes more bytes) :
    Denotes (Json.escapedByte b ++ more) (b :: bytes) := by
  unfold Json.escapedByte
  split
  next hmark =>
    refine .short ?_ hmore
    rcases hmark with rfl | rfl <;> decide
  next hmark =>
    split
    next hcontrol =>
      cases hletter : shortLetter? b with
      | some letter => exact .short (mem_shortEscapes hletter) hmore
      | none =>
          have hvalue : b.toNat < 32 := UInt8.lt_iff_toNat_lt.mp hcontrol
          have hdenotes := Denotes.unicode (hexCode_control hcontrol) (.inl (by omega)) hmore
          rw [encodeChar_control hvalue, UInt8.ofNat_toNat] at hdenotes
          exact hdenotes
    next hcontrol => exact .plain ⟨hcontrol, not_or.mp hmark⟩ hmore

/-- A literal denotes the text that it was written for. -/
theorem denotes_escaped (content : List UInt8) :
    Denotes (content.flatMap escapedByte) content := by
  induction content with
  | nil => exact .nil
  | cons b more ih => exact ih.escapedByte b

theorem isScalar_literal (value : String) : IsScalar (literal value) := by
  rw [literal, List.cons_append]
  exact .string (denotes_escaped _).isContent

/-! ## Numbers -/

theorem isFraction_fractionText {fraction : Option (List UInt8)}
    (hfraction : ∀ digits ∈ fraction, Text.IsRun digits) :
    IsFraction (Numeral.fractionText fraction) := by
  cases fraction with
  | none => exact .absent
  | some digits => exact .present (hfraction digits rfl)

theorem isExponent_exponentText {exponent : Option (Bool × List UInt8)}
    (hexponent : ∀ part ∈ exponent, Text.IsRun part.2) :
    IsExponent (Numeral.exponentText exponent) := by
  rcases exponent with _ | ⟨negative, digits⟩
  · exact .absent
  · have hdigits : Text.IsRun digits := hexponent _ rfl
    cases negative with
    | false => exact .present (.inl rfl) (.inr (.inl rfl)) hdigits
    | true => exact .present (.inl rfl) (.inr (.inr rfl)) hdigits

theorem isNumeral_spell {numeral : Numeral} (hspelled : numeral.WellSpelled) :
    IsNumeral numeral.spell := by
  have hsign : (if numeral.negative then [byte '-'] else []) = [] ∨
      (if numeral.negative then [byte '-'] else []) = [byte '-'] := by
    cases numeral.negative with
    | false => exact .inl rfl
    | true => exact .inr rfl
  have hzero : numeral.whole.head? = some (byte '0') → numeral.whole.length = 1 := by
    intro hlead
    have hone := List.length_pos_iff.mpr hspelled.whole_run.1
    have hmost : ¬ 1 < numeral.whole.length := fun hlong => hspelled.no_leading_zero ⟨hlead, hlong⟩
    omega
  rw [Numeral.spell, List.append_assoc, List.append_assoc]
  exact .mk hsign hspelled.whole_run hzero (isFraction_fractionText hspelled.fraction_run)
    (isExponent_exponentText hspelled.exponent_run)

/-! ## Values -/

theorem isLead_comma (first : Bool) : IsLead first (if first then [] else [byte ',']) := by
  cases first with
  | true => exact .first isBlanks_nil
  | false =>
      have hlead := IsLead.next isBlanks_nil isBlanks_nil
      exact hlead

mutual

/-- **A written value is grammatical.** -/
theorem isValue_print (value : Json) (hvalue : WellFormed value) : IsValue (print value) := by
  match value with
  | .null => exact .scalar (.word (by decide))
  | .bool true => exact .scalar (.word (by decide))
  | .bool false => exact .scalar (.word (by decide))
  | .integer n =>
      rw [show print (.integer n) = (Numeral.ofInt n).spell from (spell_ofInt n).symm]
      exact .scalar (.numeral (isNumeral_spell (wellSpelled_ofInt n)))
  | .real number =>
      have hfinite : number.isFinite = true := hvalue
      obtain ⟨numeral, htext, hspelled, _⟩ := exists_numeral_double hfinite
      rw [show print (.real number) = numberText number from rfl, numberText, if_pos hfinite, htext]
      exact .scalar (.numeral (isNumeral_spell hspelled))
  | .string text => exact .scalar (isScalar_literal text)
  | .array items => exact .array (grammatical_printItems items hvalue true)
  | .object members => exact .object (grammatical_printMembers members hvalue.2 true)

theorem grammatical_printItems (items : List Json) (hitems : WellFormedItems items) (first : Bool) :
    Grammatical (.rest .square first) (printItems first items ++ [byte ']']) := by
  match items with
  | [] => exact .closed .square first isBlanks_nil
  | item :: more =>
      rw [printItems, List.append_assoc, List.append_assoc]
      exact .item (isLead_comma first) (isValue_print item hitems.1)
        (grammatical_printItems more hitems.2 false)

theorem grammatical_printMembers (members : List (String × Json))
    (hmembers : WellFormedMembers members) (first : Bool) :
    Grammatical (.rest .curly first) (printMembers first members ++ [byte '\x7d']) := by
  match members with
  | [] => exact .closed .curly first isBlanks_nil
  | (key, value) :: more =>
      rw [printMembers, List.append_assoc, List.append_assoc, List.append_assoc, List.cons_append,
        literal_append]
      have hmember := Grammatical.member (isLead_comma first)
        (denotes_escaped (Text.bytes key)).isContent isBlanks_nil isBlanks_nil
        (isValue_print value hmembers.1) (grammatical_printMembers more hmembers.2 false)
      exact hmember

end

/-! ## Objects from texts -/

variable {members : List (String × List UInt8)}

/-- Members that are written one by one are the members that stand there. -/
theorem membersText_memberTexts (hmembers : ∀ m ∈ members, IsValue m.2) (first : Bool) :
    MembersText first members (memberTexts first members ++ [byte '\x7d']) := by
  induction members generalizing first with
  | nil => exact .closed first isBlanks_nil
  | cons m more ih =>
      obtain ⟨key, value⟩ := m
      obtain ⟨hvalue, hmore⟩ := List.forall_mem_cons.mp hmembers
      rw [memberTexts_cons_append, literal_append]
      have hmember := MembersText.member (isLead_comma first) (denotes_escaped (Text.bytes key))
        isBlanks_nil isBlanks_nil hvalue (ih hmore false)
      exact hmember

/-- **An object that is written from texts of values has exactly these members.** -/
theorem objectText_printFields (hmembers : ∀ m ∈ members, IsValue m.2) :
    ObjectText members (printFields members) := by
  have htext := ObjectText.mk isBlanks_nil (membersText_memberTexts hmembers true) isBlanks_nil
  rw [List.append_nil] at htext
  rw [printFields_eq]
  exact htext

end HubLink.Json
