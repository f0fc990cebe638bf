import HubLink.Node.Address
import HubLink.Proofs.Bytes.Hex

/-!
# Addresses are read back

The text of an address is six bytes in hexadecimal digits with colons between them, and is read as
these six bytes (`parse_text`).  The case of the digits does not matter and everything else does: a
text is read as an address exactly if it becomes the text of that address in lower case
(`parse_eq_ok_iff`).
-/

namespace HubLink.Node.Address

variable {high low : Char} {byte : UInt8} {chars tail : List Char} {address : Address}
  {text : String}

theorem octet?_digits (byte : UInt8) :
    octet? (Hex.digit (byte.toNat / 16)) (Hex.digit (byte.toNat % 16)) = some byte := by
  rw [octet?, Hex.value?_high, Hex.value?_low]
  exact congrArg some (Hex.ofNat_halves byte)

theorem ofChars?_chars (address : Address) : ofChars? address.chars = some address := by
  obtain ⟨b₀, b₁, b₂, b₃, b₄, b₅⟩ := address
  simp only [chars, Hex.digits, List.cons_append, List.nil_append, ofChars?, octet?_digits]
  rfl

/-- An address is read back from its text. -/
theorem parse_text (address : Address) : parse address.text = .ok address := by
  rw [parse, text, String.toList_ofList, ofChars?_chars]

/-! ## Digits of either case -/

/-- Two characters are read as the byte whose digits they are, in either case. -/
theorem octet?_eq_some_iff :
    octet? high low = some byte ↔ [high, low].map Char.toLower = Hex.digits byte := by
  have hbyte := byte.toNat_lt
  simp only [octet?, Hex.digits, List.map_cons, List.map_nil, List.cons.injEq, and_true,
    Option.bind_eq_bind, Option.bind_eq_some_iff, Option.pure_def, Option.some.injEq]
  constructor
  · rintro ⟨h, hhigh, l, hlow, hvalue⟩
    obtain ⟨hh, hhigh⟩ := Hex.value?_eq_some_iff.mp hhigh
    obtain ⟨hl, hlow⟩ := Hex.value?_eq_some_iff.mp hlow
    have hnat : byte.toNat = 16 * h + l := by
      rw [← hvalue]
      exact UInt8.toNat_ofNat_of_lt' (show 16 * h + l < 256 by omega)
    have hfront : byte.toNat / 16 = h := by omega
    have hback : byte.toNat % 16 = l := by omega
    rw [hfront, hback]
    exact ⟨hhigh, hlow⟩
  · rintro ⟨hhigh, hlow⟩
    exact ⟨byte.toNat / 16, Hex.value?_eq_some_iff.mpr ⟨by omega, hhigh⟩, byte.toNat % 16,
      Hex.value?_eq_some_iff.mpr ⟨by omega, hlow⟩, Hex.ofNat_halves byte⟩

theorem exists_octet? (hhigh : Hex.isDigit high = true) (hlow : Hex.isDigit low = true) :
    ∃ byte, octet? high low = some byte := by
  obtain ⟨h, hhigh⟩ := Hex.isDigit_iff.mp hhigh
  obtain ⟨l, hlow⟩ := Hex.isDigit_iff.mp hlow
  refine ⟨UInt8.ofNat (16 * h + l), ?_⟩
  rw [octet?, hhigh, hlow]
  rfl

theorem isDigit_of_octet? (hoctet : octet? high low = some byte) :
    Hex.isDigit high = true ∧ Hex.isDigit low = true := by
  obtain ⟨h, hhigh, hoctet⟩ := Option.bind_eq_some_iff.mp hoctet
  obtain ⟨l, hlow, -⟩ := Option.bind_eq_some_iff.mp hoctet
  exact ⟨Hex.isDigit_iff.mpr ⟨h, hhigh⟩, Hex.isDigit_iff.mpr ⟨l, hlow⟩⟩

theorem toLower_eq_colon_iff {c : Char} : c.toLower = ':' ↔ c = ':' := by
  constructor
  · intro hlower
    rcases Nat.lt_or_ge c.toNat 128 with hascii | hforeign
    · exact Text.forall_ascii (P := fun c => c.toLower = ':' → c = ':') (by decide +kernel) hascii
        hlower
    · rwa [Hex.toLower_of_not_ascii hforeign] at hlower
  · rintro rfl
    rfl

/-! ## Whole addresses -/

/-- What becomes the digits of a byte in lower case starts with two characters read as that byte. -/
theorem exists_octet_of_map_toLower (hlower : chars.map Char.toLower = Hex.digits byte ++ tail) :
    ∃ high low rest, chars = high :: low :: rest ∧ octet? high low = some byte ∧
      rest.map Char.toLower = tail := by
  obtain ⟨pair, rest, rfl, hpair, hrest⟩ := List.map_eq_append_iff.mp hlower
  obtain ⟨high, _, rfl, hhigh, hpair⟩ := List.map_eq_cons_iff.mp hpair
  obtain ⟨low, _, rfl, hlow, hpair⟩ := List.map_eq_cons_iff.mp hpair
  obtain rfl := List.map_eq_nil_iff.mp hpair
  refine ⟨high, low, rest, rfl, octet?_eq_some_iff.mpr ?_, hrest⟩
  rw [List.map_cons, List.map_cons, hhigh, hlow]
  rfl

theorem exists_colon_of_map_toLower (hlower : chars.map Char.toLower = ':' :: tail) :
    ∃ rest, chars = ':' :: rest ∧ rest.map Char.toLower = tail := by
  obtain ⟨c, rest, rfl, hc, hrest⟩ := List.map_eq_cons_iff.mp hlower
  rw [toLower_eq_colon_iff.mp hc]
  exact ⟨rest, rfl, hrest⟩

theorem ofChars?_eq_some_iff :
    ofChars? chars = some address ↔ chars.map Char.toLower = address.chars := by
  constructor
  · intro hread
    unfold ofChars? at hread
    split at hread
    next =>
      obtain ⟨b₀, hb₀, hread⟩ := Option.bind_eq_some_iff.mp hread
      obtain ⟨b₁, hb₁, hread⟩ := Option.bind_eq_some_iff.mp hread
      obtain ⟨b₂, hb₂, hread⟩ := Option.bind_eq_some_iff.mp hread
      obtain ⟨b₃, hb₃, hread⟩ := Option.bind_eq_some_iff.mp hread
      obtain ⟨b₄, hb₄, hread⟩ := Option.bind_eq_some_iff.mp hread
      obtain ⟨b₅, hb₅, hread⟩ := Option.bind_eq_some_iff.mp hread
      obtain rfl := Option.some.inj hread
      simp only [Address.chars, ← octet?_eq_some_iff.mp hb₀, ← octet?_eq_some_iff.mp hb₁,
        ← octet?_eq_some_iff.mp hb₂, ← octet?_eq_some_iff.mp hb₃, ← octet?_eq_some_iff.mp hb₄,
        ← octet?_eq_some_iff.mp hb₅]
      rfl
    next => cases hread
  · intro hlower
    -- two digits and the colon behind them are taken off, five times
    obtain ⟨h₀, l₀, _, rfl, hb₀, htail₀⟩ := exists_octet_of_map_toLower hlower
    obtain ⟨_, rfl, hrest₀⟩ := exists_colon_of_map_toLower htail₀
    obtain ⟨h₁, l₁, _, rfl, hb₁, htail₁⟩ := exists_octet_of_map_toLower hrest₀
    obtain ⟨_, rfl, hrest₁⟩ := exists_colon_of_map_toLower htail₁
    obtain ⟨h₂, l₂, _, rfl, hb₂, htail₂⟩ := exists_octet_of_map_toLower hrest₁
    obtain ⟨_, rfl, hrest₂⟩ := exists_colon_of_map_toLower htail₂
    obtain ⟨h₃, l₃, _, rfl, hb₃, htail₃⟩ := exists_octet_of_map_toLower hrest₂
    obtain ⟨_, rfl, hrest₃⟩ := exists_colon_of_map_toLower htail₃
    obtain ⟨h₄, l₄, _, rfl, hb₄, htail₄⟩ := exists_octet_of_map_toLower hrest₃
    obtain ⟨_, rfl, hrest₄⟩ := exists_colon_of_map_toLower htail₄
    obtain ⟨h₅, l₅, _, rfl, hb₅, htail₅⟩ :=
      exists_octet_of_map_toLower (hrest₄.trans (List.append_nil _).symm)
    obtain rfl := List.map_eq_nil_iff.mp htail₅
    simp only [ofChars?, hb₀, hb₁, hb₂, hb₃, hb₄, hb₅]
    rfl

/-- A text is read as the address that it is the text of in lower case. -/
theorem parse_eq_ok_iff : parse text = .ok address ↔ text.toLower = address.text := by
  rw [← String.toList_inj, Text.toList_toLower, Address.text, String.toList_ofList,
    ← ofChars?_eq_some_iff, parse]
  cases hread : ofChars? text.toList with
  | none => exact ⟨fun h => (by cases h), fun h => (by cases h)⟩
  | some found => rw [Except.ok.injEq, Option.some.injEq]

theorem parse_eq_error_iff :
    parse text = .error (.address text) ↔ ¬ ∃ address, parse text = .ok address := by
  unfold parse
  split
  next address _ => exact ⟨fun h => (by cases h), fun hnot => absurd ⟨address, rfl⟩ hnot⟩
  next =>
    refine ⟨fun _ => ?_, fun _ => rfl⟩
    rintro ⟨address, hread⟩
    cases hread

end HubLink.Node.Address
