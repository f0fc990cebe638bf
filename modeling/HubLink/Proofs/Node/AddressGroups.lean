import HubLink.Proofs.Node.Address
import HubLink.Proofs.Text.Plain
import HubLink.Text.Whole
import Mathlib.Data.List.Basic

/-!
# Addresses read from colon to colon

An address can be read by cutting the text at its colons.  Each of the first six groups must be two
bytes long and consist of digits, a reader of numbers makes a byte of it, and no group may be left
over.  None of these checks can be done without: the reader of numbers takes a sign, and a character
of another alphabet may be two bytes long.

Together they come to the grammar (`IsAddressText`).  `parse_inverts_text` says that what is read
are exactly the texts of this grammar, each as the address that it is the text of in lower case, and
that all other texts come back as they were given.
-/

namespace HubLink.Node.Address

/-- The byte of a group: two bytes that are digits, taken as a number by a reader that would also
take a sign. -/
def groupByte? (group : List Char) : Option UInt8 :=
  let content := Text.bytes (String.ofList group)
  if content.length = 2 ∧ content.all fun b => Hex.isDigit (Char.ofNat b.toNat) then
    ((Text.digitsIn? 16 (Text.dropPlus group)).filter (· < UInt8.size)).map UInt8.ofNat
  else none

/-- The bytes of some groups, if there are as many as expected. -/
def groupBytes? : (expected : Nat) → List (List Char) → Option (List UInt8)
  | 0, [] => some []
  | 0, _ :: _ => none
  | _ + 1, [] => none
  | expected + 1, group :: groups => do
    let byte ← groupByte? group
    let bytes ← groupBytes? expected groups
    return byte :: bytes

/-- Reads an address from colon to colon. -/
def parseGroups (text : String) : Except LinkFault Address :=
  match groupBytes? 6 (text.toList.splitOn ':') with
  | some [b₀, b₁, b₂, b₃, b₄, b₅] => .ok ⟨b₀, b₁, b₂, b₃, b₄, b₅⟩
  | _ => .error (.address text)

/-- Two hexadecimal digits of either case. -/
def IsPair (group : List Char) : Prop :=
  group.length = 2 ∧ ∀ c ∈ group, Hex.isDigit c = true

/-- Six pairs of hexadecimal digits with colons between them. -/
def IsAddressText (text : String) : Prop :=
  ∃ pairs : List (List Char), pairs.length = 6 ∧ (∀ pair ∈ pairs, IsPair pair) ∧
    text.toList = [':'].intercalate pairs

variable {group : List Char} {groups : List (List Char)} {bytes : List UInt8} {byte : UInt8}
  {text : String} {address : Address}

/-! ## One group -/

theorem isPair_iff : IsPair group ↔ ∃ high low,
    group = [high, low] ∧ Hex.isDigit high = true ∧ Hex.isDigit low = true := by
  constructor
  · rintro ⟨hlength, hdigits⟩
    obtain ⟨high, low, rfl⟩ := List.length_eq_two.mp hlength
    exact ⟨high, low, rfl, hdigits high (by simp), hdigits low (by simp)⟩
  · rintro ⟨high, low, rfl, hhigh, hlow⟩
    exact ⟨rfl, by simp [hhigh, hlow]⟩

/-- A pair is what becomes the digits of a byte in lower case. -/
theorem isPair_iff_exists_byte :
    IsPair group ↔ ∃ byte, group.map Char.toLower = Hex.digits byte := by
  rw [isPair_iff]
  constructor
  · rintro ⟨high, low, rfl, hhigh, hlow⟩
    obtain ⟨byte, hoctet⟩ := exists_octet? hhigh hlow
    exact ⟨byte, octet?_eq_some_iff.mp hoctet⟩
  · rintro ⟨byte, hlower⟩
    obtain ⟨high, low, rest, rfl, hoctet, hrest⟩ :=
      exists_octet_of_map_toLower (hlower.trans (List.append_nil _).symm)
    obtain rfl := List.map_eq_nil_iff.mp hrest
    exact ⟨high, low, rfl, isDigit_of_octet? hoctet⟩

theorem lt_of_isDigit_ofNat {b : UInt8} (hdigit : Hex.isDigit (Char.ofNat b.toNat) = true) :
    b < 128 := by
  have hall : ∀ n < 256, Hex.isDigit (Char.ofNat n) = true → n < 128 := by decide +kernel
  exact hall b.toNat b.toNat_lt hdigit

theorem ofNat_toNat_of_isDigit {c : Char} (hdigit : Hex.isDigit c = true) :
    Char.ofNat (UInt8.ofNat c.toNat).toNat = c := by
  have hascii := Hex.isDigit_lt hdigit
  rw [UInt8.toNat_ofNat_of_lt' (show c.toNat < 256 by omega), Char.ofNat_toNat]

theorem bytes_pair {high low : Char} (hhigh : Hex.isDigit high = true)
    (hlow : Hex.isDigit low = true) :
    Text.bytes (String.ofList [high, low]) =
      [UInt8.ofNat high.toNat, UInt8.ofNat low.toNat] := by
  have hlt : ∀ {c : Char}, Hex.isDigit c = true → UInt8.ofNat c.toNat < 128 := by
    intro c hc
    apply lt_of_isDigit_ofNat
    rwa [ofNat_toNat_of_isDigit hc]
  have hcontent : ∀ b ∈ [UInt8.ofNat high.toNat, UInt8.ofNat low.toNat], b < 128 := by
    simp [hlt hhigh, hlt hlow]
  have hbytes := Text.bytes_ofList hcontent
  rwa [List.map_cons, List.map_cons, List.map_nil, ofNat_toNat_of_isDigit hhigh,
    ofNat_toNat_of_isDigit hlow] at hbytes

/-- Two bytes that are digits are two characters that are digits. -/
theorem isPair_iff_bytes : IsPair group ↔
    (Text.bytes (String.ofList group)).length = 2 ∧
      (Text.bytes (String.ofList group)).all fun b => Hex.isDigit (Char.ofNat b.toNat) := by
  rw [isPair_iff]
  constructor
  · rintro ⟨high, low, rfl, hhigh, hlow⟩
    rw [bytes_pair hhigh hlow, List.all_cons, List.all_cons, List.all_nil,
      ofNat_toNat_of_isDigit hhigh, ofNat_toNat_of_isDigit hlow, hhigh, hlow]
    exact ⟨rfl, rfl⟩
  · rintro ⟨hlength, hdigits⟩
    rw [List.all_eq_true] at hdigits
    have hgroup := Text.toList_of_bytes fun b hb => lt_of_isDigit_ofNat (hdigits b hb)
    obtain ⟨x, y, hpair⟩ := List.length_eq_two.mp hlength
    rw [hpair, String.toList_ofList] at hgroup
    rw [hpair] at hdigits
    exact ⟨_, _, hgroup, hdigits x (by simp), hdigits y (by simp)⟩

/-- A pair has no sign in front and stands for one byte. -/
theorem digitsIn?_pair {high low : Char} (hhigh : Hex.isDigit high = true)
    (hlow : Hex.isDigit low = true) :
    ((Text.digitsIn? 16 (Text.dropPlus [high, low])).filter (· < UInt8.size)).map UInt8.ofNat =
      octet? high low := by
  obtain ⟨h, hhigh⟩ := Hex.isDigit_iff.mp hhigh
  obtain ⟨l, hlow⟩ := Hex.isDigit_iff.mp hlow
  have hh := Hex.value?_lt hhigh
  have hl := Hex.value?_lt hlow
  have hsign : Text.dropPlus [high, low] = [high, low] := by
    unfold Text.dropPlus
    split
    next heq =>
      -- a plus sign is no digit
      cases heq
      cases hhigh
    next => rfl
  have hdigits : Text.digitsIn? 16 [high, low] = some (16 * h + l) := by
    simp [Text.digitsIn?, hhigh, hlow, hh, hl, Option.filter_some]
  have hvalue : 16 * h + l < UInt8.size := by
    show 16 * h + l < 256
    omega
  rw [hsign, hdigits, octet?, hhigh, hlow, Option.filter_some, if_pos (decide_eq_true hvalue)]
  rfl

theorem groupByte?_eq_some_iff :
    groupByte? group = some byte ↔ group.map Char.toLower = Hex.digits byte := by
  rw [groupByte?]
  split
  next hpair =>
    obtain ⟨high, low, rfl, hhigh, hlow⟩ := isPair_iff.mp (isPair_iff_bytes.mpr hpair)
    rw [digitsIn?_pair hhigh hlow, octet?_eq_some_iff]
  next hpair =>
    refine iff_of_false (fun h => (by cases h)) fun hlower => hpair ?_
    exact isPair_iff_bytes.mp (isPair_iff_exists_byte.mpr ⟨byte, hlower⟩)

/-! ## All groups -/

theorem groupBytes?_eq_some_iff {expected : Nat} :
    groupBytes? expected groups = some bytes ↔
      groups.length = expected ∧ groups.map (List.map Char.toLower) = bytes.map Hex.digits := by
  fun_induction groupBytes? expected groups generalizing bytes with
  | case1 => simp [eq_comm]
  | case2 => simp
  | case3 => simp
  | case4 expected group groups ih =>
      simp only [Option.bind_eq_bind, Option.bind_eq_some_iff, groupByte?_eq_some_iff, ih,
        Option.pure_def, Option.some.injEq, List.length_cons, Nat.succ_eq_add_one,
        Nat.add_right_cancel_iff, List.map_cons]
      constructor
      · rintro ⟨byte, hbyte, rest, ⟨hlength, hrest⟩, rfl⟩
        rw [List.map_cons, hbyte, hrest]
        exact ⟨hlength, rfl⟩
      · rintro ⟨hlength, hall⟩
        obtain ⟨byte, rest, rfl, hbyte, hrest⟩ := List.map_eq_cons_iff.mp hall.symm
        exact ⟨byte, hbyte.symm, rest, ⟨hlength, hrest.symm⟩, rfl⟩

theorem exists_bytes_of_isPair (hpairs : ∀ group ∈ groups, IsPair group) :
    ∃ bytes : List UInt8, groups.map (List.map Char.toLower) = bytes.map Hex.digits := by
  induction groups with
  | nil => exact ⟨[], rfl⟩
  | cons group groups ih =>
      obtain ⟨byte, hbyte⟩ := isPair_iff_exists_byte.mp (hpairs group List.mem_cons_self)
      obtain ⟨bytes, hbytes⟩ := ih fun group hgroup => hpairs group (List.mem_cons_of_mem _ hgroup)
      refine ⟨byte :: bytes, ?_⟩
      rw [List.map_cons, List.map_cons, hbyte, hbytes]

/-- Lower case leaves the colons where they are, so a text can be cut before or after. -/
theorem splitOn_map_toLower (chars : List Char) :
    (chars.map Char.toLower).splitOn ':' = (chars.splitOn ':').map (List.map Char.toLower) := by
  induction chars with
  | nil => rfl
  | cons c rest ih =>
      rw [List.map_cons, List.splitOn_cons_eq_if_modifyHead, List.splitOn_cons_eq_if_modifyHead, ih]
      by_cases hcolon : c = ':'
      · rw [if_pos (beq_iff_eq.mpr (toLower_eq_colon_iff.mpr hcolon)),
          if_pos (beq_iff_eq.mpr hcolon)]
        rfl
      · rw [if_neg fun h => hcolon (toLower_eq_colon_iff.mp (beq_iff_eq.mp h)),
          if_neg fun h => hcolon (beq_iff_eq.mp h)]
        -- the character joins the first group, and there always is one
        obtain ⟨first, others, hgroups⟩ := List.exists_cons_of_ne_nil (List.splitOn_ne_nil ':' rest)
        rw [hgroups]
        rfl

theorem splitOn_intercalate_pairs (hpairs : ∀ pair ∈ groups, IsPair pair) (hsome : groups ≠ []) :
    ([':'].intercalate groups).splitOn ':' = groups := by
  apply List.splitOn_intercalate ':' _ hsome
  intro pair hpair hcolon
  have hdigit := (hpairs pair hpair).2 ':' hcolon
  cases hdigit

theorem splitOn_chars (address : Address) :
    address.chars.splitOn ':' = address.bytes.map Hex.digits := by
  have hchars : address.chars = [':'].intercalate (address.bytes.map Hex.digits) := rfl
  rw [hchars]
  apply splitOn_intercalate_pairs
  · intro pair hpair
    obtain ⟨byte, -, rfl⟩ := List.mem_map.mp hpair
    have hoctet := octet?_digits byte
    exact isPair_iff.mpr ⟨_, _, rfl, isDigit_of_octet? hoctet⟩
  · exact List.cons_ne_nil _ _

/-- A text is that of an address, in either case, if each group of it is that of a byte. -/
theorem toLower_eq_text_iff : text.toLower = address.text ↔
    (text.toList.splitOn ':').map (List.map Char.toLower) = address.bytes.map Hex.digits := by
  rw [← String.toList_inj, Text.toList_toLower, Address.text, String.toList_ofList,
    ← splitOn_map_toLower, ← splitOn_chars]
  constructor
  · intro hsame
    rw [hsame]
  · intro hsame
    calc text.toList.map Char.toLower
        = [':'].intercalate ((text.toList.map Char.toLower).splitOn ':') :=
          (List.intercalate_splitOn ':').symm
      _ = [':'].intercalate (address.chars.splitOn ':') := by rw [hsame]
      _ = address.chars := List.intercalate_splitOn ':'

/-! ## Whole texts -/

theorem parseGroups_eq_ok_iff : parseGroups text = .ok address ↔ text.toLower = address.text := by
  rw [toLower_eq_text_iff]
  unfold parseGroups
  constructor
  · intro hread
    split at hread
    next hbytes =>
      cases hread
      exact (groupBytes?_eq_some_iff.mp hbytes).2
    next => cases hread
  · intro hgroups
    have hlength := congrArg List.length hgroups
    rw [List.length_map, List.length_map] at hlength
    have hbytes : groupBytes? 6 (text.toList.splitOn ':') = some address.bytes :=
      groupBytes?_eq_some_iff.mpr ⟨hlength, hgroups⟩
    rw [hbytes]
    rfl

/-- Reading from colon to colon and reading by place come to the same. -/
theorem parseGroups_eq_parse (text : String) : parseGroups text = parse text := by
  cases hread : parseGroups text with
  | ok address => exact (parse_eq_ok_iff.mpr (parseGroups_eq_ok_iff.mp hread)).symm
  | error fault =>
      have hfault : fault = .address text := by
        unfold parseGroups at hread
        split at hread
        next => cases hread
        next =>
          cases hread
          rfl
      rw [hfault]
      refine (parse_eq_error_iff.mpr ?_).symm
      rintro ⟨address, haccepted⟩
      rw [parseGroups_eq_ok_iff.mpr (parse_eq_ok_iff.mp haccepted)] at hread
      cases hread

theorem exists_address_iff :
    (∃ address : Address, text.toLower = address.text) ↔ IsAddressText text := by
  constructor
  · rintro ⟨address, hlower⟩
    have hgroups := toLower_eq_text_iff.mp hlower
    have hlength := congrArg List.length hgroups
    rw [List.length_map, List.length_map] at hlength
    refine ⟨text.toList.splitOn ':', hlength, fun pair hpair => ?_,
      (List.intercalate_splitOn ':').symm⟩
    have hdigits := List.mem_map_of_mem (f := List.map Char.toLower) hpair
    rw [hgroups] at hdigits
    obtain ⟨byte, -, hbyte⟩ := List.mem_map.mp hdigits
    exact isPair_iff_exists_byte.mpr ⟨byte, hbyte.symm⟩
  · rintro ⟨pairs, hlength, hpairs, htext⟩
    obtain ⟨bytes, hbytes⟩ := exists_bytes_of_isPair hpairs
    have hsix := congrArg List.length hbytes
    rw [List.length_map, List.length_map, hlength] at hsix
    have hsplit := splitOn_intercalate_pairs hpairs (List.ne_nil_of_length_eq_add_one hlength)
    match bytes, hsix with
    | [b₀, b₁, b₂, b₃, b₄, b₅], _ =>
      refine ⟨⟨b₀, b₁, b₂, b₃, b₄, b₅⟩, toLower_eq_text_iff.mpr ?_⟩
      rw [htext, hsplit]
      exact hbytes

theorem length_of_isAddressText (htext : IsAddressText text) : text.length = 17 := by
  obtain ⟨address, hlower⟩ := exists_address_iff.mpr htext
  have hlength := congrArg List.length (congrArg String.toList hlower)
  rw [Text.toList_toLower, List.length_map, String.length_toList] at hlength
  rw [hlength, Address.text, String.toList_ofList]
  rfl

/-- **Exactly the texts of addresses are read, in either case.**  A text is read as an address if in
lower case it is the text of that address; the texts that are read are those of seventeen characters
that follow the grammar, and any other comes back with the fault.  A reader that goes from colon to
colon answers the same. -/
theorem parse_inverts_text (text : String) :
    (∀ address, parse text = .ok address ↔ text.toLower = address.text) ∧
      ((∃ address, parse text = .ok address) ↔ text.length = 17 ∧ IsAddressText text) ∧
      (parse text = .error (.address text) ↔ ¬ IsAddressText text) ∧
      parseGroups text = parse text := by
  have haccepted : (∃ address, parse text = .ok address) ↔ IsAddressText text := by
    simp only [parse_eq_ok_iff]
    exact exists_address_iff
  refine ⟨fun address => parse_eq_ok_iff, ?_, ?_, parseGroups_eq_parse text⟩
  · rw [haccepted]
    exact ⟨fun htext => ⟨length_of_isAddressText htext, htext⟩, And.right⟩
  · rw [parse_eq_error_iff, haccepted]

end HubLink.Node.Address
