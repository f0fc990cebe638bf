import HubLink.Json.Printer
import HubLink.Proofs.Json.Grammar
import HubLink.Proofs.Json.Member
import Mathlib.Algebra.Order.Ring.Nat

/-!
# Sizes of printed values

A frame has room for so many bytes, so it matters how long a printed value can get.  A byte of a text
takes one byte or up to six, the shortest and the longest way to escape it; a whole number takes a
byte for each digit and one for its sign.  The members of an object add up, each with two bytes for
the marks around it, and no more is printed than was put in, in whatever order it was put in
(`length_print_ofMembers_le`).
-/

namespace HubLink.Json

open Text (byte ascii)

/-! ## Texts and numbers -/

theorem length_escapedByte_le (b : UInt8) : (escapedByte b).length ≤ 6 := by
  unfold escapedByte
  split
  · simp
  · split
    · cases shortLetter? b <;> simp [ascii]
    · simp

theorem length_flatMap_escapedByte_le (content : List UInt8) :
    (content.flatMap escapedByte).length ≤ 6 * content.length := by
  induction content with
  | nil => exact Nat.le_refl 0
  | cons b more ih =>
      have hb := length_escapedByte_le b
      rw [List.flatMap_cons, List.length_append, List.length_cons]
      omega

/-- A control takes six bytes, and nothing takes more. -/
theorem length_literal_le (value : String) :
    (literal value).length ≤ 6 * (Text.bytes value).length + 2 := by
  have hcontent := length_flatMap_escapedByte_le (Text.bytes value)
  rw [literal, List.length_append, List.length_cons, List.length_singleton]
  omega

theorem escapedByte_of_isUnescaped {b : UInt8} (hplain : IsUnescaped b) : escapedByte b = [b] := by
  obtain ⟨hcontrol, hmarks⟩ := hplain
  rw [escapedByte, if_neg (not_or.mpr hmarks), if_neg hcontrol]

/-- A text without bytes to escape is as long as it is, and its quotes. -/
theorem length_literal_of_isUnescaped {value : String}
    (hplain : ∀ b ∈ Text.bytes value, IsUnescaped b) :
    (literal value).length = (Text.bytes value).length + 2 := by
  have hone : (Text.bytes value).map (fun b => (escapedByte b).length) =
      (Text.bytes value).map fun _ => 1 :=
    List.map_congr_left fun b hb => by rw [escapedByte_of_isUnescaped (hplain b hb)]; rfl
  rw [literal, List.length_append, List.length_cons, List.length_singleton, List.length_flatMap,
    hone, List.map_const', List.sum_replicate_nat, Nat.mul_one]

theorem length_decimal_le {n : Nat} (places : Nat) (hplaces : 0 < places) (hn : n < 10 ^ places) :
    (Text.decimal n).length ≤ places := by
  rw [Text.decimal, Text.length_ascii]
  exact (Nat.length_toDigits_le_iff (by decide) hplaces).mpr hn

theorem length_decimalInt_le {n : Int} (places : Nat) (hplaces : 0 < places)
    (hn : n.natAbs < 10 ^ places) : (Text.decimalInt n).length ≤ places + 1 := by
  have hdigits := length_decimal_le places hplaces hn
  unfold Text.decimalInt
  split
  · exact Nat.succ_le_succ hdigits
  · exact Nat.le_succ_of_le hdigits

/-! ## Objects -/

/-- The bytes of a member, and two for the marks around it. -/
def memberSize (m : String × Json) : Nat :=
  (literal m.1).length + (print m.2).length + 2

/-- The bytes of some members. -/
def membersSize (members : List (String × Json)) : Nat :=
  (members.map memberSize).sum

@[simp]
theorem membersSize_nil : membersSize [] = 0 := rfl

@[simp]
theorem membersSize_cons (m : String × Json) (more : List (String × Json)) :
    membersSize (m :: more) = memberSize m + membersSize more := by
  rw [membersSize, List.map_cons, List.sum_cons, membersSize]

theorem length_printMembers_le (first : Bool) (members : List (String × Json)) :
    (printMembers first members).length ≤ membersSize members := by
  induction members generalizing first with
  | nil => exact Nat.le_refl 0
  | cons m more ih =>
      have hmore := ih false
      have hcomma : (if first then [] else [byte ',']).length ≤ 1 := by
        cases first <;> decide
      rw [printMembers, membersSize_cons, memberSize]
      simp only [List.length_append, List.length_cons]
      omega

theorem length_print_object_le (members : List (String × Json)) :
    (print (.object members)).length ≤ membersSize members + 2 := by
  have hmembers := length_printMembers_le true members
  rw [print, List.length_append, List.length_cons, List.length_singleton]
  omega

/-- A member that is put in takes the place of another or is added. -/
theorem membersSize_put_le (key : String) (value : Json) (members : List (String × Json)) :
    membersSize (put key value members) ≤ memberSize (key, value) + membersSize members := by
  induction members with
  | nil => exact Nat.le_refl _
  | cons first rest ih =>
      obtain ⟨key', value'⟩ := first
      unfold put
      split
      · rw [membersSize_cons]
      · split
        · rw [membersSize_cons, membersSize_cons]
          omega
        · rw [membersSize_cons, membersSize_cons]
          omega

theorem membersSize_putAll_le (members acc : List (String × Json)) :
    membersSize (putAll members acc) ≤ membersSize members + membersSize acc := by
  induction members generalizing acc with
  | nil => exact Nat.le_add_left _ _
  | cons first rest ih =>
      obtain ⟨key, value⟩ := first
      have hput := membersSize_put_le key value acc
      calc membersSize (putAll rest (put key value acc))
          ≤ membersSize rest + membersSize (put key value acc) := ih _
        _ ≤ membersSize ((key, value) :: rest) + membersSize acc := by
            rw [membersSize_cons]
            omega

/-- **An object is no longer than the members that it was built from.** -/
theorem length_print_ofMembers_le (members : List (String × Json)) :
    (print (ofMembers members)).length ≤ membersSize members + 2 := by
  have hput := membersSize_putAll_le members []
  rw [membersSize_nil] at hput
  exact Nat.le_trans (length_print_object_le _) (Nat.add_le_add_right hput 2)

end HubLink.Json
