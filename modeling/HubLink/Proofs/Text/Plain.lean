import HubLink.Text.Bytes

/-!
# Bytes that are text

Bytes below 128 are text: each of them is the UTF-8 form of one character.  So a format that writes
nothing else gets back the bytes that it wrote (`bytes_ofBytes`), and a text of such bytes has one
character a byte (`toList_of_bytes`).
-/

namespace HubLink.Text

/-- What holds of the first 128 characters holds of every character of ASCII. -/
theorem forall_ascii {P : Char → Prop} (hall : ∀ n < 128, P (Char.ofNat n)) {c : Char}
    (hascii : c.toNat < 128) : P c := by
  have hc := hall c.toNat hascii
  rwa [Char.ofNat_toNat] at hc

theorem toList_toLower (text : String) : text.toLower.toList = text.toList.map Char.toLower :=
  String.toList_map

theorem utf8EncodeChar_ofNat {n : Nat} (hn : n < 128) :
    String.utf8EncodeChar (Char.ofNat n) = [UInt8.ofNat n] := by
  revert n
  decide

/-- The text of bytes below 128. -/
theorem bytes_ofList {content : List UInt8} (hcontent : ∀ b ∈ content, b < 128) :
    bytes (String.ofList (content.map fun b => Char.ofNat b.toNat)) = content := by
  have hchars : (content.map fun b => Char.ofNat b.toNat).flatMap String.utf8EncodeChar =
      content := by
    induction content with
    | nil => rfl
    | cons b rest ih =>
        have hb : b.toNat < 128 := hcontent b List.mem_cons_self
        have hrest := ih fun c hc => hcontent c (List.mem_cons_of_mem _ hc)
        rw [List.map_cons, List.flatMap_cons, hrest, utf8EncodeChar_ofNat hb, UInt8.ofNat_toNat,
          List.singleton_append]
  unfold bytes
  rw [String.toByteArray_ofList, List.utf8Encode, hchars]
  simp

theorem bytes_ofBytes {content : List UInt8} (hcontent : ∀ b ∈ content, b < 128) :
    bytes (ofBytes content) = content := by
  have hread := ofBytes?_eq_some_iff.mpr (bytes_ofList hcontent).symm
  rw [ofBytes, hread, Option.getD_some, bytes_ofList hcontent]

theorem bytes_injective {first second : String} (hbytes : bytes first = bytes second) :
    first = second := by
  have hread := ofBytes?_bytes first
  rw [hbytes, ofBytes?_bytes] at hread
  exact (Option.some.inj hread).symm

/-- A text of bytes below 128 has one character for each of them. -/
theorem toList_of_bytes {text : String} (htext : ∀ b ∈ bytes text, b < 128) :
    text.toList = (bytes text).map fun b => Char.ofNat b.toNat := by
  have hsame := bytes_injective (bytes_ofList htext)
  rw [← String.toList_inj, String.toList_ofList] at hsame
  exact hsame.symm

end HubLink.Text
