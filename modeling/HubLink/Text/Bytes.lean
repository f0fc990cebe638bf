/-!
# Text as bytes

Text crosses the link as its UTF-8 bytes, and every reader of this library works on those bytes.
This module fixes the two directions.  `ofBytes?_eq_some_iff` says that a text is read from exactly
the bytes it is written as, so no two byte strings stand for one text.
-/

namespace HubLink.Text

/-- The UTF-8 bytes of a text. -/
def bytes (text : String) : List UInt8 :=
  text.toByteArray.data.toList

/-- The text whose UTF-8 form is `content`, when `content` is well formed. -/
def ofBytes? (content : List UInt8) : Option String :=
  String.fromUTF8? ⟨content.toArray⟩

/-- Printed text as a `String`; the empty text stands for bytes that are no UTF-8. -/
def ofBytes (content : List UInt8) : String :=
  (ofBytes? content).getD ""

@[simp]
theorem ofBytes?_bytes (text : String) : ofBytes? (bytes text) = some text := by
  have hvalid : text.toByteArray.IsValidUTF8 := text.isValidUTF8
  simp [ofBytes?, bytes, String.fromUTF8?, hvalid, String.fromUTF8]

theorem bytes_of_ofBytes? {content : List UInt8} {text : String}
    (hread : ofBytes? content = some text) : bytes text = content := by
  unfold ofBytes? String.fromUTF8? at hread
  split at hread
  · cases hread
    rfl
  · cases hread

/-- A text is read from exactly the bytes it is written as. -/
theorem ofBytes?_eq_some_iff {content : List UInt8} {text : String} :
    ofBytes? content = some text ↔ content = bytes text :=
  ⟨fun hread => (bytes_of_ofBytes? hread).symm, fun heq => heq ▸ ofBytes?_bytes text⟩

end HubLink.Text
