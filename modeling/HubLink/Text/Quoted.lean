import HubLink.Text.Unprintable
import HubLink.Bytes.Hex

/-!
# Quoted text

Text inside a message is set in double quotes, so that a reader of the message sees where it starts
and ends.  A quote, a backslash and the common controls have a short escape; every other character
that has no shape of its own is given by its code point.
-/

namespace HubLink.Text

/-- The lower-case hexadecimal digits of a number, without leading zeros. -/
def hexDigits (n : Nat) : List Char :=
  Nat.toDigits 16 n

/-- A character as it stands inside quotes. -/
def escaped (c : Char) : List Char :=
  match c with
  | '"' => ['\\', '"']
  | '\\' => ['\\', '\\']
  | '\n' => ['\\', 'n']
  | '\r' => ['\\', 'r']
  | '\t' => ['\\', 't']
  | '\x00' => ['\\', '0']
  | c =>
    if ' ' ≤ c ∧ c ≤ '~' then [c]
    else if combining.contains c || unprintable.contains c then
      ['\\', 'u', '\x7b'] ++ hexDigits c.toNat ++ ['\x7d']
    else [c]

/-- A text as it stands between the quotes. -/
def escapedText (text : String) : String :=
  String.ofList (text.toList.flatMap escaped)

/-- A text in double quotes. -/
def quoted (text : String) : String :=
  "\"" ++ escapedText text ++ "\""

/-- The name of a file in double quotes.  An apostrophe is escaped there too. -/
def quotedName (name : String) : String :=
  let escapedIn (c : Char) := if c = '\'' then ['\\', c] else escaped c
  "\"" ++ String.ofList (name.toList.flatMap escapedIn) ++ "\""

end HubLink.Text
