import HubLink.Json.Fault

/-!
# Between the values

Blanks may stand around every value; words such as `null` are read letter by letter, so that a word
that is cut off is a truncated text and any other letter breaks the grammar.
-/

namespace HubLink.Json

open Text (byte)

/-- A blank: space, tab, line feed or carriage return. -/
def isBlank (b : UInt8) : Bool :=
  b == 32 || b == 9 || b == 10 || b == 13

/-- The text behind its leading blanks. -/
def skipBlanks (text : List UInt8) : List UInt8 :=
  text.dropWhile isBlank

/-- The text behind an expected word. -/
def expectWord : (word text : List UInt8) → Except Fault (List UInt8)
  | [], text => .ok text
  | _ :: _, [] => .error .truncated
  | expected :: word, actual :: text =>
    if actual = expected then expectWord word text else .error .malformed

/-- The text behind an expected mark, blanks before it allowed. -/
def expectMark (mark : Char) (text : List UInt8) : Except Fault (List UInt8) :=
  match skipBlanks text with
  | [] => .error .truncated
  | b :: rest => if b = byte mark then .ok rest else .error .malformed

/-- Nothing but blanks is left of a text. -/
def expectEnd (text : List UInt8) : Except Fault Unit :=
  if (skipBlanks text).isEmpty then .ok () else .error .malformed

end HubLink.Json
