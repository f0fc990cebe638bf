/-!
# Characters of a YAML text

In YAML the column of a word decides what it belongs to, so every character is kept together with
the place it stands at.  Line breaks have several spellings; the common ones are all read as a line
feed here, so that no later step has to tell them apart.
-/

namespace HubLink.Yaml

/-- A character and the place it stands at, all counted from zero. -/
structure Placed where
  char : Char
  /-- How many characters stand before it. -/
  index : Nat
  line : Nat
  column : Nat
  deriving DecidableEq, Repr

/-- A character that a YAML text may hold: no control but tab, line breaks and next line. -/
def isAllowed (c : Char) : Bool :=
  c == '\t' || c == '\n' || c == '\r' || (' ' ≤ c && c ≤ '~') || c == '\x85' ||
    ('\xa0' ≤ c && c != '\ufffe' && c != '\uffff')

/-- A space or a tab. -/
def isBlank (c : Char) : Bool :=
  c == ' ' || c == '\t'

/-- The end of a line, once the common spellings are one. -/
def isBreak (c : Char) : Bool :=
  c == '\n' || c == '\u2028' || c == '\u2029'

/-- A blank or the end of a line. -/
def isSpace (c : Char) : Bool :=
  isBlank c || isBreak c

/-- A character of a name. -/
def isNameChar (c : Char) : Bool :=
  c.isAlphanum || c == '_' || c == '-'

/-- The one spelling of a line break. -/
def normal (c : Char) : Char :=
  if c == '\r' || c == '\x85' then '\n' else c

/-- Places the characters of a text whose first one stands at the given place. -/
def placeFrom (index line column : Nat) : List Char → List Placed
  | [] => []
  | '\r' :: '\n' :: rest => ⟨'\n', index, line, column⟩ :: placeFrom (index + 2) (line + 1) 0 rest
  | c :: rest =>
    ⟨normal c, index, line, column⟩ ::
      if isBreak (normal c) then placeFrom (index + 1) (line + 1) 0 rest
      else placeFrom (index + 1) line (column + 1) rest

/-- The placed characters of a text, if it may be a YAML text. -/
def place? (text : List Char) : Option (List Placed) :=
  if text.all isAllowed then some (placeFrom 0 0 0 text) else none

/-! ## Looking ahead -/

/-- Whether the given character comes next. -/
def isNext (c : Char) : List Placed → Bool
  | [] => false
  | p :: _ => p.char == c

/-- Whether the next character has a property; not so at the end of the text. -/
def nextIs (property : Char → Bool) : List Placed → Bool
  | [] => false
  | p :: _ => property p.char

/-- Whether no word continues here: a blank, a line break or the end of the text comes next. -/
def atSpace : List Placed → Bool
  | [] => true
  | p :: _ => isSpace p.char

/-- Whether three of the given character stand alone at the start of a line. -/
def isRule (c : Char) : List Placed → Bool
  | first :: second :: third :: rest =>
    first.column == 0 && first.char == c && second.char == c && third.char == c && atSpace rest
  | _ => false

/-- Whether a mark between documents comes next. -/
def atDocumentMark (text : List Placed) : Bool :=
  isRule '-' text || isRule '.' text

/-- The leading characters with a property, and the text behind them. -/
def span (property : Char → Bool) (text : List Placed) : List Char × List Placed :=
  let (taken, rest) := text.span (property ·.char)
  (taken.map (·.char), rest)

/-- The text behind its leading blanks. -/
def skipBlanks (text : List Placed) : List Placed :=
  text.dropWhile (isBlank ·.char)

/-- The text behind a comment, if one starts here. -/
def skipComment (text : List Placed) : List Placed :=
  if isNext '#' text then text.dropWhile (!isBreak ·.char) else text

/-- The next line, provided nothing but blanks and a comment is left of this one. -/
def finishLine? (text : List Placed) : Option (List Placed) :=
  match skipComment (skipBlanks text) with
  | [] => some []
  | p :: rest => if isBreak p.char then some rest else none

end HubLink.Yaml
