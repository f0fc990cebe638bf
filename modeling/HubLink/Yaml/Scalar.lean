import HubLink.Yaml.Character
import HubLink.Bytes.Hex

/-!
# Scalars

A scalar is a piece of text, written in one of five styles: plain, in single or double quotes, or as
a block of lines that are kept (literal) or folded.  In the first three a line break inside the text
is folded: a single one stands for a space, of several the first is dropped.

A reader answers with the text and what is left, or with `none` where the text breaks the rules.
-/

namespace HubLink.Yaml

/-- How a scalar is written. -/
inductive Style where
  | plain
  | singleQuoted
  | doubleQuoted
  | literal
  | folded
  deriving DecidableEq, Repr

namespace Scalar

/-- What the blanks and line breaks between two words of a scalar stand for.  Blanks beside a line
break say nothing. -/
def fold (space : List Char) : List Char :=
  match space.filter isBreak with
  | [] => space
  | ['\n'] => [' ']
  | '\n' :: more => more
  | breaks => breaks

/-! ## Plain scalars -/

/-- Whether a colon or a flow indicator ends a plain scalar here. -/
def endsPlain (inFlow : Bool) (c : Char) (rest : List Placed) : Bool :=
  (c == ':' && atSpace rest) || (inFlow && [',', '[', ']', '\x7b', '\x7d'].contains c)

/-- Whether a colon stands where neither a value nor a word can follow. -/
def isStrayColon (inFlow : Bool) (c : Char) (rest : List Placed) : Bool :=
  inFlow && c == ':' && nextIs [',', '?', '[', ']', '\x7b', '\x7d'].contains rest

/-- The characters of a plain scalar up to the next space. -/
def word (inFlow : Bool) : List Placed → Option (List Char × List Placed)
  | [] => some ([], [])
  | p :: rest =>
    if isSpace p.char then some ([], p :: rest)
    else if isStrayColon inFlow p.char rest then none
    else if endsPlain inFlow p.char rest then some ([], p :: rest)
    else (word inFlow rest).map fun (chars, rest) => (p.char :: chars, rest)

/-- Whether a tab stands in the indentation of a later line. -/
def hasTabIndent (depth : Nat) (space : List Placed) : Bool :=
  (space.dropWhile (!isBreak ·.char)).any fun p => p.char == '\t' && p.column < depth

/-- Whether the next word stands too far left to belong to a block of the given depth. -/
def isOutside (depth : Nat) : List Placed → Bool
  | [] => true
  | p :: _ => p.column < depth

/-- A plain scalar: its text, whether it ends at a line break, and what is left.  `depth` is the
first column that belongs to it.  Each round takes a space, so the length of the text is fuel
enough. -/
def readPlain (inFlow : Bool) (depth : Nat) :
    (fuel : Nat) → List Placed → Option (List Char × Bool × List Placed)
  | 0, text => some ([], false, text)
  | fuel + 1, text =>
    if atDocumentMark text || isNext '#' text then some ([], false, text)
    else do
      let (chars, rest) ← word inFlow text
      let (space, rest) := rest.span (isSpace ·.char)
      if space.isEmpty then some (chars, false, rest)
      else if hasTabIndent depth space then none
      else
        let broken := space.any (isBreak ·.char)
        if !inFlow && isOutside depth rest then some (chars, broken, rest)
        else
          let (more, moreBroken, rest) ← readPlain inFlow depth fuel rest
          if more.isEmpty then some (chars, broken, rest)
          else some (chars ++ fold (space.map (·.char)) ++ more, moreBroken, rest)

/-! ## Quoted scalars -/

/-- The character that a short escape stands for. -/
def shortEscape? : Char → Option Char
  | '0' => some '\x00'
  | 'a' => some '\x07'
  | 'b' => some '\x08'
  | 't' => some '\t'
  | '\t' => some '\t'
  | 'n' => some '\n'
  | 'v' => some '\x0b'
  | 'f' => some '\x0c'
  | 'r' => some '\r'
  | 'e' => some '\x1b'
  | ' ' => some ' '
  | '"' => some '"'
  | '/' => some '/'
  | '\\' => some '\\'
  | 'N' => some '\x85'
  | '_' => some '\xa0'
  | 'L' => some '\u2028'
  | 'P' => some '\u2029'
  | _ => none

/-- How many hexadecimal digits follow the letter of a long escape. -/
def longEscape? : Char → Option Nat
  | 'x' => some 2
  | 'u' => some 4
  | 'U' => some 8
  | _ => none

/-- The character with the given code point, if there is one. -/
def charOf? (code : Nat) : Option Char :=
  if code.isValidChar then some (Char.ofNat code) else none

/-- The character that an escape stands for, and what is left behind it. -/
def escape? : List Placed → Option (Char × List Placed)
  | [] => none
  | p :: rest =>
    match shortEscape? p.char, longEscape? p.char with
    | some c, _ => some (c, rest)
    | none, none => none
    | none, some count => do
      let digits ← (rest.take count).mapM fun p => Hex.value? p.char
      if digits.length < count then none
      else
        let c ← charOf? (digits.foldl (fun code digit => 16 * code + digit) 0)
        some (c, rest.drop count)

/-- A scalar in single quotes, from behind the opening quote.  Each round takes a character, so the
length of the text is fuel enough. -/
def readSingleQuoted : (fuel : Nat) → List Placed → Option (List Char × List Placed)
  | 0, _ => none
  | _ + 1, [] => none
  | fuel + 1, p :: rest =>
    if atDocumentMark (p :: rest) then none
    else if isSpace p.char then
      let (space, rest) := span isSpace (p :: rest)
      (readSingleQuoted fuel rest).map fun (chars, rest) => (fold space ++ chars, rest)
    else if p.char != '\'' then
      (readSingleQuoted fuel rest).map fun (chars, rest) => (p.char :: chars, rest)
    else if isNext '\'' rest then
      (readSingleQuoted fuel rest.tail).map fun (chars, rest) => ('\'' :: chars, rest)
    else some ([], rest)

/-- A scalar in double quotes, from behind the opening quote.  An escaped line break joins two lines
without a space; further breaks behind it are kept. -/
def readDoubleQuoted : (fuel : Nat) → List Placed → Option (List Char × List Placed)
  | 0, _ => none
  | _ + 1, [] => none
  | fuel + 1, p :: rest =>
    if atDocumentMark (p :: rest) then none
    else if isSpace p.char then
      let (space, rest) := span isSpace (p :: rest)
      (readDoubleQuoted fuel rest).map fun (chars, rest) => (fold space ++ chars, rest)
    else if p.char == '"' then some ([], rest)
    else if p.char != '\\' then
      (readDoubleQuoted fuel rest).map fun (chars, rest) => (p.char :: chars, rest)
    else if nextIs isBreak rest then
      let (space, rest) := span isSpace rest.tail
      (readDoubleQuoted fuel rest).map fun (chars, rest) =>
        (space.filter isBreak ++ chars, rest)
    else do
      let (c, rest) ← escape? rest
      (readDoubleQuoted fuel rest).map fun (chars, rest) => (c :: chars, rest)

/-! ## Block scalars -/

/-- What becomes of the line breaks at the end of a block scalar. -/
inductive Chomping where
  /-- All of them are dropped. -/
  | strip
  /-- One is kept. -/
  | clip
  /-- All of them are kept. -/
  | keep
  deriving DecidableEq, Repr

/-- A chomping indicator. -/
def chomping? : Char → Option Chomping
  | '-' => some .strip
  | '+' => some .keep
  | _ => none

/-- The chomping indicator that may come next. -/
def readChomping : List Placed → Chomping × List Placed
  | [] => (.clip, [])
  | p :: rest =>
    match chomping? p.char with
    | some chomping => (chomping, rest)
    | none => (.clip, p :: rest)

/-- The indentation indicator that may come next; `none` for a zero. -/
def readIncrement? : List Placed → Option (Option Nat × List Placed)
  | [] => some (none, [])
  | p :: rest =>
    if p.char == '0' then none
    else if p.char.isDigit then some (some (p.char.toNat - '0'.toNat), rest)
    else some (none, p :: rest)

/-- The two indicators behind the style of a block scalar, in either order. -/
def readHeader? (text : List Placed) : Option (Chomping × Option Nat × List Placed) :=
  if nextIs (fun c => (chomping? c).isSome) text then do
    let (chomping, rest) := readChomping text
    let (increment, rest) ← readIncrement? rest
    some (chomping, increment, rest)
  else do
    let (increment, rest) ← readIncrement? text
    if increment.isNone then some (.clip, none, rest)
    else
      let (chomping, rest) := readChomping rest
      some (chomping, increment, rest)

/-- The empty lines in front of a line of a block scalar: their breaks, the widest indentation seen,
and what is left.  An indentation of `none` is yet to be found, so every space belongs to it.  There
is no answer for a tab inside the indentation. -/
def readEmptyLines? (indent : Option Nat) : List Placed → Option (List Char × Nat × List Placed)
  | [] => some ([], 0, [])
  | p :: rest =>
    let inside := match indent with
      | none => true
      | some indent => p.column < indent
    if inside && p.char == ' ' then readEmptyLines? indent rest
    else if inside && p.char == '\t' then none
    else if isBreak p.char then
      (readEmptyLines? indent rest).map fun (breaks, widest, rest) =>
        (p.char :: breaks, max p.column widest, rest)
    else some ([], p.column, p :: rest)

/-- The breaks that stand between two lines of a block scalar, as they are kept.  `first` is the
break that ended the line before, `more` those of the empty lines after it, and a line that starts
with a blank is never folded into its neighbour. -/
def joint (folded : Bool) (afterBlank beforeBlank : Bool) (first more : List Char) : List Char :=
  if folded && first == ['\n'] && !afterBlank && !beforeBlank then
    if more.isEmpty then [' '] else more
  else first ++ more

/-- The lines of a block scalar: its text, the break behind the last line, the breaks of the empty
lines after it, and what is left.  Each round takes a character, so the length of the text is fuel
enough. -/
def readLines (folded : Bool) (indent : Nat) :
    (fuel : Nat) → (afterBlank : Bool) → (first more : List Char) → List Placed →
      Option (List Char × List Char × List Char × List Placed)
  | 0, _, first, more, text => some ([], first, more, text)
  | _ + 1, _, first, more, [] => some ([], first, more, [])
  | fuel + 1, afterBlank, first, more, p :: rest =>
    if p.column != indent then some ([], first, more, p :: rest)
    else do
      let (line, rest) := span (!isBreak ·) (p :: rest)
      let (nextFirst, rest) := (rest.take 1, rest.drop 1)
      let (nextMore, _, rest) ← readEmptyLines? (some indent) rest
      let (lines, lastFirst, lastMore, rest) ←
        readLines folded indent fuel (isBlank p.char) (nextFirst.map (·.char)) nextMore rest
      some (joint folded afterBlank (isBlank p.char) first more ++ line ++ lines, lastFirst,
        lastMore, rest)

/-- A block scalar from behind its style indicator.  `depth` is the first column that belongs to the
block around it. -/
def readBlock (folded : Bool) (depth : Nat) (text : List Placed) :
    Option (List Char × List Placed) := do
  let (chomping, increment, rest) ← readHeader? text
  let rest ← finishLine? rest
  let stated := increment.map (depth - 1 + ·)
  let (breaks, widest, rest) ← readEmptyLines? stated rest
  let indent := stated.getD (max widest (max depth 1))
  let (lines, first, more, rest) ← readLines folded indent rest.length false [] breaks rest
  match chomping with
  | .strip => some (lines, rest)
  | .clip => some (lines ++ first, rest)
  | .keep => some (lines ++ first ++ more, rest)

end Scalar

end HubLink.Yaml
