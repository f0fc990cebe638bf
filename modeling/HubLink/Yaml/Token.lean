import HubLink.Yaml.Scalar
import HubLink.Yaml.Tag

/-!
# Tokens of a YAML text

A token is a scalar, a property of a node, an indicator, or the start or end of a block.  Blocks have
no brackets of their own: a block starts where a key or an item stands further right than the block
around it, and ends where a token stands further left.

Whether a scalar is a key is known only when its colon is seen.  So the place where a key might have
started is kept as a candidate, and the tokens that announce the key are put there later.  A
candidate must meet its colon on its own line and within 1024 characters.
-/

namespace HubLink.Yaml

/-- A token. -/
inductive Token where
  | directive (directive : Directive)
  | documentStart
  | documentEnd
  | blockSequenceStart
  | blockMappingStart
  | blockEnd
  | flowSequenceStart
  | flowSequenceEnd
  | flowMappingStart
  | flowMappingEnd
  | blockEntry
  | flowEntry
  | key
  | value
  | alias (name : List Char)
  | anchor (name : List Char)
  | tag (tag : WrittenTag)
  | scalar (style : Style) (text : List Char)
  deriving DecidableEq, Repr

namespace Token

/-- A place where a key may have started. -/
structure Candidate where
  /-- Whether nothing but a key may stand there. -/
  required : Bool
  /-- The number of tokens before it. -/
  number : Nat
  /-- The first character of it. -/
  start : Placed
  deriving DecidableEq, Repr

/-- What has been read of a text. -/
structure Scan where
  /-- What is left of the text. -/
  text : List Placed
  /-- The tokens so far, the newest first. -/
  tokens : List Token := []
  /-- The first column that belongs to the innermost open block; zero outside of all blocks. -/
  depth : Nat := 0
  /-- The same for the blocks around it, the nearest first. -/
  outerDepths : List Nat := []
  /-- The candidate for a key in the innermost collection. -/
  candidate : Option Candidate := none
  /-- The same for the collections around it, one for each open flow collection. -/
  outerCandidates : List (Option Candidate) := []
  /-- Whether a key may start here. -/
  keyAllowed : Bool := true
  deriving DecidableEq, Repr

namespace Scan

/-- Whether a flow collection is open. -/
def inFlow (scan : Scan) : Bool :=
  !scan.outerCandidates.isEmpty

/-- Adds a token and goes on behind it. -/
def emit (scan : Scan) (token : Token) (text : List Placed) : Scan :=
  { scan with tokens := token :: scan.tokens, text := text }

/-- Puts a token behind the first `number` ones. -/
def insert (scan : Scan) (token : Token) (number : Nat) : Scan :=
  { scan with tokens := scan.tokens.insertIdx (scan.tokens.length - number) token }

/-! ## Blocks -/

/-- Starts a block at a column, unless the innermost block holds the column already.  Flow
collections have brackets and no blocks. -/
def openBlock (scan : Scan) (token : Token) (column number : Nat) : Scan :=
  if scan.inFlow || column < scan.depth then scan
  else
    { scan.insert token number with
      depth := column + 1, outerDepths := scan.depth :: scan.outerDepths }

/-- Starts a block before the token that comes next. -/
def openBlockHere (scan : Scan) (token : Token) (column : Nat) : Scan :=
  scan.openBlock token column scan.tokens.length

/-- Ends the open blocks whose first column lies beyond `least`. -/
def unwind (least : Nat) : (depth : Nat) → (outer : List Nat) → List Token →
    Nat × List Nat × List Token
  | depth, [], tokens => (depth, [], tokens)
  | depth, next :: outer, tokens =>
    if least < depth then unwind least next outer (.blockEnd :: tokens)
    else (depth, next :: outer, tokens)

/-- Ends the blocks that a token further left is no part of. -/
def closeBlocks (scan : Scan) (least : Nat) : Scan :=
  if scan.inFlow then scan
  else
    let (depth, outerDepths, tokens) := unwind least scan.depth scan.outerDepths scan.tokens
    { scan with depth, outerDepths, tokens }

/-! ## Candidates for keys -/

/-- Gives up the candidate; there is no answer if it had to be a key. -/
def dropCandidate? (scan : Scan) : Option Scan :=
  match scan.candidate with
  | some candidate => if candidate.required then none else some { scan with candidate := none }
  | none => some scan

/-- Notes that a key may start here. -/
def noteCandidate? (scan : Scan) (start : Placed) : Option Scan :=
  if !scan.keyAllowed then some scan
  else do
    let required := !scan.inFlow && scan.depth == start.column + 1
    let scan ← scan.dropCandidate?
    some { scan with candidate := some ⟨required, scan.tokens.length, start⟩ }

/-- Whether a candidate is too far behind to be a key. -/
def Candidate.isStale (candidate : Candidate) (current : Placed) : Bool :=
  candidate.start.line < current.line || candidate.start.index + 1024 < current.index

/-- Gives up a candidate that is too far behind. -/
def retire? (current : Placed) : Option Candidate → Option (Option Candidate)
  | none => some none
  | some candidate =>
    if !Candidate.isStale candidate current then some (some candidate)
    else if candidate.required then none
    else some none

/-- Gives up all candidates that are too far behind. -/
def retireCandidates? (scan : Scan) (current : Placed) : Option Scan := do
  let candidate ← retire? current scan.candidate
  let outerCandidates ← scan.outerCandidates.mapM (retire? current)
  some { scan with candidate, outerCandidates }

/-! ## Reading tokens -/

/-- A byte order mark at the start of a line, which takes a place but says nothing. -/
def isOrderMark (p : Placed) : Bool :=
  p.column == 0 && p.char == '\ufeff'

/-- Goes on to the start of the next token, past blanks, comments and line breaks, and says whether a
key may start there.  A tab is no blank where an indentation may stand. -/
def skip (inFlow : Bool) : (inComment keyAllowed : Bool) → List Placed → Bool × List Placed
  | _, keyAllowed, [] => (keyAllowed, [])
  | inComment, keyAllowed, p :: rest =>
    if isBreak p.char then skip inFlow false (keyAllowed || !inFlow) rest
    else if inComment || isOrderMark p || p.char == ' ' ||
        (p.char == '\t' && (inFlow || !keyAllowed)) then
      skip inFlow inComment keyAllowed rest
    else if p.char == '#' then skip inFlow true keyAllowed rest
    else (keyAllowed, p :: rest)

/-- A token that stands outside of all blocks. -/
def readOutside? (scan : Scan) (token : Token) (text : List Placed) : Option Scan := do
  let scan ← (scan.closeBlocks 0).dropCandidate?
  some { scan.emit token text with keyAllowed := false }

/-- The opening bracket of a flow collection, which may be a key itself. -/
def openFlow? (scan : Scan) (token : Token) (start : Placed) (rest : List Placed) :
    Option Scan := do
  let scan ← scan.noteCandidate? start
  some { scan.emit token rest with
    candidate := none
    outerCandidates := scan.candidate :: scan.outerCandidates
    keyAllowed := true }

/-- The closing bracket of a flow collection. -/
def closeFlow? (scan : Scan) (token : Token) (rest : List Placed) : Option Scan := do
  let scan ← scan.dropCandidate?
  let scan := { scan.emit token rest with keyAllowed := false }
  match scan.outerCandidates with
  | [] => some scan
  | candidate :: outerCandidates => some { scan with candidate, outerCandidates }

/-- The comma of a flow collection. -/
def readFlowEntry? (scan : Scan) (rest : List Placed) : Option Scan := do
  let scan ← scan.dropCandidate?
  some { scan.emit .flowEntry rest with keyAllowed := true }

/-- The dash of an item. -/
def readBlockEntry? (scan : Scan) (start : Placed) (rest : List Placed) : Option Scan := do
  if !scan.inFlow && !scan.keyAllowed then none
  else
    let scan ← (scan.openBlockHere .blockSequenceStart start.column).dropCandidate?
    some { scan.emit .blockEntry rest with keyAllowed := true }

/-- The question mark of a key. -/
def readKey? (scan : Scan) (start : Placed) (rest : List Placed) : Option Scan := do
  if !scan.inFlow && !scan.keyAllowed then none
  else
    let scan ← (scan.openBlockHere .blockMappingStart start.column).dropCandidate?
    some { scan.emit .key rest with keyAllowed := !scan.inFlow }

/-- The colon of a value.  A candidate becomes a key by it; without one the key was announced
before, or is empty. -/
def readValue? (scan : Scan) (start : Placed) (rest : List Placed) : Option Scan :=
  match scan.candidate with
  | some candidate =>
    let scan := scan.insert .key candidate.number
    let scan := scan.openBlock .blockMappingStart candidate.start.column candidate.number
    some { scan.emit .value rest with candidate := none, keyAllowed := false }
  | none =>
    if !scan.inFlow && !scan.keyAllowed then none
    else
      let scan := scan.openBlockHere .blockMappingStart start.column
      some { scan.emit .value rest with keyAllowed := !scan.inFlow }

/-- A token that may start a key: a scalar on a line, or a property. -/
def readWord? (scan : Scan) (start : Placed) (found : Option (Token × List Placed)) :
    Option Scan := do
  let scan ← scan.noteCandidate? start
  let (token, rest) ← found
  some { scan.emit token rest with keyAllowed := false }

/-- A plain scalar.  A key may follow one that ends with its line. -/
def readPlain? (scan : Scan) (start : Placed) (text : List Placed) : Option Scan := do
  let scan ← scan.noteCandidate? start
  let (chars, broken, rest) ← Scalar.readPlain scan.inFlow scan.depth text.length text
  some { scan.emit (.scalar .plain chars) rest with keyAllowed := broken }

/-- A block scalar, which cannot be a key. -/
def readBlock? (scan : Scan) (style : Style) (rest : List Placed) : Option Scan := do
  if scan.inFlow then none
  else
    let scan ← scan.dropCandidate?
    let (chars, rest) ← Scalar.readBlock (style == .folded) scan.depth rest
    some { scan.emit (.scalar style chars) rest with keyAllowed := true }

/-- The token that starts with the character `p`. -/
def readToken? (scan : Scan) (p : Placed) (rest : List Placed) : Option Scan :=
  if p.column == 0 && p.char == '%' then do
    let (stated, rest) ← Tag.readDirective? rest
    scan.readOutside? (.directive stated) rest
  else if isRule '-' (p :: rest) then scan.readOutside? .documentStart (rest.drop 2)
  else if isRule '.' (p :: rest) then scan.readOutside? .documentEnd (rest.drop 2)
  else if isSpace p.char then none
  else
    match p.char with
    | '[' => scan.openFlow? .flowSequenceStart p rest
    | '\x7b' => scan.openFlow? .flowMappingStart p rest
    | ']' => scan.closeFlow? .flowSequenceEnd rest
    | '\x7d' => scan.closeFlow? .flowMappingEnd rest
    | ',' => scan.readFlowEntry? rest
    | '-' =>
      if atSpace rest then scan.readBlockEntry? p rest else scan.readPlain? p (p :: rest)
    | '?' =>
      if scan.inFlow || atSpace rest then scan.readKey? p rest
      else scan.readPlain? p (p :: rest)
    | ':' =>
      if scan.inFlow || atSpace rest then scan.readValue? p rest
      else scan.readPlain? p (p :: rest)
    | '*' => scan.readWord? p do
      let (name, rest) ← Tag.readName? rest
      some (.alias name, rest)
    | '&' => scan.readWord? p do
      let (name, rest) ← Tag.readName? rest
      some (.anchor name, rest)
    | '!' => scan.readWord? p do
      let (written, rest) ← Tag.read? scan.inFlow rest
      some (.tag written, rest)
    | '\'' => scan.readWord? p do
      let (chars, rest) ← Scalar.readSingleQuoted rest.length rest
      some (.scalar .singleQuoted chars, rest)
    | '"' => scan.readWord? p do
      let (chars, rest) ← Scalar.readDoubleQuoted rest.length rest
      some (.scalar .doubleQuoted chars, rest)
    | '|' => scan.readBlock? .literal rest
    | '>' => scan.readBlock? .folded rest
    | '%' | '@' | '\x60' => none
    | _ => scan.readPlain? p (p :: rest)

/-- The tokens of a whole text.  Each round takes a character, so one more than the length of the
text is fuel enough. -/
def run : (fuel : Nat) → Scan → Option (List Token)
  | 0, _ => none
  | fuel + 1, scan => do
    let (keyAllowed, text) := skip scan.inFlow false scan.keyAllowed scan.text
    let scan := { scan with keyAllowed, text }
    match text with
    | [] => (scan.closeBlocks 0).dropCandidate?.map (·.tokens.reverse)
    | p :: rest =>
      let scan ← scan.retireCandidates? p
      run fuel (← (scan.closeBlocks (p.column + 1)).readToken? p rest)

end Scan

/-- The tokens of a text, if it breaks no rule. -/
def ofText? (text : List Char) : Option (List Token) := do
  let placed ← place? text
  Scan.run (placed.length + 1) { text := placed }

end Token

end HubLink.Yaml
