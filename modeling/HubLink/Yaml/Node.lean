import HubLink.Yaml.Token

/-!
# Nodes of a YAML text

A text is one node: a scalar, a sequence or a mapping, or an alias that stands for a node named by
its anchor.  A missing key or value counts as an empty plain scalar, and so does an empty text.  A
text of several documents is refused.

Anchors are numbered.  The number of an anchor is the count of the names known before it, and an
alias goes by the latest anchor of its name that stands before it.
-/

namespace HubLink.Yaml

/-- What may stand in front of a node. -/
structure Properties where
  /-- The number of the anchor. -/
  anchor : Option Nat := none
  tag : Option (List UInt8) := none
  deriving DecidableEq, Repr

/-- A node. -/
inductive Node where
  | alias (number : Nat)
  | scalar (properties : Properties) (style : Style) (text : List Char)
  | sequence (properties : Properties) (items : List Node)
  | mapping (properties : Properties) (members : List (Node × Node))
  deriving Repr

namespace Node

/-- What stands where nothing is written. -/
def empty : Node :=
  .scalar {} .plain []

/-! ## Reading the tokens of a node -/

/-- The tokens that are left, and the numbers of the anchors so far. -/
structure Rest where
  tokens : List Token
  numbers : List (List Char × Nat) := []

/-- Goes on behind some tokens. -/
def Rest.behind (rest : Rest) (tokens : List Token) : Rest :=
  { rest with tokens }

/-- Numbers an anchor. -/
def Rest.number (rest : Rest) (name : List Char) : Nat × Rest :=
  let number := rest.numbers.length
  (number, { rest with numbers := (name, number) :: rest.numbers.filter (·.1 != name) })

/-- What the tags of a document start with, by handle. -/
abbrev Handles := List (List UInt8 × List UInt8)

/-- A tag in full. -/
def resolve? (handles : Handles) (tag : WrittenTag) : Option (List UInt8) :=
  if tag.handle.isEmpty then some tag.suffix
  else (handles.lookup tag.handle).map (· ++ tag.suffix)

/-- The anchor and the tag in front of a node, in either order. -/
def writtenProperties : List Token → Option (List Char) × Option WrittenTag × List Token
  | .anchor name :: .tag tag :: rest => (some name, some tag, rest)
  | .tag tag :: .anchor name :: rest => (some name, some tag, rest)
  | .anchor name :: rest => (some name, none, rest)
  | .tag tag :: rest => (none, some tag, rest)
  | rest => (none, none, rest)

/-- The properties in front of a node. -/
def readProperties? (handles : Handles) (rest : Rest) : Option (Properties × Rest) := do
  let (anchor, tag, tokens) := writtenProperties rest.tokens
  let tag ← match tag with
    | none => some none
    | some tag => (resolve? handles tag).map some
  match anchor with
  | none => some (⟨none, tag⟩, rest.behind tokens)
  | some name =>
    let (number, rest) := (rest.behind tokens).number name
    some (⟨some number, tag⟩, rest)

/-- The tag of an exclamation mark alone, which says that a scalar is what it looks like. -/
def isNeutral (tag : List UInt8) : Bool :=
  tag == Tag.bytes ['!']

/-- A written scalar. -/
def ofScalar (properties : Properties) (style : Style) (text : List Char) : Node :=
  .scalar { properties with tag := properties.tag.filter (!isNeutral ·) } style text

/-- A node for which only properties are written. -/
def ofProperties? (properties : Properties) : Option Node :=
  if properties.anchor.isSome || properties.tag.isSome then some (.scalar properties .plain [])
  else none

/-- Whether an item of a block is left out. -/
def endsItem : List Token → Bool
  | [] | .blockEntry :: _ | .blockEnd :: _ => true
  | _ => false

/-- Whether a key or a value of a block is left out. -/
def endsMember : List Token → Bool
  | [] | .key :: _ | .value :: _ | .blockEnd :: _ => true
  | _ => false

/-- Whether a key or a value of a flow mapping is left out. -/
def endsFlowMember : List Token → Bool
  | [] | .value :: _ | .flowEntry :: _ | .flowMappingEnd :: _ => true
  | _ => false

/-- Whether a key or a value of a pair in a flow sequence is left out. -/
def endsPair : List Token → Bool
  | [] | .value :: _ | .flowEntry :: _ | .flowSequenceEnd :: _ => true
  | _ => false

mutual

/-- A node.  A sequence whose dashes stand below a key needs no indentation (`flush`), and only in a
block (`block`) can a block start.  Of the readers below at most three are entered for each token, so
three times the number of tokens is fuel enough for all of them. -/
def read? (handles : Handles) : (fuel : Nat) → (block flush : Bool) → Rest → Option (Node × Rest)
  | 0, _, _, _ => none
  | fuel + 1, block, flush, rest =>
    match rest.tokens with
    | .alias name :: tokens => do
      some (.alias (← rest.numbers.lookup name), rest.behind tokens)
    | _ => do
      let (properties, rest) ← readProperties? handles rest
      match rest.tokens, flush, block with
      | .blockEntry :: _, true, _ =>
        let (items, rest) ← readFlushItems? handles fuel rest
        some (.sequence properties items, rest)
      | .scalar style text :: tokens, _, _ =>
        some (ofScalar properties style text, rest.behind tokens)
      | .flowSequenceStart :: tokens, _, _ =>
        let (items, rest) ← readFlowItems? handles fuel true (rest.behind tokens)
        some (.sequence properties items, rest)
      | .flowMappingStart :: tokens, _, _ =>
        let (members, rest) ← readFlowMembers? handles fuel true (rest.behind tokens)
        some (.mapping properties members, rest)
      | .blockSequenceStart :: tokens, _, true =>
        let (items, rest) ← readItems? handles fuel (rest.behind tokens)
        some (.sequence properties items, rest)
      | .blockMappingStart :: tokens, _, true =>
        let (members, rest) ← readMembers? handles fuel (rest.behind tokens)
        some (.mapping properties members, rest)
      | _, _, _ => some (← ofProperties? properties, rest)

/-- The items of a block sequence. -/
def readItems? (handles : Handles) : (fuel : Nat) → Rest → Option (List Node × Rest)
  | 0, _ => none
  | fuel + 1, rest =>
    match rest.tokens with
    | .blockEntry :: tokens => do
      let (item, rest) ←
        if endsItem tokens then some (empty, rest.behind tokens)
        else read? handles fuel true false (rest.behind tokens)
      let (items, rest) ← readItems? handles fuel rest
      some (item :: items, rest)
    | .blockEnd :: tokens => some ([], rest.behind tokens)
    | _ => none

/-- The items of a sequence whose dashes stand below its key. -/
def readFlushItems? (handles : Handles) : (fuel : Nat) → Rest → Option (List Node × Rest)
  | 0, _ => none
  | fuel + 1, rest =>
    match rest.tokens with
    | .blockEntry :: tokens => do
      let (item, rest) ←
        if endsItem tokens || endsMember tokens then some (empty, rest.behind tokens)
        else read? handles fuel true false (rest.behind tokens)
      let (items, rest) ← readFlushItems? handles fuel rest
      some (item :: items, rest)
    | _ => some ([], rest)

/-- The members of a block mapping. -/
def readMembers? (handles : Handles) : (fuel : Nat) → Rest → Option (List (Node × Node) × Rest)
  | 0, _ => none
  | fuel + 1, rest =>
    match rest.tokens with
    | .key :: tokens => do
      let (key, rest) ←
        if endsMember tokens then some (empty, rest.behind tokens)
        else read? handles fuel true true (rest.behind tokens)
      let (value, rest) ←
        match rest.tokens with
        | .value :: tokens =>
          if endsMember tokens then some (empty, rest.behind tokens)
          else read? handles fuel true true (rest.behind tokens)
        | _ => some (empty, rest)
      let (members, rest) ← readMembers? handles fuel rest
      some ((key, value) :: members, rest)
    | .blockEnd :: tokens => some ([], rest.behind tokens)
    | _ => none

/-- The items of a flow sequence; all but the first stand behind a comma, and the last may be
followed by one. -/
def readFlowItems? (handles : Handles) :
    (fuel : Nat) → (first : Bool) → Rest → Option (List Node × Rest)
  | 0, _, _ => none
  | fuel + 1, first, rest =>
    match first, rest.tokens with
    | _, .flowSequenceEnd :: tokens => some ([], rest.behind tokens)
    | false, .flowEntry :: .flowSequenceEnd :: tokens => some ([], rest.behind tokens)
    | false, .flowEntry :: tokens => readFlowItem? handles fuel (rest.behind tokens)
    | false, _ => none
    | true, _ => readFlowItem? handles fuel rest

/-- An item of a flow sequence and those behind it.  A key makes it a mapping of one member. -/
def readFlowItem? (handles : Handles) : (fuel : Nat) → Rest → Option (List Node × Rest)
  | 0, _ => none
  | fuel + 1, rest => do
    let (item, rest) ←
      match rest.tokens with
      | .key :: tokens => readPair? handles fuel (rest.behind tokens)
      | _ => read? handles fuel false false rest
    let (items, rest) ← readFlowItems? handles fuel false rest
    some (item :: items, rest)

/-- A mapping of one member in a flow sequence, from behind its key indicator.  Where the key is left
out, the token that shows it is taken. -/
def readPair? (handles : Handles) : (fuel : Nat) → Rest → Option (Node × Rest)
  | 0, _ => none
  | fuel + 1, rest => do
    let (key, rest) ←
      if endsPair rest.tokens then some (empty, rest.behind rest.tokens.tail)
      else read? handles fuel false false rest
    let (value, rest) ←
      match rest.tokens with
      | .value :: tokens =>
        match tokens with
        | .flowEntry :: _ | .flowSequenceEnd :: _ => some (empty, rest.behind tokens)
        | _ => read? handles fuel false false (rest.behind tokens)
      | _ => some (empty, rest)
    some (.mapping {} [(key, value)], rest)

/-- The members of a flow mapping; all but the first stand behind a comma, and the last may be
followed by one. -/
def readFlowMembers? (handles : Handles) :
    (fuel : Nat) → (first : Bool) → Rest → Option (List (Node × Node) × Rest)
  | 0, _, _ => none
  | fuel + 1, first, rest =>
    match first, rest.tokens with
    | _, .flowMappingEnd :: tokens => some ([], rest.behind tokens)
    | false, .flowEntry :: .flowMappingEnd :: tokens => some ([], rest.behind tokens)
    | false, .flowEntry :: tokens => readFlowMember? handles fuel (rest.behind tokens)
    | false, _ => none
    | true, _ => readFlowMember? handles fuel rest

/-- A member of a flow mapping and those behind it.  What no key announces is a key without a
value. -/
def readFlowMember? (handles : Handles) :
    (fuel : Nat) → Rest → Option (List (Node × Node) × Rest)
  | 0, _ => none
  | fuel + 1, rest => do
    let (member, rest) ←
      match rest.tokens with
      | .key :: tokens => do
        let (key, rest) ←
          if endsFlowMember tokens then some (empty, rest.behind tokens)
          else read? handles fuel false false (rest.behind tokens)
        let (value, rest) ←
          match rest.tokens with
          | .value :: tokens =>
            match tokens with
            | .flowEntry :: _ | .flowMappingEnd :: _ => some (empty, rest.behind tokens)
            | _ => read? handles fuel false false (rest.behind tokens)
          | _ => some (empty, rest)
        some ((key, value), rest)
      | _ => do
        let (key, rest) ← read? handles fuel false false rest
        some ((key, empty), rest)
    let (members, rest) ← readFlowMembers? handles fuel false rest
    some (member :: members, rest)

end

/-! ## Documents -/

/-- The handles that every document knows. -/
def defaultHandles : Handles :=
  [(Tag.bytes ['!'], Tag.bytes ['!']),
    (Tag.bytes ['!', '!'], Tag.bytes "tag:yaml.org,2002:".toList)]

/-- The directives in front of a document: whether a version is stated, the handles, and what is
left.  A second version, a version that is not understood, and a second meaning of a handle are
refused. -/
def readDirectives? : (versioned : Bool) → Handles → List Token → Option (Handles × List Token)
  | versioned, handles, .directive (.version major minor) :: rest =>
    if versioned || major != 1 || (minor != 1 && minor != 2) then none
    else readDirectives? true handles rest
  | versioned, handles, .directive (.handle name start) :: rest =>
    if (handles.lookup name).isSome then none
    else readDirectives? versioned ((name, start) :: handles) rest
  | _, handles, rest => some (handles, rest)

/-- Whether nothing is written between the start of a document and what follows it. -/
def endsDocument : List Token → Bool
  | [] | .directive _ :: _ | .documentStart :: _ | .documentEnd :: _ => true
  | _ => false

/-- Whether a document is announced, by directives or by its start mark. -/
def isAnnounced : List Token → Bool
  | .directive _ :: _ | .documentStart :: _ => true
  | _ => false

/-- The node that a list of tokens stands for. -/
def ofTokens? (tokens : List Token) : Option Node := do
  let (handles, content) ←
    if isAnnounced tokens then do
      let (handles, rest) ← readDirectives? false [] tokens
      match rest with
      | .documentStart :: content => some (handles, content)
      | _ => none
    else some ([], tokens)
  let (root, rest) ←
    if tokens.isEmpty || (isAnnounced tokens && endsDocument content) then
      some (empty, { tokens := content })
    else
      read? (handles ++ defaultHandles) (3 * (tokens.length + 1)) true false { tokens := content }
  if rest.tokens.all (· == .documentEnd) then some root else none

/-- The node that a text stands for, if it is one YAML document. -/
def ofText? (text : List Char) : Option Node := do
  ofTokens? (← Token.ofText? text)

/-! ## Aliases -/

mutual

/-- The nodes with an anchor, in the order of their starts. -/
def anchored : Node → List (Nat × Node)
  | .alias _ => []
  | .scalar properties style text =>
    (properties.anchor.map fun number => (number, .scalar properties style text)).toList
  | .sequence properties items =>
    (properties.anchor.map fun number => (number, .sequence properties items)).toList ++
      anchoredItems items
  | .mapping properties members =>
    (properties.anchor.map fun number => (number, .mapping properties members)).toList ++
      anchoredMembers members

/-- The same for the items of a sequence. -/
def anchoredItems : List Node → List (Nat × Node)
  | [] => []
  | item :: rest => anchored item ++ anchoredItems rest

/-- The same for the members of a mapping. -/
def anchoredMembers : List (Node × Node) → List (Nat × Node)
  | [] => []
  | (key, value) :: rest => anchored key ++ anchored value ++ anchoredMembers rest

end

/-- The node that an alias within `root` stands for, the last one of its number; every other node
stands for itself. -/
def target (root : Node) : Node → Node
  | .alias number => ((anchored root).reverse.lookup number).getD empty
  | node => node

end Node

end HubLink.Yaml
