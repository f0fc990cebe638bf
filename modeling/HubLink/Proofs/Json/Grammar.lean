import HubLink.Json.Skip
import HubLink.Proofs.Text.Digits

/-!
# The grammar of JSON texts

What a JSON text is can be said without any reader: numerals by their parts, string literals element
by element, arrays and objects by what may stand from behind their opening mark, or behind an entry,
up to the closing mark.  A literal need not denote text to be grammatical; what a literal denotes is
a relation of its own (`Denotes`), and keys have to denote one.

A value may stand anywhere in a text.  The byte behind it is a blank, a comma or a closing bracket
(`Bounded`), and no such byte continues it.
-/

namespace HubLink.Json

open Text (byte ascii IsRun)

/-! ## Blanks -/

/-- Blanks, and nothing else. -/
def IsBlanks (text : List UInt8) : Prop :=
  ∀ b ∈ text, isBlank b = true

/-- What may stand behind a value: nothing, a blank, a comma or a closing bracket. -/
def Bounded (rest : List UInt8) : Prop :=
  ∀ b ∈ rest.head?, isBlank b = true ∨ b = byte ',' ∨ b = byte ']' ∨ b = byte '\x7d'

/-- What stands before an entry: blanks, around a comma unless the entry is the first. -/
inductive IsLead : (first : Bool) → List UInt8 → Prop
  | first {blanks : List UInt8} (hblanks : IsBlanks blanks) : IsLead true blanks
  | next {before behind : List UInt8} (hbefore : IsBlanks before) (hbehind : IsBlanks behind) :
      IsLead false (before ++ byte ',' :: behind)

/-! ## Numerals -/

/-- A point and digits, or nothing. -/
inductive IsFraction : List UInt8 → Prop
  | absent : IsFraction []
  | present {digits : List UInt8} (hdigits : IsRun digits) : IsFraction (byte '.' :: digits)

/-- A letter of either case, perhaps a sign, and digits, or nothing. -/
inductive IsExponent : List UInt8 → Prop
  | absent : IsExponent []
  | present {letter : UInt8} {sign digits : List UInt8}
      (hletter : letter = byte 'e' ∨ letter = byte 'E')
      (hsign : sign = [] ∨ sign = [byte '+'] ∨ sign = [byte '-']) (hdigits : IsRun digits) :
      IsExponent (letter :: (sign ++ digits))

/-- Perhaps a minus, digits that do not lead with a zero unless that is all, and what may follow. -/
inductive IsNumeral : List UInt8 → Prop
  | mk {sign whole fraction exponent : List UInt8} (hsign : sign = [] ∨ sign = [byte '-'])
      (hwhole : IsRun whole) (hzero : whole.head? = some (byte '0') → whole.length = 1)
      (hfraction : IsFraction fraction) (hexponent : IsExponent exponent) :
      IsNumeral (sign ++ (whole ++ (fraction ++ exponent)))

/-! ## String literals -/

/-- A byte that stands for itself inside a literal. -/
def IsUnescaped (b : UInt8) : Prop :=
  ¬ b < 32 ∧ b ≠ byte '"' ∧ b ≠ byte '\\'

/-- The escapes of one letter, each with the byte that it stands for. -/
def shortEscapes : List (UInt8 × UInt8) :=
  [(byte '"', 34), (byte '\\', 92), (byte '/', 47), (byte 'b', 8), (byte 'f', 12), (byte 'n', 10),
    (byte 'r', 13), (byte 't', 9)]

/-- The hexadecimal digits, each with its value. -/
def hexDigits : List (UInt8 × Nat) :=
  (ascii "0123456789abcdef".toList).zipIdx ++ (ascii "ABCDEF".toList).zipIdx 10

/-- Four hexadecimal digits and the number that they stand for. -/
inductive HexCode : List UInt8 → Nat → Prop
  | mk {h₀ h₁ h₂ h₃ : UInt8} {n₀ n₁ n₂ n₃ : Nat} (h0 : (h₀, n₀) ∈ hexDigits)
      (h1 : (h₁, n₁) ∈ hexDigits) (h2 : (h₂, n₂) ∈ hexDigits) (h3 : (h₃, n₃) ∈ hexDigits) :
      HexCode [h₀, h₁, h₂, h₃] (4096 * n₀ + 256 * n₁ + 16 * n₂ + n₃)

/-- The character that a pair of surrogates stands for. -/
def pairCode (leading trailing : Nat) : Nat :=
  0x10000 + 1024 * (leading - 0xD800) + (trailing - 0xDC00)

/-- What may stand between the quotes of a literal. -/
inductive IsContent : List UInt8 → Prop
  | nil : IsContent []
  | plain {b : UInt8} {more : List UInt8} (hplain : IsUnescaped b) (hmore : IsContent more) :
      IsContent (b :: more)
  | short {letter meaning : UInt8} {more : List UInt8} (hletter : (letter, meaning) ∈ shortEscapes)
      (hmore : IsContent more) : IsContent (byte '\\' :: letter :: more)
  | unicode {digits more : List UInt8} {code : Nat} (hdigits : HexCode digits code)
      (hmore : IsContent more) : IsContent (byte '\\' :: byte 'u' :: (digits ++ more))

/-- The bytes that are denoted by what stands between the quotes of a literal.  A surrogate escape
denotes nothing alone, only a leading one with a trailing one behind it. -/
inductive Denotes : (content bytes : List UInt8) → Prop
  | nil : Denotes [] []
  | plain {b : UInt8} {more bytes : List UInt8} (hplain : IsUnescaped b)
      (hmore : Denotes more bytes) : Denotes (b :: more) (b :: bytes)
  | short {letter meaning : UInt8} {more bytes : List UInt8}
      (hletter : (letter, meaning) ∈ shortEscapes) (hmore : Denotes more bytes) :
      Denotes (byte '\\' :: letter :: more) (meaning :: bytes)
  | unicode {digits more bytes : List UInt8} {code : Nat} (hdigits : HexCode digits code)
      (hcode : code < 0xD800 ∨ 0xDFFF < code) (hmore : Denotes more bytes) :
      Denotes (byte '\\' :: byte 'u' :: (digits ++ more)) (encodeChar code ++ bytes)
  | pair {digits digits' more bytes : List UInt8} {leading trailing : Nat}
      (hdigits : HexCode digits leading) (hleading : 0xD800 ≤ leading ∧ leading ≤ 0xDBFF)
      (hdigits' : HexCode digits' trailing) (htrailing : 0xDC00 ≤ trailing ∧ trailing ≤ 0xDFFF)
      (hmore : Denotes more bytes) :
      Denotes (byte '\\' :: byte 'u' :: (digits ++ byte '\\' :: byte 'u' :: (digits' ++ more)))
        (encodeChar (pairCode leading trailing) ++ bytes)

/-! ## Values -/

/-- The words that are values. -/
def words : List (List UInt8) :=
  [ascii ['n', 'u', 'l', 'l'], ascii ['t', 'r', 'u', 'e'], ascii ['f', 'a', 'l', 's', 'e']]

/-- A word, a numeral or a literal. -/
inductive IsScalar : List UInt8 → Prop
  | word {text : List UInt8} (hword : text ∈ words) : IsScalar text
  | numeral {text : List UInt8} (hnumeral : IsNumeral text) : IsScalar text
  | string {content : List UInt8} (hcontent : IsContent content) :
      IsScalar (byte '"' :: (content ++ [byte '"']))

/-- The parts that a text is made of. -/
inductive Part where
  /-- A value. -/
  | value
  /-- What is left of an array or object, its closing mark included; `first` directly behind the
  opening mark, and otherwise behind an entry. -/
  | rest (bracket : Bracket) (first : Bool)
  deriving DecidableEq, Repr

/-- **The grammar of JSON**, blanks around the whole apart. -/
inductive Grammatical : Part → List UInt8 → Prop
  | scalar {text : List UInt8} (hscalar : IsScalar text) : Grammatical .value text
  | array {rest : List UInt8} (hrest : Grammatical (.rest .square true) rest) :
      Grammatical .value (byte '[' :: rest)
  | object {rest : List UInt8} (hrest : Grammatical (.rest .curly true) rest) :
      Grammatical .value (byte '\x7b' :: rest)
  | closed (bracket : Bracket) (first : Bool) {blanks : List UInt8} (hblanks : IsBlanks blanks) :
      Grammatical (.rest bracket first) (blanks ++ [byte bracket.closing])
  | item {first : Bool} {lead value rest : List UInt8} (hlead : IsLead first lead)
      (hvalue : Grammatical .value value) (hrest : Grammatical (.rest .square false) rest) :
      Grammatical (.rest .square first) (lead ++ (value ++ rest))
  | member {first : Bool} {lead content before behind value rest : List UInt8}
      (hlead : IsLead first lead) (hcontent : IsContent content) (hbefore : IsBlanks before)
      (hbehind : IsBlanks behind) (hvalue : Grammatical .value value)
      (hrest : Grammatical (.rest .curly false) rest) :
      Grammatical (.rest .curly first) (lead ++ byte '"' :: (content ++ byte '"' :: (before ++
        byte ':' :: (behind ++ (value ++ rest)))))

/-- A JSON value without blanks around it. -/
def IsValue (text : List UInt8) : Prop :=
  Grammatical .value text

end HubLink.Json
