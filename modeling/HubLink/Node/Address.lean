import HubLink.Bytes.Hex
import HubLink.LinkFault

/-!
# Hardware addresses

A node is known by six bytes, written as six pairs of hexadecimal digits with colons between them.
Reading takes digits of either case, writing gives lower case, and nothing else is an address.
-/

namespace HubLink.Node

/-- The hardware address of a node. -/
structure Address where
  b₀ : UInt8
  b₁ : UInt8
  b₂ : UInt8
  b₃ : UInt8
  b₄ : UInt8
  b₅ : UInt8
  deriving DecidableEq, Repr, Inhabited

namespace Address

/-- The address of all zeros. -/
def zero : Address := ⟨0, 0, 0, 0, 0, 0⟩

/-- The bytes of an address in the order in which they are written. -/
def bytes (address : Address) : List UInt8 :=
  [address.b₀, address.b₁, address.b₂, address.b₃, address.b₄, address.b₅]

/-- The characters of an address. -/
def chars (address : Address) : List Char :=
  Hex.digits address.b₀ ++ ':' :: (Hex.digits address.b₁ ++ ':' :: (Hex.digits address.b₂ ++
    ':' :: (Hex.digits address.b₃ ++ ':' :: (Hex.digits address.b₄ ++
      ':' :: Hex.digits address.b₅))))

/-- The text of an address. -/
def text (address : Address) : String :=
  String.ofList address.chars

/-- The byte of two hexadecimal digits. -/
def octet? (high low : Char) : Option UInt8 := do
  let h ← Hex.value? high
  let l ← Hex.value? low
  return UInt8.ofNat (16 * h + l)

/-- Reads an address from its characters. -/
def ofChars? : List Char → Option Address
  | [h₀, l₀, ':', h₁, l₁, ':', h₂, l₂, ':', h₃, l₃, ':', h₄, l₄, ':', h₅, l₅] => do
    let b₀ ← octet? h₀ l₀
    let b₁ ← octet? h₁ l₁
    let b₂ ← octet? h₂ l₂
    let b₃ ← octet? h₃ l₃
    let b₄ ← octet? h₄ l₄
    let b₅ ← octet? h₅ l₅
    return ⟨b₀, b₁, b₂, b₃, b₄, b₅⟩
  | _ => none

/-- Reads an address; a text that is none comes back in the fault. -/
def parse (text : String) : Except LinkFault Address :=
  match ofChars? text.toList with
  | some address => .ok address
  | none => .error (.address text)

end Address

end HubLink.Node
