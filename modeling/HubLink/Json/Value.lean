import HubLink.Binary.Real
import HubLink.Text.Ascii

/-!
# JSON values

The body of a message is a JSON value.  A whole number within 64 bits is kept exactly, any other
number as a 64-bit binary number; the members of an object stand in the order of their keys, each
key once.

The type itself admits values that no reader yields, so what a reader promises is said separately:
`Json.WellFormed` holds when whole numbers are in range, binary numbers are finite and keys ascend.
-/

namespace HubLink

/-- A JSON value. -/
inductive Json where
  | null
  | bool (value : Bool)
  /-- A whole number within 64 bits. -/
  | integer (value : Int)
  /-- Any other number. -/
  | real (value : Double)
  | string (value : String)
  | array (items : List Json)
  /-- Members in ascending order of their keys. -/
  | object (members : List (String × Json))
  deriving BEq, Repr, Inhabited

namespace Json

/-- The whole numbers that are kept exactly: from `-2 ^ 63` to `2 ^ 64 - 1`. -/
def IsWhole (n : Int) : Prop :=
  -(Int64.size / 2 : Nat) ≤ n ∧ n < UInt64.size

instance (n : Int) : Decidable (IsWhole n) :=
  inferInstanceAs (Decidable (_ ∧ _))

/-- Puts a member into ascending members, in place of one with the same key. -/
def put (key : String) (value : Json) : List (String × Json) → List (String × Json)
  | [] => [(key, value)]
  | (key', value') :: rest =>
    if key < key' then (key, value) :: (key', value') :: rest
    else if key = key' then (key, value) :: rest
    else (key', value') :: put key value rest

/-- The object with the given members; of two with one key the later counts. -/
def ofMembers (members : List (String × Json)) : Json :=
  .object (members.foldl (fun acc (key, value) => put key value acc) [])

/-- The members of an object under the given key. -/
def member? (key : String) : List (String × Json) → Option Json :=
  List.lookup key

mutual

/-- Numbers are in range and finite, and the keys of every object ascend. -/
def WellFormed : Json → Prop
  | .null | .bool _ | .string _ => True
  | .integer n => IsWhole n
  | .real number => number.isFinite = true
  | .array items => WellFormedItems items
  | .object members => (members.map Prod.fst).Pairwise (· < ·) ∧ WellFormedMembers members

/-- Every item is well formed. -/
def WellFormedItems : List Json → Prop
  | [] => True
  | item :: rest => WellFormed item ∧ WellFormedItems rest

/-- Every member's value is well formed. -/
def WellFormedMembers : List (String × Json) → Prop
  | [] => True
  | (_, value) :: rest => WellFormed value ∧ WellFormedMembers rest

end

mutual

/-- How deep the brackets of the written value nest. -/
def depth : Json → Nat
  | .array items => depthItems items + 1
  | .object members => depthMembers members + 1
  | _ => 0

/-- The greatest depth among the items. -/
def depthItems : List Json → Nat
  | [] => 0
  | item :: rest => max (depth item) (depthItems rest)

/-- The greatest depth among the members. -/
def depthMembers : List (String × Json) → Nat
  | [] => 0
  | (_, value) :: rest => max (depth value) (depthMembers rest)

end

end Json

end HubLink
