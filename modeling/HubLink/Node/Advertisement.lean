import HubLink.Bytes.LittleEndian
import HubLink.Json.Printer
import HubLink.Json.TextRecord
import HubLink.Node.Address
import HubLink.Node.Flags

/-!
# Advertisements

A node broadcasts a summary of its latest sample in seventeen bytes: company, layout version,
address, battery, reading, faults and a counter that tells fresh samples from repeated ones.  The
receiver adds the signal strength, which is never on the air.

An advertisement has a second form, a JSON object, with the same fields.  There a reading is written
with the fewest digits that give back its 32 bits, and one that is not finite is null, which no
reader takes for a number.
-/

namespace HubLink.Node

/-- A decoded advertisement. -/
structure Advertisement where
  /-- The company that the layout belongs to. -/
  companyId : UInt16
  /-- The version of the layout. -/
  version : UInt8
  /-- The address of the node. -/
  nodeId : Address
  /-- The battery estimate in percent. -/
  batteryPercent : UInt8
  /-- The latest reading. -/
  lastReading : Single
  /-- The faults that are active. -/
  faultFlags : FaultFlags
  /-- Counts samples. -/
  counter : UInt16
  /-- The signal strength at the receiver. -/
  rssi : Option Int16
  deriving DecidableEq, Repr, Inhabited

namespace Advertisement

/-- The bytes of an advertisement. -/
def size : Nat := 17

/-- The layout version in use. -/
def currentVersion : UInt8 := 1

/-- The company whose layout is used. -/
def defaultCompany : UInt16 := 0x0059

/-- The advertisement of a node without faults, before its first sample. -/
def initial (nodeId : Address) (batteryPercent : UInt8) (lastReading : Single) : Advertisement where
  companyId := defaultCompany
  version := currentVersion
  nodeId := nodeId
  batteryPercent := batteryPercent
  lastReading := lastReading
  faultFlags := .empty
  counter := 0
  rssi := none

/-- Attaches the signal strength. -/
def withRssi (adv : Advertisement) (rssi : Int16) : Advertisement :=
  { adv with rssi := some rssi }

/-- Counts one more sample; the counter wraps. -/
def nextSample (adv : Advertisement) : Advertisement :=
  { adv with counter := adv.counter + 1 }

/-- The seventeen bytes of an advertisement. -/
def encode (adv : Advertisement) : List UInt8 :=
  LittleEndian.bytes16 adv.companyId ++ [adv.version] ++ adv.nodeId.bytes ++
    [adv.batteryPercent] ++ LittleEndian.bytes32 adv.lastReading.bits ++ [adv.faultFlags.bits] ++
      LittleEndian.bytes16 adv.counter

/-- Reads an advertisement from at least seventeen bytes; what follows them is ignored. -/
def decode : List UInt8 → Option Advertisement
  | c₀ :: c₁ :: version :: a₀ :: a₁ :: a₂ :: a₃ :: a₄ :: a₅ :: battery :: r₀ :: r₁ :: r₂ :: r₃ ::
      faults :: n₀ :: n₁ :: _ =>
    some {
      companyId := LittleEndian.word16 c₀ c₁
      version := version
      nodeId := ⟨a₀, a₁, a₂, a₃, a₄, a₅⟩
      batteryPercent := battery
      lastReading := ⟨LittleEndian.word32 r₀ r₁ r₂ r₃⟩
      faultFlags := ⟨faults⟩
      counter := LittleEndian.word16 n₀ n₁
      rssi := none }
  | _ => none

/-- Whether two readings are equal as numbers: zeros of either sign are, a NaN equals nothing. -/
def sameReading (first second : Single) : Bool :=
  first.magnitude ≤ Binary.Format.single.infinity &&
    (first.bits == second.bits || (first.magnitude == 0 && second.magnitude == 0))

/-- Whether two advertisements agree in every field, the readings compared as numbers. -/
def agrees (first second : Advertisement) : Bool :=
  { first with lastReading := second.lastReading } == second &&
    sameReading first.lastReading second.lastReading

/-! ## The JSON form -/

/-- The text of a 32-bit number; one that is not finite has none and is written as null. -/
def readingText (reading : Single) : List UInt8 :=
  if reading.isFinite then Text.ascii reading.text else Text.bytes "null"

/-- The members of the JSON form in order, each with the text of its value. -/
def members (adv : Advertisement) : List (String × List UInt8) :=
  [("companyId", Text.decimal adv.companyId.toNat),
    ("version", Text.decimal adv.version.toNat),
    ("nodeId", Json.literal adv.nodeId.text),
    ("batteryPercent", Text.decimal adv.batteryPercent.toNat),
    ("lastReading", readingText adv.lastReading),
    ("faultFlags", Text.decimal adv.faultFlags.bits.toNat),
    ("counter", Text.decimal adv.counter.toNat)] ++
  match adv.rssi with
  | none => []
  | some rssi => [("rssi", Text.decimalInt rssi.toInt)]

/-- The JSON form of an advertisement. -/
def print (adv : Advertisement) : List UInt8 :=
  Json.printFields adv.members

/-- The JSON form as a value, in which the reading is a 64-bit number. -/
def toJson (adv : Advertisement) : Json :=
  .ofMembers <|
    [("companyId", .integer adv.companyId.toNat),
      ("version", .integer adv.version.toNat),
      ("nodeId", .string adv.nodeId.text),
      ("batteryPercent", .integer adv.batteryPercent.toNat),
      ("lastReading",
        if adv.lastReading.isFinite then .real adv.lastReading.widen else .null),
      ("faultFlags", .integer adv.faultFlags.bits.toNat),
      ("counter", .integer adv.counter.toNat)] ++
    match adv.rssi with
    | none => []
    | some rssi => [("rssi", .integer rssi.toInt)]

/-- What has been read of the JSON form. -/
structure Draft where
  companyId : Option UInt16 := none
  version : Option UInt8 := none
  nodeId : Option Address := none
  batteryPercent : Option UInt8 := none
  lastReading : Option Single := none
  faultFlags : Option FaultFlags := none
  counter : Option UInt16 := none
  rssi : Option (Option Int16) := none

end Advertisement

/-- Reads an address as a JSON text. -/
def Address.readJson : Json.Reader Address := fun text => do
  let (value, rest) ← Json.readText text
  match Address.parse value with
  | .ok address => .ok (address, rest)
  | .error fault => .error (.mismatch (.refused fault))

/-- Reads a byte of flags as a JSON number. -/
def readFlags : Json.Reader UInt8 :=
  Json.readWholeAs "u8" Json.Shape.u8

namespace Advertisement

open Json (TextField)
open Json.TextRecord (need)

/-- The fields of the JSON form in order. -/
def fields : List (TextField Draft) :=
  [{ name := "companyId", optional := false, filled := (·.companyId.isSome)
     read := fun _ draft text => do
      let (value, rest) ← Json.readWholeAs "u16" Json.Shape.u16 text
      .ok ({ draft with companyId := some value }, rest) },
   { name := "version", optional := false, filled := (·.version.isSome)
     read := fun _ draft text => do
      let (value, rest) ← Json.readWholeAs "u8" Json.Shape.u8 text
      .ok ({ draft with version := some value }, rest) },
   { name := "nodeId", optional := false, filled := (·.nodeId.isSome)
     read := fun _ draft text => do
      let (value, rest) ← Address.readJson text
      .ok ({ draft with nodeId := some value }, rest) },
   { name := "batteryPercent", optional := false, filled := (·.batteryPercent.isSome)
     read := fun _ draft text => do
      let (value, rest) ← Json.readWholeAs "u8" Json.Shape.u8 text
      .ok ({ draft with batteryPercent := some value }, rest) },
   { name := "lastReading", optional := false, filled := (·.lastReading.isSome)
     read := fun _ draft text => do
      let (value, rest) ← Json.readSingle text
      .ok ({ draft with lastReading := some value }, rest) },
   { name := "faultFlags", optional := false, filled := (·.faultFlags.isSome)
     read := fun _ draft text => do
      let (value, rest) ← readFlags text
      .ok ({ draft with faultFlags := some ⟨value⟩ }, rest) },
   { name := "counter", optional := false, filled := (·.counter.isSome)
     read := fun _ draft text => do
      let (value, rest) ← Json.readWholeAs "u16" Json.Shape.u16 text
      .ok ({ draft with counter := some value }, rest) },
   { name := "rssi", optional := true, filled := (·.rssi.isSome)
     read := fun _ draft text => do
      let (value, rest) ← Json.readOptional (Json.readWholeAs "i16" Json.Shape.i16) text
      .ok ({ draft with rssi := some value }, rest) }]

/-- The advertisement of a draft, once no field is missing. -/
def Draft.finish (draft : Draft) : Except Json.Fault Advertisement := do
  return {
    companyId := ← need "companyId" draft.companyId
    version := ← need "version" draft.version
    nodeId := ← need "nodeId" draft.nodeId
    batteryPercent := ← need "batteryPercent" draft.batteryPercent
    lastReading := ← need "lastReading" draft.lastReading
    faultFlags := ← need "faultFlags" draft.faultFlags
    counter := ← need "counter" draft.counter
    rssi := draft.rssi.getD none }

/-- Reads an advertisement from the front of a JSON text. -/
def readJson : Json.Reader Advertisement := fun text => do
  let (draft, rest) ← Json.TextRecord.read "NodeAdvertisement" fields {} Json.nestingLimit text
  .ok (← draft.finish, rest)

/-- The advertisement that a JSON text holds. -/
def parse (text : List UInt8) : Except Json.Fault Advertisement :=
  Json.readAll readJson text

end Advertisement

end HubLink.Node
