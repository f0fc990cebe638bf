import HubLink.Json.Printer
import HubLink.Json.TextRecord

/-!
# Settings of the delivery queue

How many envelopes may wait, how often a missed acknowledgment is put up with, and where an envelope
goes that is to be sent again.  Every setting has a default, so any of them may be left out.
-/

namespace HubLink.Queue

/-- Where an envelope goes that is to be sent again. -/
inductive Policy where
  /-- It keeps its place. -/
  | keepPosition
  /-- It is sent next. -/
  | moveToFront
  deriving DecidableEq, Repr, Inhabited

namespace Policy

/-- The name of a policy. -/
def name : Policy → String
  | .keepPosition => "keep_position"
  | .moveToFront => "move_to_front"

/-- Every policy under its name. -/
def named : List (String × Policy) :=
  [Policy.keepPosition, .moveToFront].map fun policy => (policy.name, policy)

/-- The policy of a name. -/
def ofName? (name : String) : Option Policy :=
  List.lookup name named

/-- The wording for a name that no policy has. -/
def unknownMessage (name : String) : String :=
  "unknown requeue policy " ++ Text.quoted name

end Policy

/-- The settings of a queue. -/
structure Config where
  /-- How many envelopes may wait. -/
  capacity : Nat := 100
  /-- The retry count at which an envelope is given up. -/
  maxRetries : Nat := 3
  /-- Where an envelope goes that is to be sent again. -/
  policy : Policy := .keepPosition
  deriving DecidableEq, Repr, Inhabited

namespace Config

/-- The JSON form of the settings. -/
def print (config : Config) : List UInt8 :=
  Json.printFields
    [("capacity", Text.decimal config.capacity), ("max_retries", Text.decimal config.maxRetries),
      ("requeue_policy", Json.literal config.policy.name)]

/-- What has been read of the settings. -/
structure Draft where
  capacity : Option Nat := none
  maxRetries : Option Nat := none
  policy : Option Policy := none

open Json (TextField)

/-- The fields of the settings in order. -/
def fields : List (TextField Draft) :=
  [{ name := "capacity", optional := true, filled := (·.capacity.isSome)
     read := fun _ draft text => do
      let (value, rest) ← Json.readWholeAs "usize" Json.Shape.size text
      .ok ({ draft with capacity := some value }, rest) },
   { name := "max_retries", optional := true, filled := (·.maxRetries.isSome)
     read := fun _ draft text => do
      let (value, rest) ← Json.readWholeAs "u32" Json.Shape.u32 text
      .ok ({ draft with maxRetries := some value.toNat }, rest) },
   { name := "requeue_policy", optional := true, filled := (·.policy.isSome)
     read := fun budget draft text => do
      let (value, rest) ← Json.readName (Json.oneOf Policy.named) budget text
      .ok ({ draft with policy := some value }, rest) }]

/-- The settings of a draft, what is missing being at its default. -/
def Draft.finish (draft : Draft) : Config :=
  let default : Config := {}
  { capacity := draft.capacity.getD default.capacity
    maxRetries := draft.maxRetries.getD default.maxRetries
    policy := draft.policy.getD default.policy }

/-- Reads settings from the front of a JSON text. -/
def readJson : Json.Reader Config := fun text => do
  let (draft, rest) ← Json.TextRecord.read "QueueConfig" fields {} Json.nestingLimit text
  .ok (draft.finish, rest)

/-- The settings that a JSON text holds. -/
def parse (text : List UInt8) : Except Json.Fault Config :=
  Json.readAll readJson text

end Config

end HubLink.Queue
