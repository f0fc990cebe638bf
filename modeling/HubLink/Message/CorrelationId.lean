import HubLink.Text.Whole

/-!
# Generated correlation ids

An id that nobody chose is the time in milliseconds, a hyphen, and seven letters or digits drawn at
random, so that ids made at one moment still differ.
-/

namespace HubLink.Message.CorrelationId

/-- The characters that are drawn from. -/
def alphabet : List Char :=
  "0123456789abcdefghijklmnopqrstuvwxyz".toList

/-- How many characters are drawn. -/
def suffixLength : Nat := 7

/-- The id made at the given time from the given draws, each counted around the alphabet. -/
def generate (millis : Int) (draws : List Nat) : String :=
  toString millis ++ "-" ++
    String.ofList (draws.map fun draw => alphabet.getD (draw % alphabet.length) '0')

/-- Whether a text has the form of a generated id. -/
def isGenerated (text : String) : Bool :=
  let millis := text.toList.takeWhile (· != '-')
  let suffix := (text.toList.dropWhile (· != '-')).drop 1
  (match Text.intWithin? (Int64.size / 2) (String.ofList millis) with
    | some n => 0 < n
    | none => false) &&
    suffix.length == suffixLength && suffix.all alphabet.contains

end HubLink.Message.CorrelationId
