import HubLink.Tool.Run
import Std.Time.DateTime.Timestamp

/-!
# The command line tool

The outer layer: it fetches what a run may look at (files, variables, the clock, chance), lets the run
happen, and prints what it says.
-/

namespace HubLink.Tool

/-- Draws as many numbers as the suffix of an id needs. -/
def draws (generator : StdGen) : List Nat :=
  let step (state : List Nat × StdGen) : List Nat × StdGen :=
    let (draw, next) := randNat state.2 0 (Message.CorrelationId.alphabet.length - 1)
    (draw :: state.1, next)
  (Nat.repeat step Message.CorrelationId.suffixLength ([], generator)).1

/-- The content of a file, if it can be read. -/
def readFile? (name : String) : IO (Option (List UInt8)) := do
  try
    let content ← IO.FS.readBinFile name
    return some content.data.toList
  catch _ => return none

/-- Fetches what an invocation may look at. -/
def fetchWorld (invocation : Invocation) : IO World := do
  let files ← invocation.files.mapM fun name => return (name, ← readFile? name)
  let values ← Settings.variableNames.mapM fun name => return (name, ← IO.getEnv name)
  let now ← Std.Time.Timestamp.now
  let timestamp := Int64.ofInt now.toMillisecondsSinceUnixEpoch.toInt
  let seed ← IO.rand 0 (Int32.size / 2)
  return {
    file := fun name => (files.lookup name).join
    environment := fun name => (values.lookup name).join
    stamp := fun number => .generate timestamp (draws (mkStdGen (seed + number))) }

end HubLink.Tool

/-- Runs the tool and answers with its exit code. -/
def main (arguments : List String) : IO UInt32 := do
  let outcome ←
    match HubLink.Tool.Invocation.ofArguments arguments with
    | .ok invocation => pure (invocation.run (← HubLink.Tool.fetchWorld invocation))
    | .error stop => pure (HubLink.Tool.Outcome.ofStop stop)
  for text in outcome.printed do
    IO.println text
  if let .failed failure := outcome.status then
    IO.eprintln ("Error: " ++ failure.message)
  return outcome.status.exitCode
