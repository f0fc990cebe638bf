import HubLink.Frame
import HubLink.Log.Chunking
import HubLink.Message.Envelope
import HubLink.Queue.Config
import HubLink.Yaml.Field

/-!
# Settings

Settings come in three layers.  Every setting has a default; the section `services.hub_ipc` of a
YAML file may replace any of them; and some may be replaced once more by a variable of the
environment.  A file that cannot be read as settings counts as no file, and a variable that cannot be
read counts as not set, so there are always settings to start with.
-/

namespace HubLink

/-- The settings of the tool. -/
structure Settings where
  queue : Queue.Config := {}
  /-- The largest payload of a frame. -/
  maxFrameSize : Nat := Frame.defaultLimit
  /-- The schema version of the envelopes that are made. -/
  schemaVersion : String := Message.schemaVersion
  /-- Log bytes in a chunk. -/
  logChunkSize : Nat := Log.defaultChunkSize
  deriving DecidableEq, Repr, Inhabited

namespace Settings

open Yaml (Node)

/-! ## The file -/

/-- The bound of numbers that count bytes or envelopes. -/
def sizeBound : Nat := UInt64.size

/-- The bound of numbers that count retries. -/
def retryBound : Nat := UInt32.size

/-- The queue settings of a section, what is missing being at its default. -/
def queueOfNode? (root node : Node) : Option Queue.Config := do
  let members ← Node.members? root node
  let default : Queue.Config := {}
  let capacity ← Node.field? members "capacity" (Node.natBelow? sizeBound root)
  let maxRetries ← Node.field? members "max_retries" (Node.natBelow? retryBound root)
  let policy ← Node.field? members "requeue_policy" (Node.choice? Queue.Policy.named root)
  return {
    capacity := capacity.getD default.capacity
    maxRetries := maxRetries.getD default.maxRetries
    policy := policy.getD default.policy }

/-- The settings of a section, what is missing being at its default. -/
def ofNode? (root node : Node) : Option Settings := do
  let members ← Node.members? root node
  let default : Settings := {}
  let queue ← Node.field? members "queue" (queueOfNode? root)
  let maxFrameSize ← Node.field? members "max_frame_size" (Node.natBelow? sizeBound root)
  let schemaVersion ← Node.field? members "schema_version" (Node.text? root)
  let logChunkSize ← Node.field? members "log_chunk_size" (Node.natBelow? sizeBound root)
  return {
    queue := queue.getD default.queue
    maxFrameSize := maxFrameSize.getD default.maxFrameSize
    schemaVersion := schemaVersion.getD default.schemaVersion
    logChunkSize := logChunkSize.getD default.logChunkSize }

/-- The section for this tool among the services, if there is one. -/
def ofServices? (root node : Node) : Option (Option Settings) := do
  Node.optionalField? root (← Node.members? root node) "hub_ipc" (ofNode? root)

/-- The section for this tool in a document, if there is one. -/
def ofDocument? (root : Node) : Option (Option Settings) := do
  let services ←
    Node.optionalField? root (← Node.members? root root) "services" (ofServices? root)
  return services.join

/-- The section of a file, if it has one; no answer for a file that cannot be read as settings. -/
def ofFile? (content : List UInt8) : Option (Option Settings) := do
  let text ← Text.ofBytes? content
  ofDocument? (← Node.ofText? text.toList)

/-- The settings of a file that may be missing, with defaults for all it does not say. -/
def ofFile (content : Option (List UInt8)) : Settings :=
  ((content.bind ofFile?).join).getD {}

/-! ## The environment -/

/-- The variables of an environment. -/
abbrev Environment := String → Option String

/-- The variables that are looked at. -/
def variableNames : List String :=
  ["HUB_IPC_QUEUE_CAPACITY", "HUB_IPC_MAX_RETRIES", "HUB_IPC_REQUEUE_POLICY",
    "HUB_IPC_MAX_FRAME_SIZE"]

/-- The value that a variable stands for, if it is set and can be read. -/
def stated? {α : Type} (environment : Environment) (name : String)
    (read : String → Option α) : Option α :=
  (environment name).bind read

/-- Settings with the variables of an environment put in. -/
def withEnvironment (settings : Settings) (environment : Environment) : Settings where
  queue := {
    capacity := (stated? environment "HUB_IPC_QUEUE_CAPACITY" (Text.natBelow? sizeBound)).getD
      settings.queue.capacity
    maxRetries := (stated? environment "HUB_IPC_MAX_RETRIES" (Text.natBelow? retryBound)).getD
      settings.queue.maxRetries
    policy := (stated? environment "HUB_IPC_REQUEUE_POLICY" Queue.Policy.ofName?).getD
      settings.queue.policy }
  maxFrameSize := (stated? environment "HUB_IPC_MAX_FRAME_SIZE" (Text.natBelow? sizeBound)).getD
    settings.maxFrameSize
  schemaVersion := settings.schemaVersion
  logChunkSize := settings.logChunkSize

/-- The settings to start with. -/
def load (file : Option (List UInt8)) (environment : Environment) : Settings :=
  (ofFile file).withEnvironment environment

end Settings

end HubLink
