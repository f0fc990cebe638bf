import HubLink.Log.Chunking

/-!
# Putting a log together again

Chunks of several logs may arrive in any order and more than once.  A log is pending from its first
chunk until the last of its places is filled; then its bytes are handed out and nothing is kept.
Both the places of a log and the logs pending at one time are limited, since both come from the peer.

A chunk that is refused changes nothing: all checks come before the first change.
-/

namespace HubLink.Log

open Message (LogChunk)

/-- Places that a log may have, unless another limit is set. -/
def defaultMaxChunks : Nat := 4096

/-- Logs that may be pending at one time, unless another limit is set. -/
def defaultMaxJobs : Nat := 8

/-- Why a chunk is refused. -/
inductive Fault where
  /-- The data is no base64 text. -/
  | data (job : String) (index : UInt32) (cause : Base64.Fault)
  /-- The index is not below the total. -/
  | outOfRange (job : String) (index total : UInt32)
  /-- Earlier chunks announced another total. -/
  | totalMismatch (job : String) (expected actual : UInt32)
  /-- The total exceeds the limit. -/
  | tooManyChunks (job : String) (total : UInt32) (limit : Nat)
  /-- No further log may be pending. -/
  | tooManyJobs (job : String) (limit : Nat)
  deriving DecidableEq, Repr

/-- The wording of a fault. -/
def Fault.message : Fault → String
  | .data job index cause =>
    s!"chunk {index.toNat} of job {job} has invalid data: {cause.message}"
  | .outOfRange job index total =>
    s!"chunk {index.toNat} out of range for job {job} ({total.toNat} chunks)"
  | .totalMismatch job expected actual =>
    s!"job {job} announced {expected.toNat} chunks, got chunk claiming {actual.toNat}"
  | .tooManyChunks job total limit =>
    s!"job {job} announced {total.toNat} chunks, limit is {limit}"
  | .tooManyJobs job limit => s!"cannot start job {job}: {limit} jobs already pending"

/-- A log that has begun to arrive. -/
structure Pending where
  /-- The places of the log. -/
  total : UInt32
  /-- The filled places in ascending order, with their bytes. -/
  filled : List (Nat × List UInt8)
  deriving DecidableEq, Repr

/-- Fills a place, in place of what was there. -/
def fill (index : Nat) (content : List UInt8) : List (Nat × List UInt8) → List (Nat × List UInt8)
  | [] => [(index, content)]
  | (place, old) :: rest =>
    if index < place then (index, content) :: (place, old) :: rest
    else if index = place then (index, content) :: rest
    else (place, old) :: fill index content rest

/-- The bytes in the filled places, in order. -/
def joined (filled : List (Nat × List UInt8)) : List UInt8 :=
  filled.flatMap Prod.snd

/-- The logs that are pending, under their job ids, and the limits. -/
structure Reassembler where
  maxChunks : Nat := defaultMaxChunks
  maxJobs : Nat := defaultMaxJobs
  jobs : List (String × Pending) := []
  deriving DecidableEq, Repr

namespace Reassembler

/-- The log of a job, if it is pending. -/
def pending? (state : Reassembler) (job : String) : Option Pending :=
  List.lookup job state.jobs

/-- The jobs without the given one. -/
def without (job : String) (jobs : List (String × Pending)) : List (String × Pending) :=
  jobs.filter fun entry => entry.1 != job

/-- The jobs with the given log under the given id, which keeps its place. -/
def withPending (job : String) (log : Pending) :
    List (String × Pending) → List (String × Pending)
  | [] => [(job, log)]
  | (job', log') :: rest =>
    if job = job' then (job, log) :: rest else (job', log') :: withPending job log rest

/-- What a chunk must satisfy before its data is looked at. -/
def checkLimits (state : Reassembler) (chunk : LogChunk) : Except Fault Unit :=
  if chunk.totalChunks ≤ chunk.chunkIndex then
    .error (.outOfRange chunk.jobId chunk.chunkIndex chunk.totalChunks)
  else if state.maxChunks < chunk.totalChunks.toNat then
    .error (.tooManyChunks chunk.jobId chunk.totalChunks state.maxChunks)
  else if (state.pending? chunk.jobId).isNone ∧ state.maxJobs ≤ state.jobs.length then
    .error (.tooManyJobs chunk.jobId state.maxJobs)
  else .ok ()

/-- The log that a chunk belongs to, as it was before the chunk. -/
def logOf (state : Reassembler) (chunk : LogChunk) : Except Fault Pending :=
  match state.pending? chunk.jobId with
  | none => .ok ⟨chunk.totalChunks, []⟩
  | some log =>
    if log.total = chunk.totalChunks then .ok log
    else .error (.totalMismatch chunk.jobId log.total chunk.totalChunks)

/-- Takes a chunk: the whole log if this was the last place of it, and the state after. -/
def add (state : Reassembler) (chunk : LogChunk) :
    Except Fault (Option (List UInt8) × Reassembler) := do
  state.checkLimits chunk
  match chunk.content with
  | .error cause => .error (.data chunk.jobId chunk.chunkIndex cause)
  | .ok content =>
    let log ← state.logOf chunk
    let filled := fill chunk.chunkIndex.toNat content log.filled
    if filled.length < log.total.toNat then
      .ok (none, { state with
        jobs := withPending chunk.jobId ⟨log.total, filled⟩ state.jobs })
    else .ok (some (joined filled), { state with jobs := without chunk.jobId state.jobs })

/-- Gives up a log: whether it was pending, and the state after. -/
def discard (state : Reassembler) (job : String) : Bool × Reassembler :=
  ((state.pending? job).isSome, { state with jobs := without job state.jobs })

/-- How many logs are pending. -/
def pendingJobs (state : Reassembler) : Nat :=
  state.jobs.length

end Reassembler

end HubLink.Log
