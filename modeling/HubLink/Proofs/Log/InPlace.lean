import HubLink.Proofs.Log.Capacity

/-!
# Chunks taken in place

`Reassembler.add` gives a fault or a state, so behind a fault there is no state to look at.  In a
reassembler that is changed where it stands there is one, and not all checks come before the first
change: a job is entered in the list before the totals are compared.

Here a chunk is taken one change at a time, and what was changed before a fault stays changed
(`InPlace.add`).  It comes to the same as `Reassembler.add` (`InPlace.run_add_of_ok`,
`InPlace.run_add_of_error`), for one reason: a job that is entered for a chunk gets the total that
the chunk announces, so the comparison behind the first change fails only where nothing was changed.
-/

namespace HubLink.Log

open Message (LogChunk)

/-- The total that a chunk announces must be the one its log began with. -/
def Pending.checkTotal (log : Pending) (chunk : LogChunk) : Except Fault Unit :=
  if log.total = chunk.totalChunks then .ok ()
  else .error (.totalMismatch chunk.jobId log.total chunk.totalChunks)

/-- Changes of a reassembler one after the other, up to a fault, which undoes none of them. -/
abbrev InPlace : Type → Type := EStateM Fault Reassembler

namespace InPlace

open MonadExcept (ofExcept)

/-- Puts a log under a job. -/
def keep (job : String) (log : Pending) : InPlace Unit :=
  modify fun state => { state with jobs := Reassembler.withPending job log state.jobs }

/-- The log of a job, which is entered without bytes if it is not pending. -/
def enter (job : String) (total : UInt32) : InPlace Pending := do
  match (← get).pending? job with
  | some log => return log
  | none =>
    keep job ⟨total, []⟩
    return ⟨total, []⟩

/-- Takes the log of a job off the list: the bytes in its places, in order. -/
def takeOut (job : String) : InPlace (List UInt8) := do
  let log := (← get).pending? job
  modify fun state => { state with jobs := Reassembler.without job state.jobs }
  return (log.map fun log => joined log.filled).getD []

/-- Fills the place of a chunk in its log: the bytes of the log, if this was the last place. -/
def fillPlace (chunk : LogChunk) (content : List UInt8) (log : Pending) :
    InPlace (Option (List UInt8)) := do
  let log := log.filledBy chunk content
  keep chunk.jobId log
  if log.filled.length < log.total.toNat then return none
  return some (← takeOut chunk.jobId)

/-- Takes a chunk.  The last check comes when the job is on the list already. -/
def add (chunk : LogChunk) : InPlace (Option (List UInt8)) := do
  ofExcept ((← get).checkLimits chunk)
  let content ← ofExcept (chunk.content.mapError (.data chunk.jobId chunk.chunkIndex))
  let log ← enter chunk.jobId chunk.totalChunks
  ofExcept (log.checkTotal chunk)
  fillPlace chunk content log

variable {α β : Type} {first : InPlace α} {state next : Reassembler} {chunk : LogChunk}
  {fault : Fault} {answer : Option (List UInt8)}

/-! ## One step after the other -/

theorem run_bind_of_ok {value : α} (hfirst : first.run state = .ok value next)
    (step : α → InPlace β) : (first >>= step).run state = (step value).run next := by
  rw [EStateM.run_bind, hfirst]

theorem run_bind_of_error (hfirst : first.run state = .error fault next)
    (step : α → InPlace β) : (first >>= step).run state = .error fault next := by
  rw [EStateM.run_bind, hfirst]

theorem run_ofExcept_ok (value : α) (state : Reassembler) :
    (ofExcept (.ok value) : InPlace α).run state = .ok value state :=
  rfl

theorem run_ofExcept_error (fault : Fault) (state : Reassembler) :
    (ofExcept (.error fault) : InPlace α).run state = .error fault state :=
  rfl

theorem run_keep (job : String) (log : Pending) (state : Reassembler) :
    (keep job log).run state =
      .ok () { state with jobs := Reassembler.withPending job log state.jobs } :=
  rfl

/-- A log that is pending is found, and nothing changes. -/
theorem run_enter_of_some {job : String} {log : Pending} (hlog : state.pending? job = some log)
    (total : UInt32) : (enter job total).run state = .ok log state := by
  rw [enter, EStateM.run_bind, EStateM.run_get]
  simp only [hlog]
  rfl

theorem run_enter_of_none {job : String} (hnone : state.pending? job = none) (total : UInt32) :
    (enter job total).run state = .ok ⟨total, []⟩
      { state with jobs := Reassembler.withPending job ⟨total, []⟩ state.jobs } := by
  rw [enter, EStateM.run_bind, EStateM.run_get]
  simp only [hnone]
  rfl

theorem run_takeOut_of_some {job : String} {log : Pending} (hlog : state.pending? job = some log) :
    (takeOut job).run state =
      .ok (joined log.filled) { state with jobs := Reassembler.without job state.jobs } := by
  rw [takeOut, EStateM.run_bind, EStateM.run_get]
  simp only [hlog]
  rfl

/-- Filling a place settles the log. -/
theorem run_fillPlace (chunk : LogChunk) (content : List UInt8) (log : Pending)
    (state : Reassembler) :
    (fillPlace chunk content log).run state =
      .ok (state.settle chunk.jobId (log.filledBy chunk content)).1
        (state.settle chunk.jobId (log.filledBy chunk content)).2 := by
  rw [fillPlace, run_bind_of_ok (run_keep _ _ _), Reassembler.settle]
  split
  next => rfl
  next =>
    have hlisted : Reassembler.pending?
        { state with
          jobs := Reassembler.withPending chunk.jobId (log.filledBy chunk content) state.jobs }
        chunk.jobId = some (log.filledBy chunk content) := by
      rw [Reassembler.pending?, Reassembler.lookup_withPending, if_pos rfl]
    rw [run_bind_of_ok (run_takeOut_of_some hlisted)]
    dsimp only
    rw [Reassembler.without_withPending]
    rfl

/-- Behind the checks, a job that was entered for the chunk is settled like one that was not. -/
theorem settle_entered (state : Reassembler) (job : String) (entered log : Pending) :
    Reassembler.settle
        { state with jobs := Reassembler.withPending job entered state.jobs } job log =
      state.settle job log := by
  unfold Reassembler.settle
  dsimp only
  rw [Reassembler.withPending_withPending, Reassembler.without_withPending]

end InPlace

namespace Reassembler

/-! ## Why a chunk is refused -/

variable {state : Reassembler} {chunk : LogChunk} {fault : Fault}

/-- A chunk is refused for its place and the limits, for its data, or for the total of a log that is
pending. -/
inductive Refused (state : Reassembler) (chunk : LogChunk) : Fault → Prop where
  | limits {fault : Fault} (limits : state.checkLimits chunk = .error fault) :
      Refused state chunk fault
  | data {cause : Base64.Fault} (limits : state.checkLimits chunk = .ok ())
      (content : chunk.content = .error cause) :
      Refused state chunk (.data chunk.jobId chunk.chunkIndex cause)
  | total {content : List UInt8} {log : Pending} (limits : state.checkLimits chunk = .ok ())
      (content : chunk.content = .ok content) (pending : state.pending? chunk.jobId = some log)
      (total : log.total ≠ chunk.totalChunks) :
      Refused state chunk (.totalMismatch chunk.jobId log.total chunk.totalChunks)

theorem logOf_eq_error_iff : state.logOf chunk = .error fault ↔
    ∃ log, state.pending? chunk.jobId = some log ∧ log.total ≠ chunk.totalChunks ∧
      fault = .totalMismatch chunk.jobId log.total chunk.totalChunks := by
  unfold logOf
  cases state.pending? chunk.jobId with
  | none => simp
  | some log =>
      by_cases htotal : log.total = chunk.totalChunks
      · simp [htotal]
      · simp [htotal, eq_comm]

theorem add_eq_error_iff : state.add chunk = .error fault ↔ Refused state chunk fault := by
  constructor
  · intro hadd
    cases hlimits : state.checkLimits chunk with
    | error reason =>
        rw [add, bind_eq_error hlimits] at hadd
        cases hadd
        exact .limits hlimits
    | ok =>
        cases hcontent : chunk.content with
        | error cause =>
            simp only [add, hlimits, hcontent] at hadd
            cases hadd
            exact .data hlimits hcontent
        | ok content =>
            cases hlog : state.logOf chunk with
            | error reason =>
                obtain ⟨log, hpending, htotal, rfl⟩ := logOf_eq_error_iff.mp hlog
                simp only [add, hlimits, hcontent, hlog] at hadd
                cases hadd
                exact .total hlimits hcontent hpending htotal
            | ok log =>
                -- a chunk that passes all checks is taken
                have htaken := taken_iff.mpr ⟨hlimits, hcontent, hlog⟩
                rw [add_eq_ok_iff.mpr ⟨log, content, htaken, rfl⟩] at hadd
                cases hadd
  · intro hrefused
    cases hrefused with
    | limits hlimits => rw [add, bind_eq_error hlimits]
    | data hlimits hcontent =>
        simp only [add, hlimits, hcontent]
        rfl
    | total hlimits hcontent hpending htotal =>
        have hlog := logOf_eq_error_iff.mpr ⟨_, hpending, htotal, rfl⟩
        simp only [add, hlimits, hcontent, hlog]
        rfl

/-- Only a log that is pending has a total to differ from. -/
theorem Refused.pending_of_totalMismatch {job : String} {expected actual : UInt32}
    (hrefused : Refused state chunk (.totalMismatch job expected actual)) :
    ∃ log, state.pending? job = some log ∧ log.total = expected := by
  cases hrefused with
  | total _ _ hpending _ => exact ⟨_, hpending, rfl⟩
  | limits hlimits =>
      unfold checkLimits at hlimits
      split at hlimits
      next => cases hlimits
      split at hlimits
      next => cases hlimits
      split at hlimits
      next => cases hlimits
      next => cases hlimits

end Reassembler

namespace InPlace

/-! ## A chunk in place -/

open MonadExcept (ofExcept)

variable {state : Reassembler} {chunk : LogChunk} {content : List UInt8} {fault : Fault}

/-- The limits are looked at before anything is changed. -/
theorem run_add_of_limits (hlimits : state.checkLimits chunk = .ok ()) :
    (add chunk).run state =
      (do
        let content ← ofExcept (chunk.content.mapError (.data chunk.jobId chunk.chunkIndex))
        let log ← enter chunk.jobId chunk.totalChunks
        ofExcept (log.checkTotal chunk)
        fillPlace chunk content log : InPlace (Option (List UInt8))).run state := by
  rw [add, run_bind_of_ok (EStateM.run_get state), hlimits, run_bind_of_ok (run_ofExcept_ok _ _)]

/-- So is the data. -/
theorem run_add_of_content (hlimits : state.checkLimits chunk = .ok ())
    (hcontent : chunk.content = .ok content) :
    (add chunk).run state =
      (do
        let log ← enter chunk.jobId chunk.totalChunks
        ofExcept (log.checkTotal chunk)
        fillPlace chunk content log : InPlace (Option (List UInt8))).run state := by
  rw [run_add_of_limits hlimits, hcontent, Except.mapError, run_bind_of_ok (run_ofExcept_ok _ _)]

/-- A chunk that is taken is taken in place. -/
theorem run_add_of_ok {result : Option (List UInt8) × Reassembler}
    (hadd : state.add chunk = .ok result) : (add chunk).run state = .ok result.1 result.2 := by
  obtain ⟨log, content, htaken, rfl⟩ := Reassembler.add_eq_ok_iff.mp hadd
  obtain ⟨hlimits, hcontent, -⟩ := Reassembler.taken_iff.mp htaken
  have htotal : log.checkTotal chunk = .ok () := if_pos htaken.total_eq
  rw [run_add_of_content hlimits hcontent]
  rcases htaken.log_eq with hpending | ⟨hnone, hfilled, -⟩
  · rw [run_bind_of_ok (run_enter_of_some hpending _), htotal,
      run_bind_of_ok (run_ofExcept_ok _ _), run_fillPlace]
  · have hentered : log = ⟨chunk.totalChunks, []⟩ := by
      rw [← htaken.total_eq, ← hfilled]
    rw [run_bind_of_ok (run_enter_of_none hnone _), ← hentered, htotal,
      run_bind_of_ok (run_ofExcept_ok _ _), run_fillPlace, settle_entered]

/-- A chunk that is refused is refused in place, and all is as it was. -/
theorem run_add_of_error (hadd : state.add chunk = .error fault) :
    (add chunk).run state = .error fault state := by
  cases Reassembler.add_eq_error_iff.mp hadd with
  | limits hlimits =>
      rw [add, run_bind_of_ok (EStateM.run_get state), hlimits]
      exact run_bind_of_error (run_ofExcept_error _ _) _
  | data hlimits hcontent =>
      rw [run_add_of_limits hlimits, hcontent]
      exact run_bind_of_error (run_ofExcept_error _ _) _
  | total hlimits hcontent hpending htotal =>
      -- the comparison fails, so the log was there and none was entered
      rw [run_add_of_content hlimits hcontent, run_bind_of_ok (run_enter_of_some hpending _),
        Pending.checkTotal, if_neg htotal]
      exact run_bind_of_error (run_ofExcept_error _ _) _

end InPlace

/-! ## Calls in place -/

/-- Whether a chunk was refused. -/
def Answer.isRefused : Answer → Bool
  | .refused _ => true
  | _ => false

/-- The calls of a history that were not refused. -/
def heeded (history : List Served) : List Call :=
  (history.filter fun served => !served.answer.isRefused).map Served.call

theorem heeded_cons (served : Served) (history : List Served) :
    heeded (served :: history) =
      if served.answer.isRefused then heeded history else served.call :: heeded history := by
  unfold heeded
  cases hrefused : served.answer.isRefused <;> simp [hrefused]

namespace Reassembler

/-- Serves a call in place: what a fault leaves behind is what the next call finds. -/
def serveInPlace (state : Reassembler) : Call → Reassembler
  | .add chunk =>
    match (InPlace.add chunk).run state with
    | .ok _ next => next
    | .error _ next => next
  | .discard job => (state.discard job).2

variable {state : Reassembler}

theorem serveInPlace_eq (state : Reassembler) (call : Call) :
    state.serveInPlace call = (state.serve call).2 := by
  cases call with
  | discard job => rfl
  | add chunk =>
      cases hadd : state.add chunk with
      | error fault => simp only [serveInPlace, InPlace.run_add_of_error hadd, serve, hadd]
      | ok result => simp only [serveInPlace, InPlace.run_add_of_ok hadd, serve, hadd]

theorem foldl_serveInPlace (state : Reassembler) (calls : List Call) :
    calls.foldl serveInPlace state = state.after calls := by
  induction calls generalizing state with
  | nil => rfl
  | cons call calls ih => rw [List.foldl_cons, serveInPlace_eq, ih, after]

theorem serve_of_isRefused {call : Call} (hrefused : (state.serve call).1.isRefused = true) :
    (state.serve call).2 = state := by
  cases call with
  | discard job => cases hrefused
  | add chunk =>
      rcases state.serve_add_cases chunk with ⟨fault, hserve⟩ | ⟨log, content, -, hserve⟩
      · rw [hserve]
      · rw [hserve] at hrefused
        cases hrefused

/-- The chunks that were refused could as well not have come. -/
theorem after_heeded (state : Reassembler) (calls : List Call) :
    state.after (heeded (state.history calls)) = state.after calls := by
  induction calls generalizing state with
  | nil => rfl
  | cons call calls ih =>
      rw [history, after, heeded_cons]
      split
      next hrefused => rw [serve_of_isRefused hrefused, ih]
      next => rw [after, ih]

end Reassembler

/-- **A refused chunk leaves nothing behind.**  Chunks are taken in place by a reassembler that
started empty, and every call finds what the one before left, also when that was a fault.  A fault
leaves the reassembler as it was; what is taken is taken as by `Reassembler.add`.  So every job on
the list has a place filled, a total is only compared with that of such a job, and without the
refused chunks the reassembler would be the same. -/
theorem refusal_changes_nothing (maxChunks maxJobs : Nat) (calls : List Call) (chunk : LogChunk) :
    let start : Reassembler := { maxChunks := maxChunks, maxJobs := maxJobs }
    let state := calls.foldl Reassembler.serveInPlace start
    (∀ fault after, (InPlace.add chunk).run state = .error fault after →
      after = state ∧ state.add chunk = .error fault) ∧
    (∀ answer after, (InPlace.add chunk).run state = .ok answer after →
      state.add chunk = .ok (answer, after)) ∧
    (∀ entry ∈ state.jobs, entry.2.filled ≠ []) ∧
    (∀ job expected actual,
      state.add chunk = .error (.totalMismatch job expected actual) →
        ∃ log, (job, log) ∈ state.jobs ∧ log.total = expected) ∧
    (heeded (start.history calls)).foldl Reassembler.serveInPlace start = state := by
  intro start state
  have hstate : state = start.after calls := Reassembler.foldl_serveInPlace start calls
  refine ⟨?_, ?_, ?_, ?_, ?_⟩
  · intro fault after hrun
    cases hadd : state.add chunk with
    | error reason =>
        rw [InPlace.run_add_of_error hadd] at hrun
        cases hrun
        exact ⟨rfl, rfl⟩
    | ok result =>
        rw [InPlace.run_add_of_ok hadd] at hrun
        cases hrun
  · intro answer after hrun
    cases hadd : state.add chunk with
    | error reason =>
        rw [InPlace.run_add_of_error hadd] at hrun
        cases hrun
    | ok result =>
        rw [InPlace.run_add_of_ok hadd] at hrun
        cases hrun
        rfl
  · intro entry hentry
    have hsound := (Reassembler.sound_of_empty maxChunks maxJobs).after calls
    rw [hstate] at hentry
    exact List.ne_nil_of_length_pos (hsound.opened entry hentry).begun
  · intro job expected actual hadd
    have hrefused := Reassembler.add_eq_error_iff.mp hadd
    obtain ⟨log, hpending, htotal⟩ := hrefused.pending_of_totalMismatch
    exact ⟨log, Reassembler.mem_jobs_of_pending? hpending, htotal⟩
  · rw [Reassembler.foldl_serveInPlace, Reassembler.after_heeded, hstate]

/-- A log of three places has begun when a chunk of it announces four.  The chunk is refused behind
the first change, and the place that was filled stays. -/
theorem refusal_changes_nothing_mismatch :
    let piece (index total : UInt32) (data : String) : LogChunk :=
      ⟨"job-4", "n", index, total, data, false⟩
    let begun := [Call.add (piece 0 3 "YQ==")].foldl Reassembler.serveInPlace {}
    begun.jobs = [("job-4", ⟨3, [(0, [97])]⟩)] ∧
      ∃ after, (InPlace.add (piece 1 4 "Yg==")).run begun =
        .error (.totalMismatch "job-4" 3 4) after ∧ after = begun := by
  intro piece begun
  have hbegun : begun.jobs = [("job-4", ⟨3, [(0, [97])]⟩)] := by decide +kernel
  have hrun : (InPlace.add (piece 1 4 "Yg==")).run begun =
      .error (.totalMismatch "job-4" 3 4) begun :=
    InPlace.run_add_of_error (by decide +kernel)
  have hnothing := refusal_changes_nothing defaultMaxChunks defaultMaxJobs
    [Call.add (piece 0 3 "YQ==")] (piece 1 4 "Yg==")
  exact ⟨hbegun, begun, hrun, (hnothing.1 _ _ hrun).1⟩

end HubLink.Log
