import HubLink.Proofs.Log.Period

/-!
# Histories of a reassembler

A reassembler is given chunks and told to give up logs, in any order and by peers that need not be
honest.  `reassembly_by_periods` says what it answers in terms of this history alone.  The period of
a job consists of the chunks of it that were taken since its log was last handed out or given up.  A
chunk that is taken brings the log out exactly when with it the period covers every index; the log
then consists of the bytes that came last for each index.

The invariant is one job's: its log is pending while its period runs, and is what the period makes
of it (`Standing`).  The other jobs do not matter for it, and neither do the chunks that were
refused.
-/

namespace HubLink.Log

open Message (LogChunk)

/-- What can be asked of a reassembler. -/
inductive Call where
  | add (chunk : LogChunk)
  | discard (job : String)

/-- What a reassembler answers. -/
inductive Answer where
  /-- The chunk was taken; the log, if it is complete. -/
  | taken (log : Option (List UInt8))
  | refused (fault : Fault)
  /-- Whether there was a log to give up. -/
  | discarded (pending : Bool)
  deriving DecidableEq

/-- A call that was served. -/
structure Served where
  call : Call
  answer : Answer

namespace Reassembler

/-- Serves a call: the answer, and the reassembler after it. -/
def serve (state : Reassembler) : Call → Answer × Reassembler
  | .add chunk =>
    match state.add chunk with
    | .ok (log, next) => (.taken log, next)
    | .error fault => (.refused fault, state)
  | .discard job => (.discarded (state.discard job).1, (state.discard job).2)

/-- The reassembler after some calls. -/
def after (state : Reassembler) : List Call → Reassembler
  | [] => state
  | call :: calls => (state.serve call).2.after calls

/-- Some calls as they are served one after the other. -/
def history (state : Reassembler) : List Call → List Served
  | [] => []
  | call :: calls => ⟨call, (state.serve call).1⟩ :: (state.serve call).2.history calls

theorem history_append (state : Reassembler) (calls later : List Call) :
    state.history (calls ++ later) = state.history calls ++ (state.after calls).history later := by
  induction calls generalizing state with
  | nil => rfl
  | cons call calls ih => rw [List.cons_append, history, ih, history, after, List.cons_append]

theorem after_append (state : Reassembler) (calls later : List Call) :
    state.after (calls ++ later) = (state.after calls).after later := by
  induction calls generalizing state with
  | nil => rfl
  | cons call calls ih => exact ih (state.serve call).2

end Reassembler

/-- The period of a job after one more call: a chunk is added to it, or it is over. -/
def nextPeriod (job : String) (period : List LogChunk) : Served → List LogChunk
  | ⟨.add chunk, .taken none⟩ => if chunk.jobId = job then period ++ [chunk] else period
  | ⟨.add chunk, .taken (some _)⟩ => if chunk.jobId = job then [] else period
  | ⟨.discard name, _⟩ => if name = job then [] else period
  | _ => period

/-- The chunks of a job that were taken since its log was last handed out or given up. -/
def period (job : String) (history : List Served) : List LogChunk :=
  history.foldl (nextPeriod job) []

/-- A call without what a chunk says of its node and of its being the last. -/
def Call.unlabelled : Call → Call
  | .add chunk => .add { chunk with nodeId := "", complete := false }
  | .discard job => .discard job

/-- How a job stands after a period of it: its log is pending while the period runs. -/
inductive Standing : Option Pending → List LogChunk → Prop where
  | idle : Standing none []
  | running {log : Pending} {period : List LogChunk} (collected : Collected log period)
      (begun : period ≠ []) (short : log.filled.length < log.total.toNat) :
      Standing (some log) period

variable {state next : Reassembler} {chunk : LogChunk} {log : Pending} {content : List UInt8}
  {earlier : List LogChunk} {answer : Option (List UInt8)}

/-! ## One chunk -/

namespace Reassembler

theorem serve_add_of_ok (hadd : state.add chunk = .ok (answer, next)) :
    state.serve (.add chunk) = (.taken answer, next) := by
  simp only [serve, hadd]

theorem serve_add_of_error {fault : Fault} (hadd : state.add chunk = .error fault) :
    state.serve (.add chunk) = (.refused fault, state) := by
  simp only [serve, hadd]

theorem add_eq_ok_of_taken (htaken : (state.serve (.add chunk)).1 = .taken answer) :
    ∃ next, state.add chunk = .ok (answer, next) := by
  cases hadd : state.add chunk with
  | error fault =>
      rw [serve_add_of_error hadd] at htaken
      cases htaken
  | ok result =>
      obtain ⟨log, next⟩ := result
      rw [serve_add_of_ok hadd] at htaken
      cases htaken
      exact ⟨next, rfl⟩

/-- A chunk is refused and nothing changes, or it is taken and its log is settled. -/
theorem serve_add_cases (state : Reassembler) (chunk : LogChunk) :
    (∃ fault, state.serve (.add chunk) = (.refused fault, state)) ∨
      ∃ log content, Taken state chunk log content ∧ state.serve (.add chunk) =
        (.taken (state.settle chunk.jobId (log.filledBy chunk content)).1,
          (state.settle chunk.jobId (log.filledBy chunk content)).2) := by
  cases hadd : state.add chunk with
  | error fault => exact .inl ⟨fault, serve_add_of_error hadd⟩
  | ok result =>
      obtain ⟨log, content, htaken, rfl⟩ := add_eq_ok_iff.mp hadd
      exact .inr ⟨log, content, htaken, serve_add_of_ok hadd⟩

/-- No call changes the limits. -/
theorem limits_serve (state : Reassembler) (call : Call) :
    (state.serve call).2.maxChunks = state.maxChunks ∧
      (state.serve call).2.maxJobs = state.maxJobs := by
  cases call with
  | discard name => exact ⟨rfl, rfl⟩
  | add chunk =>
      rcases state.serve_add_cases chunk with ⟨fault, hserve⟩ | ⟨log, content, _, hserve⟩
      · rw [hserve]
        exact ⟨rfl, rfl⟩
      · rw [hserve]
        exact limits_settle state _ _

theorem limits_after (state : Reassembler) (calls : List Call) :
    (state.after calls).maxChunks = state.maxChunks ∧
      (state.after calls).maxJobs = state.maxJobs := by
  induction calls generalizing state with
  | nil => exact ⟨rfl, rfl⟩
  | cons call calls ih =>
      obtain ⟨hplaces, hjobs⟩ := state.limits_serve call
      rw [← hplaces, ← hjobs]
      exact ih (state.serve call).2

end Reassembler

theorem Standing.not_covered {pending : Option Pending} (hstanding : Standing pending earlier) :
    ¬ Covered earlier := by
  cases hstanding with
  | idle => exact fun hcovered => hcovered.1 rfl
  | running hcollected hbegun hshort =>
      rw [hcollected.covered_iff hbegun]
      exact not_not_intro hshort

namespace Reassembler

/-- The log that a chunk is taken into is what the period makes of it. -/
theorem Taken.collected (htaken : Taken state chunk log content)
    (hstanding : Standing (state.pending? chunk.jobId) earlier) : Collected log earlier := by
  rcases htaken.log_eq with hpending | ⟨hnone, hfilled, _⟩
  · rw [hpending] at hstanding
    cases hstanding with
    | running hcollected => exact hcollected
  · rw [hnone] at hstanding
    cases hstanding with
    | idle => exact .nil hfilled

/-- With the chunk, the log is what the longer period makes of it. -/
theorem Taken.collected_filledBy (htaken : Taken state chunk log content)
    (hstanding : Standing (state.pending? chunk.jobId) earlier) :
    Collected (log.filledBy chunk content) (earlier ++ [chunk]) :=
  (htaken.collected hstanding).filledBy htaken.total_eq.symm htaken.index_lt htaken.content_eq

/-- A chunk that is taken brings the log out exactly when it covers the period. -/
theorem add_answer (hadd : state.add chunk = .ok (answer, next))
    (hstanding : Standing (state.pending? chunk.jobId) earlier) :
    answer = if Covered (earlier ++ [chunk]) then some (whole (earlier ++ [chunk])) else none := by
  obtain ⟨log, content, htaken, hsettle⟩ := add_eq_ok_iff.mp hadd
  have hcollected := htaken.collected_filledBy hstanding
  have hbegun : earlier ++ [chunk] ≠ [] := by simp
  unfold settle at hsettle
  split at hsettle
  next hshort =>
    cases hsettle
    rw [if_neg]
    rw [hcollected.covered_iff hbegun]
    exact not_not_intro hshort
  next hfull =>
    cases hsettle
    rw [if_pos ((hcollected.covered_iff hbegun).mpr hfull), hcollected.joined_eq hbegun]

/-- The job of a chunk that is taken goes on with the longer period, or its period is over. -/
theorem standing_add (hadd : state.add chunk = .ok (answer, next))
    (hstanding : Standing (state.pending? chunk.jobId) earlier) :
    Standing (next.pending? chunk.jobId)
      (nextPeriod chunk.jobId earlier ⟨.add chunk, .taken answer⟩) := by
  obtain ⟨log, content, htaken, hsettle⟩ := add_eq_ok_iff.mp hadd
  unfold settle at hsettle
  split at hsettle
  next hshort =>
    cases hsettle
    unfold pending?
    rw [lookup_withPending, if_pos rfl]
    simp only [nextPeriod, if_true]
    exact .running (htaken.collected_filledBy hstanding) (by simp) hshort
  next =>
    cases hsettle
    unfold pending?
    rw [lookup_without, if_pos rfl]
    simp only [nextPeriod, if_true]
    exact .idle

/-- A chunk leaves the logs of the other jobs alone. -/
theorem pending?_add_of_ne {job : String} (hadd : state.add chunk = .ok (answer, next))
    (hjob : chunk.jobId ≠ job) : next.pending? job = state.pending? job := by
  obtain ⟨log, content, htaken, hsettle⟩ := add_eq_ok_iff.mp hadd
  unfold settle at hsettle
  unfold pending?
  split at hsettle
  · cases hsettle
    rw [lookup_withPending, if_neg hjob.symm]
  · cases hsettle
    rw [lookup_without, if_neg hjob.symm]

/-- A log that is given up leaves the others alone. -/
theorem pending?_discard (state : Reassembler) (name job : String) :
    (state.discard name).2.pending? job = if job = name then none else state.pending? job :=
  lookup_without name job state.jobs

/-! ## Whole histories -/

variable {job : String}

theorem standing_serve (hstanding : Standing (state.pending? job) earlier) (call : Call) :
    Standing ((state.serve call).2.pending? job)
      (nextPeriod job earlier ⟨call, (state.serve call).1⟩) := by
  cases call with
  | add chunk =>
      cases hadd : state.add chunk with
      | error fault =>
          -- a refusal changes neither the log nor the period
          rw [serve_add_of_error hadd]
          exact hstanding
      | ok result =>
          obtain ⟨answer, next⟩ := result
          rw [serve_add_of_ok hadd]
          by_cases hjob : chunk.jobId = job
          · subst hjob
            exact standing_add hadd hstanding
          · rw [pending?_add_of_ne hadd hjob]
            cases answer <;> simpa only [nextPeriod, if_neg hjob] using hstanding
  | discard name =>
      unfold serve
      simp only [nextPeriod]
      rw [pending?_discard]
      by_cases hname : name = job
      · rw [if_pos hname.symm, if_pos hname]
        exact .idle
      · rw [if_neg (Ne.symm hname), if_neg hname]
        exact hstanding

/-- After any calls, every job stands as its period says. -/
theorem standing_after (hstanding : Standing (state.pending? job) earlier) (calls : List Call) :
    Standing ((state.after calls).pending? job)
      ((state.history calls).foldl (nextPeriod job) earlier) := by
  induction calls generalizing state earlier with
  | nil => exact hstanding
  | cons call calls ih => exact ih (standing_serve hstanding call)

/-! ## What does not matter -/

theorem serve_unlabelled (state : Reassembler) (call : Call) :
    state.serve call.unlabelled = state.serve call := by
  cases call <;> rfl

theorem answers_unlabelled (state : Reassembler) (calls : List Call) :
    (state.history (calls.map Call.unlabelled)).map Served.answer =
      (state.history calls).map Served.answer := by
  induction calls generalizing state with
  | nil => rfl
  | cons call calls ih =>
      rw [List.map_cons, history, history, List.map_cons, List.map_cons, serve_unlabelled, ih]

end Reassembler

/-- **A log comes out when its period covers every index, and not before.**  After any calls on a
reassembler that started empty, a chunk that is taken finds a period that does not cover every index
of the total announced by its first chunk.  If it does with the chunk, the answer is the log, which
consists of the bytes that came last for each index; if not, there is no log.  What chunks say of
their node and of being the last changes no answer. -/
theorem reassembly_by_periods (maxChunks maxJobs : Nat) :
    let start : Reassembler := { maxChunks := maxChunks, maxJobs := maxJobs }
    (∀ (calls : List Call) (chunk : LogChunk) (answer : Option (List UInt8)),
      ((start.after calls).serve (.add chunk)).1 = .taken answer →
      let earlier := period chunk.jobId (start.history calls)
      let now := earlier ++ [chunk]
      ¬ Covered earlier ∧ answer = if Covered now then some (whole now) else none) ∧
    ∀ calls calls' : List Call, calls.map Call.unlabelled = calls'.map Call.unlabelled →
      (start.history calls).map Served.answer = (start.history calls').map Served.answer := by
  intro start
  refine ⟨?_, ?_⟩
  · intro calls chunk answer htaken earlier now
    have hstart : Standing (start.pending? chunk.jobId) [] := .idle
    have hstanding : Standing ((start.after calls).pending? chunk.jobId) earlier :=
      Reassembler.standing_after hstart calls
    obtain ⟨next, hadd⟩ := Reassembler.add_eq_ok_of_taken htaken
    exact ⟨hstanding.not_covered, Reassembler.add_answer hadd hstanding⟩
  · intro calls calls' hsame
    rw [← Reassembler.answers_unlabelled start calls, hsame, Reassembler.answers_unlabelled]

/-- The log of two places comes out with what came last for the second; a chunk that announces three
places is refused, and the nodes that the chunks name do not matter. -/
theorem reassembly_by_periods_overwritten :
    let start : Reassembler := { maxChunks := 4, maxJobs := 1 }
    let piece (node : String) (index total : UInt32) (data : String) : LogChunk :=
      ⟨"a", node, index, total, data, false⟩
    let calls (node : String) : List Call :=
      [.add (piece node 1 2 "b2xk"), .add (piece node 0 3 "aGk="), .add (piece node 1 2 "bmV3")]
    let earlier := period "a" (start.history (calls "n"))
    let now := earlier ++ [piece "n" 0 2 "aGk="]
    ((start.after (calls "n")).serve (.add (piece "n" 0 2 "aGk="))).1 =
        .taken (some [104, 105, 110, 101, 119]) ∧
      (¬ Covered earlier ∧
        some [104, 105, 110, 101, 119] = if Covered now then some (whole now) else none) ∧
      (start.history (calls "n")).map Served.answer =
        (start.history (calls "m")).map Served.answer := by
  intro start piece calls earlier now
  have htaken : ((start.after (calls "n")).serve (.add (piece "n" 0 2 "aGk="))).1 =
      .taken (some [104, 105, 110, 101, 119]) := by decide +kernel
  have hperiods := reassembly_by_periods 4 1
  exact ⟨htaken, hperiods.1 (calls "n") (piece "n" 0 2 "aGk=") _ htaken,
    hperiods.2 (calls "n") (calls "m") rfl⟩

end HubLink.Log
