import HubLink.Proofs.Log.History

/-!
# Jobs do not see each other

A reassembler serves many jobs from one list of pending logs, and a peer chooses all that is in the
chunks.  Yet what a job is answered depends on its own calls alone, as long as none of its chunks is
turned away because too many other logs are pending (`answers_of_own_calls`).

The reassembler that serves only the calls of one job is compared with the one that serves all of
them.  What the two have in common is little, and it is all that the job can see: the limit on the
places of a log, and the job's own pending log (`Mirror`).  A call of another job changes neither.  A
call of the job is answered from these two, the limit on the number of jobs apart, and that one is
never met by a job that is alone.
-/

namespace HubLink.Log

open Message (LogChunk)

/-- The job that a call is about. -/
def Call.jobId : Call → String
  | .add chunk => chunk.jobId
  | .discard job => job

/-- Whether a chunk was turned away because too many other logs are pending. -/
def Answer.isTurnedAway : Answer → Bool
  | .refused (.tooManyJobs _ _) => true
  | _ => false

variable {state crowded alone : Reassembler} {chunk : LogChunk} {call : Call} {job : String}

namespace Reassembler

/-! ## What a chunk is answered from -/

/-- The log that a chunk is taken into, with the place of the chunk filled. -/
def logWith (state : Reassembler) (chunk : LogChunk) : Except Fault Pending := do
  state.checkLimits chunk
  match chunk.content with
  | .error cause => .error (.data chunk.jobId chunk.chunkIndex cause)
  | .ok content =>
    let log ← state.logOf chunk
    return log.filledBy chunk content

/-- What happens to a log after a chunk of it does not matter for whether the chunk is taken. -/
theorem add_eq_map_settle (state : Reassembler) (chunk : LogChunk) :
    state.add chunk = (state.logWith chunk).map (state.settle chunk.jobId) := by
  unfold add logWith
  cases state.checkLimits chunk with
  | error fault => rfl
  | ok _ =>
      cases chunk.content with
      | error cause => rfl
      | ok content =>
          cases state.logOf chunk with
          | error fault => rfl
          | ok log => exact (apply_ite Except.ok _ _ _).symm

theorem serve_add_of_logWith_eq_ok {log : Pending} (hlog : state.logWith chunk = .ok log) :
    state.serve (.add chunk) =
      (.taken (state.settle chunk.jobId log).1, (state.settle chunk.jobId log).2) := by
  apply serve_add_of_ok
  rw [add_eq_map_settle, hlog]
  rfl

theorem serve_add_of_logWith_eq_error {fault : Fault} (hlog : state.logWith chunk = .error fault) :
    state.serve (.add chunk) = (.refused fault, state) := by
  apply serve_add_of_error
  rw [add_eq_map_settle, hlog]
  rfl

/-- A call of one job leaves the logs of the others alone. -/
theorem pending?_serve_of_ne (hjob : call.jobId ≠ job) :
    (state.serve call).2.pending? job = state.pending? job := by
  cases call with
  | discard name => exact (pending?_discard state name job).trans (if_neg (Ne.symm hjob))
  | add chunk =>
      cases hadd : state.add chunk with
      | error fault => rw [serve_add_of_error hadd]
      | ok result =>
          rw [serve_add_of_ok hadd]
          exact pending?_add_of_ne hadd hjob

end Reassembler

/-! ## Two reassemblers that a job cannot tell apart -/

/-- A reassembler that serves many jobs, and one that serves a single job alone: the job finds the
same limit on its places in both and the same pending log. -/
structure Mirror (job : String) (crowded alone : Reassembler) : Prop where
  maxChunks_eq : alone.maxChunks = crowded.maxChunks
  pending_eq : alone.pending? job = crowded.pending? job
  room : 0 < alone.maxJobs
  only : ∀ entry ∈ alone.jobs, entry.1 = job

namespace Mirror

/-- A job that is alone and has no log pending finds nothing pending at all. -/
theorem jobs_eq_nil (hmirror : Mirror job crowded alone) (hnone : alone.pending? job = none) :
    alone.jobs = [] := by
  rw [List.eq_nil_iff_forall_not_mem]
  intro entry hentry
  have hother := List.lookup_eq_none_iff.mp hnone entry hentry
  rw [hmirror.only entry hentry, bne_self_eq_false] at hother
  cases hother

theorem checkLimits_eq (hmirror : Mirror chunk.jobId crowded alone)
    (hserved : crowded.checkLimits chunk ≠ .error (.tooManyJobs chunk.jobId crowded.maxJobs)) :
    alone.checkLimits chunk = crowded.checkLimits chunk := by
  have hown : ¬ ((alone.pending? chunk.jobId).isNone ∧ alone.maxJobs ≤ alone.jobs.length) := by
    rintro ⟨hnone, hfull⟩
    rw [hmirror.jobs_eq_nil (Option.isNone_iff_eq_none.mp hnone)] at hfull
    exact Nat.not_le.mpr hmirror.room hfull
  unfold Reassembler.checkLimits at hserved ⊢
  rw [hmirror.maxChunks_eq]
  split at hserved
  next hrange => rw [if_pos hrange, if_pos hrange]
  next hrange =>
    rw [if_neg hrange, if_neg hrange]
    split at hserved
    next hmany => rw [if_pos hmany, if_pos hmany]
    next hmany =>
      rw [if_neg hmany, if_neg hmany, if_neg hown]
      split at hserved
      next => exact absurd rfl hserved
      next hroom => rw [if_neg hroom]

/-- A chunk is taken into the same log, or refused for the same reason, unless it is turned away
where the others are. -/
theorem logWith_eq (hmirror : Mirror chunk.jobId crowded alone)
    (hserved : crowded.logWith chunk ≠ .error (.tooManyJobs chunk.jobId crowded.maxJobs)) :
    alone.logWith chunk = crowded.logWith chunk := by
  have hlimits : alone.checkLimits chunk = crowded.checkLimits chunk := by
    apply hmirror.checkLimits_eq
    intro hturned
    exact hserved (bind_eq_error hturned _)
  have hlog : alone.logOf chunk = crowded.logOf chunk := by
    unfold Reassembler.logOf
    rw [hmirror.pending_eq]
  unfold Reassembler.logWith
  rw [hlimits, hlog]

theorem settle (hmirror : Mirror job crowded alone) (log : Pending) :
    (alone.settle job log).1 = (crowded.settle job log).1 ∧
      Mirror job (crowded.settle job log).2 (alone.settle job log).2 := by
  have hsame : (alone.settle job log).1 = (crowded.settle job log).1 := by
    unfold Reassembler.settle
    split <;> rfl
  obtain ⟨hplaces, hjobs⟩ := alone.limits_settle job log
  refine ⟨hsame, ?_, ?_, ?_, ?_⟩
  · rw [hplaces, hmirror.maxChunks_eq, (crowded.limits_settle job log).1]
  · rw [Reassembler.pending?_settle, Reassembler.pending?_settle]
  · rw [hjobs]
    exact hmirror.room
  · intro entry hentry
    unfold Reassembler.settle at hentry
    split at hentry
    · rcases Reassembler.mem_withPending hentry with rfl | hbefore
      · rfl
      · exact hmirror.only entry hbefore
    · exact hmirror.only entry (List.mem_of_mem_filter hentry)

/-- A call of the job gets the same answer from both. -/
theorem serve (hmirror : Mirror job crowded alone) (hjob : call.jobId = job)
    (hserved : ¬ (crowded.serve call).1.isTurnedAway) :
    (alone.serve call).1 = (crowded.serve call).1 ∧
      Mirror job (crowded.serve call).2 (alone.serve call).2 := by
  subst hjob
  cases call with
  | discard name =>
      have hnothing : ∀ state : Reassembler, (state.discard name).2.pending? name = none :=
        fun state => (state.pending?_discard name name).trans (if_pos rfl)
      have hsame : (alone.discard name).1 = (crowded.discard name).1 :=
        congrArg Option.isSome hmirror.pending_eq
      refine ⟨congrArg Answer.discarded hsame, hmirror.maxChunks_eq, ?_, hmirror.room, ?_⟩
      · exact (hnothing alone).trans (hnothing crowded).symm
      · intro entry hentry
        exact hmirror.only entry (List.mem_of_mem_filter hentry)
  | add chunk =>
      have hlog : alone.logWith chunk = crowded.logWith chunk := by
        apply hmirror.logWith_eq
        intro hturned
        rw [Reassembler.serve_add_of_logWith_eq_error hturned] at hserved
        exact hserved rfl
      cases hcrowded : crowded.logWith chunk with
      | error fault =>
          rw [Reassembler.serve_add_of_logWith_eq_error hcrowded,
            Reassembler.serve_add_of_logWith_eq_error (hlog.trans hcrowded)]
          exact ⟨rfl, hmirror⟩
      | ok log =>
          rw [Reassembler.serve_add_of_logWith_eq_ok hcrowded,
            Reassembler.serve_add_of_logWith_eq_ok (hlog.trans hcrowded)]
          obtain ⟨hsame, hnext⟩ := hmirror.settle log
          exact ⟨congrArg Answer.taken hsame, hnext⟩

/-- A call of another job changes nothing that the job can see. -/
theorem serve_other (hmirror : Mirror job crowded alone) (hjob : call.jobId ≠ job) :
    Mirror job (crowded.serve call).2 alone where
  maxChunks_eq := hmirror.maxChunks_eq.trans (crowded.limits_serve call).1.symm
  pending_eq := hmirror.pending_eq.trans (Reassembler.pending?_serve_of_ne hjob).symm
  room := hmirror.room
  only := hmirror.only

theorem history (hmirror : Mirror job crowded alone) (calls : List Call)
    (hserved : ∀ served ∈ crowded.history calls,
      served.call.jobId = job → ¬ served.answer.isTurnedAway) :
    (crowded.history calls).filter (fun served => served.call.jobId = job) =
      alone.history (calls.filter fun call => call.jobId = job) := by
  -- on the calls; a call of another job moves only the reassembler that serves it
  induction calls generalizing crowded alone with
  | nil => rfl
  | cons call calls ih =>
      obtain ⟨hfirst, hlater⟩ := List.forall_mem_cons.mp hserved
      rw [Reassembler.history]
      by_cases hjob : call.jobId = job
      · obtain ⟨hanswer, hnext⟩ := hmirror.serve hjob (hfirst hjob)
        rw [List.filter_cons_of_pos (by simpa using hjob),
          List.filter_cons_of_pos (by simpa using hjob), Reassembler.history, hanswer,
          ih hnext hlater]
      · rw [List.filter_cons_of_neg (by simpa using hjob),
          List.filter_cons_of_neg (by simpa using hjob)]
        exact ih (hmirror.serve_other hjob) hlater

end Mirror

/-- **A job is answered as if it were alone.**  Calls of any number of jobs are served by one
reassembler.  If no chunk of a job is turned away because too many logs are pending, the calls of
this job are answered, one by one, as a reassembler with the same limit on places answers them that
serves them alone and lets at least one log be pending. -/
theorem answers_of_own_calls (maxChunks maxJobs maxJobsAlone : Nat) (calls : List Call)
    (job : String) (hone : 1 ≤ maxJobsAlone) :
    let shared : Reassembler := { maxChunks := maxChunks, maxJobs := maxJobs }
    let alone : Reassembler := { maxChunks := maxChunks, maxJobs := maxJobsAlone }
    (∀ served ∈ shared.history calls, served.call.jobId = job → ¬ served.answer.isTurnedAway) →
    (shared.history calls).filter (fun served => served.call.jobId = job) =
      alone.history (calls.filter fun call => call.jobId = job) := by
  intro shared alone hserved
  have hmirror : Mirror job shared alone := ⟨rfl, rfl, hone, List.forall_mem_nil _⟩
  exact hmirror.history calls hserved

/-- One log may be pending.  While that of job a is, a chunk of job b is turned away and one of job a
is refused for its total; job a is answered as it would be without job b, with room for many. -/
theorem answers_of_own_calls_crowded_out :
    let piece (job : String) (index total : UInt32) (data : String) : LogChunk :=
      ⟨job, "n", index, total, data, false⟩
    let own : List Call := [.add (piece "a" 1 2 "Yg=="), .add (piece "a" 0 3 "YQ=="),
      .add (piece "a" 0 2 "YQ==")]
    let calls : List Call := [.add (piece "a" 1 2 "Yg=="), .add (piece "b" 0 2 "eA=="),
      .add (piece "a" 0 3 "YQ=="), .discard "b", .add (piece "a" 0 2 "YQ==")]
    let shared : Reassembler := { maxChunks := 4, maxJobs := 1 }
    let alone : Reassembler := { maxChunks := 4, maxJobs := 9 }
    (shared.history calls).map Served.answer =
        [.taken none, .refused (.tooManyJobs "b" 1), .refused (.totalMismatch "a" 2 3),
          .discarded false, .taken (some [97, 98])] ∧
      (shared.history calls).filter (fun served => served.call.jobId = "a") =
        alone.history own := by
  intro piece own calls shared alone
  have hserved : ∀ served ∈ shared.history calls,
      served.call.jobId = "a" → ¬ served.answer.isTurnedAway := by
    decide +kernel
  exact ⟨by decide +kernel, answers_of_own_calls 4 1 9 calls "a" (by decide) hserved⟩

end HubLink.Log
