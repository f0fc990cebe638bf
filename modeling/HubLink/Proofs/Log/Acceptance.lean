import HubLink.Log.Reassembly
import HubLink.Proofs.Outcome

/-!
# When a chunk is taken, and what comes of it

All checks on a chunk come before the first change, so what a reassembler makes of it has two parts:
whether the chunk is taken, into which pending log and with which bytes (`Taken`), and what happens
to that log then (`settle`).  `add_eq_ok_iff` says that there is nothing else.
-/

namespace HubLink.Log

open Message (LogChunk)

/-- A pending log after a chunk of it has filled its place. -/
def Pending.filledBy (log : Pending) (chunk : LogChunk) (content : List UInt8) : Pending :=
  { log with filled := fill chunk.chunkIndex.toNat content log.filled }

namespace Reassembler

/-! ## The pending logs by their ids -/

theorem lookup_entry (job other : String) (log : Pending) (jobs : List (String × Pending)) :
    List.lookup other ((job, log) :: jobs) =
      if other = job then some log else List.lookup other jobs := by
  rw [List.lookup_cons]
  by_cases hother : other = job
  · subst hother
    rw [if_pos rfl, beq_self_eq_true]
  · rw [if_neg hother, beq_eq_false_iff_ne.mpr hother]

theorem lookup_withPending (job other : String) (log : Pending) (jobs : List (String × Pending)) :
    List.lookup other (withPending job log jobs) =
      if other = job then some log else List.lookup other jobs := by
  induction jobs with
  | nil => exact lookup_entry job other log []
  | cons entry rest ih =>
      obtain ⟨job', log'⟩ := entry
      unfold withPending
      by_cases hjob : job = job'
      · subst hjob
        rw [if_pos rfl, lookup_entry, lookup_entry]
        split <;> rfl
      · rw [if_neg hjob, lookup_entry, lookup_entry, ih]
        by_cases hother : other = job'
        · rw [if_pos hother, if_pos hother, if_neg fun heq => hjob (heq.symm.trans hother)]
        · rw [if_neg hother, if_neg hother]

theorem lookup_without (job other : String) (jobs : List (String × Pending)) :
    List.lookup other (without job jobs) =
      if other = job then none else List.lookup other jobs := by
  unfold without
  induction jobs with
  | nil =>
      rw [List.filter_nil, List.lookup_nil]
      split <;> rfl
  | cons entry rest ih =>
      obtain ⟨job', log'⟩ := entry
      by_cases hjob : job' = job
      · subst hjob
        rw [List.filter_cons_of_neg (by simp), ih, lookup_entry]
        split <;> rfl
      · rw [List.filter_cons_of_pos (by simpa using hjob), lookup_entry, lookup_entry, ih]
        by_cases hother : other = job'
        · rw [if_pos hother, if_pos hother, if_neg fun heq => hjob (hother.symm.trans heq)]
        · rw [if_neg hother, if_neg hother]

theorem without_of_lookup_eq_none {job : String} {jobs : List (String × Pending)}
    (hnone : List.lookup job jobs = none) : without job jobs = jobs := by
  unfold without
  rw [List.filter_eq_self]
  intro entry hentry
  exact bne_iff_ne.mpr (bne_iff_ne.mp (List.lookup_eq_none_iff.mp hnone entry hentry)).symm

theorem mem_withPending {job : String} {log : Pending} {jobs : List (String × Pending)}
    {entry : String × Pending} (hentry : entry ∈ withPending job log jobs) :
    entry = (job, log) ∨ entry ∈ jobs := by
  induction jobs with
  | nil => exact .inl (List.mem_singleton.mp hentry)
  | cons first rest ih =>
      obtain ⟨job', log'⟩ := first
      unfold withPending at hentry
      split at hentry
      · exact (List.mem_cons.mp hentry).imp_right (List.mem_cons_of_mem _)
      · rcases List.mem_cons.mp hentry with rfl | hlater
        · exact .inr List.mem_cons_self
        · exact (ih hlater).imp_right (List.mem_cons_of_mem _)

/-- A log that was not pending is one more. -/
theorem length_withPending_of_lookup_eq_none {job : String} (log : Pending)
    {jobs : List (String × Pending)} (hnone : List.lookup job jobs = none) :
    (withPending job log jobs).length = jobs.length + 1 := by
  induction jobs with
  | nil => rfl
  | cons entry rest ih =>
      obtain ⟨job', log'⟩ := entry
      rw [lookup_entry] at hnone
      by_cases hjob : job = job'
      · rw [if_pos hjob] at hnone
        cases hnone
      · rw [if_neg hjob] at hnone
        rw [withPending, if_neg hjob, List.length_cons, ih hnone, List.length_cons]

/-- The log of a job takes the place of the one before. -/
theorem withPending_withPending (job : String) (log old : Pending)
    (jobs : List (String × Pending)) :
    withPending job log (withPending job old jobs) = withPending job log jobs := by
  induction jobs with
  | nil => exact if_pos rfl
  | cons entry rest ih =>
      obtain ⟨job', log'⟩ := entry
      simp only [withPending]
      split
      next hjob => exact if_pos rfl
      next hjob => rw [withPending, if_neg hjob, ih]

theorem without_withPending (job : String) (log : Pending) (jobs : List (String × Pending)) :
    without job (withPending job log jobs) = without job jobs := by
  unfold without
  induction jobs with
  | nil => exact List.filter_cons_of_neg (by simp)
  | cons entry rest ih =>
      obtain ⟨job', log'⟩ := entry
      unfold withPending
      split
      next hjob =>
        subst hjob
        rw [List.filter_cons_of_neg (by simp), List.filter_cons_of_neg (by simp)]
      next hjob => rw [List.filter_cons, List.filter_cons, ih]

/-! ## Taking a chunk -/

variable {state : Reassembler} {chunk : LogChunk}

/-- A chunk is taken into a log, which is pending or begins with it. -/
structure Taken (state : Reassembler) (chunk : LogChunk) (log : Pending) (content : List UInt8) :
    Prop where
  log_eq : state.pending? chunk.jobId = some log ∨
    state.pending? chunk.jobId = none ∧ log.filled = [] ∧ state.jobs.length < state.maxJobs
  total_eq : log.total = chunk.totalChunks
  index_lt : chunk.chunkIndex.toNat < chunk.totalChunks.toNat
  total_le : chunk.totalChunks.toNat ≤ state.maxChunks
  content_eq : chunk.content = .ok content

/-- The log of a job after a place of it was filled: it is handed out or stays pending. -/
def settle (state : Reassembler) (job : String) (log : Pending) :
    Option (List UInt8) × Reassembler :=
  if log.filled.length < log.total.toNat then
    (none, { state with jobs := withPending job log state.jobs })
  else (some (joined log.filled), { state with jobs := without job state.jobs })

theorem pending?_settle (state : Reassembler) (job : String) (log : Pending) :
    (state.settle job log).2.pending? job =
      if log.filled.length < log.total.toNat then some log else none := by
  unfold settle pending?
  split
  · rw [lookup_withPending, if_pos rfl]
  · rw [lookup_without, if_pos rfl]

theorem limits_settle (state : Reassembler) (job : String) (log : Pending) :
    (state.settle job log).2.maxChunks = state.maxChunks ∧
      (state.settle job log).2.maxJobs = state.maxJobs := by
  unfold settle
  split <;> exact ⟨rfl, rfl⟩

theorem checkLimits_eq_ok_iff : state.checkLimits chunk = .ok () ↔
    chunk.chunkIndex.toNat < chunk.totalChunks.toNat ∧
      chunk.totalChunks.toNat ≤ state.maxChunks ∧
      (state.pending? chunk.jobId = none → state.jobs.length < state.maxJobs) := by
  unfold checkLimits
  simp only [UInt32.le_iff_toNat_le, Option.isNone_iff_eq_none]
  split
  next hrange =>
    refine ⟨fun h => (by cases h), fun h => ?_⟩
    omega
  next hrange =>
    split
    next hmany =>
      refine ⟨fun h => (by cases h), fun h => ?_⟩
      omega
    next hmany =>
      split
      next hjobs =>
        refine ⟨fun h => (by cases h), fun h => ?_⟩
        have hroom := h.2.2 hjobs.1
        omega
      next hjobs =>
        refine ⟨fun _ => ⟨by omega, by omega, fun hnone => ?_⟩, fun _ => rfl⟩
        have hroom : ¬ state.maxJobs ≤ state.jobs.length := fun hfull => hjobs ⟨hnone, hfull⟩
        omega

theorem logOf_eq_ok_iff {log : Pending} : state.logOf chunk = .ok log ↔
    log.total = chunk.totalChunks ∧ (state.pending? chunk.jobId = some log ∨
      state.pending? chunk.jobId = none ∧ log.filled = []) := by
  unfold logOf
  cases hpending : state.pending? chunk.jobId with
  | none =>
      simp only [reduceCtorEq, false_or, true_and]
      constructor
      · rintro ⟨⟩
        exact ⟨rfl, rfl⟩
      · rintro ⟨htotal, hfilled⟩
        rw [← htotal, ← hfilled]
  | some old =>
      simp only [reduceCtorEq, false_and, or_false, Option.some.injEq]
      split
      next htotal =>
        constructor
        · rintro ⟨⟩
          exact ⟨htotal, rfl⟩
        · rintro ⟨_, rfl⟩
          rfl
      next htotal =>
        refine ⟨fun h => (by cases h), ?_⟩
        rintro ⟨heq, rfl⟩
        exact absurd heq htotal

/-- A chunk is taken when all three checks let it pass. -/
theorem taken_iff {log : Pending} {content : List UInt8} : Taken state chunk log content ↔
    state.checkLimits chunk = .ok () ∧ chunk.content = .ok content ∧
      state.logOf chunk = .ok log := by
  rw [checkLimits_eq_ok_iff, logOf_eq_ok_iff]
  constructor
  · intro htaken
    refine ⟨⟨htaken.index_lt, htaken.total_le, ?_⟩, htaken.content_eq, htaken.total_eq, ?_⟩
    · intro hnone
      rcases htaken.log_eq with hsome | ⟨_, _, hroom⟩
      · rw [hnone] at hsome
        cases hsome
      · exact hroom
    · exact htaken.log_eq.imp id fun hnew => ⟨hnew.1, hnew.2.1⟩
  · rintro ⟨⟨hindex, htotal, hroom⟩, hcontent, heq, hlog⟩
    exact ⟨hlog.imp id fun hnew => ⟨hnew.1, hnew.2, hroom hnew.1⟩, heq, hindex, htotal, hcontent⟩

/-- A reassembler does with a chunk what it can be taken for, and nothing else. -/
theorem add_eq_ok_iff {result : Option (List UInt8) × Reassembler} :
    state.add chunk = .ok result ↔ ∃ log content, Taken state chunk log content ∧
      result = state.settle chunk.jobId (log.filledBy chunk content) := by
  unfold add
  rw [bind_eq_ok]
  constructor
  · rintro ⟨⟨⟩, hlimits, hresult⟩
    split at hresult
    next => cases hresult
    next content hcontent =>
      obtain ⟨log, hlog, hresult⟩ := bind_eq_ok.mp hresult
      refine ⟨log, content, taken_iff.mpr ⟨hlimits, hcontent, hlog⟩, ?_⟩
      -- the code compares and settles in one go
      dsimp only at hresult
      unfold settle Pending.filledBy
      split at hresult
      next hlt =>
        cases hresult
        rw [if_pos hlt]
      next hnot =>
        cases hresult
        rw [if_neg hnot]
  · rintro ⟨log, content, htaken, rfl⟩
    obtain ⟨hlimits, hcontent, hlog⟩ := taken_iff.mp htaken
    refine ⟨(), hlimits, ?_⟩
    rw [hcontent]
    refine bind_eq_ok.mpr ⟨log, hlog, ?_⟩
    unfold settle Pending.filledBy
    dsimp only
    split <;> rfl

end Reassembler

end HubLink.Log
