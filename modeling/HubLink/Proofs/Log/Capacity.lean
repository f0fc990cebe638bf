import HubLink.Proofs.Log.History
import Mathlib.Data.List.Nodup

/-!
# What a reassembler holds

Totals, indices and job ids come from the peer, so it matters what they can make a reassembler keep.
Whatever calls it has served, no more logs are pending than it allows (`Sound`), and every log that is
pending is there for a reason (`Pending.Open`): its places are within the limit, some are filled and
some are not, and no place is filled that it does not have.

A log with no filled place, or with none left to fill, would never be handed out.  That there is none
follows from the order of the steps: a log is listed only with the place of its first chunk filled,
and is taken off the list in the call that fills its last place.
-/

namespace HubLink.Log

open Message (LogChunk)

/-! ## Filling a place -/

section

variable {index : Nat} {content : List UInt8} {filled : List (Nat × List UInt8)}

theorem mem_fill {entry : Nat × List UInt8} (hentry : entry ∈ fill index content filled) :
    entry = (index, content) ∨ entry ∈ filled := by
  induction filled with
  | nil => exact .inl (List.mem_singleton.mp hentry)
  | cons first rest ih =>
      obtain ⟨place, old⟩ := first
      unfold fill at hentry
      split at hentry
      · exact List.mem_cons.mp hentry
      · split at hentry
        · exact (List.mem_cons.mp hentry).imp_right (List.mem_cons_of_mem _)
        · rcases List.mem_cons.mp hentry with rfl | hlater
          · exact .inr List.mem_cons_self
          · exact (ih hlater).imp_right (List.mem_cons_of_mem _)

theorem length_fill_pos : 0 < (fill index content filled).length := by
  cases filled with
  | nil => exact Nat.one_pos
  | cons first rest =>
      unfold fill
      split
      · exact Nat.succ_pos _
      · split <;> exact Nat.succ_pos _

/-- The filled places stay in ascending order. -/
theorem pairwise_fill (hfilled : filled.Pairwise fun first second => first.1 < second.1) :
    (fill index content filled).Pairwise fun first second => first.1 < second.1 := by
  induction filled with
  | nil => exact List.pairwise_singleton _ _
  | cons first rest ih =>
      obtain ⟨place, old⟩ := first
      obtain ⟨hfirst, hrest⟩ := List.pairwise_cons.mp hfilled
      unfold fill
      split
      next hbefore =>
        refine List.pairwise_cons.mpr ⟨?_, hfilled⟩
        intro entry hentry
        rcases List.mem_cons.mp hentry with rfl | hlater
        · exact hbefore
        · exact Nat.lt_trans hbefore (hfirst entry hlater)
      next hnot =>
        split
        next hsame =>
          subst hsame
          exact List.pairwise_cons.mpr ⟨hfirst, hrest⟩
        next hother =>
          refine List.pairwise_cons.mpr ⟨?_, ih hrest⟩
          intro entry hentry
          rcases mem_fill hentry with rfl | hlater
          · show place < index
            omega
          · exact hfirst entry hlater

/-- A place that was empty is one more. -/
theorem fill_perm_of_new (hnew : index ∉ filled.map Prod.fst) :
    (fill index content filled).Perm ((index, content) :: filled) := by
  induction filled with
  | nil => exact .refl _
  | cons first rest ih =>
      obtain ⟨place, old⟩ := first
      rw [List.map_cons, List.mem_cons, not_or] at hnew
      unfold fill
      split
      · exact .refl _
      · rw [if_neg hnew.1]
        exact ((ih hnew.2).cons _).trans (.swap _ _ _)

end

/-! ## A pending log -/

/-- A log whose places are within a limit, and whose filled places are listed in ascending order. -/
structure Pending.Tidy (maxChunks : Nat) (log : Pending) : Prop where
  total_le : log.total.toNat ≤ maxChunks
  below : ∀ entry ∈ log.filled, entry.1 < log.total.toNat
  ascending : log.filled.Pairwise fun first second => first.1 < second.1

/-- A log that has begun to arrive and is not complete. -/
structure Pending.Open (maxChunks : Nat) (log : Pending) : Prop extends log.Tidy maxChunks where
  begun : 0 < log.filled.length
  short : log.filled.length < log.total.toNat

theorem Pending.Tidy.filledBy {maxChunks : Nat} {log : Pending} {chunk : LogChunk}
    (htidy : log.Tidy maxChunks) (hindex : chunk.chunkIndex.toNat < log.total.toNat)
    (content : List UInt8) : (log.filledBy chunk content).Tidy maxChunks where
  total_le := htidy.total_le
  below := by
    intro entry hentry
    rcases mem_fill hentry with rfl | hbefore
    · exact hindex
    · exact htidy.below entry hbefore
  ascending := pairwise_fill htidy.ascending

namespace Reassembler

/-! ## The logs together -/

/-- No more logs are pending than may be, each job has one at most, and all are open. -/
structure Sound (state : Reassembler) : Prop where
  jobs_le : state.jobs.length ≤ state.maxJobs
  distinct : (state.jobs.map Prod.fst).Nodup
  opened : ∀ entry ∈ state.jobs, entry.2.Open state.maxChunks

variable {state : Reassembler} {chunk : LogChunk} {log : Pending} {content : List UInt8}

theorem mem_jobs_of_pending? {job : String} (hpending : state.pending? job = some log) :
    (job, log) ∈ state.jobs := by
  obtain ⟨before, after, hjobs, -⟩ := List.lookup_eq_some_iff.mp hpending
  rw [hjobs]
  exact List.mem_append_right before List.mem_cons_self

/-- The log of a job keeps its place in the list, or comes last. -/
theorem map_fst_withPending (job : String) (log : Pending) (jobs : List (String × Pending)) :
    (withPending job log jobs).map Prod.fst =
      if job ∈ jobs.map Prod.fst then jobs.map Prod.fst else jobs.map Prod.fst ++ [job] := by
  induction jobs with
  | nil => rfl
  | cons entry rest ih =>
      obtain ⟨job', log'⟩ := entry
      unfold withPending
      by_cases hjob : job = job'
      · subst hjob
        simp
      · rw [if_neg hjob, List.map_cons, ih]
        by_cases hmem : job ∈ rest.map Prod.fst
        · simp [hmem]
        · simp [hmem, hjob]

/-- Logs that are taken off the list leave the others as they were. -/
theorem Sound.without (hsound : state.Sound) (job : String) :
    Sound { state with jobs := without job state.jobs } where
  jobs_le := (List.length_filter_le _ _).trans hsound.jobs_le
  distinct := (List.filter_sublist.map Prod.fst).nodup hsound.distinct
  opened := fun entry hentry => hsound.opened entry (List.mem_of_mem_filter hentry)

/-- The log that a chunk is taken into is tidy, also when it begins with the chunk. -/
theorem Taken.tidy (htaken : Taken state chunk log content) (hsound : state.Sound) :
    log.Tidy state.maxChunks := by
  rcases htaken.log_eq with hpending | ⟨-, hfilled, -⟩
  · exact (hsound.opened _ (mem_jobs_of_pending? hpending)).toTidy
  · refine ⟨?_, ?_, ?_⟩
    · rw [htaken.total_eq]
      exact htaken.total_le
    · rw [hfilled]
      exact List.forall_mem_nil _
    · rw [hfilled]
      exact .nil

/-- A chunk that is taken has its job on the list already, or there is room for one more. -/
theorem Taken.room (htaken : Taken state chunk log content) :
    chunk.jobId ∈ state.jobs.map Prod.fst ∨ state.jobs.length < state.maxJobs := by
  rcases htaken.log_eq with hpending | ⟨-, -, hroom⟩
  · exact .inl (List.mem_map_of_mem (mem_jobs_of_pending? hpending))
  · exact .inr hroom

theorem Taken.sound_settle (htaken : Taken state chunk log content) (hsound : state.Sound) :
    Sound (state.settle chunk.jobId (log.filledBy chunk content)).2 := by
  have hindex : chunk.chunkIndex.toNat < log.total.toNat := by
    rw [htaken.total_eq]
    exact htaken.index_lt
  unfold settle
  split
  next hshort =>
    have hkeys := map_fst_withPending chunk.jobId (log.filledBy chunk content) state.jobs
    have hlength := congrArg List.length hkeys
    rw [List.length_map] at hlength
    refine ⟨?_, ?_, ?_⟩
    · show (withPending _ _ state.jobs).length ≤ state.maxJobs
      have hbefore := hsound.jobs_le
      rw [hlength]
      split
      next => rwa [List.length_map]
      next hnew =>
        have hroom := htaken.room.resolve_left hnew
        rw [List.length_append, List.length_map, List.length_singleton]
        exact hroom
    · show ((withPending _ _ state.jobs).map Prod.fst).Nodup
      rw [hkeys]
      split
      next => exact hsound.distinct
      next hnew =>
        exact hsound.distinct.append (List.nodup_singleton _) (List.disjoint_singleton.mpr hnew)
    · intro entry hentry
      rcases mem_withPending hentry with rfl | hbefore
      · exact ⟨(htaken.tidy hsound).filledBy hindex content, length_fill_pos, hshort⟩
      · exact hsound.opened entry hbefore
  next => exact hsound.without chunk.jobId

theorem Sound.serve (hsound : state.Sound) (call : Call) : Sound (state.serve call).2 := by
  cases call with
  | discard job => exact hsound.without job
  | add chunk =>
      rcases state.serve_add_cases chunk with ⟨fault, hserve⟩ | ⟨log, content, htaken, hserve⟩
      · rw [hserve]
        exact hsound
      · rw [hserve]
        exact htaken.sound_settle hsound

/-- A reassembler that started empty is sound after any calls. -/
theorem Sound.after (hsound : state.Sound) (calls : List Call) : Sound (state.after calls) := by
  induction calls generalizing state with
  | nil => exact hsound
  | cons call calls ih => exact ih (hsound.serve call)

theorem sound_of_empty (maxChunks maxJobs : Nat) :
    Sound { maxChunks := maxChunks, maxJobs := maxJobs } where
  jobs_le := Nat.zero_le _
  distinct := List.nodup_nil
  opened := List.forall_mem_nil _

end Reassembler

end HubLink.Log
