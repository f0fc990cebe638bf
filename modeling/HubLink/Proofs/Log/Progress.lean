import HubLink.Proofs.Log.Capacity
import HubLink.Proofs.Log.Chunks

/-!
# A log that has begun can be finished

Limits that keep a peer from filling the memory must not keep an honest one from finishing.  The
check on the number of jobs is only for logs that begin: one that is pending takes every chunk for an
empty place of it that is readable and agrees on the total, however full the reassembler is.

So from any state that calls can lead to, the empty places of a pending log may be filled in any
order.  None of the chunks is refused, and the last of them brings the log out
(`pending_logs_can_finish`), made of the bytes that were stored and those that came, by ascending
place.  Every chunk fills a place that was empty, so the places that are left are always as many as
the chunks still to come.
-/

namespace HubLink.Log

open Message (LogChunk)

/-- The empty places of a log. -/
def Pending.missing (log : Pending) : List Nat :=
  (List.range log.total.toNat).filter fun place => place ∉ log.filled.map Prod.fst

/-- The place of a chunk with its bytes. -/
def placed (chunk : LogChunk) : Nat × List UInt8 :=
  (chunk.chunkIndex.toNat, chunk.content.toOption.getD [])

/-- A chunk of a job with readable data and the total of the job's log. -/
structure Fitting (job : String) (total : UInt32) (chunk : LogChunk) : Prop where
  jobId_eq : chunk.jobId = job
  total_eq : chunk.totalChunks = total
  readable : ∃ content, chunk.content = .ok content

variable {maxChunks : Nat} {log : Pending} {chunk : LogChunk}

namespace Pending

/-! ## The empty places -/

theorem mem_missing {place : Nat} :
    place ∈ log.missing ↔ place < log.total.toNat ∧ place ∉ log.filled.map Prod.fst := by
  simp [missing]

theorem nodup_missing (log : Pending) : log.missing.Nodup :=
  List.nodup_range.filter _

/-- Every place is filled or empty. -/
theorem Tidy.length_missing (htidy : log.Tidy maxChunks) :
    log.filled.length + log.missing.length = log.total.toNat := by
  have hdistinct : (log.filled.map Prod.fst).Nodup :=
    List.pairwise_map.mpr (htidy.ascending.imp Nat.ne_of_lt)
  have hfilled : (log.filled.map Prod.fst).Perm
      ((List.range log.total.toNat).filter fun place => place ∈ log.filled.map Prod.fst) := by
    refine (List.perm_ext_iff_of_nodup hdistinct (List.nodup_range.filter _)).mpr fun place => ?_
    rw [List.mem_filter, List.mem_range, decide_eq_true_iff]
    refine ⟨fun hplace => ⟨?_, hplace⟩, And.right⟩
    obtain ⟨entry, hentry, rfl⟩ := List.mem_map.mp hplace
    exact htidy.below entry hentry
  have hboth := List.length_eq_length_filter_add (l := List.range log.total.toNat)
    fun place => decide (place ∈ log.filled.map Prod.fst)
  rw [List.length_range, ← hfilled.length_eq, List.length_map] at hboth
  rw [hboth, missing]
  simp only [decide_not]

/-- A log is short of a chunk exactly while a place of it is empty. -/
theorem Tidy.short_iff (htidy : log.Tidy maxChunks) :
    log.filled.length < log.total.toNat ↔ log.missing ≠ [] := by
  rw [← htidy.length_missing, Nat.lt_add_right_iff_pos, List.length_pos_iff]

/-- A chunk for an empty place fills one place more, and leaves the other empty places. -/
theorem filled_filledBy (hnew : chunk.chunkIndex.toNat ∈ log.missing) (content : List UInt8) :
    (log.filledBy chunk content).filled.Perm ((chunk.chunkIndex.toNat, content) :: log.filled) :=
  fill_perm_of_new (mem_missing.mp hnew).2

theorem perm_missing_filledBy {places : List Nat}
    (hmissing : (chunk.chunkIndex.toNat :: places).Perm log.missing) (content : List UInt8) :
    places.Perm (log.filledBy chunk content).missing := by
  have hnew : chunk.chunkIndex.toNat ∈ log.missing := hmissing.mem_iff.mp List.mem_cons_self
  obtain ⟨hother, hdistinct⟩ := List.nodup_cons.mp (hmissing.nodup_iff.mpr log.nodup_missing)
  refine (List.perm_ext_iff_of_nodup hdistinct (nodup_missing _)).mpr fun place => ?_
  have hkeys := ((filled_filledBy hnew content).map Prod.fst).mem_iff (a := place)
  have hbefore := hmissing.mem_iff (a := place)
  rw [mem_missing, hkeys, List.map_cons, List.mem_cons, not_or]
  rw [List.mem_cons, mem_missing] at hbefore
  constructor
  · intro hplace
    obtain ⟨hlt, hempty⟩ := hbefore.mp (.inr hplace)
    refine ⟨hlt, ?_, hempty⟩
    rintro rfl
    exact hother hplace
  · rintro ⟨hlt, hne, hempty⟩
    exact (hbefore.mpr ⟨hlt, hempty⟩).resolve_left hne

end Pending

namespace Reassembler

variable {state : Reassembler} {job : String}

/-! ## Filling them -/

/-- A pending log takes a fitting chunk for an empty place, whatever else is pending. -/
theorem taken_of_missing (hpending : state.pending? job = some log)
    (htidy : log.Tidy state.maxChunks) (hfitting : Fitting job log.total chunk)
    (hnew : chunk.chunkIndex.toNat ∈ log.missing) :
    Taken state chunk log (placed chunk).2 := by
  obtain ⟨content, hcontent⟩ := hfitting.readable
  refine ⟨.inl ?_, hfitting.total_eq.symm, ?_, ?_, ?_⟩
  · rw [hfitting.jobId_eq, hpending]
  · rw [hfitting.total_eq]
    exact (Pending.mem_missing.mp hnew).1
  · rw [hfitting.total_eq]
    exact htidy.total_le
  · rw [placed, hcontent]
    rfl

theorem serve_of_missing (hpending : state.pending? job = some log)
    (htidy : log.Tidy state.maxChunks) (hfitting : Fitting job log.total chunk)
    (hnew : chunk.chunkIndex.toNat ∈ log.missing) :
    state.serve (.add chunk) =
      (.taken (state.settle job (log.filledBy chunk (placed chunk).2)).1,
        (state.settle job (log.filledBy chunk (placed chunk).2)).2) := by
  have htaken := taken_of_missing hpending htidy hfitting hnew
  have hadd := add_eq_ok_iff.mpr ⟨log, (placed chunk).2, htaken, rfl⟩
  rw [hfitting.jobId_eq] at hadd
  exact serve_add_of_ok hadd

/-- Chunks for the empty places of a pending log, in any order: the last brings the log out. -/
theorem history_of_missing {deliveries : List LogChunk} (hpending : state.pending? job = some log)
    (hopen : log.Open state.maxChunks)
    (hfitting : ∀ chunk ∈ deliveries, Fitting job log.total chunk)
    (hmissing : (deliveries.map fun chunk => chunk.chunkIndex.toNat).Perm log.missing) :
    ∃ filled, filled.Perm (log.filled ++ deliveries.map placed) ∧
      (filled.Pairwise fun first second => first.1 < second.1) ∧
      (state.history (deliveries.map .add)).map Served.answer =
        List.replicate (deliveries.length - 1) (.taken none) ++ [.taken (some (joined filled))] ∧
      state.after (deliveries.map .add) =
        { state with jobs := without job state.jobs } := by
  -- on the chunks; each turns the log into one that lacks the places of those behind it
  induction deliveries generalizing state log with
  | nil => exact absurd hmissing.nil_eq.symm (hopen.short_iff.mp hopen.short)
  | cons chunk later ih =>
      obtain ⟨hfirst, hlater⟩ := List.forall_mem_cons.mp hfitting
      have hnew : chunk.chunkIndex.toNat ∈ log.missing :=
        hmissing.mem_iff.mp List.mem_cons_self
      have hserve := serve_of_missing hpending hopen.toTidy hfirst hnew
      have hfilled := Pending.filled_filledBy hnew (placed chunk).2
      have htidy := hopen.toTidy.filledBy (Pending.mem_missing.mp hnew).1 (placed chunk).2
      have hleft := Pending.perm_missing_filledBy hmissing (placed chunk).2
      -- from here on the longer log stands for itself
      have htotal : (log.filledBy chunk (placed chunk).2).total = log.total := rfl
      generalize log.filledBy chunk (placed chunk).2 = longer at hserve hfilled htidy hleft htotal
      have hbegun : 0 < longer.filled.length := by
        rw [hfilled.length_eq]
        exact Nat.succ_pos _
      rw [List.map_cons (f := Call.add), history, after, hserve, List.map_cons (f := Served.answer)]
      unfold settle
      cases later with
      | nil =>
          have hwhole : longer.missing = [] := hleft.nil_eq.symm
          rw [if_neg fun hshort => htidy.short_iff.mp hshort hwhole]
          refine ⟨longer.filled, ?_, htidy.ascending, rfl, rfl⟩
          exact hfilled.trans (List.perm_append_singleton _ _).symm
      | cons second rest =>
          have hshort : longer.filled.length < longer.total.toNat := by
            rw [htidy.short_iff]
            intro hwhole
            rw [hwhole] at hleft
            exact List.cons_ne_nil _ _ (List.perm_nil.mp hleft)
          have hnext : pending? { state with jobs := withPending job longer state.jobs } job =
              some longer := (lookup_withPending job job longer state.jobs).trans (if_pos rfl)
          rw [if_pos hshort]
          obtain ⟨filled, hperm, hascending, hanswers, hafter⟩ :=
            ih hnext ⟨htidy, hbegun, hshort⟩ (by rwa [htotal]) hleft
          refine ⟨filled, ?_, hascending, ?_, ?_⟩
          · exact hperm.trans ((hfilled.append_right _).trans List.perm_middle.symm)
          · rw [hanswers]
            rfl
          · rw [hafter, without_withPending]

end Reassembler

/-- **What is pending is within the limits, and can be finished.**  After any calls on a reassembler
that started empty, no more logs are pending than may be, one a job, and each has no more places than
allowed, at least one of them filled and at least one empty.  And chunks for the empty places of a
pending log, in any order, each readable and with the total of the log, are all taken, however many
logs are pending; the last of them brings out the log, which then is no longer pending. -/
theorem pending_logs_can_finish (maxChunks maxJobs : Nat) (calls : List Call) :
    let state := ({ maxChunks := maxChunks, maxJobs := maxJobs } : Reassembler).after calls
    (state.pendingJobs ≤ maxJobs ∧ (state.jobs.map Prod.fst).Nodup ∧
      ∀ entry ∈ state.jobs, entry.2.Open maxChunks) ∧
    ∀ (job : String) (log : Pending) (deliveries : List LogChunk),
      state.pending? job = some log →
      (∀ chunk ∈ deliveries, Fitting job log.total chunk) →
      (deliveries.map fun chunk => chunk.chunkIndex.toNat).Perm log.missing →
      ∃ filled, filled.Perm (log.filled ++ deliveries.map placed) ∧
        (filled.Pairwise fun first second => first.1 < second.1) ∧
        (state.history (deliveries.map .add)).map Served.answer =
          List.replicate (deliveries.length - 1) (.taken none) ++
            [.taken (some (joined filled))] ∧
        state.after (deliveries.map .add) =
          { state with jobs := Reassembler.without job state.jobs } := by
  intro state
  have hsound : state.Sound := (Reassembler.sound_of_empty maxChunks maxJobs).after calls
  have hlimits : state.maxChunks = maxChunks ∧ state.maxJobs = maxJobs :=
    Reassembler.limits_after _ calls
  have hopened := hsound.opened
  rw [hlimits.1] at hopened
  refine ⟨⟨hsound.jobs_le.trans_eq hlimits.2, hsound.distinct, hopened⟩, ?_⟩
  intro job log deliveries hpending hfitting hmissing
  have hlog := hsound.opened _ (Reassembler.mem_jobs_of_pending? hpending)
  exact Reassembler.history_of_missing hpending hlog hfitting hmissing

/-- The one log that may be pending has the second of its three places filled, and a chunk of another
job was turned away.  The third place comes before the first. -/
theorem pending_logs_can_finish_when_full :
    let piece (index : UInt32) (content : List UInt8) : LogChunk :=
      .ofBytes "a" "n" index 3 content
    let calls : List Call := [.add (piece 1 [98]), .add (.ofBytes "b" "n" 0 2 [120])]
    let state := ({ maxChunks := 3, maxJobs := 1 } : Reassembler).after calls
    let deliveries := [piece 2 [99], piece 0 [97]]
    state.pendingJobs = state.maxJobs ∧ state.pending? "a" = some ⟨3, [(1, [98])]⟩ ∧
      (∃ filled, filled.Perm [(1, [98]), (2, [99]), (0, [97])] ∧
        (state.history (deliveries.map .add)).map Served.answer =
          [.taken none, .taken (some (joined filled))]) ∧
      (state.after (deliveries.map .add)).pendingJobs = 0 := by
  intro piece calls state deliveries
  have hfull : state.pendingJobs = state.maxJobs := by decide +kernel
  have hpending : state.pending? "a" = some ⟨3, [(1, [98])]⟩ := by decide +kernel
  have hpiece : ∀ index content, Fitting "a" 3 (piece index content) := fun index content =>
    ⟨rfl, rfl, content, content_ofBytes _ _ _ _ _⟩
  have hfitting : ∀ chunk ∈ deliveries, Fitting "a" 3 chunk :=
    List.forall_mem_cons.mpr ⟨hpiece 2 [99], List.forall_mem_singleton.mpr (hpiece 0 [97])⟩
  have hplaced : deliveries.map placed = [(2, [99]), (0, [97])] := by decide +kernel
  obtain ⟨filled, hperm, -, hanswers, hafter⟩ := (pending_logs_can_finish 3 1 calls).2 "a" _
    deliveries hpending hfitting (by decide +kernel)
  rw [hplaced] at hperm
  refine ⟨hfull, hpending, ⟨filled, hperm, hanswers⟩, ?_⟩
  rw [hafter]
  decide +kernel

end HubLink.Log
