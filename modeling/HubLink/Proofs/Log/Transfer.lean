import HubLink.Proofs.Log.Chunks
import HubLink.Proofs.Log.History

/-!
# Transferring a log

The chunker and the reassembler meet in `Carry`, which says what the chunks of a log are.  However
such chunks are delivered, in whatever order and however often, the log comes out with the delivery
after which none of them is missing, and the reassembler is then as if there had been no transfer
(`transfer_in_any_order`).  A log of more chunks than the reassembler takes never begins to arrive.
-/

namespace HubLink.Log

open Message (LogChunk)

/-- A reassembler that had no log of a job, after some deliveries of the job and nothing else. -/
inductive UnderWay (start : Reassembler) (job : String) : Reassembler → List LogChunk → Prop where
  | idle : UnderWay start job start []
  | running {log : Pending} {delivered : List LogChunk} (collected : Collected log delivered)
      (begun : delivered ≠ []) (short : log.filled.length < log.total.toNat) :
      UnderWay start job
        { start with jobs := Reassembler.withPending job log start.jobs } delivered

variable {job : String} {parts : List (List UInt8)} {sent delivered : List LogChunk}
  {start state : Reassembler} {chunk : LogChunk}

/-! ## Deliveries as a period -/

namespace Carry

theorem announced_eq (hcarry : Carry job parts sent) (hdelivered : delivered ⊆ sent)
    (hbegun : delivered ≠ []) : announced delivered = parts.length := by
  obtain ⟨first, rest, rfl⟩ := List.exists_cons_of_ne_nil hbegun
  exact hcarry.total_eq first (hdelivered List.mem_cons_self)

/-- The deliveries cover every index when no chunk is missing. -/
theorem covered_iff (hcarry : Carry job parts sent) (hdelivered : delivered ⊆ sent)
    (hbegun : delivered ≠ []) : Covered delivered ↔ sent ⊆ delivered := by
  rw [Covered, hcarry.announced_eq hdelivered hbegun]
  constructor
  · rintro ⟨_, hcovered⟩ chunk hchunk
    obtain ⟨other, hother, hindex⟩ := hcovered _ (hcarry.index_lt chunk hchunk)
    have hsame := hcarry.eq_of_index other (hdelivered hother) chunk hchunk
      (UInt32.toNat_inj.mp hindex)
    rwa [← hsame]
  · intro hall
    refine ⟨hbegun, fun index hindex => ?_⟩
    obtain ⟨chunk, hchunk, heq⟩ := hcarry.exists_index index hindex
    exact ⟨chunk, hall hchunk, heq⟩

/-- When no chunk is missing, what came last for an index is the part of that index. -/
theorem latest?_eq (hcarry : Carry job parts sent) (hdelivered : delivered ⊆ sent)
    (hall : sent ⊆ delivered) {index : Nat} (hindex : index < parts.length) :
    latest? delivered index = some (parts.getD index []) := by
  have hreadable : ∀ chunk ∈ delivered, ∃ content, chunk.content = .ok content :=
    fun chunk hchunk => ⟨_, hcarry.content_eq chunk (hdelivered hchunk)⟩
  cases hlatest : latest? delivered index with
  | none =>
      obtain ⟨chunk, hchunk, heq⟩ := hcarry.exists_index index hindex
      exact absurd heq ((latest?_eq_none_iff hreadable index).mp hlatest chunk (hall hchunk))
  | some content =>
      obtain ⟨chunk, hchunk, rfl, hcontent⟩ := exists_of_latest?_eq_some hlatest
      rw [hcarry.content_eq chunk (hdelivered hchunk)] at hcontent
      rw [Except.ok.inj hcontent]

theorem whole_eq (hcarry : Carry job parts sent) (hdelivered : delivered ⊆ sent)
    (hbegun : delivered ≠ []) (hall : sent ⊆ delivered) : whole delivered = parts.flatten := by
  have hparts : (List.range parts.length).map (fun index => parts.getD index []) = parts := by
    apply List.ext_getElem
    · simp
    · intro index hindex hpart
      simp [List.getElem?_eq_getElem hpart]
  rw [whole, hcarry.announced_eq hdelivered hbegun, List.flatMap_def]
  rw [List.map_congr_left fun index hindex => by
    rw [hcarry.latest?_eq hdelivered hall (List.mem_range.mp hindex), Option.getD_some]]
  rw [hparts]

end Carry

/-! ## One delivery -/

namespace UnderWay

theorem standing (hunder : UnderWay start job state delivered)
    (hnew : start.pending? job = none) : Standing (state.pending? job) delivered := by
  cases hunder with
  | idle =>
      rw [hnew]
      exact .idle
  | running hcollected hbegun hshort =>
      unfold Reassembler.pending?
      rw [Reassembler.lookup_withPending, if_pos rfl]
      exact .running hcollected hbegun hshort

/-- Nothing that happened to the job is left once its log is handed out. -/
theorem settle_eq (hunder : UnderWay start job state delivered)
    (hnew : start.pending? job = none) (log : Pending) :
    state.settle job log =
      if log.filled.length < log.total.toNat then
        (none, { start with jobs := Reassembler.withPending job log start.jobs })
      else (some (joined log.filled), start) := by
  have hwithout := Reassembler.without_of_lookup_eq_none hnew
  unfold Reassembler.settle
  cases hunder with
  | idle => rw [hwithout]
  | running =>
      dsimp only
      rw [Reassembler.withPending_withPending, Reassembler.without_withPending, hwithout]

section

variable (hcarry : Carry job parts sent) (hnew : start.pending? job = none)
  (hroom : start.jobs.length < start.maxJobs) (hfits : sent.length ≤ start.maxChunks)

include hcarry hnew hroom hfits

/-- Every chunk of a log that is small enough is taken. -/
theorem taken (hunder : UnderWay start job state delivered) (hdelivered : delivered ⊆ sent)
    (hchunk : chunk ∈ sent) : ∃ log content, Reassembler.Taken state chunk log content := by
  have hjob := hcarry.jobId_eq chunk hchunk
  have htotal := hcarry.total_eq chunk hchunk
  have hindex : chunk.chunkIndex.toNat < chunk.totalChunks.toNat := by
    rw [htotal]
    exact hcarry.index_lt chunk hchunk
  have hlimit : chunk.totalChunks.toNat ≤ start.maxChunks := by
    rw [htotal, ← hcarry.length_eq]
    exact hfits
  have hcontent := hcarry.content_eq chunk hchunk
  cases hunder with
  | idle =>
      exact ⟨⟨chunk.totalChunks, []⟩, _, .inr ⟨by rw [hjob, hnew], rfl, hroom⟩, rfl, hindex,
        hlimit, hcontent⟩
  | @running log _ hcollected hbegun =>
      -- the total of the pending log is that of its first chunk, and all chunks agree on it
      obtain ⟨first, rest, rfl⟩ := List.exists_cons_of_ne_nil hbegun
      have hfirst := hcarry.total_eq first (hdelivered List.mem_cons_self)
      have hsame : log.total = chunk.totalChunks := by
        rw [← hcollected.total_eq first List.mem_cons_self]
        exact UInt32.toNat_inj.mp (hfirst.trans htotal.symm)
      refine ⟨log, _, .inl ?_, hsame, hindex, hlimit, hcontent⟩
      rw [hjob]
      unfold Reassembler.pending?
      rw [Reassembler.lookup_withPending, if_pos rfl]

/-- With a delivery the transfer is over, or it goes on; that depends on whether a chunk is still
missing. -/
theorem serve_add (hunder : UnderWay start job state delivered) (hdelivered : delivered ⊆ sent)
    (hchunk : chunk ∈ sent) :
    (sent ⊆ delivered ++ [chunk] →
      state.serve (.add chunk) = (.taken (some parts.flatten), start)) ∧
    (¬ sent ⊆ delivered ++ [chunk] → ∃ next, state.serve (.add chunk) = (.taken none, next) ∧
      UnderWay start job next (delivered ++ [chunk])) := by
  obtain ⟨log, content, htaken⟩ := hunder.taken hcarry hnew hroom hfits hdelivered hchunk
  have hstanding := hunder.standing hnew
  rw [← hcarry.jobId_eq chunk hchunk] at hstanding
  have hcollected := htaken.collected_filledBy hstanding
  have hbegun : delivered ++ [chunk] ≠ [] := by simp
  have hlonger : delivered ++ [chunk] ⊆ sent :=
    List.append_subset.mpr ⟨hdelivered, List.cons_subset.mpr ⟨hchunk, List.nil_subset _⟩⟩
  have hadd := Reassembler.add_eq_ok_iff.mpr ⟨log, content, htaken, rfl⟩
  rw [hcarry.jobId_eq chunk hchunk, hunder.settle_eq hnew] at hadd
  -- the count of the filled places and the set of the chunks tell the same
  have hfull := (hcollected.covered_iff hbegun).symm.trans (hcarry.covered_iff hlonger hbegun)
  refine ⟨fun hall => ?_, fun hmissing => ?_⟩
  · rw [if_neg (hfull.mpr hall), hcollected.joined_eq hbegun,
      hcarry.whole_eq hlonger hbegun hall] at hadd
    exact Reassembler.serve_add_of_ok hadd
  · have hshort := not_not.mp (mt hfull.mp hmissing)
    rw [if_pos hshort] at hadd
    exact ⟨_, Reassembler.serve_add_of_ok hadd, .running hcollected hbegun hshort⟩

/-! ## A whole transfer -/

/-- While a chunk is missing, there is no log. -/
theorem history_add {deliveries : List LogChunk} (hunder : UnderWay start job state delivered)
    (hdelivered : delivered ++ deliveries ⊆ sent) (hmissing : ¬ sent ⊆ delivered ++ deliveries) :
    (state.history (deliveries.map .add)).map Served.answer =
        List.replicate deliveries.length (.taken none) ∧
      UnderWay start job (state.after (deliveries.map .add)) (delivered ++ deliveries) := by
  -- on the deliveries still to come; those before move over to `delivered`
  induction deliveries generalizing state delivered with
  | nil =>
      rw [List.append_nil]
      exact ⟨rfl, hunder⟩
  | cons chunk deliveries ih =>
      rw [List.append_cons] at hdelivered hmissing ⊢
      have hfirst := List.append_subset.mp (List.append_subset.mp hdelivered).1
      have hstill : ¬ sent ⊆ delivered ++ [chunk] :=
        fun hall => hmissing (List.subset_append_of_subset_left _ hall)
      obtain ⟨next, hserve, hnext⟩ := (hunder.serve_add hcarry hnew hroom hfits hfirst.1
        (hfirst.2 (List.mem_singleton_self chunk))).2 hstill
      obtain ⟨hanswers, hlast⟩ := ih hnext hdelivered hmissing
      rw [List.map_cons, Reassembler.history, Reassembler.after, hserve, List.map_cons, hanswers]
      exact ⟨rfl, hlast⟩

end

end UnderWay

/-- Every chunk of a log that is too large is refused. -/
theorem Carry.serve_add_of_tooMany (hcarry : Carry job parts sent)
    (hmany : state.maxChunks < sent.length) (hchunk : chunk ∈ sent) :
    state.serve (.add chunk) =
      (.refused (.tooManyChunks job (UInt32.ofNat sent.length) state.maxChunks), state) := by
  have htotal := hcarry.total_eq chunk hchunk
  have hrange : ¬ chunk.totalChunks ≤ chunk.chunkIndex := by
    rw [UInt32.le_iff_toNat_le, htotal, Nat.not_le]
    exact hcarry.index_lt chunk hchunk
  have hlimit : state.maxChunks < chunk.totalChunks.toNat := by
    rwa [htotal, ← hcarry.length_eq]
  have hnumber : UInt32.ofNat sent.length = chunk.totalChunks := by
    rw [hcarry.length_eq, ← htotal, UInt32.ofNat_toNat]
  apply Reassembler.serve_add_of_error
  unfold Reassembler.add Reassembler.checkLimits
  rw [if_neg hrange, if_pos hlimit, hcarry.jobId_eq chunk hchunk, hnumber]
  rfl

theorem Carry.history_add_of_tooMany {deliveries : List LogChunk} (hcarry : Carry job parts sent)
    (hmany : state.maxChunks < sent.length) (hdelivered : deliveries ⊆ sent) :
    (state.history (deliveries.map .add)).map Served.answer =
        List.replicate deliveries.length
          (.refused (.tooManyChunks job (UInt32.ofNat sent.length) state.maxChunks)) ∧
      state.after (deliveries.map .add) = state := by
  induction deliveries with
  | nil => exact ⟨rfl, rfl⟩
  | cons chunk deliveries ih =>
      obtain ⟨hchunk, hlater⟩ := List.cons_subset.mp hdelivered
      obtain ⟨hanswers, hlast⟩ := ih hlater
      rw [List.map_cons, Reassembler.history, Reassembler.after,
        hcarry.serve_add_of_tooMany hmany hchunk, List.map_cons, hanswers]
      exact ⟨rfl, hlast⟩

/-- **A log arrives in any order.**  The chunks of a log are delivered to a reassembler that has no
log of that job and room for one, in any order and any of them more than once.  While one is missing
there is no log; the delivery after which none is missing hands out the end of the log, and the
reassembler is back where it started.  If there are more chunks than a log may have, every one of
them is refused and nothing changes. -/
theorem transfer_in_any_order (size : Nat) (job node : String) (log : List UInt8)
    (maxBytes : UInt32) (start : Reassembler) :
    let sent := chunks size job node log maxBytes
    (start.pending? job = none → start.jobs.length < start.maxJobs →
      sent.length ≤ start.maxChunks → ∀ earlier ⊆ sent, ¬ sent ⊆ earlier →
      (start.history (earlier.map .add)).map Served.answer =
          List.replicate earlier.length (.taken none) ∧
        ∀ last ∈ sent, sent ⊆ earlier ++ [last] →
          (start.after (earlier.map .add)).serve (.add last) =
            (.taken (some (tail log maxBytes.toNat)), start)) ∧
    (start.maxChunks < sent.length → ∀ deliveries ⊆ sent,
      (start.history (deliveries.map .add)).map Served.answer =
          List.replicate deliveries.length
            (.refused (.tooManyChunks job (UInt32.ofNat sent.length) start.maxChunks)) ∧
        start.after (deliveries.map .add) = start) := by
  intro sent
  have hcarry := carry_chunks size job node log maxBytes
  refine ⟨?_, fun hmany deliveries hdelivered => hcarry.history_add_of_tooMany hmany hdelivered⟩
  intro hnew hroom hfits earlier hearlier hmissing
  have hidle : UnderWay start job start [] := .idle
  obtain ⟨hanswers, hunder⟩ := hidle.history_add hcarry hnew hroom hfits hearlier hmissing
  rw [List.nil_append] at hunder
  refine ⟨hanswers, fun last hlast hall => ?_⟩
  rw [← flatten_parts size]
  exact (hunder.serve_add hcarry hnew hroom hfits hearlier hlast).1 hall

/-- The end of a log travels in two chunks.  The second one comes first, and twice, while another
log is pending; a reassembler that takes single chunks only refuses it. -/
theorem transfer_in_any_order_reversed :
    let first : LogChunk := .ofBytes "a" "n" 0 2 [3, 4]
    let second : LogChunk := .ofBytes "a" "n" 1 2 [5]
    let start : Reassembler :=
      { maxChunks := 2, maxJobs := 2, jobs := [("b", ⟨3, [(1, [9])]⟩)] }
    let single : Reassembler := { maxChunks := 1 }
    chunks 2 "a" "n" [1, 2, 3, 4, 5] 3 = [first, second] ∧
      (start.history [.add second, .add second]).map Served.answer =
        [.taken none, .taken none] ∧
      (start.after [.add second, .add second]).serve (.add first) =
        (.taken (some [3, 4, 5]), start) ∧
      (single.history [.add second]).map Served.answer = [.refused (.tooManyChunks "a" 2 1)] ∧
      single.after [.add second] = single := by
  intro first second start single
  have hsent : chunks 2 "a" "n" [1, 2, 3, 4, 5] 3 = [first, second] := rfl
  have hlog := transfer_in_any_order 2 "a" "n" [1, 2, 3, 4, 5] 3
  simp only [hsent] at hlog
  have hmissing : ¬ [first, second] ⊆ [second, second] := by decide +kernel
  obtain ⟨hanswers, hlast⟩ := (hlog start).1 (by decide) (by decide) (by decide)
    [second, second] (by simp) hmissing
  obtain ⟨hrefused, hnothing⟩ := (hlog single).2 (by decide) [second] (by simp)
  exact ⟨hsent, hanswers, hlast first (by simp) (by simp), hrefused, hnothing⟩

end HubLink.Log
