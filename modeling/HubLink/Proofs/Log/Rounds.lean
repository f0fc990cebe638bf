import HubLink.Proofs.Log.Transfer

/-!
# Transfers one after the other

A reassembler keeps nothing of a log that it has handed out.  A delivery that comes later begins the
job anew, so deliveries that go on after a log is complete are cut into rounds, each of which ends
with the delivery that brings the last missing chunk (`Rounds`).  Every round is a transfer of its
own and hands out the log once more; what is left after the last of them is a transfer that has not
ended, and takes a slot.

So the log comes out exactly once, with no slot taken at the end, just when the last delivery is the
one that completes it (`handed_out_once_iff`).
-/

namespace HubLink.Log

open Message (LogChunk)

/-- Deliveries cut into rounds, and the rest behind the last of them, which lacks a chunk. -/
inductive Rounds (sent : List LogChunk) :
    List LogChunk → List (List LogChunk) → List LogChunk → Prop where
  | rest {rest : List LogChunk} (missing : ¬ sent ⊆ rest) : Rounds sent rest [] rest
  | round {earlier later rest : List LogChunk} {last : LogChunk} {rounds : List (List LogChunk)}
      (missing : ¬ sent ⊆ earlier) (complete : sent ⊆ earlier ++ [last])
      (others : Rounds sent later rounds rest) :
      Rounds sent (earlier ++ last :: later) ((earlier ++ [last]) :: rounds) rest

/-- What a round answers: nothing yet, and with its last delivery the log. -/
def roundAnswers (log : List UInt8) (round : List LogChunk) : List Answer :=
  List.replicate (round.length - 1) (.taken none) ++ [.taken (some log)]

variable {job : String} {parts : List (List UInt8)} {sent deliveries rest : List LogChunk}
  {rounds : List (List LogChunk)} {start state : Reassembler}

/-! ## Cutting deliveries into rounds -/

/-- Before the first delivery a chunk is missing, as there is always one. -/
theorem missing_of_chunks (size : Nat) (job node : String) (log : List UInt8) (maxBytes : UInt32) :
    ¬ chunks size job node log maxBytes ⊆ [] := by
  intro hall
  have hlength := (carry_chunks size job node log maxBytes).length_eq
  rw [List.subset_nil.mp hall, List.length_nil] at hlength
  exact parts_ne_nil size log maxBytes (List.length_eq_zero_iff.mp hlength.symm)

namespace Rounds

theorem exists_of_missing (hnone : ¬ sent ⊆ []) {earlier : List LogChunk}
    (hmissing : ¬ sent ⊆ earlier) (deliveries : List LogChunk) :
    ∃ rounds rest, Rounds sent (earlier ++ deliveries) rounds rest := by
  -- on the deliveries still to come; those of the round that has begun move over to `earlier`
  induction deliveries generalizing earlier with
  | nil =>
      rw [List.append_nil]
      exact ⟨[], earlier, .rest hmissing⟩
  | cons chunk later ih =>
      by_cases hcomplete : sent ⊆ earlier ++ [chunk]
      · obtain ⟨rounds, rest, hothers⟩ := ih hnone
        exact ⟨_, rest, .round hmissing hcomplete hothers⟩
      · obtain ⟨rounds, rest, hrounds⟩ := ih hcomplete
        rw [List.append_cons]
        exact ⟨rounds, rest, hrounds⟩

theorem eq_of_nil (hrounds : Rounds sent deliveries rounds rest) (hnil : deliveries = []) :
    rounds = [] ∧ rest = [] := by
  cases hrounds with
  | rest => exact ⟨rfl, hnil⟩
  | round => simp at hnil

theorem eq_flatten_append (hrounds : Rounds sent deliveries rounds rest) :
    deliveries = rounds.flatten ++ rest := by
  induction hrounds with
  | rest => rfl
  | round _ _ _ ih => simp [ih]

/-- There is one round and nothing behind it just when the last delivery is the one that completes
it. -/
theorem single_iff (hrounds : Rounds sent deliveries rounds rest) (hall : sent ⊆ deliveries) :
    rounds.length = 1 ∧ rest = [] ↔ ¬ sent ⊆ deliveries.dropLast := by
  cases hrounds with
  | rest hmissing => exact absurd hall hmissing
  | @round earlier later _ last rounds hmissing hcomplete hothers =>
      cases later with
      | nil =>
          obtain ⟨rfl, rfl⟩ := hothers.eq_of_nil rfl
          rw [List.dropLast_concat]
          exact iff_of_true ⟨rfl, rfl⟩ hmissing
      | cons chunk later =>
          -- the first round is over before the last delivery
          have hearly : sent ⊆ (earlier ++ last :: chunk :: later).dropLast := by
            rw [List.dropLast_append_of_ne_nil (List.cons_ne_nil _ _), List.dropLast_cons_cons,
              List.append_cons]
            exact List.subset_append_of_subset_left _ hcomplete
          refine iff_of_false ?_ (not_not_intro hearly)
          rintro ⟨hlength, rfl⟩
          obtain rfl := List.length_eq_zero_iff.mp (Nat.succ.inj hlength)
          cases hothers.eq_flatten_append

end Rounds

/-! ## Serving them -/

/-- The log is what comes out, once a round. -/
theorem filter_answers (log : List UInt8) (rounds : List (List LogChunk)) (more : Nat) :
    (rounds.flatMap (roundAnswers log) ++ List.replicate more (Answer.taken none)).filter
        (· ≠ Answer.taken none) =
      List.replicate rounds.length (.taken (some log)) := by
  have hsilent : ∀ count, (List.replicate count (Answer.taken none)).filter
      (· ≠ Answer.taken none) = [] := fun count => by simp
  induction rounds with
  | nil => exact hsilent more
  | cons round rounds ih =>
      rw [List.flatMap_cons, List.append_assoc, List.filter_append, ih, roundAnswers,
        List.filter_append, hsilent]
      rfl

theorem UnderWay.eq_start (hunder : UnderWay start job state []) : state = start := by
  cases hunder with
  | idle => rfl
  | running _ hbegun => exact absurd rfl hbegun

theorem UnderWay.pendingJobs_eq (hunder : UnderWay start job state rest)
    (hnew : start.pending? job = none) :
    state.pendingJobs = start.pendingJobs + if rest = [] then 0 else 1 := by
  cases hunder with
  | idle => rfl
  | running _ hbegun =>
      rw [if_neg hbegun]
      exact Reassembler.length_withPending_of_lookup_eq_none _ hnew

section

variable (hcarry : Carry job parts sent) (hnew : start.pending? job = none)
  (hroom : start.jobs.length < start.maxJobs) (hfits : sent.length ≤ start.maxChunks)

include hcarry hnew hroom hfits

/-- Every round is a transfer of its own. -/
theorem Rounds.history (hrounds : Rounds sent deliveries rounds rest)
    (hdeliveries : deliveries ⊆ sent) :
    (start.history (deliveries.map .add)).map Served.answer =
        rounds.flatMap (roundAnswers parts.flatten) ++
          List.replicate rest.length (.taken none) ∧
      UnderWay start job (start.after (deliveries.map .add)) rest := by
  have hidle : UnderWay start job start [] := .idle
  induction hrounds with
  | rest hmissing => exact hidle.history_add hcarry hnew hroom hfits hdeliveries hmissing
  | @round earlier later rest last rounds hmissing hcomplete _ ih =>
      obtain ⟨hearlier, hlater⟩ := List.append_subset.mp hdeliveries
      obtain ⟨hlast, hlater⟩ := List.cons_subset.mp hlater
      obtain ⟨hanswers, hunder⟩ := hidle.history_add hcarry hnew hroom hfits hearlier hmissing
      have hserve := (hunder.serve_add hcarry hnew hroom hfits hearlier hlast).1 hcomplete
      obtain ⟨hothers, hend⟩ := ih hlater
      rw [List.map_append, Reassembler.history_append, Reassembler.after_append, List.map_cons,
        Reassembler.history, Reassembler.after, hserve, List.map_append, hanswers, List.map_cons,
        hothers, List.flatMap_cons, roundAnswers, List.length_append, List.length_singleton,
        Nat.add_sub_cancel]
      simp only [List.append_assoc, List.singleton_append]
      exact ⟨rfl, hend⟩

end

/-- **A log is handed out exactly once, leaving no slot taken, just when its last delivery is the
one that completes it.**  The chunks of a log are delivered to a reassembler that has no log of that
job and room for one, in any order and any of them more than once.  The deliveries fall into rounds.
With the last delivery of each round the log comes out, and nothing comes out before; the rest
behind the last round, if there is any, takes one slot, and without a rest the reassembler is as it
was at the start. -/
theorem handed_out_once_iff (size : Nat) (job node : String) (log : List UInt8) (maxBytes : UInt32)
    (start : Reassembler) (deliveries : List LogChunk) (hnew : start.pending? job = none)
    (hroom : start.jobs.length < start.maxJobs)
    (hfits : (chunks size job node log maxBytes).length ≤ start.maxChunks)
    (hdeliveries : deliveries ⊆ chunks size job node log maxBytes) :
    let sent := chunks size job node log maxBytes
    let answers := (start.history (deliveries.map .add)).map Served.answer
    let final := start.after (deliveries.map .add)
    (∃ rounds rest, Rounds sent deliveries rounds rest ∧
      answers = rounds.flatMap (roundAnswers (tail log maxBytes.toNat)) ++
        List.replicate rest.length (.taken none) ∧
      final.pendingJobs = start.pendingJobs + (if rest = [] then 0 else 1) ∧
      (rest = [] → final = start)) ∧
    (sent ⊆ deliveries →
      (answers.filter (· ≠ .taken none) = [.taken (some (tail log maxBytes.toNat))] ∧
          final.pendingJobs = start.pendingJobs ↔
        ¬ sent ⊆ deliveries.dropLast)) := by
  intro sent answers final
  have hcarry := carry_chunks size job node log maxBytes
  have hnone := missing_of_chunks size job node log maxBytes
  obtain ⟨rounds, rest, hrounds⟩ := Rounds.exists_of_missing hnone hnone deliveries
  obtain ⟨hhistory, hunder⟩ := hrounds.history hcarry hnew hroom hfits hdeliveries
  have hanswers : answers = rounds.flatMap (roundAnswers (tail log maxBytes.toNat)) ++
      List.replicate rest.length (.taken none) := by
    rw [← flatten_parts size]
    exact hhistory
  have hslots : final.pendingJobs = start.pendingJobs + (if rest = [] then 0 else 1) :=
    hunder.pendingJobs_eq hnew
  refine ⟨⟨rounds, rest, hrounds, hanswers, hslots, ?_⟩, fun hall => ?_⟩
  · rintro rfl
    exact hunder.eq_start
  · have hsingle := hrounds.single_iff hall
    have honce : answers.filter (· ≠ .taken none) = [.taken (some (tail log maxBytes.toNat))] ↔
        rounds.length = 1 := by
      rw [hanswers, filter_answers]
      constructor
      · intro hsame
        have hlength := congrArg List.length hsame
        rwa [List.length_replicate] at hlength
      · intro hlength
        rw [hlength]
        rfl
    have hfree : final.pendingJobs = start.pendingJobs ↔ rest = [] := by
      rw [hslots]
      by_cases hrest : rest = [] <;> simp [hrest]
    rw [honce, hfree]
    exact hsingle

/-- The end of a log travels in two chunks while another log is pending.  The second chunk comes
twice before the first one, and the log is handed out once. -/
theorem handed_out_once_reordered :
    let first : LogChunk := .ofBytes "a" "n" 0 2 [3, 4]
    let second : LogChunk := .ofBytes "a" "n" 1 2 [5]
    let start : Reassembler := { maxChunks := 2, maxJobs := 2, jobs := [("b", ⟨3, [(1, [9])]⟩)] }
    let deliveries := [second, second, first]
    chunks 2 "a" "n" [1, 2, 3, 4, 5] 3 = [first, second] ∧
      ((start.history (deliveries.map .add)).map Served.answer).filter (· ≠ .taken none) =
        [.taken (some [3, 4, 5])] ∧
      (start.after (deliveries.map .add)).pendingJobs = 1 := by
  intro first second start deliveries
  have hsent : chunks 2 "a" "n" [1, 2, 3, 4, 5] 3 = [first, second] := rfl
  have honce := handed_out_once_iff 2 "a" "n" [1, 2, 3, 4, 5] 3 start deliveries (by decide)
    (by decide) (by decide) (by simp [hsent, deliveries])
  rw [hsent] at honce
  have hmissing : ¬ [first, second] ⊆ deliveries.dropLast := by decide +kernel
  exact ⟨hsent, (honce.2 (by simp [deliveries])).mpr hmissing⟩

/-- A chunk that is delivered again after its log was handed out begins the job anew.  The slot of
the job stays taken, or the log comes out a second time. -/
theorem handed_out_again :
    let first : LogChunk := .ofBytes "a" "n" 0 2 [1, 2]
    let second : LogChunk := .ofBytes "a" "n" 1 2 [3]
    let start : Reassembler := { maxChunks := 16, maxJobs := 2 }
    let late : List Call := [.add first, .add second, .add first]
    chunks 2 "a" "n" [1, 2, 3] 3 = [first, second] ∧ start.pendingJobs = 0 ∧
      (start.history late).map Served.answer =
        [.taken none, .taken (some [1, 2, 3]), .taken none] ∧
      (start.after late).pendingJobs = 1 ∧
      (start.history (late ++ [.add second])).map Served.answer =
        [.taken none, .taken (some [1, 2, 3]), .taken none, .taken (some [1, 2, 3])] := by
  decide +kernel

end HubLink.Log
