import HubLink.Proofs.Stream.OneShot
import HubLink.Replay

/-!
# The books of a replay

A replay polls a capture until more bytes would be needed, counts what it is told, and puts the
envelopes into a queue that nobody empties.  This file proves that it comes to an end and that its
books balance (`replay_balances`): the bytes of the capture are those of the frames, one for each
oversized prefix, and those left over; every envelope waits or was shed; and each count is the one
that a reader with the one-shot decoder comes to.

What one round of the loop does is said once (`Noted`), next to the finding of the one-shot decoder
that it belongs to.  The loop follows the findings one by one (`oneShots_runWithin`), so it ends
where they end.
-/

namespace HubLink

open Message.Codec (Verdict Finding finding? oneShots)

namespace Tally

/-- The counter of a verdict. -/
def count (tally : Tally) : Verdict → Nat
  | .decoded => tally.decoded
  | .corrupt => tally.corrupt
  | .oversize => tally.oversize
  | .malformed => tally.malformed
  | .unknown => tally.unknown

theorem count_addFault (tally : Tally) (fault : Message.Codec.Fault) (declared : Nat)
    (verdict : Verdict) :
    (tally.addFault fault).count verdict = tally.count verdict +
      if Finding.verdict ⟨.error fault, declared⟩ = verdict then 1 else 0 := by
  cases fault <;> cases verdict <;> rfl

theorem count_addEnvelope (tally : Tally) (refused : Bool) (verdict : Verdict) :
    (tally.addEnvelope refused).count verdict =
      tally.count verdict + if Verdict.decoded = verdict then 1 else 0 := by
  cases verdict <;> rfl

theorem shed_addFault (tally : Tally) (fault : Message.Codec.Fault) :
    (tally.addFault fault).shed = tally.shed := by
  cases fault <;> rfl

end Tally

namespace Replay

/-- What one round of a replay does with a finding. -/
structure Noted (replay : Replay) (finding : Finding) (next : Replay) : Prop where
  buffer_eq : next.buffer = replay.buffer.drop finding.size
  count_eq : ∀ verdict, next.tally.count verdict =
    replay.tally.count verdict + if finding.verdict = verdict then 1 else 0
  config_eq : next.queue.config = replay.queue.config
  size_eq : next.queue.size = replay.queue.size +
    if finding.verdict = .decoded ∧ replay.queue.size < replay.queue.config.capacity then 1 else 0
  shed_eq : next.tally.shed = replay.tally.shed +
    if finding.verdict = .decoded ∧ replay.queue.config.capacity ≤ replay.queue.size then 1 else 0

/-- Every envelope waits or was shed, and none was shed before the queue was full. -/
structure Balanced (replay : Replay) : Prop where
  decoded_eq : replay.tally.decoded = replay.tally.shed + replay.queue.size
  size_eq : replay.queue.size = min replay.tally.decoded replay.queue.config.capacity

variable {limit : Nat} {replay : Replay} {finding : Finding}

/-! ## One round -/

theorem step?_of_waiting (hnone : finding? limit replay.buffer = none) :
    step? limit replay = none := by
  have hpoll := (Message.Codec.poll_of_finding?_eq_none hnone).1
  unfold step?
  split
  next => rfl
  next heq =>
    rw [heq] at hpoll
    cases hpoll
  next heq =>
    rw [heq] at hpoll
    cases hpoll

theorem exists_noted (hfound : finding? limit replay.buffer = some finding) :
    ∃ next, step? limit replay = some next ∧ Noted replay finding next := by
  have hpoll := (Message.Codec.poll_of_finding?_eq_some hfound).1
  obtain ⟨outcome, declared⟩ := finding
  cases outcome with
  | error fault =>
      have hrefused : Finding.verdict ⟨.error fault, declared⟩ ≠ .decoded := by
        cases fault <;> intro hverdict <;> cases hverdict
      refine ⟨_, by simp only [step?, hpoll, Except.map]; rfl, ?_⟩
      constructor
      · rfl
      · exact Tally.count_addFault replay.tally fault declared
      · rfl
      · rw [if_neg (fun h => hrefused h.1)]
        rfl
      · rw [if_neg (fun h => hrefused h.1)]
        exact Tally.shed_addFault replay.tally fault
  | ok envelope =>
      have hdecoded : Finding.verdict ⟨.ok envelope, declared⟩ = .decoded := rfl
      by_cases hfull : replay.queue.config.capacity ≤ replay.queue.size
      · refine ⟨_, by
          simp only [step?, hpoll, Except.map, Queue.Delivery.enqueue, if_pos hfull]; rfl, ?_⟩
        constructor
        · rfl
        · exact Tally.count_addEnvelope replay.tally true
        · rfl
        · rw [if_neg (fun h => Nat.not_lt_of_le hfull h.2)]
          rfl
        · rw [if_pos ⟨hdecoded, hfull⟩]
          rfl
      · refine ⟨_, by
          simp only [step?, hpoll, Except.map, Queue.Delivery.enqueue, if_neg hfull]; rfl, ?_⟩
        constructor
        · rfl
        · exact Tally.count_addEnvelope replay.tally false
        · rfl
        · rw [if_pos ⟨hdecoded, Nat.lt_of_not_le hfull⟩]
          exact List.length_append
        · rw [if_neg (fun h => hfull h.2)]
          rfl

theorem step?_eq_none_iff : step? limit replay = none ↔ finding? limit replay.buffer = none := by
  constructor
  · intro hstep
    cases hfound : finding? limit replay.buffer with
    | none => rfl
    | some finding =>
        obtain ⟨next, hnext, -⟩ := exists_noted hfound
        rw [hstep] at hnext
        cases hnext
  · exact step?_of_waiting

theorem Noted.balanced {next : Replay} (hnoted : Noted replay finding next)
    (hbalanced : Balanced replay) : Balanced next := by
  have hdecoded : next.tally.decoded =
      replay.tally.decoded + if finding.verdict = .decoded then 1 else 0 := hnoted.count_eq .decoded
  have hsize := hnoted.size_eq
  have hshed := hnoted.shed_eq
  have hsum := hbalanced.decoded_eq
  have hmin := hbalanced.size_eq
  constructor
  · -- an envelope is put in line or shed, never both
    by_cases hverdict : finding.verdict = .decoded
    · simp only [hverdict, true_and, if_true] at hdecoded hsize hshed
      split at hsize <;> split at hshed <;> omega
    · simp only [hverdict, false_and, if_false] at hdecoded hsize hshed
      omega
  · rw [hnoted.config_eq]
    by_cases hverdict : finding.verdict = .decoded
    · simp only [hverdict, true_and, if_true] at hdecoded hsize
      split at hsize <;> omega
    · simp only [hverdict, false_and, if_false] at hdecoded hsize
      omega

/-! ## The loop -/

theorem runWithin_of_waiting (hnone : finding? limit replay.buffer = none) (polls : Nat) :
    runWithin limit polls replay = replay := by
  cases polls with
  | zero => rfl
  | succ polls => simp only [runWithin, step?_of_waiting hnone]

theorem exists_runWithin_succ (hfound : finding? limit replay.buffer = some finding) :
    ∃ next, Noted replay finding next ∧
      ∀ polls, runWithin limit (polls + 1) replay = runWithin limit polls next := by
  obtain ⟨next, hnext, hnoted⟩ := exists_noted hfound
  refine ⟨next, hnoted, fun polls => ?_⟩
  simp only [runWithin, hnext]

theorem runWithin_add (limit : Nat) (polls more : Nat) (replay : Replay) :
    runWithin limit (polls + more) replay =
      runWithin limit more (runWithin limit polls replay) := by
  induction polls generalizing replay with
  | zero => rw [Nat.zero_add, runWithin]
  | succ polls ih =>
      cases hfound : finding? limit replay.buffer with
      | none => simp only [runWithin_of_waiting hfound]
      | some finding =>
          obtain ⟨next, -, hnext⟩ := exists_runWithin_succ hfound
          rw [Nat.succ_add, hnext, hnext, ih]

/-- Polling goes through what the one-shot reader finds, one finding a poll. -/
theorem oneShots_runWithin (limit polls : Nat) (replay : Replay) :
    oneShots limit (runWithin limit polls replay).buffer =
      ((oneShots limit replay.buffer).1.drop polls, (oneShots limit replay.buffer).2) := by
  induction polls generalizing replay with
  | zero => rfl
  | succ polls ih =>
      cases hfound : finding? limit replay.buffer with
      | none =>
          rw [runWithin_of_waiting hfound, Message.Codec.oneShots_of_none hfound, List.drop_nil]
      | some finding =>
          obtain ⟨next, hnoted, hnext⟩ := exists_runWithin_succ hfound
          rw [hnext, ih, hnoted.buffer_eq, Message.Codec.oneShots_of_some hfound,
            List.drop_succ_cons]

/-- The counters say what was found so far. -/
theorem count_runWithin (limit polls : Nat) (replay : Replay) (verdict : Verdict) :
    (runWithin limit polls replay).tally.count verdict =
      replay.tally.count verdict +
        Finding.times ((oneShots limit replay.buffer).1.take polls) verdict := by
  induction polls generalizing replay with
  | zero => rfl
  | succ polls ih =>
      cases hfound : finding? limit replay.buffer with
      | none =>
          rw [runWithin_of_waiting hfound, Message.Codec.oneShots_of_none hfound, List.take_nil]
          rfl
      | some finding =>
          obtain ⟨next, hnoted, hnext⟩ := exists_runWithin_succ hfound
          rw [hnext, ih, hnoted.count_eq, hnoted.buffer_eq,
            Message.Codec.oneShots_of_some hfound, List.take_succ_cons, Finding.times_cons,
            Nat.add_assoc]

theorem runWithin_balanced (limit polls : Nat) (hbalanced : Balanced replay) :
    Balanced (runWithin limit polls replay) ∧
      (runWithin limit polls replay).queue.config = replay.queue.config := by
  induction polls generalizing replay with
  | zero => exact ⟨hbalanced, rfl⟩
  | succ polls ih =>
      cases hfound : finding? limit replay.buffer with
      | none =>
          rw [runWithin_of_waiting hfound]
          exact ⟨hbalanced, rfl⟩
      | some finding =>
          obtain ⟨next, hnoted, hnext⟩ := exists_runWithin_succ hfound
          rw [hnext, ← hnoted.config_eq]
          exact ih (hnoted.balanced hbalanced)

/-- A replay waits for more bytes exactly when it has come to the end of the findings. -/
theorem waits_iff (limit polls : Nat) (replay : Replay) :
    step? limit (runWithin limit polls replay) = none ↔
      (oneShots limit replay.buffer).1.length ≤ polls := by
  have hrun := oneShots_runWithin limit polls replay
  rw [step?_eq_none_iff, ← List.drop_eq_nil_iff]
  cases hfound : finding? limit (runWithin limit polls replay).buffer with
  | none =>
      rw [Message.Codec.oneShots_of_none hfound] at hrun
      exact ⟨fun _ => (Prod.mk.inj hrun).1.symm, fun _ => rfl⟩
  | some finding =>
      rw [Message.Codec.oneShots_of_some hfound] at hrun
      rw [← (Prod.mk.inj hrun).1]
      simp

theorem length_findings_le (limit : Nat) (capture : List UInt8) :
    (oneShots limit capture).1.length ≤ capture.length := by
  have hsizes := Finding.length_le_sum_sizes (oneShots limit capture).1
  have hlength := Message.Codec.length_eq_sum_sizes limit capture
  omega

/-- **A replay ends, and its books balance.**  It stops only when more bytes are needed, after as
many rounds as the one-shot decoder finds outcomes, which are at most as many as there are bytes.
Each envelope waits or was shed, and none was shed before the queue was full.  The bytes of the
capture are those of the frames, one for each oversized prefix, and those left over, which are too
few for the greatest allowed frame.  Each counter is the number of outcomes of that sort which the
one-shot decoder finds. -/
theorem replay_balances (limit : Nat) (config : Queue.Config) (capture : List UInt8) :
    let start : Replay := { buffer := capture, queue := { config := config } }
    let replay := run limit config capture
    let found := (oneShots limit capture).1
    ((∀ polls, step? limit (runWithin limit polls start) = none ↔ found.length ≤ polls) ∧
      runWithin limit found.length start = replay ∧ step? limit replay = none ∧
      found.length ≤ capture.length) ∧
    (replay.tally.decoded = replay.tally.shed + replay.queue.size ∧
      replay.queue.size = min replay.tally.decoded config.capacity) ∧
    (capture.length =
        ((Finding.frames found).map fun finding => Frame.overhead + finding.declared).sum +
          replay.tally.oversize + replay.buffer.length ∧
      replay.buffer.length < limit + Frame.overhead) ∧
    (∀ verdict, replay.tally.count verdict = Finding.times found verdict) ∧
      replay.buffer = (oneShots limit capture).2 := by
  intro start replay found
  have hwaits := waits_iff limit capture.length start
  have hshort : found.length ≤ capture.length := length_findings_le limit capture
  have hstop : step? limit replay = none := hwaits.mpr hshort
  -- at the end the reader has nothing left to find
  have hend : oneShots limit replay.buffer = ([], (oneShots limit capture).2) := by
    have hrun := oneShots_runWithin limit capture.length start
    rw [List.drop_eq_nil_of_le hshort] at hrun
    exact hrun
  have hleft : replay.buffer = (oneShots limit capture).2 := by
    rw [Message.Codec.oneShots_of_none (step?_eq_none_iff.mp hstop)] at hend
    exact (Prod.mk.inj hend).2
  have hcount : ∀ verdict, replay.tally.count verdict = Finding.times found verdict := by
    intro verdict
    have hrun := count_runWithin limit capture.length start verdict
    rw [List.take_of_length_le hshort] at hrun
    cases verdict <;> exact hrun.trans (Nat.zero_add _)
  have hbalanced : Balanced replay ∧ replay.queue.config = config :=
    runWithin_balanced limit capture.length ⟨rfl, (Nat.zero_min _).symm⟩
  refine ⟨⟨fun polls => waits_iff limit polls start, ?_, hstop, hshort⟩,
    ⟨hbalanced.1.decoded_eq, ?_⟩, ⟨?_, ?_⟩, hcount, hleft⟩
  · have hfinding : finding? limit (runWithin limit found.length start).buffer = none :=
      step?_eq_none_iff.mp ((waits_iff limit found.length start).mpr (Nat.le_refl _))
    have hmore := runWithin_add limit found.length (capture.length - found.length) start
    rw [Nat.add_sub_cancel' hshort, runWithin_of_waiting hfinding] at hmore
    exact hmore.symm
  · rw [← hbalanced.2]
    exact hbalanced.1.size_eq
  · have hoversize : replay.tally.oversize = Finding.times found .oversize := hcount .oversize
    calc capture.length
        = (found.map Finding.size).sum + replay.buffer.length := by
          rw [hleft]
          exact Message.Codec.length_eq_sum_sizes limit capture
      _ = _ := by rw [Finding.sum_sizes_eq, hoversize]
  · rw [hleft]
    exact Message.Codec.length_left_lt limit capture

end Replay

end HubLink
