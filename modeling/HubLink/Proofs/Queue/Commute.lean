import HubLink.Proofs.Queue.ById
import HubLink.Proofs.Queue.Ledger
import Mathlib.Logic.Function.Conjugate

/-!
# Calls about different envelopes commute

On a real link an acknowledgment and the timer of another envelope fire in either order.  It does not
matter which comes first: each of the two calls is answered as it would have been alone, the counters
agree, and so do the entries (`calls_commute`).  There is one exception, and it shows only in the
order of two entries.  Where envelopes move to the front, two that are both put up with stand at the
head, and the one that was put up with last leads.

The answer to a call by id depends on the foremost entry of the id alone, and no call about another
id changes that entry.  So what is left is to exchange the functions that calls apply to the entries,
and there are three of them.
-/

namespace HubLink.Queue

variable {c d : String} {entries : List Entry} {entry : Entry}

/-! ## Entries of two ids -/

theorem others_cons_of_hasId (hid : entry.hasId c = true) : others c (entry :: entries) = entries :=
  List.eraseP_cons_of_pos hid

theorem others_cons_of_not_hasId (hid : entry.hasId c = false) :
    others c (entry :: entries) = entry :: others c entries :=
  List.eraseP_cons_of_neg (by simp [hid])

/-- Taking out and counting on, done to the foremost entries of two ids. -/
theorem commute_others (hne : c ≠ d) : Function.Commute (others c) (others d) := by
  intro entries
  apply List.eraseP_comm
  intro entry hentry
  by_cases hid : entry.hasId d = true
  · right
    simp [Entry.hasId_eq_false hid hne.symm]
  · left
    exact hid

theorem commute_others_countedOn (hne : c ≠ d) : Function.Commute (others c) (countedOn d) := by
  intro entries
  induction entries with
  | nil => rfl
  | cons entry rest ih =>
      by_cases hc : entry.hasId c = true
      · have hd := Entry.hasId_eq_false hc hne
        simp [countedOn, hd, others_cons_of_hasId hc]
      · have hc : entry.hasId c = false := Bool.eq_false_iff.mpr hc
        have hmissed : entry.missed.hasId c = false := hc
        rw [others_cons_of_not_hasId hc]
        by_cases hd : entry.hasId d = true
        · simp [countedOn, hd, others_cons_of_not_hasId hmissed]
        · simp [countedOn, hd, others_cons_of_not_hasId hc, ih]

theorem commute_countedOn (hne : c ≠ d) : Function.Commute (countedOn c) (countedOn d) := by
  intro entries
  induction entries with
  | nil => rfl
  | cons entry rest ih =>
      by_cases hc : entry.hasId c = true
      · have hd := Entry.hasId_eq_false hc hne
        have hmissed : entry.missed.hasId d = false := hd
        simp [countedOn, hc, hd, hmissed]
      · by_cases hd : entry.hasId d = true
        · have hmissed : ¬ entry.missed.hasId c = true := hc
          simp [countedOn, hc, hd, hmissed]
        · simp [countedOn, hc, hd, ih]

/-! ## The foremost entry of the other id -/

theorem foremost?_cons_of_not_hasId (hid : entry.hasId c = false) :
    foremost? c (entry :: entries) = foremost? c entries := by
  simp [foremost?, hid]

theorem foremost?_others (hne : c ≠ d) : foremost? c (others d entries) = foremost? c entries := by
  induction entries with
  | nil => rfl
  | cons entry rest ih =>
      by_cases hd : entry.hasId d = true
      · rw [others_cons_of_hasId hd,
          foremost?_cons_of_not_hasId (Entry.hasId_eq_false hd hne.symm)]
      · rw [others_cons_of_not_hasId (Bool.eq_false_iff.mpr hd)]
        unfold foremost? at ih ⊢
        rw [List.find?_cons, List.find?_cons, ih]

theorem foremost?_countedOn (hne : c ≠ d) :
    foremost? c (countedOn d entries) = foremost? c entries := by
  induction entries with
  | nil => rfl
  | cons entry rest ih =>
      by_cases hd : entry.hasId d = true
      · have hc := Entry.hasId_eq_false hd hne.symm
        have hmissed : entry.missed.hasId c = false := hc
        simp [countedOn, hd, foremost?_cons_of_not_hasId hc, foremost?_cons_of_not_hasId hmissed]
      · unfold foremost? at ih ⊢
        simp only [countedOn, hd, Bool.false_eq_true, if_false]
        rw [List.find?_cons, List.find?_cons, ih]

/-- The foremost entry of an id is of no other id, also after it was put up with. -/
theorem missed_hasId_of_foremost? (hfound : foremost? c entries = some entry) (hne : c ≠ d) :
    entry.missed.hasId d = false := by
  have hid : entry.hasId c = true := List.find?_some hfound
  exact Entry.hasId_eq_false hid hne

theorem foremost?_kept (policy : Policy) (hne : c ≠ d) :
    foremost? c (policy.kept d entries) = foremost? c entries := by
  cases policy with
  | keepPosition => exact foremost?_countedOn hne
  | moveToFront =>
      unfold Policy.kept
      cases hfound : foremost? d entries with
      | none => exact foremost?_others hne
      | some entry =>
          have hmissed := missed_hasId_of_foremost? hfound hne.symm
          simp [foremost?_cons_of_not_hasId hmissed, foremost?_others hne]

/-- What becomes of the entries of an answer: nothing, one is taken out, or one is put up with. -/
theorem Policy.settled_cases (policy : Policy) (id : String) (answer : Answer) :
    policy.settled id answer = (fun entries => entries) ∨ policy.settled id answer = others id ∨
      (answer.isRetained = true ∧ policy.settled id answer = policy.kept id) := by
  unfold Policy.settled
  split
  · exact .inr (.inr ⟨rfl, rfl⟩)
  · exact .inr (.inl rfl)
  · exact .inr (.inl rfl)
  · exact .inl rfl

theorem foremost?_settled (policy : Policy) (answer : Answer) (hne : c ≠ d) :
    foremost? c (policy.settled d answer entries) = foremost? c entries := by
  rcases policy.settled_cases d answer with hsame | hout | ⟨-, hkept⟩
  · rw [hsame]
  · rw [hout]
    exact foremost?_others hne
  · rw [hkept]
    exact foremost?_kept policy hne

/-! ## Answers -/

namespace Delivery

variable {queue other : Delivery}

theorem requeue_fst (queue : Delivery) (id : String) :
    (queue.requeue id).1 =
      match foremost? id queue.entries with
      | none => .notFound
      | some entry =>
        if queue.config.maxRetries ≤ entry.retries + 1 then .dropped entry.missed
        else .retained (entry.retries + 1) := by
  rcases absent_or_foremost id queue.entries with habsent | ⟨before, entry, behind, hforemost⟩
  · rw [requeue_of_absent habsent, habsent.foremost?_eq]
  · rw [requeue_of_foremost hforemost, hforemost.foremost?_eq]
    exact apply_ite Prod.fst ..

theorem acknowledge_fst (queue : Delivery) (id : String) :
    (queue.acknowledge id).1 = (foremost? id queue.entries).map Entry.envelope := by
  rcases absent_or_foremost id queue.entries with habsent | ⟨before, entry, behind, hforemost⟩
  · rw [acknowledge_of_absent habsent, habsent.foremost?_eq, Option.map_none]
  · rw [acknowledge_of_foremost hforemost, hforemost.foremost?_eq, Option.map_some]

/-- A call by id is answered from the settings and the foremost entry of the id alone. -/
theorem answer_congr {call : Call} (hnames : call.Names c) (hconfig : queue.config = other.config)
    (hforemost : foremost? c queue.entries = foremost? c other.entries) :
    (queue.serve call).1 = (other.serve call).1 := by
  cases hnames with
  | missed =>
      have hsame : (queue.requeue c).1 = (other.requeue c).1 := by
        rw [requeue_fst, requeue_fst, hconfig, hforemost]
      exact congrArg Answer.requeue hsame
  | acknowledged =>
      have hsame : (queue.acknowledge c).1 = (other.acknowledge c).1 := by
        rw [acknowledge_fst, acknowledge_fst, hforemost]
      exact congrArg Answer.acknowledge hsame

/-- A call about one id does not change the answer to a call about another. -/
theorem answer_after {first second : Call} (hfirst : first.Names c) (hsecond : second.Names d)
    (hne : c ≠ d) (queue : Delivery) :
    ((queue.serve first).2.serve second).1 = (queue.serve second).1 := by
  have heffect := serve_effect queue first
  apply answer_congr hsecond heffect.config_eq
  rw [heffect.entries_eq hfirst]
  exact foremost?_settled _ _ hne.symm

end Delivery

theorem Counters.tick_comm (counters : Counters) (first second : Answer) :
    (counters.tick first).tick second = (counters.tick second).tick first := by
  simp only [tick, Nat.add_right_comm]

/-! ## Two calls -/

theorem Policy.commute_others_kept (policy : Policy) (hne : c ≠ d) :
    Function.Commute (others c) (policy.kept d) := by
  cases policy with
  | keepPosition => exact commute_others_countedOn hne
  | moveToFront =>
      intro entries
      unfold Policy.kept
      rw [foremost?_others hne.symm]
      cases hfound : foremost? d entries with
      | none => exact commute_others hne entries
      | some entry =>
          have hmissed := missed_hasId_of_foremost? hfound hne.symm
          simp [others_cons_of_not_hasId hmissed, commute_others hne entries]

/-- What two answers make of the entries can be exchanged, unless two entries move to the front. -/
theorem Policy.commute_settled {policy : Policy} {first second : Answer} (hne : c ≠ d)
    (hone : policy = .keepPosition ∨ first.isRetained = false ∨ second.isRetained = false) :
    Function.Commute (policy.settled c first) (policy.settled d second) := by
  rcases policy.settled_cases c first with hfirst | hfirst | ⟨hretained, hfirst⟩
  · rw [hfirst]
    exact Function.Commute.id_left
  · rw [hfirst]
    rcases policy.settled_cases d second with hsecond | hsecond | ⟨-, hsecond⟩
    · rw [hsecond]
      exact Function.Commute.id_right
    · rw [hsecond]
      exact commute_others hne
    · rw [hsecond]
      exact policy.commute_others_kept hne
  · rw [hfirst]
    rcases policy.settled_cases d second with hsecond | hsecond | ⟨hagain, hsecond⟩
    · rw [hsecond]
      exact Function.Commute.id_right
    · rw [hsecond]
      exact (policy.commute_others_kept hne.symm).symm
    · -- both are put up with, so neither may move
      have hkeep : policy = .keepPosition := by
        simpa [hretained, hagain] using hone
      rw [hsecond, hkeep]
      exact commute_countedOn hne

/-- An answer that an entry was put up with says that there was one. -/
theorem Effect.exists_foremost? {queue next : Delivery} {call : Call} {answer : Answer}
    (heffect : Effect queue call answer next) (hnames : call.Names c)
    (hretained : answer.isRetained = true) :
    ∃ entry, foremost? c queue.entries = some entry ∧
      ∀ policy : Policy, policy.settled c answer = policy.kept c := by
  cases hnames with
  | missed =>
      cases heffect with
      | retain hforemost => exact ⟨_, hforemost.foremost?_eq, fun policy => rfl⟩
      | drop => cases hretained
      | requeueNothing => cases hretained
  | acknowledged => cases heffect <;> cases hretained

/-- Of two entries that move to the front one after the other, the second leads. -/
theorem kept_kept_moveToFront {first second : Entry} (hne : c ≠ d)
    (hfirst : foremost? c entries = some first) (hsecond : foremost? d entries = some second) :
    Policy.kept .moveToFront d (Policy.kept .moveToFront c entries) =
      second.missed :: first.missed :: others d (others c entries) := by
  have hagain : foremost? d (Policy.kept .moveToFront c entries) = some second := by
    rw [foremost?_kept .moveToFront hne.symm, hsecond]
  have hmissed := missed_hasId_of_foremost? hfirst hne
  rw [Policy.kept, hagain]
  simp [Policy.kept, hfirst, others_cons_of_not_hasId hmissed]

/-- **Calls about different envelopes commute.**  An acknowledgment or a missed one for one id, and
an acknowledgment or a missed one for another, are answered the same in either order and leave the
same counters.  They leave the same entries too, where entries keep their places, and wherever one of
the two calls does not end with an entry that is put up with.  If both do and entries move to the
front, the two entries stand at the head, the one of the later call first, and behind them stand all
other entries as they stood. -/
theorem calls_commute (hne : c ≠ d) {first second : Call} (hfirst : first.Names c)
    (hsecond : second.Names d) (queue : Delivery) :
    let afterFirst := queue.serve first
    let afterSecond := queue.serve second
    let secondLast := afterFirst.2.serve second
    let firstLast := afterSecond.2.serve first
    firstLast.1 = afterFirst.1 ∧ secondLast.1 = afterSecond.1 ∧
      secondLast.2.counters = firstLast.2.counters ∧
      (queue.config.policy = .keepPosition ∨ afterFirst.1.isRetained = false ∨
        afterSecond.1.isRetained = false → secondLast.2.entries = firstLast.2.entries) ∧
      (queue.config.policy = .moveToFront → afterFirst.1.isRetained = true →
        afterSecond.1.isRetained = true → ∃ one two,
          foremost? c queue.entries = some one ∧ foremost? d queue.entries = some two ∧
          secondLast.2.entries =
            two.missed :: one.missed :: others d (others c queue.entries) ∧
          firstLast.2.entries =
            one.missed :: two.missed :: others d (others c queue.entries)) := by
  intro afterFirst afterSecond secondLast firstLast
  have heffectFirst := serve_effect queue first
  have heffectSecond := serve_effect queue second
  have hanswerFirst : firstLast.1 = afterFirst.1 :=
    Delivery.answer_after hsecond hfirst hne.symm queue
  have hanswerSecond : secondLast.1 = afterSecond.1 :=
    Delivery.answer_after hfirst hsecond hne queue
  have heffectSecondLast := serve_effect afterFirst.2 second
  have heffectFirstLast := serve_effect afterSecond.2 first
  -- what is left in either order, by the answers that the calls have alone
  have hsecondLast : secondLast.2.entries =
      queue.config.policy.settled d afterSecond.1
        (queue.config.policy.settled c afterFirst.1 queue.entries) := by
    rw [heffectSecondLast.entries_eq hsecond, heffectFirst.config_eq,
      heffectFirst.entries_eq hfirst, hanswerSecond]
  have hfirstLast : firstLast.2.entries =
      queue.config.policy.settled c afterFirst.1
        (queue.config.policy.settled d afterSecond.1 queue.entries) := by
    rw [heffectFirstLast.entries_eq hfirst, heffectSecond.config_eq,
      heffectSecond.entries_eq hsecond, hanswerFirst]
  refine ⟨hanswerFirst, hanswerSecond, ?_, ?_, ?_⟩
  · calc secondLast.2.counters
      _ = (queue.counters.tick afterFirst.1).tick afterSecond.1 := by
        rw [heffectSecondLast.counters_eq, heffectFirst.counters_eq, hanswerSecond]
      _ = (queue.counters.tick afterSecond.1).tick afterFirst.1 := Counters.tick_comm ..
      _ = firstLast.2.counters := by
        rw [heffectFirstLast.counters_eq, heffectSecond.counters_eq, hanswerFirst]
  · intro hone
    rw [hsecondLast, hfirstLast]
    exact (Policy.commute_settled hne hone queue.entries).symm
  · intro hpolicy hretainedFirst hretainedSecond
    obtain ⟨one, hone, hkeptFirst⟩ := heffectFirst.exists_foremost? hfirst hretainedFirst
    obtain ⟨two, htwo, hkeptSecond⟩ := heffectSecond.exists_foremost? hsecond hretainedSecond
    refine ⟨one, two, hone, htwo, ?_, ?_⟩
    · rw [hsecondLast, hkeptSecond, hkeptFirst, hpolicy]
      exact kept_kept_moveToFront hne hone htwo
    · rw [hfirstLast, hkeptSecond, hkeptFirst, hpolicy]
      rw [kept_kept_moveToFront hne.symm htwo hone, commute_others hne queue.entries]

/-- Two envelopes share an id, behind a third one.  When the first of the two and the third are both
missed, the order shows at the head and nowhere else; when the first of the two is acknowledged
instead, it does not show. -/
theorem calls_commute_with_twins :
    let old : Entry := ⟨⟨"1", "b", 0, .heartbeat⟩, 1⟩
    let twin : Entry := ⟨⟨"1", "a", 1, .heartbeat⟩, 0⟩
    let other : Entry := ⟨⟨"1", "a", 2, .heartbeat⟩, 1⟩
    let queue : Delivery :=
      { config := { policy := .moveToFront }, entries := [old, twin, other] }
    "a" ≠ "b" ∧ (Call.requeue "a").Names "a" ∧ (Call.acknowledge "a").Names "a" ∧
      (Call.requeue "b").Names "b" ∧
      ((queue.serve (.requeue "a")).2.serve (.requeue "b")).2.entries =
        [old.missed, twin.missed, other] ∧
      ((queue.serve (.requeue "b")).2.serve (.requeue "a")).2.entries =
        [twin.missed, old.missed, other] ∧
      ((queue.serve (.acknowledge "a")).2.serve (.requeue "b")).2.entries =
        ((queue.serve (.requeue "b")).2.serve (.acknowledge "a")).2.entries := by
  intro old twin other queue
  have hne : "a" ≠ "b" := by decide
  obtain ⟨-, -, -, -, hmissed⟩ := calls_commute hne .missed .missed queue
  obtain ⟨-, -, -, hacknowledged, -⟩ := calls_commute hne .acknowledged .missed queue
  obtain ⟨one, two, hone, htwo, hsecondLast, hfirstLast⟩ := hmissed rfl rfl rfl
  obtain rfl : twin = one := Option.some.inj hone
  obtain rfl : old = two := Option.some.inj htwo
  exact ⟨hne, .missed, .acknowledged, .missed, hsecondLast, hfirstLast,
    hacknowledged (.inr (.inl rfl))⟩

end HubLink.Queue
