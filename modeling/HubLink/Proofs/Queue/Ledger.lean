import HubLink.Proofs.Queue.Effect
import HubLink.Proofs.Queue.History
import Mathlib.Algebra.Order.Group.Multiset
import Mathlib.Tactic.Abel

/-!
# The accounts of a queue

Every envelope that a queue has accepted is at every moment in one place: it waits, or it was handed
back by `dequeue`, by `acknowledge` or by the `requeue` that gave it up, or it was discarded by
`clear`.  And the counters say how often each of the answers was given.  Both are read off the
history of a queue (`Accounts`), and they hold of every history, whether one sender made the calls
or several senders through handles to one shared queue (`accounts_balance`).
-/

namespace HubLink.Queue

open Message (Envelope)

/-! ## What a call moves -/

namespace Served

/-- The envelope that the queue accepted. -/
def accepted (served : Served) : List Envelope :=
  match served.call, served.answer with
  | .enqueue envelope, .enqueue (.ok ()) => [envelope]
  | _, _ => []

/-- The envelope that `dequeue` returned. -/
def dequeued (served : Served) : List Envelope :=
  match served.answer with
  | .dequeue (some envelope) => [envelope]
  | _ => []

/-- The envelope that `acknowledge` returned. -/
def acknowledged (served : Served) : List Envelope :=
  match served.answer with
  | .acknowledge (some envelope) => [envelope]
  | _ => []

/-- The envelope that `requeue` gave up. -/
def dropped (served : Served) : List Envelope :=
  match served.answer with
  | .requeue (.dropped entry) => [entry.envelope]
  | _ => []

/-- The envelopes that `clear` discarded. -/
def discarded (served : Served) : List Envelope :=
  match served.call with
  | .clear => served.found.entries.map Entry.envelope
  | _ => []

end Served

/-! ## What a call counts as -/

namespace Answer

/-- An envelope was accepted. -/
def isAccepted : Answer → Bool
  | .enqueue (.ok ()) => true
  | _ => false

/-- An envelope was refused because the queue was full. -/
def isRefused : Answer → Bool
  | .enqueue (.error _) => true
  | _ => false

/-- A missed acknowledgment was put up with. -/
def isRetained : Answer → Bool
  | .requeue (.retained _) => true
  | _ => false

/-- An envelope was given up. -/
def isDropped : Answer → Bool
  | .requeue (.dropped _) => true
  | _ => false

/-- An envelope was acknowledged. -/
def isAcknowledged : Answer → Bool
  | .acknowledge (some _) => true
  | _ => false

end Answer

/-- How many calls of a history were answered in a certain way. -/
def howMany (history : List Served) (way : Answer → Bool) : Nat :=
  history.countP fun served => way served.answer

/-- The books of a queue agree with its history. -/
structure Accounts (history : List Served) (queue : Delivery) : Prop where
  /-- Every accepted envelope waits, or has left the queue in one of four ways. -/
  conserved : (history.flatMap Served.accepted : Multiset Envelope) =
    (queue.entries.map Entry.envelope : Multiset Envelope) + history.flatMap Served.dequeued +
      history.flatMap Served.acknowledged + history.flatMap Served.dropped +
      history.flatMap Served.discarded
  /-- Every counter says how many answers of its sort there were. -/
  counted : queue.stats =
    { enqueued := howMany history Answer.isAccepted
      rejected := howMany history Answer.isRefused
      retried := howMany history Answer.isRetained
      dropped := howMany history Answer.isDropped
      acknowledged := howMany history Answer.isAcknowledged
      pending := queue.size }
  /-- No counter can exceed the number of calls. -/
  bounded : queue.counters.enqueued + queue.counters.rejected + queue.counters.retried +
    queue.counters.dropped + queue.counters.acknowledged ≤ history.length

/-! ## One call -/

/-- Taking out an entry takes out its envelope. -/
theorem envelopes_split (before : List Entry) (entry : Entry) (behind : List Entry) :
    ((before ++ entry :: behind).map Entry.envelope : Multiset Envelope) =
      ((before ++ behind).map Entry.envelope : Multiset Envelope) + [entry.envelope] := by
  rw [Multiset.coe_add, Multiset.coe_eq_coe, ← List.map_singleton, ← List.map_append]
  apply List.Perm.map
  rw [List.append_assoc]
  exact (List.perm_append_singleton entry behind).symm.append_left before

/-- What waits before a call or comes in with it waits after the call or goes out with it. -/
theorem Effect.conserves {queue next : Delivery} {call : Call} {answer : Answer}
    (heffect : Effect queue call answer next) :
    ((Served.mk queue call answer).accepted : Multiset Envelope) +
        queue.entries.map Entry.envelope =
      (next.entries.map Entry.envelope : Multiset Envelope) +
        (Served.mk queue call answer).dequeued + (Served.mk queue call answer).acknowledged +
        (Served.mk queue call answer).dropped + (Served.mk queue call answer).discarded := by
  simp only [Served.accepted, Served.dequeued, Served.acknowledged, Served.dropped,
    Served.discarded]
  cases heffect with
  | accept envelope =>
      rw [List.map_append, ← Multiset.coe_add, Multiset.add_comm]
      simp
  | dequeue hentries =>
      rw [hentries]
      simp [Multiset.add_comm]
  | @retain id before behind entry hforemost =>
      have hplaced := (queue.config.policy.placed_perm before entry.missed behind).map
        Entry.envelope
      have hsame : (before ++ entry.missed :: behind).map Entry.envelope =
          (before ++ entry :: behind).map Entry.envelope := by simp [Entry.missed]
      rw [hsame, ← hforemost.entries_eq] at hplaced
      simp [hplaced.symm]
  | drop hforemost =>
      rw [hforemost.entries_eq, envelopes_split]
      simp [Entry.missed]
  | acknowledge hforemost =>
      rw [hforemost.entries_eq, envelopes_split]
      simp
  | _ => simp

/-- The counters after one more answer. -/
def Counters.tick (counters : Counters) (answer : Answer) : Counters where
  enqueued := counters.enqueued + answer.isAccepted.toNat
  rejected := counters.rejected + answer.isRefused.toNat
  retried := counters.retried + answer.isRetained.toNat
  dropped := counters.dropped + answer.isDropped.toNat
  acknowledged := counters.acknowledged + answer.isAcknowledged.toNat

theorem Effect.counters_eq {queue next : Delivery} {call : Call} {answer : Answer}
    (heffect : Effect queue call answer next) : next.counters = queue.counters.tick answer := by
  cases heffect <;> rfl

/-! ## Whole histories -/

theorem howMany_cons (served : Served) (history : List Served) (way : Answer → Bool) :
    howMany (served :: history) way = (way served.answer).toNat + howMany history way := by
  unfold howMany
  rw [List.countP_cons, Nat.add_comm]
  cases way served.answer <;> rfl

/-- An answer is of one sort at most. -/
theorem sum_howMany_le (history : List Served) :
    howMany history Answer.isAccepted + howMany history Answer.isRefused +
        howMany history Answer.isRetained + howMany history Answer.isDropped +
        howMany history Answer.isAcknowledged ≤ history.length := by
  induction history with
  | nil => exact Nat.le_refl 0
  | cons served history ih =>
      have hone : served.answer.isAccepted.toNat + served.answer.isRefused.toNat +
          served.answer.isRetained.toNat + served.answer.isDropped.toNat +
          served.answer.isAcknowledged.toNat ≤ 1 := by
        rcases served.answer with (_ | _) | _ | _ | (_ | _ | _) | (_ | _) | _ | _ | _ | _ <;>
          simp [Answer.isAccepted, Answer.isRefused, Answer.isRetained, Answer.isDropped,
            Answer.isAcknowledged]
      simp only [howMany_cons, List.length_cons]
      omega

theorem Delivery.history_conserves (queue : Delivery) (calls : List Call) :
    ((queue.history calls).flatMap Served.accepted : Multiset Envelope) +
        queue.entries.map Entry.envelope =
      ((queue.after calls).entries.map Entry.envelope : Multiset Envelope) +
        (queue.history calls).flatMap Served.dequeued +
        (queue.history calls).flatMap Served.acknowledged +
        (queue.history calls).flatMap Served.dropped +
        (queue.history calls).flatMap Served.discarded := by
  induction calls generalizing queue with
  | nil => simp [history, after]
  | cons call calls ih =>
      have hfirst := (serve_effect queue call).conserves
      have hlater := ih (queue.serve call).2
      simp only [history, served, after, List.flatMap_cons, ← Multiset.coe_add]
      -- what waits between the first call and the others stands on both sides
      apply add_right_cancel
        (b := ((queue.serve call).2.entries.map Entry.envelope : Multiset Envelope))
      have hboth := congrArg₂ (· + ·) hfirst hlater
      convert hboth using 1 <;> abel

/-- The counters count on from where they stood. -/
theorem Delivery.history_counters (queue : Delivery) (calls : List Call) :
    (queue.after calls).counters =
      { enqueued := queue.counters.enqueued + howMany (queue.history calls) Answer.isAccepted
        rejected := queue.counters.rejected + howMany (queue.history calls) Answer.isRefused
        retried := queue.counters.retried + howMany (queue.history calls) Answer.isRetained
        dropped := queue.counters.dropped + howMany (queue.history calls) Answer.isDropped
        acknowledged :=
          queue.counters.acknowledged + howMany (queue.history calls) Answer.isAcknowledged } := by
  induction calls generalizing queue with
  | nil => rfl
  | cons call calls ih =>
      rw [after, ih, (serve_effect queue call).counters_eq]
      simp only [history, howMany_cons, Counters.tick, Nat.add_assoc]
      rfl

/-- The books of a queue that started empty agree with its history. -/
theorem Delivery.accounts (config : Config) (calls : List Call) :
    Accounts (history { config := config } calls) (after { config := config } calls) := by
  have hcounters := history_counters { config := config } calls
  refine ⟨?_, ?_, ?_⟩
  · have hconserved := history_conserves { config := config } calls
    rwa [List.map_nil, Multiset.coe_nil, Multiset.add_zero] at hconserved
  · unfold stats
    rw [hcounters]
    simp only [Nat.zero_add]
  · rw [hcounters]
    simp only [Nat.zero_add]
    exact sum_howMany_le _

/-- **No envelope is lost or doubled, and the counters are honest.**  After any calls on a queue
that started empty its books agree with its history; so they do when the calls come from senders
that share the queue through clones of one handle, in any order.  An envelope that is reported as
not found was not counted as given up: nothing has changed. -/
theorem accounts_balance (config : Config) :
    (∀ calls, Accounts (Delivery.history { config := config } calls)
      (Delivery.after { config := config } calls)) ∧
    (∀ (shared : Shared) (turns : List Turn),
      let first := shared.share { config := config }
      let session := first.2.session [first.1] turns
      Accounts session.1 (session.2.behind first.1.lock)) ∧
    ∀ (queue : Delivery) (id : String),
      (queue.requeue id).1 = .notFound → (queue.requeue id).2 = queue := by
  refine ⟨Delivery.accounts config, ?_, ?_⟩
  · intro shared turns
    obtain ⟨calls, hhistory, hlast⟩ := Shared.session_eq_history turns
      (shared.share { config := config }).2 [(shared.share { config := config }).1]
      (fun handle hhandle => congrArg Handle.lock (List.mem_singleton.mp hhandle))
    have hempty : (shared.share { config := config }).2.behind
        (shared.share { config := config }).1.lock = { config := config } := by
      simp [Shared.share]
    simp only [hhistory, hlast, hempty]
    exact Delivery.accounts config calls
  · intro queue id hmissing
    exact Delivery.requeue_notFound (Prod.ext hmissing rfl)

/-- A queue of one place that gives up at the first missed acknowledgment: the second envelope is
refused, the first one is given up, and then it is no longer found. -/
theorem accounts_balance_given_up :
    let calls : List Call :=
      [.enqueue ⟨"1", "a", 0, .heartbeat⟩, .enqueue ⟨"1", "b", 1, .heartbeat⟩, .requeue "a"]
    let queue := Delivery.after { config := { capacity := 1, maxRetries := 1 } } calls
    (queue.requeue "a").1 = .notFound ∧ (queue.requeue "a").2 = queue ∧
      queue.stats = { enqueued := 1, rejected := 1, dropped := 1, pending := 0 } := by
  intro calls queue
  have hmissing : (queue.requeue "a").1 = .notFound := rfl
  have hbalance := accounts_balance { capacity := 1, maxRetries := 1 }
  refine ⟨hmissing, hbalance.2.2 queue "a" hmissing, ?_⟩
  rw [(hbalance.1 calls).counted]
  rfl

end HubLink.Queue
