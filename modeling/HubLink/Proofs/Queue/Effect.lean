import HubLink.Proofs.Queue.Foremost
import HubLink.Proofs.Queue.History

/-!
# What a call can do to a queue

A call on a queue has one of a few effects, and `serve_effect` says that there are no others.  What
every call keeps is then shown effect by effect, with the entries that are touched at hand and no
place or lookup left.
-/

namespace HubLink.Queue

open Message (Envelope)

/-- What a call on a queue is answered and leaves behind. -/
inductive Effect (queue : Delivery) : Call → Answer → Delivery → Prop where
  | refuse (envelope : Envelope) (hfull : queue.config.capacity ≤ queue.size) :
      Effect queue (.enqueue envelope) (.enqueue (.error ⟨envelope, queue.config.capacity⟩))
        { queue with
          counters := { queue.counters with rejected := queue.counters.rejected + 1 } }
  | accept (envelope : Envelope) (hroom : queue.size < queue.config.capacity) :
      Effect queue (.enqueue envelope) (.enqueue (.ok ()))
        { queue with
          entries := queue.entries ++ [⟨envelope, 0⟩]
          counters := { queue.counters with enqueued := queue.counters.enqueued + 1 } }
  | dequeue {head : Entry} {rest : List Entry} (hentries : queue.entries = head :: rest) :
      Effect queue .dequeue (.dequeue (some head.envelope)) { queue with entries := rest }
  | dequeueNothing (hempty : queue.entries = []) : Effect queue .dequeue (.dequeue none) queue
  | retain {id : String} {before behind : List Entry} {entry : Entry}
      (hforemost : Foremost id queue.entries before entry behind)
      (hbelow : entry.retries + 1 < queue.config.maxRetries) :
      Effect queue (.requeue id) (.requeue (.retained (entry.retries + 1)))
        { queue with
          entries := queue.config.policy.placed before entry.missed behind
          counters := { queue.counters with retried := queue.counters.retried + 1 } }
  | drop {id : String} {before behind : List Entry} {entry : Entry}
      (hforemost : Foremost id queue.entries before entry behind)
      (hceiling : queue.config.maxRetries ≤ entry.retries + 1) :
      Effect queue (.requeue id) (.requeue (.dropped entry.missed))
        { queue with
          entries := before ++ behind
          counters := { queue.counters with dropped := queue.counters.dropped + 1 } }
  | requeueNothing {id : String} (habsent : Absent id queue.entries) :
      Effect queue (.requeue id) (.requeue .notFound) queue
  | acknowledge {id : String} {before behind : List Entry} {entry : Entry}
      (hforemost : Foremost id queue.entries before entry behind) :
      Effect queue (.acknowledge id) (.acknowledge (some entry.envelope))
        { queue with
          entries := before ++ behind
          counters := { queue.counters with acknowledged := queue.counters.acknowledged + 1 } }
  | acknowledgeNothing {id : String} (habsent : Absent id queue.entries) :
      Effect queue (.acknowledge id) (.acknowledge none) queue
  | clear : Effect queue .clear .clear { queue with entries := [] }
  | peek : Effect queue .peek (.peek queue.peek) queue
  | retries (id : String) : Effect queue (.retries id) (.retries (queue.retries? id)) queue
  | size : Effect queue .size (.size queue.size) queue
  | stats : Effect queue .stats (.stats queue.stats) queue

/-- Every call has one of the effects. -/
theorem serve_effect (queue : Delivery) (call : Call) :
    Effect queue call (queue.serve call).1 (queue.serve call).2 := by
  cases call with
  | enqueue envelope =>
      simp only [Delivery.serve, Delivery.enqueue]
      by_cases hfull : queue.config.capacity ≤ queue.size
      · rw [if_pos hfull]
        exact .refuse envelope hfull
      · rw [if_neg hfull]
        exact .accept envelope (Nat.lt_of_not_le hfull)
  | dequeue =>
      simp only [Delivery.serve, Delivery.dequeue]
      cases hentries : queue.entries with
      | nil => exact .dequeueNothing hentries
      | cons head rest => exact .dequeue hentries
  | requeue id =>
      simp only [Delivery.serve]
      rcases absent_or_foremost id queue.entries with habsent | ⟨before, entry, behind, hforemost⟩
      · rw [Delivery.requeue_of_absent habsent]
        exact .requeueNothing habsent
      · rw [Delivery.requeue_of_foremost hforemost]
        by_cases hceiling : queue.config.maxRetries ≤ entry.retries + 1
        · rw [if_pos hceiling]
          exact .drop hforemost hceiling
        · rw [if_neg hceiling]
          exact .retain hforemost (Nat.lt_of_not_le hceiling)
  | acknowledge id =>
      simp only [Delivery.serve]
      rcases absent_or_foremost id queue.entries with habsent | ⟨before, entry, behind, hforemost⟩
      · rw [Delivery.acknowledge_of_absent habsent]
        exact .acknowledgeNothing habsent
      · rw [Delivery.acknowledge_of_foremost hforemost]
        exact .acknowledge hforemost
  | peek => exact .peek
  | retries id => exact .retries id
  | size => exact .size
  | clear => exact .clear
  | stats => exact .stats

/-! ## What no call changes -/

theorem Effect.config_eq {queue next : Delivery} {call : Call} {answer : Answer}
    (heffect : Effect queue call answer next) : next.config = queue.config := by
  cases heffect <;> rfl

theorem Delivery.config_after (queue : Delivery) (calls : List Call) :
    (queue.after calls).config = queue.config := by
  induction calls generalizing queue with
  | nil => rfl
  | cons call calls ih => rw [after, ih, (serve_effect queue call).config_eq]

end HubLink.Queue
