import HubLink.Queue.Delivery

/-!
# Shared queues

Several senders may share one queue.  Each of them has a handle to it; a handle stands for a queue
behind a lock, and a clone of a handle stands for the same queue.  A call through a handle takes the
lock, is served by the queue and gives the lock back, so calls are served one after the other, in
the order in which they get the lock.
-/

namespace HubLink.Queue

open Message (Envelope)

/-- What can be asked of a queue. -/
inductive Call where
  | enqueue (envelope : Envelope)
  | dequeue
  | peek
  | requeue (id : String)
  | acknowledge (id : String)
  | retries (id : String)
  | size
  | clear
  | stats

/-- What a queue answers to each of the calls. -/
inductive Answer where
  | enqueue (result : Except Full Unit)
  | dequeue (envelope : Option Envelope)
  | peek (entry : Option Entry)
  | requeue (outcome : Requeued)
  | acknowledge (envelope : Option Envelope)
  | retries (count : Option Nat)
  | size (count : Nat)
  | clear
  | stats (stats : Stats)

/-- Serves a call: the answer, and the queue after it. -/
def Delivery.serve (queue : Delivery) : Call → Answer × Delivery
  | .enqueue envelope => (queue.enqueue envelope).map .enqueue id
  | .dequeue => queue.dequeue.map .dequeue id
  | .peek => (.peek queue.peek, queue)
  | .requeue name => (queue.requeue name).map .requeue id
  | .acknowledge name => (queue.acknowledge name).map .acknowledge id
  | .retries name => (.retries (queue.retries? name), queue)
  | .size => (.size queue.size, queue)
  | .clear => (.clear, queue.clear)
  | .stats => (.stats queue.stats, queue)

/-- A handle to a shared queue: the number of its lock. -/
structure Handle where
  lock : Nat
  deriving DecidableEq, Repr

/-- A further handle to the same queue. -/
def Handle.clone (handle : Handle) : Handle :=
  ⟨handle.lock⟩

/-- The queues that are shared. -/
structure Shared where
  /-- How many locks there are. -/
  locks : Nat
  /-- The queue behind each lock. -/
  behind : Nat → Delivery

namespace Shared

/-- Puts a queue behind a lock of its own: the first handle to it. -/
def share (shared : Shared) (queue : Delivery) : Handle × Shared :=
  (⟨shared.locks⟩,
    { locks := shared.locks + 1
      behind := fun lock => if lock = shared.locks then queue else shared.behind lock })

/-- Serves a call through a handle. -/
def serve (shared : Shared) (handle : Handle) (call : Call) : Answer × Shared :=
  let (answer, queue) := (shared.behind handle.lock).serve call
  (answer,
    { shared with
      behind := fun lock => if lock = handle.lock then queue else shared.behind lock })

end Shared

end HubLink.Queue
