import HubLink.Message.Envelope
import HubLink.Queue.Config

/-!
# The delivery queue

Envelopes wait in a bounded queue until the peer has acknowledged them.  A full queue refuses an
envelope and hands it back; an acknowledgment that stays out is reported by `requeue`, which counts
it and gives the envelope up at the ceiling.  Nothing ever waits: the callers own the timers.

Several envelopes may have one correlation id, since replies repeat it; the one nearest the head is
the one that is meant.
-/

namespace HubLink.Queue

open Message (Envelope)

/-- An envelope that waits, with the acknowledgments that it has missed. -/
structure Entry where
  envelope : Envelope
  retries : Nat
  deriving BEq, Repr

/-- What has happened to a queue so far. -/
structure Counters where
  /-- Envelopes accepted. -/
  enqueued : Nat := 0
  /-- Envelopes refused because the queue was full. -/
  rejected : Nat := 0
  /-- Missed acknowledgments put up with. -/
  retried : Nat := 0
  /-- Envelopes given up at the ceiling. -/
  dropped : Nat := 0
  /-- Envelopes acknowledged. -/
  acknowledged : Nat := 0
  deriving DecidableEq, Repr

/-- What has happened to a queue so far, and how many envelopes wait now. -/
structure Stats extends Counters where
  pending : Nat
  deriving DecidableEq, Repr

/-- A bounded queue of outbound envelopes, the head first. -/
structure Delivery where
  config : Config := {}
  entries : List Entry := []
  counters : Counters := {}
  deriving BEq, Repr

/-- An envelope that did not fit, and the capacity that it met. -/
structure Full where
  envelope : Envelope
  capacity : Nat
  deriving BEq, Repr

/-- The wording of a refusal. -/
def Full.message (full : Full) : String :=
  s!"delivery queue full ({full.capacity} entries), rejected {full.envelope.correlationId}"

/-- What becomes of an envelope whose acknowledgment stayed out. -/
inductive Requeued where
  /-- It waits on, with this many acknowledgments missed. -/
  | retained (retries : Nat)
  /-- It is given up. -/
  | dropped (entry : Entry)
  /-- No envelope of that id waits. -/
  | notFound
  deriving BEq, Repr

/-- Whether an entry has the given correlation id. -/
def Entry.hasId (id : String) (entry : Entry) : Bool :=
  entry.envelope.correlationId == id

/-- An entry after one more missed acknowledgment. -/
def Entry.missed (entry : Entry) : Entry :=
  { entry with retries := entry.retries + 1 }

/-- The place of the first entry of an id. -/
def place? (id : String) (entries : List Entry) : Option (Fin entries.length) :=
  entries.findFinIdx? (Entry.hasId id)

/-- Takes out the entry at a place, if there is such a place: the entry, and the others. -/
def takeOut (place : Nat) (entries : List Entry) : Option (Entry × List Entry) :=
  entries[place]?.map fun entry => (entry, entries.eraseIdx place)

/-- The order of the entries after the one at a place was put up with once more. -/
def Policy.arrange (policy : Policy) (place : Nat) (entries : List Entry) : List Entry :=
  if policy = .moveToFront ∧ 0 < place then
    match takeOut place entries with
    | some (entry, others) => entry :: others
    | none => entries
  else entries

namespace Delivery

/-- How many envelopes wait. -/
def size (queue : Delivery) : Nat :=
  queue.entries.length

/-- Adds an envelope at the tail, unless the queue is full. -/
def enqueue (queue : Delivery) (envelope : Envelope) : Except Full Unit × Delivery :=
  if queue.config.capacity ≤ queue.size then
    (.error ⟨envelope, queue.config.capacity⟩,
      { queue with counters :=
        { queue.counters with rejected := queue.counters.rejected + 1 } })
  else
    (.ok (),
      { queue with
        entries := queue.entries ++ [⟨envelope, 0⟩]
        counters := { queue.counters with enqueued := queue.counters.enqueued + 1 } })

/-- Removes the envelope at the head. -/
def dequeue (queue : Delivery) : Option Envelope × Delivery :=
  match queue.entries with
  | [] => (none, queue)
  | entry :: rest => (some entry.envelope, { queue with entries := rest })

/-- The entry at the head. -/
def peek (queue : Delivery) : Option Entry :=
  queue.entries.head?

/-- Counts a missed acknowledgment.  At the ceiling the envelope leaves the queue; below it, the
policy says where it goes. -/
def requeue (queue : Delivery) (id : String) : Requeued × Delivery :=
  match place? id queue.entries with
  | none => (.notFound, queue)
  | some place =>
    let entry := queue.entries[place].missed
    let entries := queue.entries.set place entry
    if queue.config.maxRetries ≤ entry.retries then
      let counters := { queue.counters with dropped := queue.counters.dropped + 1 }
      match takeOut place entries with
      | some (entry, others) =>
        (.dropped entry, { queue with entries := others, counters := counters })
      | none => (.notFound, { queue with entries := entries, counters := counters })
    else
      (.retained entry.retries,
        { queue with
          entries := queue.config.policy.arrange place entries
          counters := { queue.counters with retried := queue.counters.retried + 1 } })

/-- Removes an envelope that the peer has acknowledged. -/
def acknowledge (queue : Delivery) (id : String) : Option Envelope × Delivery :=
  match place? id queue.entries with
  | none => (none, queue)
  | some place =>
    match takeOut place queue.entries with
    | none => (none, queue)
    | some (entry, others) =>
      (some entry.envelope,
        { queue with
          entries := others
          counters := { queue.counters with acknowledged := queue.counters.acknowledged + 1 } })

/-- The acknowledgments that a waiting envelope has missed. -/
def retries? (queue : Delivery) (id : String) : Option Nat :=
  (place? id queue.entries).map fun place => queue.entries[place].retries

/-- What has happened to the queue, and its size. -/
def stats (queue : Delivery) : Stats :=
  { queue.counters with pending := queue.size }

/-- Gives up every envelope that waits. -/
def clear (queue : Delivery) : Delivery :=
  { queue with entries := [] }

end Delivery

end HubLink.Queue
