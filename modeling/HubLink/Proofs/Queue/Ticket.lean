import HubLink.Proofs.Queue.History
import Mathlib.Data.List.Sort

/-!
# Tickets

Where an envelope stands in a queue depends on the history of the queue alone: on when the envelope
was accepted and, if envelopes that are sent again move to the front, on when it was last put up
with.  A ticket says both of an envelope that waits, in numbers of calls.

The tickets of a history stand in a line (`tickets`).  The line is kept by rules that know nothing
of places in a queue (`noted`): a ticket that is new or has changed is inserted where the order of
the tickets wants it.
-/

namespace HubLink.Queue

open Message (Envelope)

/-- An envelope that waits, with what the history of the queue says of it. -/
structure Ticket where
  entry : Entry
  /-- The number of the call that brought the envelope in. -/
  accepted : Nat
  /-- The number of the call at which it was last put up with. -/
  retained : Option Nat

namespace Ticket

/-- Which of two tickets stands nearer the head. -/
def Precedes : Policy → Ticket → Ticket → Prop
  | .keepPosition, first, second => first.accepted < second.accepted
  | .moveToFront, first, second =>
    match first.retained, second.retained with
    | some number, some earlier => earlier < number
    | some _, none => True
    | none, some _ => False
    | none, none => first.accepted < second.accepted

instance decidablePrecedes : (policy : Policy) → DecidableRel (Precedes policy)
  | .keepPosition => fun first second => Nat.decLt first.accepted second.accepted
  | .moveToFront => fun
    | ⟨_, _, some _⟩, ⟨_, _, some _⟩ => Nat.decLt _ _
    | ⟨_, _, some _⟩, ⟨_, _, none⟩ => isTrue trivial
    | ⟨_, _, none⟩, ⟨_, _, some _⟩ => isFalse id
    | ⟨_, first, none⟩, ⟨_, second, none⟩ => Nat.decLt first second

/-- Whether the envelope of a ticket has the given correlation id. -/
def hasId (id : String) (ticket : Ticket) : Bool :=
  ticket.entry.hasId id

/-- The ticket after its envelope was put up with once more, at the call of the given number. -/
def again (number : Nat) (ticket : Ticket) : Ticket :=
  { ticket with entry := ticket.entry.missed, retained := some number }

/-- What a ticket says is what the history says. -/
structure Honest (history : List Served) (ticket : Ticket) : Prop where
  accepted : ∃ found, history[ticket.accepted]? =
    some ⟨found, .enqueue ticket.entry.envelope, .enqueue (.ok ())⟩
  /-- An envelope that was never put up with has no retries. -/
  fresh : ticket.retained = none → ticket.entry.retries = 0
  /-- An envelope that was put up with got its present number of retries at that call. -/
  retained : ∀ number ∈ ticket.retained, ticket.accepted < number ∧ 1 ≤ ticket.entry.retries ∧
    ∃ found, history[number]? = some ⟨found, .requeue ticket.entry.envelope.correlationId,
      .requeue (.retained ticket.entry.retries)⟩

end Ticket

open Ticket (Precedes Honest)

/-- The line after one more call: the ticket of an envelope that leaves is taken out, and one that
is new or has changed is inserted in order. -/
def noted (policy : Policy) (line : List Ticket) (served : Served) (number : Nat) : List Ticket :=
  match served.call, served.answer with
  | .enqueue envelope, .enqueue (.ok ()) =>
    line.orderedInsert (Precedes policy) ⟨⟨envelope, 0⟩, number, none⟩
  | .requeue id, .requeue (.retained _) =>
    match line.find? (Ticket.hasId id) with
    | none => line
    | some ticket =>
      (line.eraseP (Ticket.hasId id)).orderedInsert (Precedes policy) (ticket.again number)
  | .requeue id, .requeue (.dropped _) => line.eraseP (Ticket.hasId id)
  | .acknowledge id, _ => line.eraseP (Ticket.hasId id)
  | .dequeue, _ => line.tail
  | .clear, _ => []
  | _, _ => line

/-- The tickets of the envelopes that wait after a history. -/
def tickets (policy : Policy) (history : List Served) : List Ticket :=
  history.zipIdx.foldl (fun line (served, number) => noted policy line served number) []

/-- The order of a line.  Envelopes that keep their places stand as they were accepted.  Where they
move to the front, those that were put up with stand before the others, the last one first. -/
def InOrder : Policy → List Ticket → Prop
  | .keepPosition, line => line.Pairwise fun first second => first.accepted < second.accepted
  | .moveToFront, line => ∃ again fresh, line = again ++ fresh ∧
      (∀ ticket ∈ again, 1 ≤ ticket.entry.retries) ∧
      (again.Pairwise fun first second => second.retained < first.retained) ∧
      (∀ ticket ∈ fresh, ticket.entry.retries = 0) ∧
      fresh.Pairwise fun first second => first.accepted < second.accepted

variable {policy : Policy} {history : List Served} {served : Served}
  {line front back : List Ticket} {ticket other : Ticket}

/-! ## The order of tickets -/

theorem Ticket.Precedes.asymm (hprecedes : Precedes policy ticket other) :
    ¬ Precedes policy other ticket := by
  cases policy with
  | keepPosition => exact Nat.lt_asymm hprecedes
  | moveToFront =>
      obtain ⟨_, _, retained⟩ := ticket
      obtain ⟨_, _, retained'⟩ := other
      cases retained with
      | none =>
          cases retained' with
          | none => exact Nat.lt_asymm hprecedes
          | some _ => exact hprecedes.elim
      | some _ =>
          cases retained' with
          | none => exact id
          | some _ => exact Nat.lt_asymm hprecedes

/-- A ticket is inserted behind those that precede it and before those that it precedes. -/
theorem orderedInsert_between (hfront : ∀ other ∈ front, Precedes policy other ticket)
    (hback : ∀ other ∈ back, Precedes policy ticket other) :
    (front ++ back).orderedInsert (Precedes policy) ticket = front ++ ticket :: back := by
  induction front with
  | nil =>
      cases back with
      | nil => rfl
      | cons head rest =>
          exact List.orderedInsert_cons_of_le _ rest (hback head List.mem_cons_self)
  | cons head rest ih =>
      have hhead := (hfront head List.mem_cons_self).asymm
      have hrest := ih fun other hother => hfront other (List.mem_cons_of_mem _ hother)
      rw [List.cons_append, List.orderedInsert_of_not_le _ _ hhead, hrest, List.cons_append]

theorem pairwise_between (hrest : (front ++ back).Pairwise (Precedes policy))
    (hfront : ∀ other ∈ front, Precedes policy other ticket)
    (hback : ∀ other ∈ back, Precedes policy ticket other) :
    (front ++ ticket :: back).Pairwise (Precedes policy) := by
  obtain ⟨hfirst, hsecond, hacross⟩ := List.pairwise_append.mp hrest
  refine List.pairwise_append.mpr ⟨hfirst, List.pairwise_cons.mpr ⟨hback, hsecond⟩, ?_⟩
  intro first hfirst second hsecond
  rcases List.mem_cons.mp hsecond with rfl | hsecond
  · exact hfront first hfirst
  · exact hacross first hfirst second hsecond

/-- A line whose order puts those first that were put up with consists of two blocks. -/
theorem exists_blocks (hordered : line.Pairwise (Precedes .moveToFront)) :
    ∃ again fresh, line = again ++ fresh ∧ (∀ ticket ∈ again, ticket.retained ≠ none) ∧
      ∀ ticket ∈ fresh, ticket.retained = none := by
  induction line with
  | nil => exact ⟨[], [], rfl, List.forall_mem_nil _, List.forall_mem_nil _⟩
  | cons ticket rest ih =>
      obtain ⟨hticket, hrest⟩ := List.pairwise_cons.mp hordered
      cases hretained : ticket.retained with
      | none =>
          -- nothing that stands behind a fresh ticket was put up with
          refine ⟨[], ticket :: rest, rfl, List.forall_mem_nil _, ?_⟩
          refine List.forall_mem_cons.mpr ⟨hretained, fun other hother => ?_⟩
          have hprecedes := hticket other hother
          cases hother : other.retained with
          | none => rfl
          | some number => simp [Precedes, hretained, hother] at hprecedes
      | some number =>
          obtain ⟨again, fresh, rfl, hagain, hfresh⟩ := ih hrest
          refine ⟨ticket :: again, fresh, rfl, List.forall_mem_cons.mpr ⟨?_, hagain⟩, hfresh⟩
          rw [hretained]
          exact Option.some_ne_none number

/-! ## Honest tickets -/

theorem lt_of_recorded {number : Nat} (hrecorded : history[number]? = some served) :
    number < history.length :=
  (List.getElem?_eq_some_iff.mp hrecorded).1

theorem recorded_later {number : Nat} (hrecorded : history[number]? = some served)
    (later : List Served) : (history ++ later)[number]? = some served := by
  rw [List.getElem?_append_left (lt_of_recorded hrecorded), hrecorded]

namespace Ticket.Honest

theorem accepted_lt (hhonest : Honest history ticket) : ticket.accepted < history.length := by
  obtain ⟨found, haccepted⟩ := hhonest.accepted
  exact lt_of_recorded haccepted

theorem retained_lt (hhonest : Honest history ticket) :
    ∀ number ∈ ticket.retained, number < history.length := by
  intro number hnumber
  obtain ⟨_, _, found, hretained⟩ := hhonest.retained number hnumber
  exact lt_of_recorded hretained

/-- A ticket stays honest as the history goes on. -/
theorem later (hhonest : Honest history ticket) (calls : List Served) :
    Honest (history ++ calls) ticket where
  accepted := by
    obtain ⟨found, haccepted⟩ := hhonest.accepted
    exact ⟨found, recorded_later haccepted calls⟩
  fresh := hhonest.fresh
  retained number hnumber := by
    obtain ⟨hlater, hretries, found, hretained⟩ := hhonest.retained number hnumber
    exact ⟨hlater, hretries, found, recorded_later hretained calls⟩

/-- The ticket of an envelope that has just been accepted. -/
theorem new (history : List Served) (found : Delivery) (envelope : Envelope) :
    Honest (history ++ [⟨found, .enqueue envelope, .enqueue (.ok ())⟩])
      ⟨⟨envelope, 0⟩, history.length, none⟩ where
  accepted := ⟨found, List.getElem?_concat_length⟩
  fresh _ := rfl
  retained number hnumber := by cases hnumber

/-- The ticket of an envelope that has just been put up with. -/
theorem again (hhonest : Honest history ticket) (found : Delivery) :
    Honest (history ++ [⟨found, .requeue ticket.entry.envelope.correlationId,
      .requeue (.retained (ticket.entry.retries + 1))⟩]) (ticket.again history.length) where
  accepted := (hhonest.later _).accepted
  fresh hnone := by cases hnone
  retained number hnumber := by
    cases hnumber
    exact ⟨hhonest.accepted_lt, Nat.le_add_left 1 _, found, List.getElem?_concat_length⟩

/-- A ticket precedes the one of an envelope that is accepted later. -/
theorem precedes_new (hhonest : Honest history ticket) (policy : Policy) (envelope : Envelope) :
    Precedes policy ticket ⟨⟨envelope, 0⟩, history.length, none⟩ := by
  cases policy with
  | keepPosition => exact hhonest.accepted_lt
  | moveToFront =>
      cases hretained : ticket.retained with
      | none => simpa [Precedes, hretained] using hhonest.accepted_lt
      | some number => simp [Precedes, hretained]

/-- Where envelopes move to the front, one that is put up with now precedes every other. -/
theorem again_precedes (hhonest : Honest history other) (ticket : Ticket) :
    Precedes .moveToFront (ticket.again history.length) other := by
  cases hretained : other.retained with
  | none => simp [Precedes, Ticket.again, hretained]
  | some number =>
      simpa [Precedes, Ticket.again, hretained] using hhonest.retained_lt number hretained

end Ticket.Honest

/-- A line of honest tickets that is ordered is in the order of its policy. -/
theorem inOrder_of_pairwise (hordered : line.Pairwise (Precedes policy))
    (hhonest : ∀ ticket ∈ line, Honest history ticket) : InOrder policy line := by
  cases policy with
  | keepPosition => exact hordered
  | moveToFront =>
      obtain ⟨again, fresh, rfl, hagain, hfresh⟩ := exists_blocks hordered
      obtain ⟨hordered_again, hordered_fresh, _⟩ := List.pairwise_append.mp hordered
      refine ⟨again, fresh, rfl, ?_, ?_, ?_, ?_⟩
      · intro ticket hticket
        obtain ⟨number, hnumber⟩ := Option.ne_none_iff_exists'.mp (hagain ticket hticket)
        exact ((hhonest ticket (List.mem_append_left _ hticket)).retained number hnumber).2.1
      · refine hordered_again.imp_of_mem fun {first second} hfirst hsecond hprecedes => ?_
        obtain ⟨number, hnumber⟩ := Option.ne_none_iff_exists'.mp (hagain first hfirst)
        obtain ⟨earlier, hearlier⟩ := Option.ne_none_iff_exists'.mp (hagain second hsecond)
        simpa [Precedes, hnumber, hearlier] using hprecedes
      · intro ticket hticket
        exact (hhonest ticket (List.mem_append_right _ hticket)).fresh (hfresh ticket hticket)
      · refine hordered_fresh.imp_of_mem fun {first second} hfirst hsecond hprecedes => ?_
        simpa [Precedes, hfresh first hfirst, hfresh second hsecond] using hprecedes

end HubLink.Queue
