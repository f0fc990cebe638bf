import HubLink.Proofs.Queue.Effect
import HubLink.Proofs.Queue.History

/-!
# The life cycle of an envelope

An envelope whose id is its own is put up with at every missed acknowledgment but the last: at the
ceiling it is given up, and then it is no longer found (`retry_life_cycle`).  Whatever else happens
to the queue in the meantime, other envelopes coming, going and moving in front of it, does not
count.

What carries the proof is the list of the entries of that one id.  It holds the envelope with as
many retries as there were misses, until it is empty; where in the queue the entry stands is not
part of it.
-/

namespace HubLink.Queue

open Message (Envelope)

/-- The entries of an id. -/
def entriesOf (id : String) (entries : List Entry) : List Entry :=
  entries.filter (Entry.hasId id)

/-- A missed acknowledgment of the id. -/
def Call.isRequeueOf (id : String) : Call → Bool
  | .requeue name => name == id
  | _ => false

/-- A call that neither brings in an envelope of the id nor takes one out, except as a missed
acknowledgment does. -/
def Served.Spares (id : String) (served : Served) : Prop :=
  match served.call with
  | .enqueue envelope =>
    envelope.correlationId = id → served.answer ≠ .enqueue (.ok ())
  | .dequeue => ∀ head ∈ served.found.peek, head.hasId id = false
  | .acknowledge name => name ≠ id
  | .clear => Absent id served.found.entries
  | _ => True

variable {id : String} {before behind entries : List Entry} {entry : Entry}

/-! ## The entries of one id -/

theorem entriesOf_append (id : String) (first second : List Entry) :
    entriesOf id (first ++ second) = entriesOf id first ++ entriesOf id second :=
  List.filter_append ..

theorem entriesOf_cons_of_hasId (hid : entry.hasId id = true) (rest : List Entry) :
    entriesOf id (entry :: rest) = entry :: entriesOf id rest :=
  List.filter_cons_of_pos hid

theorem entriesOf_cons_of_not_hasId (hid : entry.hasId id = false) (rest : List Entry) :
    entriesOf id (entry :: rest) = entriesOf id rest :=
  List.filter_cons_of_neg (Bool.eq_false_iff.mp hid)

theorem entriesOf_eq_nil_iff : entriesOf id entries = [] ↔ Absent id entries := by
  unfold entriesOf Absent
  rw [List.filter_eq_nil_iff]
  simp only [Bool.not_eq_true]

theorem Foremost.entriesOf_eq (hforemost : Foremost id entries before entry behind) :
    entriesOf id entries = entry :: entriesOf id behind := by
  rw [hforemost.entries_eq, entriesOf_append,
    entriesOf_eq_nil_iff.mpr hforemost.absent_before, List.nil_append,
    entriesOf_cons_of_hasId hforemost.hasId]

/-- The foremost entry of another id is none of this id. -/
theorem Foremost.not_hasId {other : String} (hforemost : Foremost other entries before entry behind)
    (hne : other ≠ id) : entry.hasId id = false :=
  Entry.hasId_eq_false hforemost.hasId hne

/-- Taking out an entry of another id takes out none of this id. -/
theorem Foremost.entriesOf_without {other : String}
    (hforemost : Foremost other entries before entry behind) (hne : other ≠ id) :
    entriesOf id (before ++ behind) = entriesOf id entries := by
  rw [hforemost.entries_eq, entriesOf_append, entriesOf_append,
    entriesOf_cons_of_not_hasId (hforemost.not_hasId hne)]

theorem entriesOf_placed_of_hasId (policy : Policy) (hbefore : Absent id before)
    (hid : entry.hasId id = true) (behind : List Entry) :
    entriesOf id (policy.placed before entry.missed behind) =
      entry.missed :: entriesOf id behind := by
  have hnil := entriesOf_eq_nil_iff.mpr hbefore
  have hmissed : entry.missed.hasId id = true := hid
  cases policy with
  | keepPosition =>
      rw [Policy.placed, entriesOf_append, hnil, List.nil_append,
        entriesOf_cons_of_hasId hmissed]
  | moveToFront =>
      rw [Policy.placed, entriesOf_cons_of_hasId hmissed, entriesOf_append, hnil,
        List.nil_append]

theorem entriesOf_placed_of_not_hasId (policy : Policy) (hid : entry.hasId id = false)
    (before behind : List Entry) :
    entriesOf id (policy.placed before entry.missed behind) = entriesOf id (before ++ behind) := by
  have hmissed : entry.missed.hasId id = false := hid
  cases policy with
  | keepPosition =>
      rw [Policy.placed, entriesOf_append, entriesOf_cons_of_not_hasId hmissed, entriesOf_append]
  | moveToFront => rw [Policy.placed, entriesOf_cons_of_not_hasId hmissed]

/-! ## One call -/

/-- The entries of an id after so many misses of its envelope: it waits with that many retries, or
it has been given up. -/
def waiting (ceiling missed : Nat) (envelope : Envelope) : List Entry :=
  if missed < ceiling then [⟨envelope, missed⟩] else []

/-- What a missed acknowledgment is answered after so many misses before. -/
def verdict (ceiling missed : Nat) (envelope : Envelope) : Requeued :=
  if missed + 1 < ceiling then .retained (missed + 1)
  else if missed + 1 = ceiling then .dropped ⟨envelope, ceiling⟩
  else .notFound

theorem waiting_eq_nil {ceiling missed : Nat} {envelope : Envelope}
    (hnil : waiting ceiling missed envelope = []) : ceiling ≤ missed := by
  unfold waiting at hnil
  split at hnil
  · cases hnil
  · omega

theorem waiting_eq_cons {ceiling missed : Nat} {envelope : Envelope} {rest : List Entry}
    (hcons : waiting ceiling missed envelope = entry :: rest) :
    missed < ceiling ∧ entry = ⟨envelope, missed⟩ ∧ rest = [] := by
  unfold waiting at hcons
  split at hcons
  next hbelow =>
    cases hcons
    exact ⟨hbelow, rfl, rfl⟩
  next => cases hcons

section

variable {queue next : Delivery} {call : Call} {answer : Answer}

/-- A call that spares the id and is no missed acknowledgment of it leaves its entries alone. -/
theorem Effect.entriesOf_eq (heffect : Effect queue call answer next)
    (hspares : (Served.mk queue call answer).Spares id) (hother : call.isRequeueOf id = false) :
    entriesOf id next.entries = entriesOf id queue.entries := by
  cases heffect with
  | accept envelope =>
      have hne : envelope.correlationId ≠ id := fun heq => hspares heq rfl
      have hnone : (Entry.mk envelope 0).hasId id = false := beq_eq_false_iff_ne.mpr hne
      rw [entriesOf_append, entriesOf_cons_of_not_hasId hnone]
      exact List.append_nil _
  | dequeue hentries =>
      have hhead := hspares _ (by rw [Delivery.peek, hentries]; rfl)
      rw [hentries, entriesOf_cons_of_not_hasId hhead]
  | retain hforemost =>
      have hne := beq_eq_false_iff_ne.mp hother
      exact (entriesOf_placed_of_not_hasId _ (hforemost.not_hasId hne) _ _).trans
        (hforemost.entriesOf_without hne)
  | drop hforemost => exact hforemost.entriesOf_without (beq_eq_false_iff_ne.mp hother)
  | acknowledge hforemost => exact hforemost.entriesOf_without hspares
  | clear => exact (entriesOf_eq_nil_iff.mpr hspares).symm
  | _ => rfl

/-- A missed acknowledgment of the id takes the envelope one step on in its life. -/
theorem Effect.requeue_waiting {envelope : Envelope} {missed ceiling : Nat}
    (heffect : Effect queue (.requeue id) answer next)
    (hceiling : ceiling = max 1 queue.config.maxRetries)
    (hwaiting : entriesOf id queue.entries = waiting ceiling missed envelope) :
    answer = .requeue (verdict ceiling missed envelope) ∧
      entriesOf id next.entries = waiting ceiling (missed + 1) envelope := by
  cases heffect with
  | retain hforemost hbelow =>
      -- the foremost entry of the id is its only one, so it is the envelope that waits
      rw [hforemost.entriesOf_eq] at hwaiting
      obtain ⟨hmissed, rfl, hbehind⟩ := waiting_eq_cons hwaiting.symm
      have hnext : missed + 1 < ceiling := by
        rw [hceiling]
        exact Nat.lt_of_lt_of_le hbelow (Nat.le_max_right 1 _)
      refine ⟨by rw [verdict, if_pos hnext], ?_⟩
      have hplaced := entriesOf_placed_of_hasId queue.config.policy hforemost.absent_before
        hforemost.hasId
      rw [waiting, if_pos hnext]
      rw [hplaced, hbehind]
      rfl
  | drop hforemost hreached =>
      rw [hforemost.entriesOf_eq] at hwaiting
      obtain ⟨hmissed, rfl, hbehind⟩ := waiting_eq_cons hwaiting.symm
      have hlast : missed + 1 = ceiling := by
        simp only at hreached
        omega
      have hstop : ¬ missed + 1 < ceiling := by omega
      refine ⟨by rw [verdict, if_neg hstop, if_pos hlast, ← hlast]; rfl, ?_⟩
      rw [waiting, if_neg hstop, entriesOf_append, hbehind,
        entriesOf_eq_nil_iff.mpr hforemost.absent_before]
      rfl
  | requeueNothing habsent =>
      rw [entriesOf_eq_nil_iff.mpr habsent] at hwaiting
      have hgone := waiting_eq_nil hwaiting.symm
      refine ⟨by rw [verdict, if_neg (by omega), if_neg (by omega)], ?_⟩
      rw [waiting, if_neg (by omega), entriesOf_eq_nil_iff]
      exact habsent

end

/-! ## A whole life -/

/-- The entries of an id after a run that spares it depend on nothing but the number of misses. -/
theorem Delivery.entriesOf_after {envelope : Envelope} {ceiling missed : Nat} (queue : Delivery)
    (calls : List Call) (hceiling : ceiling = max 1 queue.config.maxRetries)
    (hwaiting : entriesOf id queue.entries = waiting ceiling missed envelope)
    (hspares : ∀ served ∈ queue.history calls, served.Spares id) :
    entriesOf id (queue.after calls).entries =
      waiting ceiling (missed + calls.countP (Call.isRequeueOf id)) envelope := by
  -- on the calls; the entries of the id carry it, and every miss of the id counts one up
  induction calls generalizing queue missed with
  | nil => exact hwaiting
  | cons call calls ih =>
      have heffect := serve_effect queue call
      have hfirst := hspares _ List.mem_cons_self
      have hlater : ∀ served ∈ (queue.serve call).2.history calls, served.Spares id :=
        fun served hserved => hspares served (List.mem_cons_of_mem _ hserved)
      have hconfig : ceiling = max 1 (queue.serve call).2.config.maxRetries := by
        rw [heffect.config_eq, hceiling]
      rw [after, List.countP_cons]
      cases hcall : call.isRequeueOf id with
      | false =>
          rw [ih _ hconfig (by rw [heffect.entriesOf_eq hfirst hcall, hwaiting]) hlater]
          rfl
      | true =>
          have hrequeue : call = .requeue id := by
            cases call with
            | requeue name => rw [beq_iff_eq.mp hcall]
            | _ => cases hcall
          rw [hrequeue] at heffect hlater ⊢
          have hnext := (heffect.requeue_waiting hceiling hwaiting).2
          rw [ih _ (hrequeue ▸ hconfig) hnext hlater]
          congr 1
          simp only [if_true]
          omega

/-- The retries that are told of an id are those of its first entry. -/
theorem Delivery.retries?_eq (queue : Delivery) (id : String) :
    queue.retries? id = (entriesOf id queue.entries).head?.map Entry.retries := by
  rcases absent_or_foremost id queue.entries with habsent | ⟨before, entry, behind, hforemost⟩
  · rw [retries?_of_absent habsent, entriesOf_eq_nil_iff.mpr habsent]
    rfl
  · rw [retries?_of_foremost hforemost, hforemost.entriesOf_eq]
    rfl

/-- **An envelope is given up at the ceiling, once.**  An envelope is accepted while no entry has
its id, and then come calls of any kind that bring in no other envelope of the id and take none out,
except as missed acknowledgments do.  After so many misses the envelope waits with that many
retries, and one miss more is put up with, below the ceiling; the miss at the ceiling gives the
envelope up; and from then on nothing is found. -/
theorem retry_life_cycle {queue : Delivery} {envelope : Envelope}
    (habsent : Absent envelope.correlationId queue.entries)
    (haccepted : (queue.enqueue envelope).1 = .ok ()) {calls : List Call}
    (hspares : ∀ served ∈ (queue.enqueue envelope).2.history calls,
      served.Spares envelope.correlationId) :
    let id := envelope.correlationId
    let ceiling := max 1 queue.config.maxRetries
    let missed := calls.countP (Call.isRequeueOf id)
    let now := (queue.enqueue envelope).2.after calls
    now.retries? id = (if missed < ceiling then some missed else none) ∧
      (now.requeue id).1 =
        if missed + 1 < ceiling then .retained (missed + 1)
        else if missed + 1 = ceiling then .dropped ⟨envelope, ceiling⟩
        else .notFound := by
  intro id ceiling missed now
  have hnew : (Entry.mk envelope 0).hasId id = true := beq_self_eq_true id
  have hstart : entriesOf id (queue.enqueue envelope).2.entries = waiting ceiling 0 envelope := by
    unfold Delivery.enqueue at haccepted ⊢
    split at haccepted
    next => cases haccepted
    next hroom =>
      rw [if_neg hroom, entriesOf_append, entriesOf_eq_nil_iff.mpr habsent,
        entriesOf_cons_of_hasId hnew, waiting, if_pos (Nat.lt_of_lt_of_le Nat.zero_lt_one
          (Nat.le_max_left 1 _))]
      rfl
  have hconfig : (queue.enqueue envelope).2.config = queue.config :=
    (serve_effect queue (.enqueue envelope)).config_eq
  have hwaiting : entriesOf id now.entries = waiting ceiling missed envelope := by
    have hafter := Delivery.entriesOf_after (queue.enqueue envelope).2 calls
      (by rw [hconfig]) hstart hspares
    rwa [Nat.zero_add] at hafter
  have hnow : ceiling = max 1 now.config.maxRetries := by
    rw [Delivery.config_after, hconfig]
  refine ⟨?_, ?_⟩
  · rw [Delivery.retries?_eq, hwaiting, waiting]
    split <;> rfl
  · have hanswer := ((serve_effect now (.requeue id)).requeue_waiting hnow hwaiting).1
    exact Answer.requeue.inj hanswer

/-- An older envelope is sent, a younger one moves to the front and is acknowledged, and in between
the envelope is missed twice; the third miss gives it up. -/
theorem retry_life_cycle_overtaken :
    let queue : Delivery :=
      { config := { policy := .moveToFront }, entries := [⟨⟨"1", "z", 0, .heartbeat⟩, 2⟩] }
    let calls : List Call := [.dequeue, .enqueue ⟨"1", "b", 2, .heartbeat⟩, .requeue "a",
      .requeue "b", .requeue "a", .acknowledge "b"]
    let start := (queue.enqueue ⟨"1", "a", 1, .heartbeat⟩).2
    Absent "a" queue.entries ∧ (queue.enqueue ⟨"1", "a", 1, .heartbeat⟩).1 = .ok () ∧
      (∀ served ∈ start.history calls, served.Spares "a") ∧
      (start.after calls).retries? "a" = some 2 ∧
      ((start.after calls).requeue "a").1 = .dropped ⟨⟨"1", "a", 1, .heartbeat⟩, 3⟩ := by
  intro queue calls start
  have habsent : Absent "a" queue.entries := by
    intro entry hentry
    rw [List.mem_singleton.mp hentry]
    rfl
  have hspares : ∀ served ∈ start.history calls, served.Spares "a" := by
    have hdequeue : ∀ head ∈ start.peek, head.hasId "a" = false := by
      intro head hhead
      cases hhead
      rfl
    have hother : "b" ≠ "a" := by decide
    iterate 6 rw [Delivery.history, List.forall_mem_cons]
    exact ⟨hdequeue, fun heq => absurd heq hother, trivial, trivial, trivial, hother,
      List.forall_mem_nil _⟩
  have hlife := retry_life_cycle habsent rfl hspares
  exact ⟨habsent, rfl, hspares, hlife⟩

end HubLink.Queue
