import HubLink.Proofs.Queue.Effect

/-!
# What an operation by id touches

An acknowledgment and a missed one name an envelope by its correlation id, and replies repeat the id
of their request, so several entries may answer to it.  One of them is meant, the one nearest the
head, and the others must not notice: they keep what they hold, and the order in which they stand.

`touches_foremost_only` says so of every queue, by the entries before the one that is meant and those
behind it: whatever becomes of it, these two stay one behind the other as they were.  The same is
said once more by functions on whole queues, without an entry in sight (`others`, `countedOn`), and
`Effect.entries_eq` says which of them a call comes to.  In that form two calls can be exchanged.
-/

namespace HubLink.Queue

open Message (Envelope)

/-- The entries but for the foremost of an id, in their order. -/
def others (id : String) (entries : List Entry) : List Entry :=
  entries.eraseP (Entry.hasId id)

/-- The entries after the foremost of an id was put up with once more, at its place. -/
def countedOn (id : String) : List Entry → List Entry
  | [] => []
  | entry :: rest =>
    if entry.hasId id then entry.missed :: rest else entry :: countedOn id rest

/-- The foremost entry of an id. -/
def foremost? (id : String) (entries : List Entry) : Option Entry :=
  entries.find? (Entry.hasId id)

variable {id : String} {entries before behind : List Entry} {entry : Entry}

/-! ## An id that is absent -/

theorem Absent.foremost?_eq (habsent : Absent id entries) : foremost? id entries = none := by
  unfold foremost?
  rw [List.find?_eq_none]
  intro entry hentry
  simp [habsent entry hentry]

theorem Absent.countedOn_append (habsent : Absent id before) (behind : List Entry) :
    countedOn id (before ++ behind) = before ++ countedOn id behind := by
  induction before with
  | nil => rfl
  | cons head rest ih =>
      obtain ⟨hhead, hrest⟩ := absent_cons_iff.mp habsent
      simp [countedOn, hhead, ih hrest]

/-! ## An id with a foremost entry -/

theorem Foremost.foremost?_eq (hforemost : Foremost id entries before entry behind) :
    foremost? id entries = some entry := by
  obtain ⟨rfl, hid, hbefore⟩ := hforemost
  have hnone : before.find? (Entry.hasId id) = none := hbefore.foremost?_eq
  simp [foremost?, hnone, hid]

theorem Foremost.others_eq (hforemost : Foremost id entries before entry behind) :
    others id entries = before ++ behind := by
  obtain ⟨rfl, hid, hbefore⟩ := hforemost
  have hskipped : ∀ other ∈ before, ¬ other.hasId id = true := by
    intro other hother
    simp [hbefore other hother]
  rw [others, List.eraseP_append_right _ hskipped, List.eraseP_cons_of_pos hid]

theorem Foremost.countedOn_eq (hforemost : Foremost id entries before entry behind) :
    countedOn id entries = before ++ entry.missed :: behind := by
  obtain ⟨rfl, hid, hbefore⟩ := hforemost
  rw [hbefore.countedOn_append]
  simp [countedOn, hid]

/-! ## What a call comes to -/

/-- The entries after the foremost of an id was put up with once more, where a policy wants it. -/
def Policy.kept (policy : Policy) (id : String) (entries : List Entry) : List Entry :=
  match policy with
  | .keepPosition => countedOn id entries
  | .moveToFront => ((foremost? id entries).map Entry.missed).toList ++ others id entries

/-- The entries after a call by id was answered, given the entries before. -/
def Policy.settled (policy : Policy) (id : String) (answer : Answer) (entries : List Entry) :
    List Entry :=
  match answer with
  | .requeue (.retained _) => policy.kept id entries
  | .requeue (.dropped _) | .acknowledge (some _) => others id entries
  | _ => entries

theorem Policy.kept_of_foremost (hforemost : Foremost id entries before entry behind)
    (policy : Policy) : policy.kept id entries = policy.placed before entry.missed behind := by
  cases policy with
  | keepPosition => exact hforemost.countedOn_eq
  | moveToFront => simp [kept, placed, hforemost.foremost?_eq, hforemost.others_eq]

/-- A call that names an envelope by its id: its acknowledgment came, or stayed out. -/
inductive Call.Names (id : String) : Call → Prop where
  | missed : Names id (.requeue id)
  | acknowledged : Names id (.acknowledge id)

/-- What a call by id leaves behind can be told from its answer. -/
theorem Effect.entries_eq {queue next : Delivery} {call : Call} {answer : Answer}
    (heffect : Effect queue call answer next) (hnames : call.Names id) :
    next.entries = queue.config.policy.settled id answer queue.entries := by
  cases hnames with
  | missed =>
      cases heffect with
      | retain hforemost => exact (Policy.kept_of_foremost hforemost _).symm
      | drop hforemost => exact hforemost.others_eq.symm
      | requeueNothing => rfl
  | acknowledged =>
      cases heffect with
      | acknowledge hforemost => exact hforemost.others_eq.symm
      | acknowledgeNothing => rfl

/-! ## One entry or nothing -/

/-- An envelope that does not fit is handed back, and nothing but the count of refusals changes. -/
theorem Delivery.enqueue_of_full {queue : Delivery}
    (hfull : queue.config.capacity ≤ queue.size) (envelope : Envelope) :
    queue.enqueue envelope =
      (.error ⟨envelope, queue.config.capacity⟩,
        { queue with
          counters := { queue.counters with rejected := queue.counters.rejected + 1 } }) := by
  rw [enqueue, if_pos hfull]

/-- **An operation by id touches one entry or nothing.**  If no entry has the id, neither operation
finds anything, and the queue is as it was, its counters included.  Otherwise there is a foremost
entry of the id.  Its acknowledgment takes it out; a missed one takes it out at the ceiling, with the
miss counted; and below the ceiling it waits on with the miss counted, at its place or at the head.
The entries before it and those behind it are the same as before and in the same order, whatever ids
they have, and one counter has gone up by one.  An envelope that meets a full queue is handed back as
it was offered, and nothing but the count of refusals changes. -/
theorem touches_foremost_only (queue : Delivery) (id : String) :
    (Absent id queue.entries →
      queue.requeue id = (.notFound, queue) ∧ queue.acknowledge id = (none, queue)) ∧
    (¬ Absent id queue.entries → ∃ before entry behind,
      Foremost id queue.entries before entry behind ∧
      queue.acknowledge id =
        (some entry.envelope,
          { queue with
            entries := before ++ behind
            counters :=
              { queue.counters with acknowledged := queue.counters.acknowledged + 1 } }) ∧
      (queue.config.maxRetries ≤ entry.retries + 1 →
        queue.requeue id =
          (.dropped ⟨entry.envelope, entry.retries + 1⟩,
            { queue with
              entries := before ++ behind
              counters := { queue.counters with dropped := queue.counters.dropped + 1 } })) ∧
      (entry.retries + 1 < queue.config.maxRetries →
        queue.requeue id =
          (.retained (entry.retries + 1),
            { queue with
              entries :=
                match queue.config.policy with
                | .keepPosition => before ++ ⟨entry.envelope, entry.retries + 1⟩ :: behind
                | .moveToFront => ⟨entry.envelope, entry.retries + 1⟩ :: (before ++ behind)
              counters := { queue.counters with retried := queue.counters.retried + 1 } }))) ∧
    ∀ envelope, queue.config.capacity ≤ queue.size →
      queue.enqueue envelope =
        (.error ⟨envelope, queue.config.capacity⟩,
          { queue with
            counters := { queue.counters with rejected := queue.counters.rejected + 1 } }) := by
  refine ⟨?_, ?_, fun envelope hfull => Delivery.enqueue_of_full hfull envelope⟩
  · intro habsent
    exact ⟨Delivery.requeue_of_absent habsent, Delivery.acknowledge_of_absent habsent⟩
  · intro hthere
    obtain ⟨before, entry, behind, hforemost⟩ :=
      (absent_or_foremost id queue.entries).resolve_left hthere
    have hrequeue := Delivery.requeue_of_foremost hforemost
    refine ⟨before, entry, behind, hforemost, Delivery.acknowledge_of_foremost hforemost, ?_, ?_⟩
    · intro hceiling
      rw [hrequeue, if_pos hceiling]
      rfl
    · intro hbelow
      rw [hrequeue, if_neg (Nat.not_le_of_lt hbelow)]
      cases hpolicy : queue.config.policy <;> rfl

/-- Two envelopes share an id in a full queue that moves envelopes to the front.  The one nearer the
head is put up with and leads; an id that nobody has changes nothing; and a further envelope comes
back. -/
theorem touches_foremost_only_of_twins :
    let queue : Delivery :=
      { config := { capacity := 3, policy := .moveToFront }
        entries := [⟨⟨"1", "b", 0, .heartbeat⟩, 2⟩, ⟨⟨"1", "a", 1, .heartbeat⟩, 0⟩,
          ⟨⟨"1", "a", 2, .heartbeat⟩, 1⟩] }
    let further : Envelope := ⟨"1", "a", 3, .heartbeat⟩
    Absent "z" queue.entries ∧ queue.requeue "z" = (.notFound, queue) ∧
      ¬ Absent "a" queue.entries ∧
      (∃ before entry behind, Foremost "a" queue.entries before entry behind ∧
        entry.retries + 1 < 3 ∧
        (queue.requeue "a").2.entries = entry.missed :: (before ++ behind)) ∧
      (queue.requeue "a").2.entries = [⟨⟨"1", "a", 1, .heartbeat⟩, 1⟩,
        ⟨⟨"1", "b", 0, .heartbeat⟩, 2⟩, ⟨⟨"1", "a", 2, .heartbeat⟩, 1⟩] ∧
      3 ≤ queue.size ∧ (queue.enqueue further).1 = .error ⟨further, 3⟩ ∧
      (queue.enqueue further).2.entries = queue.entries := by
  intro queue further
  have habsent : Absent "z" queue.entries := by
    intro entry hentry
    simp only [queue, List.mem_cons, List.not_mem_nil, or_false] at hentry
    rcases hentry with rfl | rfl | rfl <;> rfl
  have hthere : ¬ Absent "a" queue.entries := by
    intro hnone
    have htwin := hnone ⟨⟨"1", "a", 1, .heartbeat⟩, 0⟩ (by simp [queue])
    cases htwin
  obtain ⟨hnothing, -, hrefused⟩ := touches_foremost_only queue "z"
  obtain ⟨before, entry, behind, hforemost, -, -, hretained⟩ :=
    (touches_foremost_only queue "a").2.1 hthere
  have hbelow : entry.retries + 1 < 3 := by
    have hid := hforemost.hasId
    have hentry := hforemost.mem
    simp only [queue, List.mem_cons, List.not_mem_nil, or_false] at hentry
    rcases hentry with rfl | rfl | rfl
    · cases hid
    · decide
    · decide
  have hfull := hrefused further (Nat.le_refl 3)
  refine ⟨habsent, (hnothing habsent).1, hthere, ⟨before, entry, behind, hforemost, hbelow, ?_⟩,
    rfl, Nat.le_refl 3, ?_, ?_⟩
  · rw [hretained hbelow]
    rfl
  · rw [hfull]
  · rw [hfull]

end HubLink.Queue
