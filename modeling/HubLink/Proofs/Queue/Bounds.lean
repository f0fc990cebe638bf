import HubLink.Proofs.Queue.Effect

/-!
# The bounds of a queue

Two numbers of the settings bound a queue: the capacity bounds how many envelopes wait, and the
ceiling bounds how often one of them is put up with.  Both hold in every state that a queue can get
into (`Bounded`), and both are met exactly: an envelope is refused when the queue is at its capacity
and at no other time, and one that is given up has been missed as often as the ceiling says
(`bounds_met_exactly`).  Nothing is asked of the two numbers.  A capacity of zero refuses every
envelope, a ceiling of zero means the same as a ceiling of one, and under the largest ceiling that a
32-bit word holds the count of the misses still fits such a word.
-/

namespace HubLink.Queue

open Message (Envelope)

/-- No more envelopes wait than there is room for, and none of them has reached the ceiling. -/
structure Bounded (queue : Delivery) : Prop where
  size_le : queue.size ≤ queue.config.capacity
  retries_lt : ∀ entry ∈ queue.entries, entry.retries < max 1 queue.config.maxRetries

variable {queue next : Delivery} {call : Call} {answer : Answer} {entry : Entry}

/-! ## One call -/

theorem Bounded.of_sublist (hbounded : Bounded queue) {kept : List Entry} {counters : Counters}
    (hkept : kept.Sublist queue.entries) :
    Bounded { queue with entries := kept, counters := counters } where
  size_le := Nat.le_trans hkept.length_le hbounded.size_le
  retries_lt entry hentry := hbounded.retries_lt entry (hkept.subset hentry)

/-- No call takes a queue out of its bounds. -/
theorem Effect.bounded (heffect : Effect queue call answer next) (hbounded : Bounded queue) :
    Bounded next := by
  cases heffect with
  | refuse => exact hbounded.of_sublist (List.Sublist.refl _)
  | accept envelope hroom =>
      constructor
      · have hlength : (queue.entries ++ [Entry.mk envelope 0]).length = queue.size + 1 :=
          List.length_append
        exact Nat.le_trans (Nat.le_of_eq hlength) hroom
      · intro entry hentry
        rcases List.mem_append.mp hentry with hold | hnew
        · exact hbounded.retries_lt entry hold
        · rw [List.mem_singleton.mp hnew]
          exact Nat.lt_of_lt_of_le Nat.zero_lt_one (Nat.le_max_left 1 _)
  | dequeue hentries =>
      apply hbounded.of_sublist
      rw [hentries]
      exact List.sublist_cons_self _ _
  | @retain id before behind old hforemost hbelow =>
      have hperm := queue.config.policy.placed_perm before old.missed behind
      constructor
      · have hsize := hbounded.size_le
        rw [Delivery.size, hforemost.entries_eq] at hsize
        exact Nat.le_trans (Nat.le_of_eq (hperm.length_eq.trans (by simp))) hsize
      · intro entry hentry
        -- the entry that was put up with has a new count, all others have the old one
        rcases List.mem_cons.mp (List.perm_middle.mem_iff.mp (hperm.mem_iff.mp hentry)) with
          rfl | hother
        · exact Nat.lt_of_lt_of_le hbelow (Nat.le_max_right 1 _)
        · exact hbounded.retries_lt entry (hforemost.sublist_without.subset hother)
  | drop hforemost => exact hbounded.of_sublist hforemost.sublist_without
  | acknowledge hforemost => exact hbounded.of_sublist hforemost.sublist_without
  | clear => exact hbounded.of_sublist (List.nil_sublist _)
  | _ => exact hbounded

/-- An envelope that is given up has reached the ceiling, and is not past it. -/
theorem Effect.retries_of_dropped (hbounded : Bounded queue)
    (heffect : Effect queue call (.requeue (.dropped entry)) next) :
    entry.retries = max 1 queue.config.maxRetries := by
  cases heffect with
  | @drop id before behind old hforemost hceiling =>
      have hbelow := hbounded.retries_lt old hforemost.mem
      simp only [Entry.missed]
      omega

theorem Bounded.enqueue_eq (hbounded : Bounded queue) (envelope : Envelope) :
    (queue.enqueue envelope).1 =
      if queue.size = queue.config.capacity then .error ⟨envelope, queue.config.capacity⟩
      else .ok () := by
  have hle := hbounded.size_le
  unfold Delivery.enqueue
  by_cases hfull : queue.size = queue.config.capacity
  · rw [if_pos (Nat.le_of_eq hfull.symm), if_pos hfull]
  · have hroom : ¬ queue.config.capacity ≤ queue.size := by omega
    rw [if_neg hroom, if_neg hfull]

/-- Counting one more miss in a 32-bit word is exact. -/
theorem Bounded.toNat_missed (hbounded : Bounded queue)
    (hword : queue.config.maxRetries < UInt32.size) (hentry : entry ∈ queue.entries) :
    (UInt32.ofNat entry.retries + 1).toNat = entry.missed.retries := by
  have hbelow := hbounded.retries_lt entry hentry
  have hnext : entry.retries + 1 < UInt32.size := by
    rw [UInt32.size] at hword ⊢
    omega
  have hnow := UInt32.toNat_ofNat_of_lt' (Nat.lt_of_succ_lt hnext)
  rw [UInt32.toNat_add, hnow]
  exact Nat.mod_eq_of_lt hnext

/-! ## Whole histories -/

theorem Bounded.after (hbounded : Bounded queue) (calls : List Call) :
    Bounded (queue.after calls) := by
  induction calls generalizing queue with
  | nil => exact hbounded
  | cons call calls ih => exact ih ((serve_effect queue call).bounded hbounded)

theorem bounded_of_empty (config : Config) (calls : List Call) :
    Bounded (Delivery.after { config := config } calls) :=
  Bounded.after ⟨Nat.zero_le _, List.forall_mem_nil _⟩ calls

/-- **A queue stays within its bounds and meets them exactly.**  After any calls on a queue that
started empty, no more envelopes wait than the capacity; an envelope is refused exactly when as many
wait; every envelope that waits was missed less often than the ceiling, so that one miss more can be
counted in a word of 32 bits; and an envelope that is given up was missed as often as the ceiling
says.  A ceiling of zero counts as one. -/
theorem bounds_met_exactly (config : Config) (calls : List Call) :
    let queue := Delivery.after { config := config } calls
    queue.size ≤ config.capacity ∧
      (∀ envelope, (queue.enqueue envelope).1 =
        if queue.size = config.capacity then .error ⟨envelope, config.capacity⟩ else .ok ()) ∧
      (∀ entry ∈ queue.entries, entry.retries < max 1 config.maxRetries) ∧
      (config.maxRetries < UInt32.size → ∀ entry ∈ queue.entries,
        (UInt32.ofNat entry.retries + 1).toNat = entry.missed.retries) ∧
      ∀ id entry, (queue.requeue id).1 = .dropped entry →
        entry.retries = max 1 config.maxRetries := by
  intro queue
  have hbounded : Bounded queue := bounded_of_empty config calls
  have hconfig : queue.config = config := Delivery.config_after _ calls
  rw [← hconfig]
  refine ⟨hbounded.size_le, hbounded.enqueue_eq, hbounded.retries_lt, ?_, ?_⟩
  · exact fun hword entry hentry => hbounded.toNat_missed hword hentry
  · intro id entry hdropped
    have heffect := serve_effect queue (.requeue id)
    have hanswer : (queue.serve (.requeue id)).1 = .requeue (.dropped entry) :=
      congrArg Answer.requeue hdropped
    rw [hanswer] at heffect
    exact heffect.retries_of_dropped hbounded

/-- With room for one envelope and a ceiling of zero, the second envelope is refused and the first
one given up at its first miss.  With the largest ceiling of 32 bits one more miss is counted. -/
theorem bounds_met_exactly_at_extremes :
    let one : Envelope := ⟨"1", "a", 0, .heartbeat⟩
    let small := Delivery.after { config := { capacity := 1, maxRetries := 0 } } [.enqueue one]
    let patient := Delivery.after { config := { maxRetries := 4294967295 } }
      [.enqueue one, .requeue "a"]
    (small.enqueue one).1 = .error ⟨one, 1⟩ ∧ (small.requeue "a").1 = .dropped ⟨one, 1⟩ ∧
      1 = max 1 0 ∧ patient.entries = [⟨one, 1⟩] ∧ (UInt32.ofNat 1 + 1).toNat = 2 := by
  intro one small patient
  have hsmall := bounds_met_exactly { capacity := 1, maxRetries := 0 } [.enqueue one]
  have hpatient := bounds_met_exactly { maxRetries := 4294967295 } [.enqueue one, .requeue "a"]
  have hdropped : (small.requeue "a").1 = .dropped ⟨one, 1⟩ := rfl
  refine ⟨hsmall.2.1 one, hdropped, hsmall.2.2.2.2 "a" _ hdropped, rfl, ?_⟩
  exact hpatient.2.2.2.1 (by decide) ⟨one, 1⟩ List.mem_cons_self

end HubLink.Queue
