import HubLink.Queue.Delivery
import Mathlib.Data.List.Basic

/-!
# The foremost entry of an id

Correlation ids may repeat in a queue, and every operation by id means the entry nearest the head.
The operations find it by its place and take it out by its place; here each of them is described by
the entries before it, the entry, and the entries behind it.  An id is either absent
(`requeue_of_absent`, `acknowledge_of_absent`), or it has a foremost entry (`requeue_of_foremost`,
`acknowledge_of_foremost`), and nothing else of the queue matters.
-/

namespace HubLink.Queue

/-- No entry has the id. -/
def Absent (id : String) (entries : List Entry) : Prop :=
  ∀ entry ∈ entries, entry.hasId id = false

/-- The entry is the first one of the id, with these entries before and behind it. -/
structure Foremost (id : String) (entries before : List Entry) (entry : Entry)
    (behind : List Entry) : Prop where
  entries_eq : entries = before ++ entry :: behind
  hasId : entry.hasId id = true
  absent_before : Absent id before

variable {id : String} {entries before behind : List Entry} {entry : Entry}

/-- An entry has one id only. -/
theorem Entry.hasId_eq_false {other : String} (hid : entry.hasId id = true) (hne : id ≠ other) :
    entry.hasId other = false := by
  unfold hasId at hid ⊢
  rw [beq_iff_eq] at hid
  rw [hid, beq_eq_false_iff_ne]
  exact hne

theorem absent_cons_iff {rest : List Entry} :
    Absent id (entry :: rest) ↔ entry.hasId id = false ∧ Absent id rest := by
  unfold Absent
  exact List.forall_mem_cons

/-- An id is absent, or it has a foremost entry. -/
theorem absent_or_foremost (id : String) (entries : List Entry) :
    Absent id entries ∨ ∃ before entry behind, Foremost id entries before entry behind := by
  induction entries with
  | nil =>
      left
      intro entry hentry
      cases hentry
  | cons head rest ih =>
      by_cases hhead : head.hasId id = true
      · right
        exact ⟨[], head, rest, rfl, hhead, fun _ hnone => by cases hnone⟩
      · have hhead : head.hasId id = false := Bool.eq_false_iff.mpr hhead
        rcases ih with habsent | ⟨before, entry, behind, hforemost⟩
        · left
          exact absent_cons_iff.mpr ⟨hhead, habsent⟩
        · right
          refine ⟨head :: before, entry, behind, ?_, hforemost.hasId, ?_⟩
          · rw [hforemost.entries_eq, List.cons_append]
          · exact absent_cons_iff.mpr ⟨hhead, hforemost.absent_before⟩

theorem Foremost.mem (hforemost : Foremost id entries before entry behind) : entry ∈ entries := by
  rw [hforemost.entries_eq]
  exact List.mem_append_right before List.mem_cons_self

/-- The entries but for the foremost of an id, in their order. -/
theorem Foremost.sublist_without (hforemost : Foremost id entries before entry behind) :
    (before ++ behind).Sublist entries := by
  rw [hforemost.entries_eq]
  exact (List.sublist_cons_self entry behind).append_left before

/-! ## Places -/

theorem place?_of_absent (habsent : Absent id entries) : place? id entries = none := by
  unfold place?
  rw [List.findFinIdx?_eq_none_iff]
  intro entry hentry
  rw [habsent entry hentry]
  exact Bool.false_ne_true

theorem place?_of_foremost (hforemost : Foremost id entries before entry behind) :
    ∃ hplace : before.length < entries.length,
      place? id entries = some ⟨before.length, hplace⟩ ∧ entries[before.length] = entry := by
  obtain ⟨rfl, hid, hbefore⟩ := hforemost
  have hplace : before.length < (before ++ entry :: behind).length := by
    rw [List.length_append, List.length_cons]
    omega
  have hentry : (before ++ entry :: behind)[before.length] = entry := by simp
  refine ⟨hplace, ?_, hentry⟩
  unfold place?
  rw [List.findFinIdx?_eq_some_iff]
  refine ⟨?_, fun earlier hearlier => ?_⟩
  · rw [Fin.getElem_fin, hentry]
    exact hid
  · have hinside : earlier.val < before.length := hearlier
    rw [Fin.getElem_fin, List.getElem_append_left hinside, hbefore _ (List.getElem_mem hinside)]
    exact Bool.false_ne_true

theorem takeOut_split (before : List Entry) (entry : Entry) (behind : List Entry) :
    takeOut before.length (before ++ entry :: behind) = some (entry, before ++ behind) := by
  simp [takeOut, List.eraseIdx_append_of_length_le]

theorem set_split (before : List Entry) (entry other : Entry) (behind : List Entry) :
    (before ++ entry :: behind).set before.length other = before ++ other :: behind := by
  simp

/-! ## Operations by id -/

/-- Where a policy puts an entry that is put up with once more. -/
def Policy.placed (before : List Entry) (entry : Entry) (behind : List Entry) :
    Policy → List Entry
  | .keepPosition => before ++ entry :: behind
  | .moveToFront => entry :: (before ++ behind)

/-- An entry that is put up with once more is still there, wherever it is put. -/
theorem Policy.placed_perm (policy : Policy) (before : List Entry) (entry : Entry)
    (behind : List Entry) :
    (policy.placed before entry behind).Perm (before ++ entry :: behind) := by
  cases policy with
  | keepPosition => exact List.Perm.refl _
  | moveToFront => exact List.perm_middle.symm

theorem Policy.arrange_split (policy : Policy) (before : List Entry) (entry : Entry)
    (behind : List Entry) :
    policy.arrange before.length (before ++ entry :: behind) =
      policy.placed before entry behind := by
  unfold Policy.arrange
  rw [takeOut_split]
  cases policy with
  | keepPosition => rfl
  | moveToFront =>
      -- an entry at the head stays there, and there is nothing to move
      cases before with
      | nil => rfl
      | cons head rest => simp [Policy.placed]

namespace Delivery

variable {queue : Delivery}

theorem requeue_of_absent (habsent : Absent id queue.entries) :
    queue.requeue id = (.notFound, queue) := by
  unfold requeue
  rw [place?_of_absent habsent]

/-- A missed acknowledgment of the foremost entry of an id. -/
theorem requeue_of_foremost (hforemost : Foremost id queue.entries before entry behind) :
    queue.requeue id =
      if queue.config.maxRetries ≤ entry.retries + 1 then
        (.dropped entry.missed,
          { queue with
            entries := before ++ behind
            counters := { queue.counters with dropped := queue.counters.dropped + 1 } })
      else
        (.retained (entry.retries + 1),
          { queue with
            entries := queue.config.policy.placed before entry.missed behind
            counters := { queue.counters with retried := queue.counters.retried + 1 } }) := by
  obtain ⟨hplace, hfound, hentry⟩ := place?_of_foremost hforemost
  unfold requeue
  simp only [hfound, Fin.getElem_fin, hentry]
  rw [hforemost.entries_eq, set_split, takeOut_split, Policy.arrange_split]
  rfl

theorem acknowledge_of_absent (habsent : Absent id queue.entries) :
    queue.acknowledge id = (none, queue) := by
  unfold acknowledge
  rw [place?_of_absent habsent]

/-- An acknowledgment of the foremost entry of an id. -/
theorem acknowledge_of_foremost (hforemost : Foremost id queue.entries before entry behind) :
    queue.acknowledge id =
      (some entry.envelope,
        { queue with
          entries := before ++ behind
          counters :=
            { queue.counters with acknowledged := queue.counters.acknowledged + 1 } }) := by
  obtain ⟨hplace, hfound, hentry⟩ := place?_of_foremost hforemost
  unfold acknowledge
  simp only [hfound, hforemost.entries_eq, takeOut_split]

theorem retries?_of_absent (habsent : Absent id queue.entries) : queue.retries? id = none := by
  unfold retries?
  rw [place?_of_absent habsent, Option.map_none]

theorem retries?_of_foremost (hforemost : Foremost id queue.entries before entry behind) :
    queue.retries? id = some entry.retries := by
  obtain ⟨hplace, hfound, hentry⟩ := place?_of_foremost hforemost
  unfold retries?
  rw [hfound, Option.map_some, Fin.getElem_fin, hentry]

/-- An id that is reported as not found is absent, and nothing has changed. -/
theorem requeue_notFound {next : Delivery} (hrequeue : queue.requeue id = (.notFound, next)) :
    next = queue := by
  rcases absent_or_foremost id queue.entries with habsent | ⟨before, entry, behind, hforemost⟩
  · rw [requeue_of_absent habsent, Prod.mk.injEq] at hrequeue
    exact hrequeue.2.symm
  · rw [requeue_of_foremost hforemost] at hrequeue
    split at hrequeue <;> cases hrequeue

end Delivery

end HubLink.Queue
