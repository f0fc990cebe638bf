import HubLink.Queue.Shared

/-!
# Histories of a queue

What is said of a queue is said of its histories: the calls that it has served, each with the queue
as the call found it and with the answer.  A queue may be called directly, or by several senders
through handles to it.  `session_eq_history` says that this makes no difference: whoever clones
which handle and calls when, the calls are served as if one sender had made them one after the
other.
-/

namespace HubLink.Queue

/-- A call that was served. -/
structure Served where
  /-- The queue as the call found it. -/
  found : Delivery
  call : Call
  answer : Answer

namespace Delivery

/-- A call as the queue serves it. -/
def served (queue : Delivery) (call : Call) : Served :=
  ⟨queue, call, (queue.serve call).1⟩

/-- The queue after some calls. -/
def after (queue : Delivery) : List Call → Delivery
  | [] => queue
  | call :: calls => (queue.serve call).2.after calls

/-- Some calls as they are served one after the other. -/
def history (queue : Delivery) : List Call → List Served
  | [] => []
  | call :: calls => queue.served call :: (queue.serve call).2.history calls

theorem history_append (queue : Delivery) (calls later : List Call) :
    queue.history (calls ++ later) = queue.history calls ++ (queue.after calls).history later := by
  induction calls generalizing queue with
  | nil => rfl
  | cons call calls ih => rw [List.cons_append, history, ih, history, after, List.cons_append]

end Delivery

/-! ## Sessions of several senders -/

/-- What happens in a session of senders that share queues. -/
inductive Turn where
  /-- A handle is cloned. -/
  | clone (source : Nat)
  /-- A call is made through a handle. -/
  | call (handle : Nat) (call : Call)

namespace Shared

/-- A session that starts with some handles: the calls as they are served, and the shared queues
afterwards.  A clone is a further handle; a turn of a handle that there is not is skipped. -/
def session (shared : Shared) (handles : List Handle) : List Turn → List Served × Shared
  | [] => ([], shared)
  | .clone source :: turns =>
    session shared (handles ++ handles[source]?.toList.map Handle.clone) turns
  | .call number call :: turns =>
    match handles[number]? with
    | none => session shared handles turns
    | some handle =>
      let (answer, next) := shared.serve handle call
      let (later, last) := session next handles turns
      (⟨shared.behind handle.lock, call, answer⟩ :: later, last)

/-- **Sharing makes no difference.**  Calls through clones of one handle are served as if they had
been made directly, one after the other. -/
theorem session_eq_history {lock : Nat} (turns : List Turn) (shared : Shared)
    (handles : List Handle) (hclones : ∀ handle ∈ handles, handle.lock = lock) :
    ∃ calls, (shared.session handles turns).1 = (shared.behind lock).history calls ∧
      (shared.session handles turns).2.behind lock = (shared.behind lock).after calls := by
  -- on the turns; what carries it is that all handles there are belong to one lock
  induction turns generalizing shared handles with
  | nil => exact ⟨[], rfl, rfl⟩
  | cons turn turns ih =>
      cases turn with
      | clone source =>
          apply ih
          intro handle hhandle
          rcases List.mem_append.mp hhandle with hold | hnew
          · exact hclones handle hold
          · obtain ⟨original, horiginal, rfl⟩ := List.mem_map.mp hnew
            exact hclones original (List.mem_of_getElem? (Option.mem_toList.mp horiginal))
      | call number call =>
          unfold session
          split
          next hnone => exact ih shared handles hclones
          next handle hhandle =>
            have hlock := hclones handle (List.mem_of_getElem? hhandle)
            obtain ⟨calls, hserved, hlast⟩ := ih (shared.serve handle call).2 handles hclones
            have hnext : (shared.serve handle call).2.behind lock =
                ((shared.behind lock).serve call).2 := by
              simp only [serve, hlock, if_true]
            rw [hnext] at hserved hlast
            refine ⟨call :: calls, ?_, hlast⟩
            rw [Delivery.history, ← hserved, ← hlock]
            rfl

end Shared

end HubLink.Queue
