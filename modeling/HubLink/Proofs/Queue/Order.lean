import HubLink.Proofs.Queue.Ledger
import HubLink.Proofs.Queue.Ticket

/-!
# The order of delivery

A queue is the line of the tickets of its history, under either policy and whatever the correlation
ids are, and the line is in order (`delivery_order`).  The queue moves entries from place to place
and the line is kept without places, so each call is looked at once (`Effect.inLine`): where the
policy puts an entry is where the order wants its ticket.
-/

namespace HubLink.Queue

open Message (Envelope)
open Ticket (Precedes Honest)

variable {policy : Policy} {history : List Served} {line front back kept : List Ticket}
  {ticket : Ticket} {queue next : Delivery} {call : Call} {answer : Answer} {id : String}
  {before behind : List Entry} {entry : Entry}

/-! ## One call -/

/-- The tickets of a history are in order, honest and of different envelopes, and the queue is made
of their entries. -/
structure InLine (history : List Served) (queue : Delivery) (line : List Ticket) : Prop where
  entries_eq : queue.entries = line.map Ticket.entry
  ordered : line.Pairwise (Precedes queue.config.policy)
  honest : ∀ ticket ∈ line, Honest history ticket
  distinct : (line.map Ticket.accepted).Nodup

/-- Tickets may leave the line. -/
theorem InLine.of_sublist (hline : InLine history queue line) (hkept : kept.Sublist line)
    (hconfig : next.config = queue.config) (hentries : next.entries = kept.map Ticket.entry)
    (served : Served) : InLine (history ++ [served]) next kept where
  entries_eq := hentries
  ordered := by
    rw [hconfig]
    exact hline.ordered.sublist hkept
  honest ticket hticket := (hline.honest ticket (hkept.subset hticket)).later [served]
  distinct := hline.distinct.sublist (hkept.map Ticket.accepted)

/-- The foremost entry of an id is that of the first ticket of the id. -/
theorem Foremost.exists_ticket (hforemost : Foremost id queue.entries before entry behind)
    (hentries : queue.entries = line.map Ticket.entry) :
    ∃ front ticket back, line = front ++ ticket :: back ∧ front.map Ticket.entry = before ∧
      ticket.entry = entry ∧ back.map Ticket.entry = behind ∧
      line.find? (Ticket.hasId id) = some ticket ∧
      line.eraseP (Ticket.hasId id) = front ++ back := by
  rw [hentries] at hforemost
  obtain ⟨front, others, rfl, rfl, hothers⟩ := List.map_eq_append_iff.mp hforemost.entries_eq
  obtain ⟨ticket, back, rfl, rfl, rfl⟩ := List.map_eq_cons_iff.mp hothers
  have hfront : ∀ other ∈ front, ¬ other.hasId id = true := fun other hother =>
    Bool.eq_false_iff.mp (hforemost.absent_before _ (List.mem_map_of_mem hother))
  have hticket : ticket.hasId id = true := hforemost.hasId
  refine ⟨front, ticket, back, rfl, rfl, rfl, rfl, ?_, ?_⟩
  · rw [List.find?_append, List.find?_eq_none.mpr hfront, List.find?_cons_of_pos hticket]
    rfl
  · rw [List.eraseP_append_right _ hfront, List.eraseP_cons_of_pos hticket]

theorem Absent.eraseP_eq (habsent : Absent id queue.entries)
    (hentries : queue.entries = line.map Ticket.entry) :
    line.eraseP (Ticket.hasId id) = line := by
  apply List.eraseP_of_forall_not
  intro ticket hticket
  rw [hentries] at habsent
  exact Bool.eq_false_iff.mp (habsent _ (List.mem_map_of_mem hticket))

/-- An accepted envelope takes the last place in the line. -/
theorem InLine.accept (hline : InLine history queue line) (envelope : Envelope)
    {counters : Counters} :
    InLine (history ++ [⟨queue, .enqueue envelope, .enqueue (.ok ())⟩])
      { queue with entries := queue.entries ++ [⟨envelope, 0⟩], counters := counters }
      (line.orderedInsert (Precedes queue.config.policy)
        ⟨⟨envelope, 0⟩, history.length, none⟩) := by
  have hlast : ∀ ticket ∈ line, Precedes queue.config.policy ticket
      ⟨⟨envelope, 0⟩, history.length, none⟩ :=
    fun ticket hticket => (hline.honest ticket hticket).precedes_new _ envelope
  have hinserted := orderedInsert_between hlast (List.forall_mem_nil _)
  rw [List.append_nil] at hinserted
  rw [hinserted]
  refine ⟨?_, ?_, ?_, ?_⟩
  · rw [List.map_append, ← hline.entries_eq]
    rfl
  · exact pairwise_between ((List.append_nil line).symm ▸ hline.ordered) hlast
      (List.forall_mem_nil _)
  · intro ticket hticket
    rcases List.mem_append.mp hticket with hold | hnew
    · exact (hline.honest ticket hold).later _
    · rw [List.mem_singleton.mp hnew]
      exact Honest.new history queue envelope
  · rw [List.map_append, List.nodup_append]
    refine ⟨hline.distinct, List.nodup_singleton _, ?_⟩
    intro number hnumber later hlater
    obtain ⟨ticket, hticket, rfl⟩ := List.mem_map.mp hnumber
    rw [List.mem_singleton.mp hlater]
    exact Nat.ne_of_lt (hline.honest ticket hticket).accepted_lt

/-- Where the policy puts an envelope that is put up with once more, its ticket is in order. -/
theorem InLine.exists_place (hline : InLine history queue (front ++ ticket :: back)) :
    ∃ ahead after, ahead ++ after = front ++ back ∧
      (∀ other ∈ ahead, Precedes queue.config.policy other (ticket.again history.length)) ∧
      (∀ other ∈ after, Precedes queue.config.policy (ticket.again history.length) other) ∧
      queue.config.policy.placed (front.map Ticket.entry) ticket.entry.missed
          (back.map Ticket.entry) =
        (ahead ++ ticket.again history.length :: after).map Ticket.entry := by
  obtain ⟨_, hordered, hacross⟩ := List.pairwise_append.mp hline.ordered
  have hbehind := (List.pairwise_cons.mp hordered).1
  cases hpolicy : queue.config.policy with
  | keepPosition =>
      -- the call that accepted it has not changed, and nothing else counts
      rw [hpolicy] at hacross hbehind
      refine ⟨front, back, rfl, ?_, hbehind, ?_⟩
      · exact fun other hother => hacross other hother ticket List.mem_cons_self
      · rw [List.map_append, List.map_cons]
        rfl
  | moveToFront =>
      refine ⟨[], front ++ back, rfl, List.forall_mem_nil _, ?_, ?_⟩
      · intro other hother
        refine (hline.honest other ?_).again_precedes ticket
        exact ((List.sublist_cons_self ticket back).append_left front).subset hother
      · rw [List.nil_append, List.map_cons, List.map_append]
        rfl

/-- An envelope that is put up with once more takes the place in the line that its ticket has now. -/
theorem InLine.retain (hline : InLine history queue line)
    (hforemost : Foremost id queue.entries before entry behind) {counters : Counters} :
    let served : Served := ⟨queue, .requeue id, .requeue (.retained (entry.retries + 1))⟩
    InLine (history ++ [served])
      { queue with
        entries := queue.config.policy.placed before entry.missed behind
        counters := counters }
      (noted queue.config.policy line served history.length) := by
  intro served
  obtain ⟨front, ticket, back, rfl, rfl, rfl, rfl, hfind, herase⟩ :=
    hforemost.exists_ticket hline.entries_eq
  obtain ⟨ahead, after, hsplit, hahead, hafter, hplaced⟩ := hline.exists_place
  have hrest : (front ++ back).Sublist (front ++ ticket :: back) :=
    (List.sublist_cons_self ticket back).append_left front
  have hnoted : noted queue.config.policy (front ++ ticket :: back) served history.length =
      ahead ++ ticket.again history.length :: after := by
    simp only [noted, served, hfind, herase]
    rw [← hsplit, orderedInsert_between hahead hafter]
  rw [hnoted]
  refine ⟨hplaced, ?_, ?_, ?_⟩
  · exact pairwise_between (hsplit ▸ hline.ordered.sublist hrest) hahead hafter
  · intro other hother
    rcases List.mem_cons.mp (List.perm_middle.mem_iff.mp hother) with rfl | hother
    · have hid : ticket.entry.envelope.correlationId = id := beq_iff_eq.mp hforemost.hasId
      have hticket := hline.honest ticket (List.mem_append_right _ List.mem_cons_self)
      have hagain := hticket.again queue
      rwa [hid] at hagain
    · rw [hsplit] at hother
      exact (hline.honest other (hrest.subset hother)).later _
  · -- the same numbers of acceptance as before, one of them in another place
    have hsame : (ticket.again history.length :: (front ++ back)).map Ticket.accepted =
        (ticket :: (front ++ back)).map Ticket.accepted := rfl
    have hperm : ((ahead ++ ticket.again history.length :: after).map Ticket.accepted).Perm
        ((front ++ ticket :: back).map Ticket.accepted) := by
      refine (List.perm_middle.map Ticket.accepted).trans ?_
      rw [hsplit, hsame]
      exact (List.perm_middle.map Ticket.accepted).symm
    exact hperm.nodup_iff.mpr hline.distinct

/-- A call on a queue that is its line leaves a queue that is its line. -/
theorem Effect.inLine (heffect : Effect queue call answer next)
    (hline : InLine history queue line) :
    InLine (history ++ [⟨queue, call, answer⟩]) next
      (noted queue.config.policy line ⟨queue, call, answer⟩ history.length) := by
  have hall := List.Sublist.refl line
  have hconfig := heffect.config_eq
  cases heffect with
  | refuse => exact hline.of_sublist hall hconfig hline.entries_eq _
  | accept envelope => exact hline.accept envelope
  | dequeue hentries =>
      refine hline.of_sublist (List.tail_sublist line) hconfig ?_ _
      rw [List.map_tail, ← hline.entries_eq, hentries]
      rfl
  | dequeueNothing hempty =>
      refine hline.of_sublist (List.tail_sublist line) hconfig ?_ _
      rw [List.map_tail, ← hline.entries_eq, hempty]
      rfl
  | retain hforemost => exact hline.retain hforemost
  | drop hforemost =>
      obtain ⟨front, ticket, back, _, rfl, _, rfl, _, herase⟩ :=
        hforemost.exists_ticket hline.entries_eq
      refine hline.of_sublist List.eraseP_sublist hconfig ?_ _
      rw [herase, List.map_append]
  | requeueNothing => exact hline.of_sublist hall hconfig hline.entries_eq _
  | acknowledge hforemost =>
      obtain ⟨front, ticket, back, _, rfl, _, rfl, _, herase⟩ :=
        hforemost.exists_ticket hline.entries_eq
      refine hline.of_sublist List.eraseP_sublist hconfig ?_ _
      rw [herase, List.map_append]
  | acknowledgeNothing habsent =>
      refine hline.of_sublist List.eraseP_sublist hconfig ?_ _
      rw [habsent.eraseP_eq hline.entries_eq]
      exact hline.entries_eq
  | clear => exact hline.of_sublist (List.nil_sublist line) hconfig rfl _
  | peek => exact hline.of_sublist hall hconfig hline.entries_eq _
  | retries => exact hline.of_sublist hall hconfig hline.entries_eq _
  | size => exact hline.of_sublist hall hconfig hline.entries_eq _
  | stats => exact hline.of_sublist hall hconfig hline.entries_eq _

/-- Only an envelope that is accepted or put up with gets a place in the line: the others keep
theirs, or leave. -/
theorem noted_sublist (policy : Policy) (line : List Ticket) {served : Served} (number : Nat)
    (haccepted : served.answer.isAccepted = false) (hretained : served.answer.isRetained = false) :
    (noted policy line served number).Sublist line := by
  unfold noted
  split
  next hanswer =>
    rw [hanswer] at haccepted
    cases haccepted
  next hanswer =>
    rw [hanswer] at hretained
    cases hretained
  · exact List.eraseP_sublist
  · exact List.eraseP_sublist
  · exact List.tail_sublist line
  · exact List.nil_sublist line
  · exact List.Sublist.refl line

/-! ## Whole histories -/

theorem tickets_append (policy : Policy) (history : List Served) (served : Served) :
    tickets policy (history ++ [served]) =
      noted policy (tickets policy history) served history.length := by
  simp [tickets, List.zipIdx_append]

/-- A queue that is its line stays so whatever calls it serves. -/
theorem InLine.after (hline : InLine history queue (tickets queue.config.policy history))
    (calls : List Call) :
    InLine (history ++ queue.history calls) (queue.after calls)
      (tickets queue.config.policy (history ++ queue.history calls)) := by
  -- on the calls still to come; those before have moved over to `history`
  induction calls generalizing queue history with
  | nil =>
      rw [Delivery.history, List.append_nil]
      exact hline
  | cons call calls ih =>
      have heffect := serve_effect queue call
      have hnext := heffect.inLine hline
      rw [← tickets_append, ← heffect.config_eq] at hnext
      have hlast := ih hnext
      rw [heffect.config_eq, List.append_assoc] at hlast
      exact hlast

theorem inLine_of_empty (config : Config) (calls : List Call) :
    InLine (Delivery.history { config := config } calls) (Delivery.after { config := config } calls)
      (tickets config.policy (Delivery.history { config := config } calls)) := by
  have hempty : InLine [] { config := config } (tickets config.policy []) :=
    ⟨rfl, List.Pairwise.nil, List.forall_mem_nil _, List.nodup_nil⟩
  exact hempty.after calls

/-- The head of an ordered line, where envelopes keep their places, is the oldest ticket. -/
theorem oldest_of_head? (hordered : InOrder .keepPosition line) :
    ∀ oldest ∈ line.head?, ∀ other ∈ line, oldest.accepted ≤ other.accepted := by
  intro oldest holdest other hother
  cases line with
  | nil => cases holdest
  | cons head rest =>
      obtain rfl := Option.some.inj holdest
      rcases List.mem_cons.mp hother with rfl | hother
      · exact Nat.le_refl _
      · exact Nat.le_of_lt ((List.pairwise_cons.mp hordered).1 other hother)

theorem InLine.dequeue_eq (hline : InLine history queue line) :
    queue.dequeue.1 = line.head?.map fun ticket => ticket.entry.envelope := by
  have hentries := hline.entries_eq
  unfold Delivery.dequeue
  cases line with
  | nil => rw [hentries, List.map_nil]; rfl
  | cons head rest => rw [hentries, List.map_cons]; rfl

/-- **The order of delivery is a function of the history.**  After any calls on a queue that started
empty, the queue is the line of the tickets of its history.  The tickets are honest and of different
envelopes, and they are in the order of the policy: as they were accepted where envelopes keep their
places, so that the head is the oldest envelope; and where they move to the front, first those that
were put up with, the last one first, and then the others as they were accepted.  A call that
neither brings an envelope in nor puts up with one changes the order of none that stay. -/
theorem delivery_order (config : Config) (calls : List Call) :
    let history := Delivery.history { config := config }
    let queue := Delivery.after { config := config } calls
    let line := tickets config.policy (history calls)
    queue.entries = line.map Ticket.entry ∧
      (∀ ticket ∈ line, Honest (history calls) ticket) ∧
      (line.map Ticket.accepted).Nodup ∧
      InOrder config.policy line ∧
      queue.peek = line.head?.map Ticket.entry ∧
      (queue.dequeue.1 = line.head?.map fun ticket => ticket.entry.envelope) ∧
      (config.policy = .keepPosition →
        ∀ oldest ∈ line.head?, ∀ other ∈ line, oldest.accepted ≤ other.accepted) ∧
      ∀ call, (queue.serve call).1.isAccepted = false → (queue.serve call).1.isRetained = false →
        (tickets config.policy (history (calls ++ [call]))).Sublist line := by
  intro history queue line
  have hline : InLine (history calls) queue line := inLine_of_empty config calls
  have hconfig : queue.config = config := Delivery.config_after _ calls
  have hinOrder : InOrder config.policy line :=
    inOrder_of_pairwise (hconfig ▸ hline.ordered) hline.honest
  refine ⟨hline.entries_eq, hline.honest, hline.distinct, hinOrder, ?_, hline.dequeue_eq, ?_, ?_⟩
  · rw [Delivery.peek, hline.entries_eq, List.head?_map]
  · intro hpolicy
    rw [hpolicy] at hinOrder
    exact oldest_of_head? hinOrder
  · intro call haccepted hretained
    have hlonger : history (calls ++ [call]) = history calls ++ [queue.served call] :=
      Delivery.history_append _ calls [call]
    rw [hlonger, tickets_append]
    exact noted_sublist _ line _ haccepted hretained

/-- Two envelopes share an id, and the older of them is put up with before a third one is.  Where
envelopes move to the front, the third one leads; where they keep their places, the oldest does; and
when the third one is acknowledged, the others stay as they stand. -/
theorem delivery_order_overtaken :
    let calls : List Call := [.enqueue ⟨"1", "a", 0, .heartbeat⟩, .enqueue ⟨"1", "b", 1, .heartbeat⟩,
      .enqueue ⟨"1", "a", 2, .heartbeat⟩, .requeue "a", .requeue "b"]
    let line (policy : Policy) (calls : List Call) :=
      tickets policy (Delivery.history { config := { policy := policy } } calls)
    (line .moveToFront calls).map Ticket.accepted = [1, 0, 2] ∧
      InOrder .moveToFront (line .moveToFront calls) ∧
      (line .moveToFront (calls ++ [.acknowledge "b"])).Sublist (line .moveToFront calls) ∧
      (line .keepPosition calls).map Ticket.accepted = [0, 1, 2] ∧
      ∀ oldest ∈ (line .keepPosition calls).head?, ∀ other ∈ line .keepPosition calls,
        oldest.accepted ≤ other.accepted := by
  intro calls line
  have hfront := delivery_order { policy := .moveToFront } calls
  have hkeep := delivery_order { policy := .keepPosition } calls
  refine ⟨by decide +kernel, hfront.2.2.2.1, ?_, by decide +kernel, hkeep.2.2.2.2.2.2.1 rfl⟩
  exact hfront.2.2.2.2.2.2.2 (.acknowledge "b") (by decide +kernel) (by decide +kernel)

end HubLink.Queue
