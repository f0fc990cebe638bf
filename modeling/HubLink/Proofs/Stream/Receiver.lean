/-!
# Receivers, and when they may be polled

A receiver appends what arrives to one buffer and polls its front.  Bytes arrive in pieces that have
nothing to do with what they hold, and nobody promises to poll at any particular time.  This file
proves that neither matters: a session of appends and polls, finished by polling until more bytes
would be needed, reports what one reader of the whole stream reports, and leaves the same bytes
(`finish_eq_drain`).

Three properties of a single poll carry the proof, and `Receiver` asks for no others: a poll that
waits changes nothing, a poll that reports takes a byte, and a report is final.  The second also
bounds a session: what is reported in it, together with what stays in the buffer, is never more than
the bytes that were put there (`length_run_le`).
-/

namespace HubLink

/-- A way to poll a receive buffer.  A poll answers `none` while it waits for more bytes. -/
structure Receiver (ε α : Type) where
  /-- Polls a buffer: the outcome, and what stays in the buffer. -/
  poll : List UInt8 → Except ε (Option α) × List UInt8
  /-- Waiting leaves the buffer as it is. -/
  rest_of_wait : ∀ {buffer : List UInt8}, (poll buffer).1 = .ok none → (poll buffer).2 = buffer
  /-- A report takes at least one byte. -/
  rest_lt_of_report : ∀ {buffer : List UInt8}, (poll buffer).1 ≠ .ok none →
    (poll buffer).2.length < buffer.length
  /-- A report stands, whatever arrives later. -/
  poll_append : ∀ {buffer : List UInt8}, (poll buffer).1 ≠ .ok none →
    ∀ more, poll (buffer ++ more) = ((poll buffer).1, (poll buffer).2 ++ more)

namespace Receiver

variable {ε ε' α α' : Type}

/-- What a poll adds to the report. -/
def report : Except ε (Option α) → List (Except ε α)
  | .ok none => []
  | .ok (some value) => [.ok value]
  | .error fault => [.error fault]

theorem report_eq_nil_iff {outcome : Except ε (Option α)} :
    report outcome = [] ↔ outcome = .ok none := by
  rcases outcome with _ | _ | _ <;> simp [report]

theorem length_report_of_ne {outcome : Except ε (Option α)} (hreport : outcome ≠ .ok none) :
    (report outcome).length = 1 := by
  match outcome, hreport with
  | .ok (some _), _ | .error _, _ => rfl
  | .ok none, hreport => exact absurd rfl hreport

/-- One thing that happens to a receive buffer. -/
inductive Step where
  /-- Bytes arrive. -/
  | append (piece : List UInt8)
  /-- The front is polled. -/
  | poll

/-- The bytes that arrive in a session. -/
def appended : List Step → List UInt8
  | [] => []
  | .append piece :: steps => piece ++ appended steps
  | .poll :: steps => appended steps

theorem appended_polls (count : Nat) : appended (List.replicate count .poll) = [] := by
  induction count with
  | zero => rfl
  | succ count ih => exact ih

variable (receiver : Receiver ε α)

/-- A session on a buffer: everything reported, in order, and what stays in the buffer. -/
def run : List Step → List UInt8 → List (Except ε α) × List UInt8
  | [], buffer => ([], buffer)
  | .append piece :: steps, buffer => run steps (buffer ++ piece)
  | .poll :: steps, buffer =>
    let (outcome, rest) := receiver.poll buffer
    let (later, left) := run steps rest
    (report outcome ++ later, left)

/-- Polls until the receiver waits. -/
def drain (buffer : List UInt8) : List (Except ε α) × List UInt8 :=
  if _ : report (receiver.poll buffer).1 = [] then ([], (receiver.poll buffer).2)
  else
    let (later, left) := drain (receiver.poll buffer).2
    (report (receiver.poll buffer).1 ++ later, left)
termination_by buffer.length
decreasing_by
  rename_i hreport
  exact receiver.rest_lt_of_report fun hwait => hreport (report_eq_nil_iff.mpr hwait)

/-- A session on an empty buffer, finished by polling until the receiver waits. -/
def finish (steps : List Step) : List (Except ε α) × List UInt8 :=
  let (seen, buffer) := receiver.run steps []
  let (later, left) := receiver.drain buffer
  (seen ++ later, left)

variable {receiver}

/-! ## One poll at a time -/

theorem run_poll (steps : List Step) (buffer : List UInt8) :
    receiver.run (.poll :: steps) buffer =
      (report (receiver.poll buffer).1 ++ (receiver.run steps (receiver.poll buffer).2).1,
        (receiver.run steps (receiver.poll buffer).2).2) := rfl

theorem run_append (first second : List Step) (buffer : List UInt8) :
    receiver.run (first ++ second) buffer =
      ((receiver.run first buffer).1 ++ (receiver.run second (receiver.run first buffer).2).1,
        (receiver.run second (receiver.run first buffer).2).2) := by
  induction first generalizing buffer with
  | nil => rfl
  | cons step first ih =>
      cases step with
      | append piece => exact ih (buffer ++ piece)
      | poll => rw [List.cons_append, run_poll, run_poll, ih, List.append_assoc]

theorem drain_of_wait {buffer : List UInt8} (hwait : (receiver.poll buffer).1 = .ok none) :
    receiver.drain buffer = ([], buffer) := by
  rw [drain, dif_pos (report_eq_nil_iff.mpr hwait), receiver.rest_of_wait hwait]

theorem drain_of_report {buffer : List UInt8} (hreport : (receiver.poll buffer).1 ≠ .ok none) :
    receiver.drain buffer =
      (report (receiver.poll buffer).1 ++ (receiver.drain (receiver.poll buffer).2).1,
        (receiver.drain (receiver.poll buffer).2).2) := by
  rw [drain, dif_neg fun hnil => hreport (report_eq_nil_iff.mp hnil)]

/-- Draining after one more poll is draining. -/
theorem drain_poll (buffer more : List UInt8) :
    receiver.drain (buffer ++ more) =
      (report (receiver.poll buffer).1 ++ (receiver.drain ((receiver.poll buffer).2 ++ more)).1,
        (receiver.drain ((receiver.poll buffer).2 ++ more)).2) := by
  by_cases hwait : (receiver.poll buffer).1 = .ok none
  · rw [receiver.rest_of_wait hwait, hwait]
    rfl
  · have hpoll := receiver.poll_append hwait more
    rw [drain_of_report (by rw [hpoll]; exact hwait), hpoll]

/-! ## Whole sessions -/

/-- What a session reports, and what one reader then drains from its buffer, is what one reader
drains from all the bytes at once. -/
theorem run_then_drain (steps : List Step) (buffer : List UInt8) :
    ((receiver.run steps buffer).1 ++ (receiver.drain (receiver.run steps buffer).2).1,
      (receiver.drain (receiver.run steps buffer).2).2) =
      receiver.drain (buffer ++ appended steps) := by
  -- on the steps, for every buffer: a poll moves the session to another one
  induction steps generalizing buffer with
  | nil => simp [run, appended]
  | cons step steps ih =>
      cases step with
      | append piece =>
          simp only [run, appended]
          rw [ih, List.append_assoc]
      | poll =>
          simp only [run, appended]
          rw [drain_poll buffer (appended steps), ← ih (receiver.poll buffer).2, List.append_assoc]

/-- **Neither the cuts nor the polls matter.**  A finished session reports what one reader of the
whole stream reports, and leaves the same bytes. -/
theorem finish_eq_drain (steps : List Step) :
    receiver.finish steps = receiver.drain (appended steps) := by
  have hrun := @run_then_drain _ _ receiver steps []
  rw [List.nil_append] at hrun
  exact hrun

/-- Draining is as many polls as it reports. -/
theorem run_polls_eq_drain (buffer : List UInt8) :
    receiver.run (List.replicate (receiver.drain buffer).1.length .poll) buffer =
      receiver.drain buffer := by
  -- on the length of the buffer, which every report shortens
  induction hsize : buffer.length using Nat.strongRecOn generalizing buffer with
  | ind size ih =>
      by_cases hwait : (receiver.poll buffer).1 = .ok none
      · rw [drain_of_wait hwait]
        rfl
      · have hshorter := receiver.rest_lt_of_report hwait
        rw [drain_of_report hwait, List.length_append, length_report_of_ne hwait, Nat.add_comm,
          List.replicate_succ, run_poll, ih _ (hsize ▸ hshorter) _ rfl]

/-- Draining ends with a receiver that waits. -/
theorem poll_drain (buffer : List UInt8) :
    (receiver.poll (receiver.drain buffer).2).1 = .ok none := by
  induction hsize : buffer.length using Nat.strongRecOn generalizing buffer with
  | ind size ih =>
      by_cases hwait : (receiver.poll buffer).1 = .ok none
      · rw [drain_of_wait hwait]
        exact hwait
      · rw [drain_of_report hwait]
        exact ih _ (hsize ▸ receiver.rest_lt_of_report hwait) _ rfl

/-! ## What reports cost -/

/-- A poll pays for what it reports with a byte. -/
theorem length_poll_le (buffer : List UInt8) :
    (report (receiver.poll buffer).1).length + (receiver.poll buffer).2.length ≤
      buffer.length := by
  by_cases hwait : (receiver.poll buffer).1 = .ok none
  · simp [report_eq_nil_iff.mpr hwait, receiver.rest_of_wait hwait]
  · rw [length_report_of_ne hwait, Nat.add_comm]
    exact receiver.rest_lt_of_report hwait

/-- Over a session, reports and the bytes that stay are no more than the bytes that were there. -/
theorem length_run_le (steps : List Step) (buffer : List UInt8) :
    (receiver.run steps buffer).1.length + (receiver.run steps buffer).2.length ≤
      buffer.length + (appended steps).length := by
  induction steps generalizing buffer with
  | nil => simp [run, appended]
  | cons step steps ih =>
      cases step with
      | append piece =>
          have hlater := ih (buffer ++ piece)
          simp only [run, appended, List.length_append] at hlater ⊢
          omega
      | poll =>
          have hlater := ih (receiver.poll buffer).2
          have hnow := receiver.length_poll_le buffer
          simp only [run_poll, List.length_append, appended]
          omega

theorem length_drain_le (buffer : List UInt8) :
    (receiver.drain buffer).1.length ≤ buffer.length := by
  have hrun := receiver.length_run_le
    (List.replicate (receiver.drain buffer).1.length .poll) buffer
  rw [run_polls_eq_drain, appended_polls, List.length_nil] at hrun
  omega

/-! ## Receivers that differ in what they make of a frame -/

/-- The second receiver takes the same bytes as the first, and reports what `f` makes of the first
one's report. -/
def Follows (f : Except ε α → Except ε' α') (receiver : Receiver ε α) (other : Receiver ε' α') :
    Prop :=
  ∀ buffer, report (other.poll buffer).1 = (report (receiver.poll buffer).1).map f ∧
    (other.poll buffer).2 = (receiver.poll buffer).2

variable {f : Except ε α → Except ε' α'} {other : Receiver ε' α'}

theorem Follows.drain_eq (hfollows : Follows f receiver other) (buffer : List UInt8) :
    other.drain buffer = ((receiver.drain buffer).1.map f, (receiver.drain buffer).2) := by
  induction hsize : buffer.length using Nat.strongRecOn generalizing buffer with
  | ind size ih =>
      obtain ⟨hreport, hrest⟩ := hfollows buffer
      by_cases hwait : (receiver.poll buffer).1 = .ok none
      · have hother : (other.poll buffer).1 = .ok none := by
          rw [← report_eq_nil_iff, hreport, report_eq_nil_iff.mpr hwait, List.map_nil]
        rw [drain_of_wait hwait, drain_of_wait hother, List.map_nil]
      · have hother : (other.poll buffer).1 ≠ .ok none := by
          rw [Ne, ← report_eq_nil_iff, hreport, List.map_eq_nil_iff, report_eq_nil_iff]
          exact hwait
        have hshorter := receiver.rest_lt_of_report hwait
        rw [drain_of_report hwait, drain_of_report hother, hreport, hrest,
          ih _ (hsize ▸ hshorter) _ rfl, List.map_append]

theorem Follows.finish_eq (hfollows : Follows f receiver other) (steps : List Step) :
    other.finish steps = ((receiver.finish steps).1.map f, (receiver.finish steps).2) := by
  rw [finish_eq_drain, finish_eq_drain]
  exact hfollows.drain_eq (appended steps)

end Receiver

end HubLink
