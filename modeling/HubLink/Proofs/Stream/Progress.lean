import HubLink.Proofs.Frame.InPlace
import HubLink.Proofs.Stream.Session

/-!
# A receiver goes on, and holds little

The lengths in a stream are chosen by whoever writes it.  They can neither keep a receiver busy
without end nor make it hoard: whatever it reports it pays for with bytes, so that it reports at most
as often as bytes arrive and polling comes to an end, and when it waits it holds less than the
greatest allowed frame takes (`decoders_progress`).

Both are about sessions.  One poll pays for its own report (`length_poll_le`), and the induction over
a session adds up what was paid (`length_run_le`); the bound on what is held is set anew by every
poll that waits, and from there on the session can only add what arrives.
-/

namespace HubLink

namespace Receiver

variable {ε α : Type}

/-- What is held after a session that starts with an empty buffer. -/
def held (receiver : Receiver ε α) (steps : List Step) : List UInt8 :=
  (receiver.run steps []).2

/-- How a receiver stands after a session that starts with an empty buffer, and what the next poll
does.  Each poll of a longer session is the next one after the steps before it. -/
structure Progress (receiver : Receiver ε α) (bound : Nat) (steps : List Step) : Prop where
  /-- The outcomes so far and the bytes held are together no more than the bytes that arrived. -/
  paid : (receiver.run steps []).1.length + (receiver.held steps).length ≤ (appended steps).length
  /-- If the next poll reports, it takes at least one byte. -/
  takes : (receiver.poll (receiver.held steps)).1 ≠ .ok none →
    (receiver.poll (receiver.held steps)).2.length < (receiver.held steps).length
  /-- If the next poll waits, it leaves the buffer as it is, and there is less than `bound` in it. -/
  waits : (receiver.poll (receiver.held steps)).1 = .ok none →
    (receiver.poll (receiver.held steps)).2 = receiver.held steps ∧
      (receiver.held steps).length < bound
  /-- If the next poll waits, then however the session goes on, the bound is exceeded by no more
  than what arrives from there on. -/
  holds : (receiver.poll (receiver.held steps)).1 = .ok none → ∀ later,
    (receiver.held (steps ++ .poll :: later)).length < bound + (appended later).length
  /-- Some number of polls, no more than bytes are held, all report, and the next one waits. -/
  ends : ∃ polls ≤ (receiver.held steps).length,
    (receiver.run (List.replicate polls .poll) (receiver.held steps)).1.length = polls ∧
      (receiver.poll (receiver.run (List.replicate polls .poll) (receiver.held steps)).2).1 =
        .ok none

/-- A receiver that waits only with less than `bound` bytes makes progress. -/
theorem progress {receiver : Receiver ε α} {bound : Nat}
    (hbound : ∀ buffer, (receiver.poll buffer).1 = .ok none → buffer.length < bound)
    (steps : List Step) : receiver.Progress bound steps where
  paid := by
    have hrun := receiver.length_run_le steps []
    rw [List.length_nil, Nat.zero_add] at hrun
    exact hrun
  takes := receiver.rest_lt_of_report
  waits hwait := ⟨receiver.rest_of_wait hwait, hbound _ hwait⟩
  holds hwait later := by
    have hlater := receiver.length_run_le later (receiver.held steps)
    have hshort := hbound _ hwait
    have hheld : receiver.held (steps ++ .poll :: later) =
        (receiver.run later (receiver.held steps)).2 := by
      rw [held, run_append, run_poll]
      exact congrArg (fun buffer => (receiver.run later buffer).2) (receiver.rest_of_wait hwait)
    rw [hheld]
    omega
  ends := by
    refine ⟨_, receiver.length_drain_le (receiver.held steps), ?_, ?_⟩
    · rw [run_polls_eq_drain]
    · rw [run_polls_eq_drain]
      exact poll_drain (receiver.held steps)

end Receiver

/-- **Neither decoder can be kept busy, or made to hoard.**  After any session of appends and polls,
with whatever bytes, the outcomes and the bytes held are no more than the bytes that arrived; the
next poll takes a byte if it reports; if it waits, it leaves a buffer that is shorter than the
greatest allowed frame, which nothing but later bytes can lengthen; and polling until more bytes are
needed ends. -/
theorem decoders_progress (limit : Nat) (steps : List Receiver.Step) :
    (Frame.receiver limit).Progress (limit + Frame.overhead) steps ∧
      (Message.Codec.receiver limit).Progress (limit + Frame.overhead) steps := by
  have hframes : ∀ buffer, (Frame.poll limit buffer).1 = .ok none →
      buffer.length < limit + Frame.overhead := fun buffer hwait =>
    Frame.length_lt_of_front_incomplete (Frame.poll_wait_iff.mp hwait)
  refine ⟨Receiver.progress hframes steps, Receiver.progress (fun buffer hwait => ?_) steps⟩
  exact hframes buffer (Message.Codec.ofFrame_wait_iff.mp hwait)

/-- The greatest allowed frame is waited for until its last byte. -/
example : Frame.poll 2 [2, 0, 0, 0, 7, 7, 1, 1, 1] = (.ok none, [2, 0, 0, 0, 7, 7, 1, 1, 1]) :=
  rfl

end HubLink
