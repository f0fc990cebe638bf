import HubLink.Proofs.Frame.InPlace
import HubLink.Proofs.Stream.Session
import Mathlib.Algebra.Ring.Nat

/-!
# Reading a capture one frame at a time

The one-shot decoder says what stands at the front of a buffer and takes nothing away.  Whoever has
all of a capture at hand can read it with this decoder alone: decode the front, drop the frame that
was found there, or one byte of a prefix that delimits nothing, and decode what is left, until more
bytes would be needed (`oneShots`).

A poll of the streaming decoder is one round of this (`poll_of_finding?_eq_some`).  The rounds take
the capture apart without a gap (`length_eq_sum_sizes`), and what is left at the end is too short
for a frame of the greatest allowed size (`length_left_lt`).
-/

namespace HubLink.Frame

variable {limit : Nat} {buffer : List UInt8}

/-- The front declares the length of the payload that is found there, and behind as many bytes and
those around them the rest begins. -/
theorem size_of_front_complete {payload rest : List UInt8} {stated : UInt32}
    (hfront : front limit buffer = .complete payload stated rest) :
    declaredLength? buffer = some payload.length ∧
      buffer.length = overhead + payload.length + rest.length ∧
      buffer.drop (overhead + payload.length) = rest := by
  obtain ⟨-, hlong, rfl, -, rfl⟩ := front_eq_complete_inPlace_iff.mp hfront
  rw [length_declaredPayload hlong, List.length_drop]
  exact ⟨declaredLength?_of_long (Nat.le_of_add_right_le hlong),
    (Nat.add_sub_cancel' hlong).symm, rfl⟩

theorem decode_eq_poll (limit : Nat) (buffer : List UInt8) :
    (decode limit buffer).map (fun found => found.map Prod.fst) = (poll limit buffer).1 := by
  unfold decode poll
  cases front limit buffer with
  | incomplete => rfl
  | oversize declared => rfl
  | complete payload stated rest =>
      simp only
      cases verified payload stated <;> rfl

end HubLink.Frame

namespace HubLink.Message.Codec

/-- What an outcome is counted as. -/
inductive Verdict where
  | decoded
  | corrupt
  | oversize
  | malformed
  | unknown
  deriving DecidableEq

/-- What the one-shot decoder makes of a buffer, and the payload length that its front declares. -/
structure Finding where
  outcome : Except Fault Envelope
  declared : Nat

namespace Finding

def verdict (finding : Finding) : Verdict :=
  match finding.outcome with
  | .ok _ => .decoded
  | .error (.corrupt _ _) => .corrupt
  | .error (.oversize _) => .oversize
  | .error (.unknownKind _) => .unknown
  | .error (.malformed _) | .error (.encode _) => .malformed

/-- The bytes behind which reading goes on: those of the frame, or one of a prefix that delimits
nothing. -/
def size (finding : Finding) : Nat :=
  if finding.verdict = .oversize then 1 else Frame.overhead + finding.declared

/-- The findings that are frames, sound or not. -/
def frames (found : List Finding) : List Finding :=
  found.filter fun finding => finding.verdict ≠ .oversize

/-- How often a verdict was found. -/
def times (found : List Finding) (verdict : Verdict) : Nat :=
  found.countP fun finding => finding.verdict = verdict

theorem times_cons (finding : Finding) (found : List Finding) (verdict : Verdict) :
    times (finding :: found) verdict =
      (if finding.verdict = verdict then 1 else 0) + times found verdict := by
  unfold times
  rw [List.countP_cons, Nat.add_comm]
  simp only [decide_eq_true_eq]

theorem frames_cons_of_oversize {finding : Finding} {found : List Finding}
    (hskipped : finding.verdict = .oversize) : frames (finding :: found) = frames found := by
  simp [frames, hskipped]

theorem frames_cons_of_frame {finding : Finding} {found : List Finding}
    (hframe : finding.verdict ≠ .oversize) :
    frames (finding :: found) = finding :: frames found := by
  simp [frames, hframe]

theorem size_pos (finding : Finding) : 0 < finding.size := by
  unfold size
  split
  · exact Nat.one_pos
  · exact Nat.lt_add_right finding.declared (by decide)

theorem length_le_sum_sizes (found : List Finding) : found.length ≤ (found.map size).sum := by
  induction found with
  | nil => exact Nat.le_refl 0
  | cons finding found ih =>
      have hpos := finding.size_pos
      rw [List.length_cons, List.map_cons, List.sum_cons]
      omega

/-- Frames take their declared length and what is around it, and every other finding takes one
byte. -/
theorem sum_sizes_eq (found : List Finding) :
    (found.map size).sum =
      ((frames found).map fun finding => Frame.overhead + finding.declared).sum +
        times found .oversize := by
  induction found with
  | nil => rfl
  | cons finding found ih =>
      rw [List.map_cons, List.sum_cons, ih, times_cons]
      by_cases hskipped : finding.verdict = .oversize
      · rw [frames_cons_of_oversize hskipped, size, if_pos hskipped, if_pos hskipped]
        omega
      · rw [frames_cons_of_frame hskipped, List.map_cons, List.sum_cons, size, if_neg hskipped,
          if_neg hskipped]
        omega

end Finding

/-- What is found at the front of a buffer; nothing when more bytes are needed. -/
def finding? (limit : Nat) (buffer : List UInt8) : Option Finding :=
  let declared := (Frame.declaredLength? buffer).getD 0
  match decode limit buffer with
  | .ok none => none
  | .ok (some envelope) => some ⟨.ok envelope, declared⟩
  | .error fault => some ⟨.error fault, declared⟩

variable {limit : Nat} {buffer : List UInt8} {finding : Finding}

/-! ## One finding -/

theorem decode_eq_poll (limit : Nat) (buffer : List UInt8) :
    decode limit buffer = (poll limit buffer).1 := by
  rw [decode, Frame.decode_eq_poll]
  rfl

theorem ofFrame_map_some (report : Except LinkFault Frame) :
    ofFrame (report.map some) = (ofReport report).map some := by
  cases report with
  | error fault => rfl
  | ok frame =>
      simp only [Except.map, ofFrame, ofReport]
      cases Envelope.parse frame.payload <;> rfl

theorem finding?_of_decode {outcome : Except Fault Envelope} {declared : Nat}
    (hdecode : decode limit buffer = outcome.map some)
    (hdeclared : Frame.declaredLength? buffer = some declared) :
    finding? limit buffer = some ⟨outcome, declared⟩ := by
  unfold finding?
  rw [hdecode, hdeclared]
  cases outcome <;> rfl

theorem finding?_of_incomplete (hfront : Frame.front limit buffer = .incomplete) :
    finding? limit buffer = none := by
  have hdecode : decode limit buffer = .ok none := by
    simp only [decode_eq_poll, poll, Frame.poll, hfront, ofFrame]
  unfold finding?
  rw [hdecode]

theorem finding?_of_oversize {declared : Nat}
    (hfront : Frame.front limit buffer = .oversize declared) :
    finding? limit buffer = some ⟨.error (.oversize declared), declared⟩ := by
  apply finding?_of_decode
  · simp only [decode_eq_poll, poll, Frame.poll, hfront]
    rfl
  · obtain ⟨hlong, -, rfl⟩ := Frame.front_eq_oversize_iff.mp hfront
    exact Frame.declaredLength?_of_long hlong

theorem finding?_of_complete {payload rest : List UInt8} {stated : UInt32}
    (hfront : Frame.front limit buffer = .complete payload stated rest) :
    finding? limit buffer =
      some ⟨ofReport (Frame.verified payload stated), payload.length⟩ := by
  apply finding?_of_decode
  · rw [decode_eq_poll, ← ofFrame_map_some]
    simp only [poll, Frame.poll, hfront]
  · exact (Frame.size_of_front_complete hfront).1

/-- Only a prefix is oversized: whatever a whole frame holds, all of it is taken. -/
theorem size_of_complete (payload : List UInt8) (stated : UInt32) (declared : Nat) :
    Finding.size ⟨ofReport (Frame.verified payload stated), declared⟩ =
      Frame.overhead + declared := by
  apply if_neg
  unfold Frame.verified
  split
  · simp only [ofReport]
    rcases Envelope.parse payload with (_ | _) | _
    · exact (by decide : Verdict.malformed ≠ .oversize)
    · exact (by decide : Verdict.unknown ≠ .oversize)
    · exact (by decide : Verdict.decoded ≠ .oversize)
  · exact (by decide : Verdict.corrupt ≠ .oversize)

/-- A poll that waits has found nothing, and a buffer that could hold the greatest allowed frame is
not waited with. -/
theorem poll_of_finding?_eq_none (hnone : finding? limit buffer = none) :
    (poll limit buffer).1 = .ok none ∧ buffer.length < limit + Frame.overhead := by
  cases hfront : Frame.front limit buffer with
  | incomplete =>
      refine ⟨?_, Frame.length_lt_of_front_incomplete hfront⟩
      simp only [poll, Frame.poll, hfront, ofFrame]
  | oversize declared =>
      rw [finding?_of_oversize hfront] at hnone
      cases hnone
  | complete payload stated rest =>
      rw [finding?_of_complete hfront] at hnone
      cases hnone

/-- A poll that reports tells what was found and takes its bytes. -/
theorem poll_of_finding?_eq_some (hfound : finding? limit buffer = some finding) :
    poll limit buffer = (finding.outcome.map some, buffer.drop finding.size) ∧
      finding.size ≤ buffer.length := by
  cases hfront : Frame.front limit buffer with
  | incomplete =>
      rw [finding?_of_incomplete hfront] at hfound
      cases hfound
  | oversize declared =>
      rw [finding?_of_oversize hfront] at hfound
      cases hfound
      obtain ⟨-, b₀, b₁, b₂, b₃, rest, -, -, rfl⟩ := Frame.exists_of_front_oversize hfront
      refine ⟨?_, Nat.succ_le_succ (Nat.zero_le _)⟩
      simp only [poll, Frame.poll, hfront]
      rfl
  | complete payload stated rest =>
      rw [finding?_of_complete hfront] at hfound
      cases hfound
      obtain ⟨-, hlength, hrest⟩ := Frame.size_of_front_complete hfront
      rw [size_of_complete, hrest, hlength, ← ofFrame_map_some]
      refine ⟨?_, Nat.le_add_right _ _⟩
      simp only [poll, Frame.poll, hfront]

/-! ## All findings -/

theorem length_drop_lt_of_finding? (hfound : finding? limit buffer = some finding) :
    (buffer.drop finding.size).length < buffer.length := by
  have hle := (poll_of_finding?_eq_some hfound).2
  have hpos := finding.size_pos
  rw [List.length_drop]
  omega

/-- Reads a capture with the one-shot decoder: what is found, in order, and what is left when more
bytes would be needed. -/
def oneShots (limit : Nat) (capture : List UInt8) : List Finding × List UInt8 :=
  match _ : finding? limit capture with
  | none => ([], capture)
  | some finding =>
    let (later, left) := oneShots limit (capture.drop finding.size)
    (finding :: later, left)
termination_by capture.length
decreasing_by exact length_drop_lt_of_finding? ‹_›

theorem oneShots_of_none (hnone : finding? limit buffer = none) :
    oneShots limit buffer = ([], buffer) := by
  rw [oneShots]
  split
  next => rfl
  next hfound =>
    rw [hnone] at hfound
    cases hfound

theorem oneShots_of_some (hfound : finding? limit buffer = some finding) :
    oneShots limit buffer =
      (finding :: (oneShots limit (buffer.drop finding.size)).1,
        (oneShots limit (buffer.drop finding.size)).2) := by
  rw [oneShots]
  split
  next hnone =>
    rw [hnone] at hfound
    cases hfound
  next other hother =>
    rw [hother] at hfound
    cases hfound
    rfl

theorem length_eq_sum_sizes (limit : Nat) (capture : List UInt8) :
    capture.length =
      ((oneShots limit capture).1.map Finding.size).sum + (oneShots limit capture).2.length := by
  fun_induction oneShots limit capture with
  | case1 capture hnone => simp
  | case2 capture finding hfound later left hlater ih =>
      have hle := (poll_of_finding?_eq_some hfound).2
      rw [List.length_drop, hlater] at ih
      simp only [List.map_cons, List.sum_cons] at ih ⊢
      omega

theorem length_left_lt (limit : Nat) (capture : List UInt8) :
    (oneShots limit capture).2.length < limit + Frame.overhead := by
  fun_induction oneShots limit capture with
  | case1 capture hnone => exact (poll_of_finding?_eq_none hnone).2
  | case2 capture finding hfound later left hlater ih =>
      rw [hlater] at ih
      exact ih

end HubLink.Message.Codec
