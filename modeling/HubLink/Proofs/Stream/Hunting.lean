import HubLink.Proofs.Frame.InPlace
import HubLink.Proofs.Frame.Layout
import HubLink.Proofs.Stream.Session

/-!
# Hunting for the next frame

A length prefix above the limit delimits nothing, and the receiver has lost its place in the stream.
It drops one byte and looks for a header from the next one on.  If no four bytes that it meets on the
way declare an allowed length, it reports each of them and comes to the next frame without having
touched it (`hunt_reaches_frame`).

The last lengths that it meets are read across the border, from bytes of the garbage and of the
frame's own prefix; so the condition is on the garbage *with the frame behind it*.  What keeps the
hunt from stopping early is that a frame is never shorter than the least that a receiver looks at.
-/

namespace HubLink.Frame

variable {limit : Nat} {garbage sent : List UInt8}

/-- At every place of the garbage the four bytes from there on declare more than the limit. -/
def Lost (limit : Nat) (garbage sent : List UInt8) : Prop :=
  ∀ place < garbage.length, limit < declared ((garbage ++ sent).drop place)

/-- What is reported on the way through the first bytes of the garbage. -/
def oversizes (garbage sent : List UInt8) (count : Nat) : List (Except LinkFault Frame) :=
  (List.range count).map fun place => .error (.size (declared ((garbage ++ sent).drop place)))

theorem Lost.tail {byte : UInt8} (hlost : Lost limit (byte :: garbage) sent) :
    Lost limit garbage sent := fun place hplace =>
  hlost (place + 1) (Nat.succ_lt_succ hplace)

theorem oversizes_succ (byte : UInt8) (garbage sent : List UInt8) (count : Nat) :
    oversizes (byte :: garbage) sent (count + 1) =
      .error (.size (declared (byte :: (garbage ++ sent)))) :: oversizes garbage sent count := by
  rw [oversizes, List.range_succ_eq_map, List.map_cons, List.map_map]
  rfl

/-- One byte of the garbage is dropped, and the length that was read from there is reported. -/
theorem poll_of_lost {byte : UInt8} (hlong : overhead ≤ sent.length)
    (hlost : Lost limit (byte :: garbage) sent) (rest : List UInt8) :
    poll limit (byte :: garbage ++ sent ++ rest) =
      (.error (.size (declared (byte :: (garbage ++ sent)))), garbage ++ sent ++ rest) := by
  have hbuffer : overhead ≤ (byte :: (garbage ++ sent)).length := by
    rw [List.length_cons, List.length_append]
    omega
  -- what stands behind the frame has no part in the length
  have hdeclared : declared (byte :: (garbage ++ sent) ++ rest) =
      declared (byte :: (garbage ++ sent)) :=
    declared_append (Nat.le_trans (by decide) hbuffer) rest
  have hlimit : limit < declared (byte :: (garbage ++ sent)) := hlost 0 (Nat.succ_pos _)
  have hfront : front limit (byte :: (garbage ++ sent) ++ rest) =
      .oversize (declared (byte :: (garbage ++ sent))) := by
    refine front_eq_oversize_iff.mpr ⟨?_, hdeclared.symm ▸ hlimit, hdeclared.symm⟩
    rw [List.length_append]
    exact Nat.le_add_right_of_le hbuffer
  simp only [List.cons_append] at hfront ⊢
  rw [poll, hfront, List.tail_cons]

/-- As many bytes of the garbage are gone as there were polls, and everything behind them stands. -/
theorem run_of_lost (hlong : overhead ≤ sent.length) (hlost : Lost limit garbage sent)
    (rest : List UInt8) {polls : Nat} (hpolls : polls ≤ garbage.length) :
    (receiver limit).run (List.replicate polls .poll) (garbage ++ sent ++ rest) =
      (oversizes garbage sent polls, garbage.drop polls ++ sent ++ rest) := by
  induction garbage generalizing polls with
  | nil =>
      obtain rfl := Nat.le_zero.mp hpolls
      rfl
  | cons byte garbage ih =>
      cases polls with
      | zero => rfl
      | succ polls =>
          have hpoll : (receiver limit).poll (byte :: garbage ++ sent ++ rest) = _ :=
            poll_of_lost hlong hlost rest
          rw [List.replicate_succ, Receiver.run_poll, hpoll,
            ih hlost.tail (Nat.le_of_succ_le_succ hpolls), oversizes_succ]
          rfl

/-- **A hunt reaches the next frame, and takes nothing of it.**  A frame stands behind garbage in
which, up to its last byte, no four bytes from any place on declare an allowed length.  Then each
poll drops one byte of the garbage and reports the length read from there, for as many polls as the
garbage has bytes, and leaves the frame and what stands behind it as they are; the next poll finds
the frame, and exactly what stands behind it is left. -/
theorem hunt_reaches_frame {payload : List UInt8} (hlimit : payload.length ≤ limit)
    (hsize : payload.length < UInt32.size) :
    ∃ sent, (Frame.mk payload).encode limit = .ok sent ∧
      ∀ garbage, Lost limit garbage sent → ∀ rest,
        (∀ polls ≤ garbage.length,
          (receiver limit).run (List.replicate polls .poll) (garbage ++ sent ++ rest) =
            (oversizes garbage sent polls, garbage.drop polls ++ sent ++ rest)) ∧
        (receiver limit).run (List.replicate (garbage.length + 1) .poll)
            (garbage ++ sent ++ rest) =
          (oversizes garbage sent garbage.length ++ [.ok ⟨payload⟩], rest) := by
  refine ⟨layout payload, encode_eq_layout hlimit hsize, fun garbage hlost rest => ?_⟩
  have hlong : overhead ≤ (layout payload).length := by
    rw [layout_eq_parts, length_parts]
    exact Nat.le_add_left overhead payload.length
  refine ⟨fun polls hpolls => run_of_lost hlong hlost rest hpolls, ?_⟩
  have hfound : (receiver limit).poll (layout payload ++ rest) = (.ok (some ⟨payload⟩), rest) := by
    rw [layout_eq_parts]
    refine (poll_parts hlimit hsize (checksum payload) rest).trans ?_
    rw [verified_of_eq rfl]
    rfl
  rw [List.replicate_succ', Receiver.run_append, run_of_lost hlong hlost rest (Nat.le_refl _),
    List.drop_length, List.nil_append, Receiver.run_poll, hfound]
  rfl

/-- Five bytes of garbage before a frame of two: the last three lengths take in bytes of its
prefix. -/
theorem hunt_reaches_frame_across_border :
    let garbage : List UInt8 := [0xFF, 0xFF, 0, 0, 9]
    let sent : List UInt8 := [2, 0, 0, 0, 1, 2, 0x92, 0x42, 0xCC, 0xB6]
    ([1, 2] : List UInt8).length ≤ 16 ∧ (Frame.mk [1, 2]).encode 16 = .ok sent ∧
      Lost 16 garbage sent ∧
      (receiver 16).run (List.replicate 6 .poll) (garbage ++ sent ++ [7]) =
        ([.error (.size 0xFFFF), .error (.size 0x090000FF), .error (.size 0x02090000),
          .error (.size 0x00020900), .error (.size 0x00000209), .ok ⟨[1, 2]⟩], [7]) := by
  intro garbage sent
  obtain ⟨written, hencode, hhunt⟩ :=
    hunt_reaches_frame (show ([1, 2] : List UInt8).length ≤ 16 by decide) (by decide)
  have hwritten : written = sent := by
    rw [(of_encode_eq_ok hencode).2.2]
    decide +kernel
  rw [hwritten] at hencode hhunt
  have hlost : Lost 16 garbage sent := by
    unfold Lost
    decide
  have hlengths : (List.range 5).map (fun place => declared ((garbage ++ sent).drop place)) =
      [0xFFFF, 0x090000FF, 0x02090000, 0x00020900, 0x00000209] := by
    decide +kernel
  have hreports : oversizes garbage sent garbage.length =
      [0xFFFF, 0x090000FF, 0x02090000, 0x00020900, 0x00000209].map fun size =>
        .error (.size size) := by
    rw [← hlengths, List.map_map]
    rfl
  have hrun := (hhunt garbage hlost [7]).2
  rw [hreports] at hrun
  exact ⟨by decide, hencode, hlost, hrun⟩

end HubLink.Frame
