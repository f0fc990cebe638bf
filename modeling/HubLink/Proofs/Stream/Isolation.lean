import HubLink.Proofs.Frame.Layout
import HubLink.Proofs.Outcome
import HubLink.Proofs.Stream.Session

/-!
# Damaged frames among others

A stream carries frames back to back, and some of them are damaged on the way.  As long as a length
prefix arrives as it was sent, the damage stays where it is: every frame is reported once and in its
place, an intact one with its payload and a damaged one with the two checksums that differ, and a
last frame that has not arrived whole is kept (`damage_stays_in_place`).

What carries the proof is that a frame says how long it is, and that a poll believes the prefix
before it looks at the checksum: whatever stands behind the prefix, one poll takes the frame and no
byte of its neighbour (`drain_parts`).
-/

namespace HubLink.Frame

open LittleEndian (word32)

/-- The payload in the bytes of a frame. -/
def body (bytes : List UInt8) : List UInt8 :=
  (bytes.drop lengthPrefixSize).take (bytes.length - overhead)

/-- The checksum that the bytes of a frame state. -/
def stated (bytes : List UInt8) : UInt32 :=
  match bytes.drop (bytes.length - checksumSize) with
  | [b₀, b₁, b₂, b₃] => word32 b₀ b₁ b₂ b₃
  | _ => 0

/-- What arrives in place of a frame: as many bytes, the same prefix, and a checksum that is not that
of the payload. -/
structure Damaged (payload received : List UInt8) : Prop where
  length_eq : received.length = (layout payload).length
  prefix_eq : received.take lengthPrefixSize = (layout payload).take lengthPrefixSize
  stated_ne : stated received ≠ checksum (body received)

/-- A frame on its way, with its payload. -/
inductive Transit where
  | intact (payload : List UInt8)
  | damaged (payload received : List UInt8)

namespace Transit

/-- A payload that can be sent, and bytes that can arrive for it. -/
def Admissible (limit : Nat) : Transit → Prop
  | intact payload => payload.length ≤ limit ∧ payload.length < UInt32.size
  | damaged payload received =>
    payload.length ≤ limit ∧ payload.length < UInt32.size ∧ Damaged payload received

/-- The bytes that arrive. -/
def arrived (limit : Nat) : Transit → Except LinkFault (List UInt8)
  | intact payload => (Frame.mk payload).encode limit
  | damaged _ received => .ok received

/-- What is reported of the frame. -/
def outcome : Transit → Except LinkFault Frame
  | intact payload => .ok ⟨payload⟩
  | damaged _ received => .error (.checksum (stated received) (checksum (body received)))

end Transit

variable {limit : Nat} {payload received : List UInt8}

/-! ## One frame -/

theorem body_parts (payload : List UInt8) (trailer : UInt32) :
    body (parts payload trailer) = payload := by
  have hbehind : (parts payload trailer).drop lengthPrefixSize =
      payload ++ LittleEndian.bytes32 trailer := by
    rw [parts, List.append_assoc]
    exact List.drop_left' rfl
  rw [body, length_parts, hbehind]
  exact List.take_left' rfl

theorem stated_parts (payload : List UInt8) (trailer : UInt32) :
    stated (parts payload trailer) = trailer := by
  obtain ⟨b₀, b₁, b₂, b₃, hbytes, hword⟩ := LittleEndian.exists_bytes32_eq trailer
  have hlast : (parts payload trailer).drop ((parts payload trailer).length - checksumSize) =
      [b₀, b₁, b₂, b₃] := by
    rw [length_parts, parts, hbytes]
    apply List.drop_left'
    rw [List.length_append, LittleEndian.length_bytes32, checksumSize]
    omega
  rw [stated, hlast]
  exact hword

/-- Whatever became of a frame, what arrives is a prefix, a payload of the length that was sent and
a trailer, and the outcome is what a reader makes of the two. -/
theorem Transit.exists_parts {transit : Transit} (hadmissible : transit.Admissible limit) :
    ∃ payload trailer, transit.arrived limit = .ok (parts payload trailer) ∧
      payload.length ≤ limit ∧ payload.length < UInt32.size ∧
      verified payload trailer = transit.outcome := by
  cases transit with
  | intact payload =>
      obtain ⟨hlimit, hsize⟩ := hadmissible
      exact ⟨payload, checksum payload, encode_eq_layout hlimit hsize, hlimit, hsize,
        verified_of_eq rfl⟩
  | damaged payload received =>
      obtain ⟨hlimit, hsize, hdamaged⟩ := hadmissible
      obtain ⟨content, trailer, rfl, hlength⟩ :=
        Frame.exists_parts hdamaged.length_eq hdamaged.prefix_eq
      have hne := hdamaged.stated_ne
      rw [body_parts, stated_parts] at hne
      refine ⟨content, trailer, rfl, hlength ▸ hlimit, hlength ▸ hsize, ?_⟩
      rw [verified_of_ne hne.symm, Transit.outcome, body_parts, stated_parts]

theorem drain_parts (hlimit : payload.length ≤ limit) (hsize : payload.length < UInt32.size)
    (trailer : UInt32) (rest : List UInt8) :
    (receiver limit).drain (parts payload trailer ++ rest) =
      (verified payload trailer :: ((receiver limit).drain rest).1,
        ((receiver limit).drain rest).2) := by
  have hpoll : (receiver limit).poll (parts payload trailer ++ rest) =
      ((verified payload trailer).map some, rest) := poll_parts hlimit hsize trailer rest
  have hreport : Receiver.report ((verified payload trailer).map some) =
      [verified payload trailer] := by
    unfold verified
    split <;> rfl
  rw [Receiver.drain_of_report (by rw [hpoll]; exact verified_ne_wait payload trailer), hpoll,
    hreport]
  rfl

/-! ## A stream of frames -/

theorem drain_transits {transits : List Transit}
    (hadmissible : ∀ transit ∈ transits, transit.Admissible limit) (rest : List UInt8) :
    ∃ arrived, transits.mapM (Transit.arrived limit) = .ok arrived ∧
      (receiver limit).drain (arrived.flatten ++ rest) =
        (transits.map Transit.outcome ++ ((receiver limit).drain rest).1,
          ((receiver limit).drain rest).2) := by
  induction transits with
  | nil => exact ⟨[], rfl, rfl⟩
  | cons transit transits ih =>
      obtain ⟨hfirst, hothers⟩ := List.forall_mem_cons.mp hadmissible
      obtain ⟨payload, trailer, hparts, hlimit, hsize, houtcome⟩ := Transit.exists_parts hfirst
      obtain ⟨arrived, harrived, hdrain⟩ := ih hothers
      refine ⟨parts payload trailer :: arrived, ?_, ?_⟩
      · rw [List.mapM_cons, hparts, harrived]
        rfl
      · rw [List.flatten_cons, List.append_assoc, drain_parts hlimit hsize, hdrain, houtcome]
        rfl

/-- **Damage stays where it is.**  Frames are sent within the limit, one behind the other, and each
of them arrives intact, or damaged behind its length prefix so that its checksum is wrong; of one
more frame only a part arrives.  Then polling until more bytes are needed reports every frame once
and in order, with its payload or with the two checksums, and leaves exactly the part. -/
theorem damage_stays_in_place {transits : List Transit}
    (hadmissible : ∀ transit ∈ transits, transit.Admissible limit) {frame : Frame}
    {sent tail : List UInt8} (hencode : frame.encode limit = .ok sent) (hpart : tail <+: sent)
    (hshort : tail ≠ sent) :
    ∃ arrived, transits.mapM (Transit.arrived limit) = .ok arrived ∧
      (receiver limit).drain (arrived.flatten ++ tail) = (transits.map Transit.outcome, tail) ∧
      poll limit tail = (.ok none, tail) := by
  obtain ⟨arrived, harrived, hdrain⟩ := drain_transits hadmissible tail
  have hfront := front_of_part hencode hpart hshort
  have hwait : ((receiver limit).poll tail).1 = .ok none := poll_wait_iff.mpr hfront
  rw [Receiver.drain_of_wait hwait, List.append_nil] at hdrain
  exact ⟨arrived, harrived, hdrain, by rw [poll, hfront]⟩

/-- The second of three frames is damaged, in its payload and in its trailer, and the stream breaks
off within a fourth one. -/
theorem damage_stays_in_place_between_frames :
    let transits : List Transit :=
      [.intact [], .damaged [3] [1, 0, 0, 0, 9, 0, 0, 0, 7], .intact []]
    let empty : List UInt8 := [0, 0, 0, 0, 0, 0, 0, 0]
    (∀ transit ∈ transits, transit.Admissible 4) ∧
      (receiver 4).drain (empty ++ [1, 0, 0, 0, 9, 0, 0, 0, 7] ++ empty ++ [2, 0, 0, 0, 5]) =
        ([.ok ⟨[]⟩, .error (.checksum 0x07000000 (checksum [9])), .ok ⟨[]⟩], [2, 0, 0, 0, 5]) := by
  intro transits empty
  have hdamaged : Damaged [3] [1, 0, 0, 0, 9, 0, 0, 0, 7] :=
    ⟨by decide +kernel, by decide +kernel, by decide +kernel⟩
  have hempty : Transit.Admissible 4 (.intact []) := ⟨by decide, by decide⟩
  have hadmissible : ∀ transit ∈ transits, transit.Admissible 4 :=
    List.forall_mem_cons.mpr ⟨hempty, List.forall_mem_cons.mpr
      ⟨⟨by decide, by decide, hdamaged⟩, List.forall_mem_singleton.mpr hempty⟩⟩
  have hfourth : (Frame.mk [5, 6]).encode 4 = .ok (layout [5, 6]) :=
    encode_eq_layout (by decide) (by decide)
  obtain ⟨arrived, harrived, hdrain, _⟩ := damage_stays_in_place hadmissible hfourth
    (show [2, 0, 0, 0, 5] <+: layout [5, 6] by decide +kernel) (by decide +kernel)
  have hencode : (Frame.mk []).encode 4 = .ok empty := by
    rw [show empty = layout [] by decide +kernel]
    exact encode_eq_layout (by decide) (by decide)
  have hbytes : transits.mapM (Transit.arrived 4) =
      .ok [empty, [1, 0, 0, 0, 9, 0, 0, 0, 7], empty] := by
    simp only [transits, List.mapM_cons, List.mapM_nil, Transit.arrived, hencode]
    rfl
  obtain rfl := Except.ok.inj (hbytes.symm.trans harrived)
  exact ⟨hadmissible, hdrain⟩

end HubLink.Frame
