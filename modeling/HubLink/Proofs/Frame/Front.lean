import HubLink.Frame.Stream

/-!
# What a buffer says about its front

Every reader of frames asks `Frame.front` first.  This file says what its answers mean, byte by
byte: a whole frame is found exactly where a length prefix, that many bytes and a trailer stand
(`front_complete`, `exists_of_front_complete`), and an answer other than "more bytes are needed" is
final, because bytes that arrive later only lengthen what stays behind the front (`front_append`).

The second fact is the whole reason why a receiver may poll whenever it likes.
-/

namespace HubLink.Frame

open LittleEndian (word32)

/-- A length is declared once four bytes stand behind the prefix. -/
theorem declaredLength?_eq (b₀ b₁ b₂ b₃ : UInt8) {tail : List UInt8} (hlong : 4 ≤ tail.length) :
    declaredLength? (b₀ :: b₁ :: b₂ :: b₃ :: tail) = some (word32 b₀ b₁ b₂ b₃).toNat := by
  match tail, hlong with
  | _ :: _ :: _ :: _ :: _, _ => rfl

/-! ## A whole frame -/

/-- A prefix that declares the length of what follows, within the limit, and four more bytes make a
whole frame. -/
theorem front_complete {limit : Nat} {payload : List UInt8} {b₀ b₁ b₂ b₃ : UInt8}
    (hdeclared : (word32 b₀ b₁ b₂ b₃).toNat = payload.length) (hlimit : payload.length ≤ limit)
    (c₀ c₁ c₂ c₃ : UInt8) (rest : List UInt8) :
    front limit (b₀ :: b₁ :: b₂ :: b₃ :: (payload ++ c₀ :: c₁ :: c₂ :: c₃ :: rest)) =
      .complete payload (word32 c₀ c₁ c₂ c₃) rest := by
  have hlength : declaredLength?
      (b₀ :: b₁ :: b₂ :: b₃ :: (payload ++ c₀ :: c₁ :: c₂ :: c₃ :: rest)) =
        some payload.length := by
    rw [← hdeclared]
    apply declaredLength?_eq
    rw [List.length_append]
    exact Nat.le_add_left_of_le (Nat.le_add_left 4 rest.length)
  simp [front, hlength, Nat.not_lt.mpr hlimit, lengthPrefixSize, List.splitAt_eq]

/-- A length is declared as soon as the least frame could be there. -/
theorem exists_of_declaredLength? {buffer : List UInt8} {declared : Nat}
    (hdeclared : declaredLength? buffer = some declared) :
    ∃ b₀ b₁ b₂ b₃ tail, 4 ≤ tail.length ∧ (word32 b₀ b₁ b₂ b₃).toNat = declared ∧
      buffer = b₀ :: b₁ :: b₂ :: b₃ :: tail := by
  unfold declaredLength? at hdeclared
  split at hdeclared
  · cases hdeclared
    exact ⟨_, _, _, _, _, by simp, rfl, rfl⟩
  · cases hdeclared

/-- Where a whole frame is found, its parts stand one behind the other. -/
theorem exists_of_front_complete {limit : Nat} {buffer payload rest : List UInt8} {stated : UInt32}
    (hfront : front limit buffer = .complete payload stated rest) :
    payload.length ≤ limit ∧ ∃ b₀ b₁ b₂ b₃ c₀ c₁ c₂ c₃,
      (word32 b₀ b₁ b₂ b₃).toNat = payload.length ∧ stated = word32 c₀ c₁ c₂ c₃ ∧
        buffer = b₀ :: b₁ :: b₂ :: b₃ :: (payload ++ c₀ :: c₁ :: c₂ :: c₃ :: rest) := by
  cases hdeclared : declaredLength? buffer with
  | none => simp [front, hdeclared] at hfront
  | some declared =>
      obtain ⟨b₀, b₁, b₂, b₃, tail, _, rfl, rfl⟩ := exists_of_declaredLength? hdeclared
      simp only [front, hdeclared, lengthPrefixSize, List.drop_succ_cons, List.drop_zero,
        List.splitAt_eq] at hfront
      split at hfront
      · cases hfront
      next hlimit =>
        split at hfront
        next part c₀ c₁ c₂ c₃ behind hsplit =>
          cases hfront
          obtain ⟨rfl, hdrop⟩ := Prod.mk.inj hsplit
          have htail : tail =
              tail.take (word32 b₀ b₁ b₂ b₃).toNat ++ c₀ :: c₁ :: c₂ :: c₃ :: rest := by
            rw [← hdrop, List.take_append_drop]
          -- the trailer was found, so the bytes did not run out before it
          have hlong : (word32 b₀ b₁ b₂ b₃).toNat < tail.length := by
            have hlength := congrArg List.length hdrop
            simp only [List.length_drop, List.length_cons] at hlength
            omega
          have htake : (tail.take (word32 b₀ b₁ b₂ b₃).toNat).length =
              (word32 b₀ b₁ b₂ b₃).toNat := by
            rw [List.length_take, Nat.min_eq_left (Nat.le_of_lt hlong)]
          exact ⟨by omega, b₀, b₁, b₂, b₃, c₀, c₁, c₂, c₃, htake.symm, rfl, by rw [← htail]⟩
        · cases hfront

/-! ## An oversized prefix -/

/-- A prefix above the limit is reported as soon as the least frame could be there. -/
theorem front_oversize {limit : Nat} {b₀ b₁ b₂ b₃ : UInt8} {rest : List UInt8}
    (hlimit : limit < (word32 b₀ b₁ b₂ b₃).toNat) (hlong : 4 ≤ rest.length) :
    front limit (b₀ :: b₁ :: b₂ :: b₃ :: rest) = .oversize (word32 b₀ b₁ b₂ b₃).toNat := by
  simp [front, declaredLength?_eq b₀ b₁ b₂ b₃ hlong, hlimit]

theorem exists_of_front_oversize {limit : Nat} {buffer : List UInt8} {declared : Nat}
    (hfront : front limit buffer = .oversize declared) :
    limit < declared ∧ ∃ b₀ b₁ b₂ b₃ rest, 4 ≤ rest.length ∧
      (word32 b₀ b₁ b₂ b₃).toNat = declared ∧ buffer = b₀ :: b₁ :: b₂ :: b₃ :: rest := by
  cases hdeclared : declaredLength? buffer with
  | none => simp [front, hdeclared] at hfront
  | some size =>
      simp only [front, hdeclared] at hfront
      split at hfront
      next hlimit =>
        cases hfront
        exact ⟨hlimit, exists_of_declaredLength? hdeclared⟩
      · split at hfront <;> cases hfront

/-! ## Bytes that arrive later -/

/-- What stands at the front when more bytes have arrived, given what stood there before. -/
def Front.append (more : List UInt8) : Front → Front
  | .complete payload stated rest => .complete payload stated (rest ++ more)
  | other => other

/-- An answer about the front is final: later bytes only lengthen what stays behind it. -/
theorem front_append {limit : Nat} {buffer : List UInt8}
    (hfront : front limit buffer ≠ .incomplete) (more : List UInt8) :
    front limit (buffer ++ more) = (front limit buffer).append more := by
  cases hcase : front limit buffer with
  | incomplete => exact absurd hcase hfront
  | oversize declared =>
      obtain ⟨hlimit, b₀, b₁, b₂, b₃, rest, hlong, rfl, rfl⟩ := exists_of_front_oversize hcase
      have hlonger : 4 ≤ (rest ++ more).length := by
        rw [List.length_append]
        omega
      exact front_oversize hlimit hlonger
  | complete payload stated rest =>
      obtain ⟨hlimit, b₀, b₁, b₂, b₃, c₀, c₁, c₂, c₃, hdeclared, rfl, rfl⟩ :=
        exists_of_front_complete hcase
      simpa [Front.append] using front_complete hdeclared hlimit c₀ c₁ c₂ c₃ (rest ++ more)

end HubLink.Frame
