import HubLink.Bytes.LittleEndian
import HubLink.Checksum

/-!
# The checksum register

One bit step of the register is linear over exclusive or, and it forgets nothing: the generator has
a nonzero constant term, which is the top bit here, so a step that subtracted it can be told from a
step that did not (`step_injective`).  Absorbing four bytes is therefore thirty-two lossless steps
applied to the register plus the word of those bytes (`absorb_word`), which has two consequences:

* two different runs of four bytes lead one register to two registers (`absorb_word_injective`);
* after a payload and its trailer the register holds a fixed value exactly if the trailer is the
  checksum of the payload (`register_trailer_iff`).
-/

namespace HubLink.Checksum

open LittleEndian (word32)

/-! ## One bit -/

theorem low_bit (register : UInt32) : register &&& 1 = if register.toNat % 2 = 1 then 1 else 0 := by
  apply UInt32.toNat_inj.mp
  rw [UInt32.toNat_and]
  change register.toNat &&& 1 = _
  rw [Nat.and_one_is_mod]
  split
  next hodd => rw [hodd]; rfl
  next heven => rw [Nat.mod_two_ne_one.mp heven]; rfl

theorem step_eq (register : UInt32) :
    step register = (register >>> 1) ^^^ if register.toNat % 2 = 1 then polynomial else 0 := by
  rw [step, low_bit]
  by_cases hodd : register.toNat % 2 = 1
  · simp [hodd]
  · simp [hodd]

theorem toNat_xor_mod_two (a b : UInt32) :
    (a ^^^ b).toNat % 2 = (a.toNat + b.toNat) % 2 := by
  rw [UInt32.toNat_xor, ← Nat.and_one_is_mod, Nat.and_xor_distrib_right, Nat.and_one_is_mod,
    Nat.and_one_is_mod]
  rcases Nat.mod_two_eq_zero_or_one a.toNat with ha | ha <;>
    rcases Nat.mod_two_eq_zero_or_one b.toNat with hb | hb <;>
    rw [ha, hb, Nat.add_mod, ha, hb] <;> rfl

/-- A bit step is linear. -/
theorem step_xor (a b : UInt32) : step (a ^^^ b) = step a ^^^ step b := by
  -- where both low bits are set the generator is subtracted twice
  have hcancel : ∀ x y p : UInt32, x ^^^ y = (x ^^^ p) ^^^ (y ^^^ p) := by
    intro x y p
    rw [UInt32.xor_assoc x p, ← UInt32.xor_assoc p y, UInt32.xor_comm p y, UInt32.xor_assoc y p,
      UInt32.xor_self, UInt32.xor_zero]
  rw [step_eq, step_eq, step_eq, toNat_xor_mod_two, UInt32.shiftRight_xor]
  rcases Nat.mod_two_eq_zero_or_one a.toNat with ha | ha <;>
    rcases Nat.mod_two_eq_zero_or_one b.toNat with hb | hb <;>
    simp only [Nat.add_mod, ha, hb, Nat.zero_mod, Nat.mod_self, Nat.reduceAdd, Nat.reduceMod,
      Nat.zero_ne_one, if_true, if_false, UInt32.xor_zero]
  · rw [UInt32.xor_assoc]
  · rw [UInt32.xor_assoc, UInt32.xor_assoc, UInt32.xor_comm polynomial]
  · exact hcancel _ _ _

/-- Only the empty register steps to the empty one: the top bit of the generator would stay. -/
theorem eq_zero_of_step {register : UInt32} (hstep : step register = 0) : register = 0 := by
  have hshift : (register >>> 1).toNat = register.toNat / 2 := by
    rw [UInt32.toNat_shiftRight]
    exact Nat.shiftRight_eq_div_pow register.toNat 1
  have hlt := register.toNat_lt
  rw [step_eq] at hstep
  split at hstep
  next hodd =>
    -- the generator would equal a register that was just shifted, whose top bit is clear
    rw [UInt32.xor_eq_zero_iff.mp hstep] at hshift
    have htop : polynomial.toNat = 0xEDB88320 := rfl
    omega
  next heven =>
    rw [UInt32.xor_zero] at hstep
    rw [hstep] at hshift
    have hzero : (0 : UInt32).toNat = 0 := rfl
    apply UInt32.toNat_inj.mp
    omega

theorem step_injective {a b : UInt32} (heq : step a = step b) : a = b := by
  have hzero : step (a ^^^ b) = 0 := by rw [step_xor, heq, UInt32.xor_self]
  exact UInt32.xor_eq_zero_iff.mp (eq_zero_of_step hzero)

/-- A register whose lowest bit is clear only moves down. -/
theorem step_double {n : Nat} (hn : 2 * n < UInt32.size) :
    step (UInt32.ofNat (2 * n)) = UInt32.ofNat n := by
  have heven : (UInt32.ofNat (2 * n)).toNat = 2 * n := UInt32.toNat_ofNat_of_lt' hn
  rw [step_eq, heven, if_neg (by omega), UInt32.xor_zero]
  apply UInt32.toNat_inj.mp
  rw [UInt32.toNat_shiftRight, heven, UInt32.toNat_ofNat_of_lt' (Nat.lt_of_le_of_lt (by omega) hn)]
  change (2 * n) >>> 1 = n
  rw [Nat.shiftRight_eq_div_pow]
  omega

/-! ## One byte -/

theorem eightSteps_xor (a b : UInt32) : eightSteps (a ^^^ b) = eightSteps a ^^^ eightSteps b := by
  simp only [eightSteps, step_xor]

theorem eightSteps_injective {a b : UInt32} (heq : eightSteps a = eightSteps b) : a = b := by
  simp only [eightSteps] at heq
  iterate 8 replace heq := step_injective heq
  exact heq

/-- A register whose lowest byte is clear only moves down by that byte. -/
theorem eightSteps_shifted {n : Nat} (hn : 256 * n < UInt32.size) :
    eightSteps (UInt32.ofNat (256 * n)) = UInt32.ofNat n := by
  have hdoubled : 256 * n = 2 * (2 * (2 * (2 * (2 * (2 * (2 * (2 * n))))))) := by omega
  rw [hdoubled, eightSteps, step_double (by omega), step_double (by omega), step_double (by omega),
    step_double (by omega), step_double (by omega), step_double (by omega), step_double (by omega),
    step_double (by omega)]

theorem absorb_injective {a b : UInt32} {byte : UInt8} (heq : absorb a byte = absorb b byte) :
    a = b :=
  (UInt32.xor_left_inj _).mp (eightSteps_injective heq)

/-! ## Four bytes -/

/-- A byte and a number moved up by a byte share no bit. -/
theorem xor_shifted {low : Nat} (hlow : low < UInt8.size) (upper : Nat) :
    low ^^^ (256 * upper) = low + 256 * upper := by
  rw [Nat.add_comm, show 256 * upper = 2 ^ 8 * upper by rfl]
  apply Nat.eq_of_testBit_eq
  intro i
  rw [Nat.testBit_xor, Nat.testBit_two_pow_mul_add upper hlow, Nat.testBit_two_pow_mul]
  by_cases hi : i < 8
  · simp [hi, Nat.not_le.mpr hi]
  · have hclear : low.testBit i = false :=
      Nat.testBit_lt_two_pow
        (Nat.lt_of_lt_of_le hlow (Nat.pow_le_pow_right Nat.two_pos (Nat.not_lt.mp hi)))
    simp [hi, hclear, Nat.not_lt.mp hi]

theorem toNat_upper_word (b₁ b₂ b₃ : UInt8) :
    (word32 b₁ b₂ b₃ 0).toNat = b₁.toNat + 256 * b₂.toNat + 65536 * b₃.toNat := by
  rw [LittleEndian.toNat_word32]
  rfl

theorem toNat_upper_word_lt (b₁ b₂ b₃ : UInt8) : 256 * (word32 b₁ b₂ b₃ 0).toNat < UInt32.size := by
  have h₁ := b₁.toNat_lt
  have h₂ := b₂.toNat_lt
  have h₃ := b₃.toNat_lt
  have hsize : UInt32.size = 256 * 2 ^ 24 := rfl
  rw [toNat_upper_word]
  omega

/-- A word is its lowest byte plus the bytes above it, moved up. -/
theorem word32_eq_xor (b₀ b₁ b₂ b₃ : UInt8) :
    word32 b₀ b₁ b₂ b₃ =
      b₀.toUInt32 ^^^ UInt32.ofNat (256 * (word32 b₁ b₂ b₃ 0).toNat) := by
  apply UInt32.toNat_inj.mp
  rw [UInt32.toNat_xor, UInt32.toNat_ofNat_of_lt' (toNat_upper_word_lt b₁ b₂ b₃),
    UInt8.toNat_toUInt32, xor_shifted b₀.toNat_lt, toNat_upper_word, LittleEndian.toNat_word32]
  omega

/-- Absorbing a byte is eight steps on the register plus a word that starts with it; what is left of
the word has moved down. -/
theorem eightSteps_word (register : UInt32) (b₀ b₁ b₂ b₃ : UInt8) :
    eightSteps (register ^^^ word32 b₀ b₁ b₂ b₃) = absorb register b₀ ^^^ word32 b₁ b₂ b₃ 0 := by
  rw [word32_eq_xor, ← UInt32.xor_assoc, eightSteps_xor,
    eightSteps_shifted (toNat_upper_word_lt b₁ b₂ b₃), UInt32.ofNat_toNat]
  rfl

/-- Thirty-two bit steps. -/
def wordSteps (register : UInt32) : UInt32 :=
  eightSteps (eightSteps (eightSteps (eightSteps register)))

theorem wordSteps_injective {a b : UInt32} (heq : wordSteps a = wordSteps b) : a = b := by
  simp only [wordSteps] at heq
  iterate 4 replace heq := eightSteps_injective heq
  exact heq

/-- **Four bytes are one word.**  Absorbing them is thirty-two steps on the register plus their
word. -/
theorem absorb_word (register : UInt32) (b₀ b₁ b₂ b₃ : UInt8) :
    [b₀, b₁, b₂, b₃].foldl absorb register = wordSteps (register ^^^ word32 b₀ b₁ b₂ b₃) := by
  have hzero : word32 0 0 0 0 = 0 := rfl
  simp only [List.foldl, wordSteps]
  rw [eightSteps_word, eightSteps_word, eightSteps_word, eightSteps_word, hzero, UInt32.xor_zero]

/-- Two different runs of four bytes lead one register to two registers. -/
theorem absorb_word_injective {register : UInt32} {first second : List UInt8}
    (hfirst : first.length = 4) (hsecond : second.length = 4)
    (heq : first.foldl absorb register = second.foldl absorb register) : first = second := by
  match first, second, hfirst, hsecond with
  | [a₀, a₁, a₂, a₃], [b₀, b₁, b₂, b₃], _, _ =>
    rw [absorb_word, absorb_word] at heq
    have hword := (UInt32.xor_right_inj register).mp (wordSteps_injective heq)
    rw [← LittleEndian.bytes32_word32 a₀, hword, LittleEndian.bytes32_word32]

/-! ## Runs of bytes -/

theorem foldl_absorb_injective {a b : UInt32} (data : List UInt8)
    (heq : data.foldl absorb a = data.foldl absorb b) : a = b := by
  induction data generalizing a b with
  | nil => exact heq
  | cons byte data ih => exact absorb_injective (ih heq)

/-- After a payload and four more bytes the register holds a fixed value exactly if those bytes are
the checksum of the payload. -/
theorem register_trailer_iff (payload : List UInt8) (c₀ c₁ c₂ c₃ : UInt8) :
    (payload ++ [c₀, c₁, c₂, c₃]).foldl absorb 0xFFFFFFFF = wordSteps 0xFFFFFFFF ↔
      checksum payload = word32 c₀ c₁ c₂ c₃ := by
  rw [List.foldl_append, absorb_word, checksum]
  generalize payload.foldl absorb 0xFFFFFFFF = register
  constructor
  · intro heq
    rw [← wordSteps_injective heq, ← UInt32.xor_assoc, UInt32.xor_self, UInt32.zero_xor]
  · intro heq
    rw [← heq, ← UInt32.xor_assoc, UInt32.xor_self, UInt32.zero_xor]

end HubLink.Checksum
