/-!
# Little-endian integers

Every multi-byte field on the link is little-endian.  Words are taken apart and put together by
division and remainder on `Nat`, so that the two directions are inverse by linear arithmetic.
-/

namespace HubLink.LittleEndian

/-- The two bytes of a 16-bit word, low byte first. -/
def bytes16 (word : UInt16) : List UInt8 :=
  [UInt8.ofNat word.toNat, UInt8.ofNat (word.toNat / 256)]

/-- The 16-bit word with the given bytes, low byte first. -/
def word16 (b₀ b₁ : UInt8) : UInt16 :=
  UInt16.ofNat (b₀.toNat + 256 * b₁.toNat)

/-- The four bytes of a 32-bit word, low byte first. -/
def bytes32 (word : UInt32) : List UInt8 :=
  [UInt8.ofNat word.toNat, UInt8.ofNat (word.toNat / 256), UInt8.ofNat (word.toNat / 65536),
    UInt8.ofNat (word.toNat / 16777216)]

/-- The 32-bit word with the given bytes, low byte first. -/
def word32 (b₀ b₁ b₂ b₃ : UInt8) : UInt32 :=
  UInt32.ofNat (b₀.toNat + 256 * b₁.toNat + 65536 * b₂.toNat + 16777216 * b₃.toNat)

@[simp]
theorem length_bytes32 (word : UInt32) : (bytes32 word).length = 4 := rfl

theorem toNat_word16 (b₀ b₁ : UInt8) : (word16 b₀ b₁).toNat = b₀.toNat + 256 * b₁.toNat := by
  have h₀ := b₀.toNat_lt
  have h₁ := b₁.toNat_lt
  rw [word16, UInt16.toNat_ofNat']
  omega

theorem toNat_word32 (b₀ b₁ b₂ b₃ : UInt8) :
    (word32 b₀ b₁ b₂ b₃).toNat =
      b₀.toNat + 256 * b₁.toNat + 65536 * b₂.toNat + 16777216 * b₃.toNat := by
  have h₀ := b₀.toNat_lt
  have h₁ := b₁.toNat_lt
  have h₂ := b₂.toNat_lt
  have h₃ := b₃.toNat_lt
  rw [word32, UInt32.toNat_ofNat']
  omega

/-- A word is what its two bytes stand for. -/
theorem word16_bytes (word : UInt16) :
    word16 (UInt8.ofNat word.toNat) (UInt8.ofNat (word.toNat / 256)) = word := by
  have hlt := word.toNat_lt
  apply UInt16.toNat_inj.mp
  rw [toNat_word16]
  simp only [UInt8.toNat_ofNat']
  omega

/-- A word is what its bytes stand for. -/
theorem word32_bytes (word : UInt32) :
    word32 (UInt8.ofNat word.toNat) (UInt8.ofNat (word.toNat / 256))
      (UInt8.ofNat (word.toNat / 65536)) (UInt8.ofNat (word.toNat / 16777216)) = word := by
  have hlt := word.toNat_lt
  apply UInt32.toNat_inj.mp
  rw [toNat_word32]
  simp only [UInt8.toNat_ofNat']
  omega

theorem exists_bytes32_eq (word : UInt32) :
    ∃ b₀ b₁ b₂ b₃, bytes32 word = [b₀, b₁, b₂, b₃] ∧ word32 b₀ b₁ b₂ b₃ = word :=
  ⟨_, _, _, _, rfl, word32_bytes word⟩

/-- A byte keeps the low eight bits of a number. -/
theorem ofNat_eq_of_mod (byte : UInt8) {n : Nat} (hmod : n % 256 = byte.toNat) :
    UInt8.ofNat n = byte := by
  apply UInt8.toNat_inj.mp
  rw [UInt8.toNat_ofNat']
  exact hmod

/-- Two bytes are the bytes of the word that they stand for. -/
@[simp]
theorem bytes16_word16 (b₀ b₁ : UInt8) : bytes16 (word16 b₀ b₁) = [b₀, b₁] := by
  have h₀ := b₀.toNat_lt
  have h₁ := b₁.toNat_lt
  rw [bytes16, toNat_word16, ofNat_eq_of_mod b₀ (by omega), ofNat_eq_of_mod b₁ (by omega)]

/-- Four bytes are the bytes of the word that they stand for. -/
@[simp]
theorem bytes32_word32 (b₀ b₁ b₂ b₃ : UInt8) :
    bytes32 (word32 b₀ b₁ b₂ b₃) = [b₀, b₁, b₂, b₃] := by
  have h₀ := b₀.toNat_lt
  have h₁ := b₁.toNat_lt
  have h₂ := b₂.toNat_lt
  have h₃ := b₃.toNat_lt
  rw [bytes32, toNat_word32, ofNat_eq_of_mod b₀ (by omega), ofNat_eq_of_mod b₁ (by omega),
    ofNat_eq_of_mod b₂ (by omega), ofNat_eq_of_mod b₃ (by omega)]

end HubLink.LittleEndian
