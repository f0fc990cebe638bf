import HubLink.Bytes.LittleEndian

/-!
# Numbers at a place among other bytes

A number on the link is some bytes of a longer string, the lowest first.  `value` is what any bytes
stand for, however many they are, so that a statement about a field can name the place of its bytes
and needs no word size.
-/

namespace HubLink.LittleEndian

/-- The number that some bytes stand for, the lowest byte first. -/
def value : List UInt8 → Nat
  | [] => 0
  | byte :: rest => byte.toNat + 256 * value rest

theorem value_word16 (b₀ b₁ : UInt8) : value [b₀, b₁] = (word16 b₀ b₁).toNat := by
  rw [toNat_word16]
  rfl

theorem value_word32 (b₀ b₁ b₂ b₃ : UInt8) :
    value [b₀, b₁, b₂, b₃] = (word32 b₀ b₁ b₂ b₃).toNat := by
  rw [toNat_word32]
  simp only [value]
  omega

end HubLink.LittleEndian
