import HubLink.Binary.Real
import Mathlib.Tactic.Ring
import Mathlib.Tactic.Linarith

/-!
# Rounding to a binary format

Rounding looks at a quotient only as a number, so a common factor of its numerator and denominator
does not matter (`nearest_congr`), and it returns every finite magnitude from the exact value of
that magnitude (`nearest_units`).  These two facts are all that reading a printed number back needs.

A magnitude is written here as `binade * 2 ^ fractionBits + significand`, where the significand has
one bit more than the fraction, and has its top bit set unless the binade is the lowest one
(`IsSignificand`).  That covers subnormal and normal magnitudes without a case split, because the
lowest normal binade and the subnormal one have the same spacing.
-/

namespace HubLink.Binary

/-! ## Quotients with a common factor -/

theorem roundHalfEven_mul {factor : Nat} (hfactor : 0 < factor) (numerator denominator : Nat) :
    roundHalfEven (factor * numerator) (factor * denominator) =
      roundHalfEven numerator denominator := by
  have hless : 2 * (factor * (numerator % denominator)) < factor * denominator ↔
      2 * (numerator % denominator) < denominator := by
    rw [Nat.mul_left_comm]
    exact Nat.mul_lt_mul_left hfactor
  have htie : 2 * (factor * (numerator % denominator)) = factor * denominator ↔
      2 * (numerator % denominator) = denominator := by
    rw [Nat.mul_left_comm]
    exact Nat.mul_right_inj (Nat.ne_of_gt hfactor)
  simp only [roundHalfEven, Nat.mul_div_mul_left _ _ hfactor, Nat.mul_mod_mul_left, hless, htie]

theorem roundHalfEven_exact (quotient : Nat) {denominator : Nat} (hpositive : 0 < denominator) :
    roundHalfEven (quotient * denominator) denominator = quotient := by
  simp [roundHalfEven, Nat.mul_div_cancel _ hpositive, hpositive]

namespace Format

variable {format : Format}

theorem nearest_mul {factor : Nat} (hfactor : 0 < factor) (numerator denominator : Nat) :
    format.nearest (factor * numerator) (factor * denominator) =
      format.nearest numerator denominator := by
  simp only [nearest, Nat.mul_assoc, Nat.mul_div_mul_left _ _ hfactor, roundHalfEven_mul hfactor]

/-- Rounding depends only on the value of the quotient. -/
theorem nearest_congr {n₁ d₁ n₂ d₂ : Nat} (hd₁ : 0 < d₁) (hd₂ : 0 < d₂)
    (hvalue : n₁ * d₂ = n₂ * d₁) : format.nearest n₁ d₁ = format.nearest n₂ d₂ := by
  calc format.nearest n₁ d₁
      = format.nearest (d₂ * n₁) (d₂ * d₁) := (nearest_mul hd₂ _ _).symm
    _ = format.nearest (d₁ * n₂) (d₁ * d₂) := by
        rw [Nat.mul_comm d₂ n₁, hvalue, Nat.mul_comm n₂, Nat.mul_comm d₂]
    _ = format.nearest n₂ d₂ := nearest_mul hd₁ _ _

/-! ## Significands -/

/-- A significand of the format in a binade: it fits, and its top bit is set above the lowest
binade. -/
def IsSignificand (format : Format) (binade significand : Nat) : Prop :=
  significand < 2 * 2 ^ format.fractionBits ∧
    (binade = 0 ∨ 2 ^ format.fractionBits ≤ significand)

/-- Every magnitude has a binade and a significand. -/
theorem exists_significand (format : Format) (magnitude : Nat) :
    ∃ binade significand, format.IsSignificand binade significand ∧
      magnitude = binade * 2 ^ format.fractionBits + significand := by
  have hmod := Nat.mod_lt magnitude (Nat.two_pow_pos format.fractionBits)
  have hdiv := Nat.div_add_mod magnitude (2 ^ format.fractionBits)
  rcases hexponent : magnitude / 2 ^ format.fractionBits with _ | binade
  · rw [hexponent] at hdiv
    exact ⟨0, magnitude, ⟨by omega, Or.inl rfl⟩, by omega⟩
  · refine ⟨binade, 2 ^ format.fractionBits + magnitude % 2 ^ format.fractionBits,
      ⟨by omega, Or.inr (by omega)⟩, ?_⟩
    rw [hexponent, Nat.mul_comm, Nat.succ_mul] at hdiv
    omega

/-- The exact value of a magnitude is its significand, moved up by its binade. -/
theorem units_eq {binade significand : Nat}
    (hsignificand : format.IsSignificand binade significand) :
    format.units (binade * 2 ^ format.fractionBits + significand) = significand * 2 ^ binade := by
  obtain ⟨hfits, htop⟩ := hsignificand
  have hpositive := Nat.two_pow_pos format.fractionBits
  by_cases hlow : significand < 2 ^ format.fractionBits
  · -- a clear top bit: the fraction alone, in the lowest binade
    have hbinade : binade = 0 := htop.resolve_right (Nat.not_le.mpr hlow)
    simp [units, hbinade, Nat.div_eq_of_lt hlow, Nat.mod_eq_of_lt hlow]
  · obtain ⟨fraction, rfl⟩ := Nat.exists_eq_add_of_le (Nat.not_lt.mp hlow)
    have hfraction : fraction < 2 ^ format.fractionBits := by omega
    have hmagnitude : binade * 2 ^ format.fractionBits + (2 ^ format.fractionBits + fraction) =
        2 ^ format.fractionBits * (binade + 1) + fraction := by ring
    rw [hmagnitude]
    simp [units, Nat.mul_add_div hpositive, Nat.div_eq_of_lt hfraction, Nat.mod_eq_of_lt hfraction]

/-- Rounding the exact value of a binade and a significand puts the two together. -/
theorem nearest_significand {binade significand : Nat}
    (hsignificand : format.IsSignificand binade significand) :
    format.nearest (significand * 2 ^ binade) (2 ^ format.depth) =
      min format.infinity (binade * 2 ^ format.fractionBits + significand) := by
  obtain ⟨hfits, htop⟩ := hsignificand
  have hlog : (significand * 2 ^ binade).log2 - format.fractionBits = binade := by
    rcases htop with rfl | htop
    · -- in the lowest binade the difference is truncated at zero
      rcases Nat.eq_zero_or_pos significand with rfl | hpositive
      · simp
      · have hlt : (significand * 2 ^ 0).log2 < format.fractionBits + 1 := by
          rw [Nat.pow_zero, Nat.mul_one, Nat.log2_lt (Nat.ne_of_gt hpositive), Nat.pow_succ']
          exact hfits
        omega
    · have heq : (significand * 2 ^ binade).log2 = format.fractionBits + binade := by
        have hpositive : 0 < significand := Nat.lt_of_lt_of_le (Nat.two_pow_pos _) htop
        rw [Nat.log2_eq_iff (Nat.ne_of_gt (Nat.mul_pos hpositive (Nat.two_pow_pos _)))]
        constructor
        · rw [Nat.pow_add]
          exact Nat.mul_le_mul_right _ htop
        · rw [show format.fractionBits + binade + 1 = (format.fractionBits + 1) + binade by omega,
            Nat.pow_add, Nat.pow_succ']
          exact Nat.mul_lt_mul_of_pos_right hfits (Nat.two_pow_pos _)
      omega
  have hexact : roundHalfEven (significand * 2 ^ binade * 2 ^ format.depth)
      (2 ^ format.depth * 2 ^ binade) = significand := by
    rw [Nat.mul_assoc, Nat.mul_comm (2 ^ binade)]
    exact roundHalfEven_exact _ (Nat.mul_pos (Nat.two_pow_pos _) (Nat.two_pow_pos _))
  simp only [nearest, Nat.mul_div_cancel _ (Nat.two_pow_pos format.depth), hlog, hexact]

/-- **A finite magnitude is returned from its exact value.** -/
theorem nearest_units {magnitude : Nat} (hfinite : magnitude < format.infinity) :
    format.nearest (format.units magnitude) (2 ^ format.depth) = magnitude := by
  obtain ⟨binade, significand, hsignificand, rfl⟩ := exists_significand format magnitude
  rw [units_eq hsignificand, nearest_significand hsignificand, Nat.min_eq_right hfinite.le]

end Format

end HubLink.Binary
