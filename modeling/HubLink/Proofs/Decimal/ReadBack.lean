import HubLink.Decimal.Shortest
import HubLink.Proofs.Binary.Rounding

/-!
# Shortest decimals read back

The reader settles decimals that are out of reach by their exponent without writing them out, so its
answer has to be tied to exact rounding first (`nearest_eq`).  After that a decimal may be written
with more or fewer trailing zeros without a change to what is read (`nearest_scale`), and the
shortest decimal of a magnitude reads back to it (`nearest_shortest`): each candidate was tested
with the reader, and the exact value, which stands behind them all, is rounded to itself.
-/

namespace HubLink.Decimal

open Binary (Format)

namespace Scaled

variable {format : Format}

theorem fraction_eq (decimal : Scaled) :
    decimal.fraction =
      (decimal.digits * 10 ^ decimal.exponent.toNat, 10 ^ (-decimal.exponent).toNat) := by
  obtain ⟨digits, places | places⟩ := decimal
  · simp [fraction]
  · have hplaces : (-Int.negSucc places).toNat = places + 1 := by omega
    show (digits, 10 ^ (places + 1)) = _
    rw [hplaces, Int.toNat_negSucc, Nat.pow_zero, Nat.mul_one]

/-! ## Out of reach -/

/-- A quotient with a large enough binary logarithm is rounded to infinity. -/
theorem nearest_eq_infinity {quotient places : Nat}
    (hplaces : 2 ^ format.exponentBits - 1 + format.fractionBits ≤ places)
    (hlarge : 2 ^ places ≤ quotient * 2 ^ format.depth) :
    format.nearest quotient 1 = format.infinity := by
  have hlog : places ≤ (quotient * 2 ^ format.depth / 1).log2 := by
    rw [Nat.div_one, Nat.le_log2]
    · exact hlarge
    · have := Nat.two_pow_pos places
      omega
  have hbinade : 2 ^ format.exponentBits - 1 ≤
      (quotient * 2 ^ format.depth / 1).log2 - format.fractionBits := by omega
  apply Nat.min_eq_left
  exact Nat.le_trans (Nat.mul_le_mul_right _ hbinade) (Nat.le_add_right _ _)

/-- A quotient below half the least positive value is rounded to zero. -/
theorem nearest_eq_zero {numerator denominator : Nat}
    (hsmall : 2 * (numerator * 2 ^ format.depth) < denominator) :
    format.nearest numerator denominator = 0 := by
  have hless : numerator * 2 ^ format.depth < denominator := by omega
  simp [Format.nearest, Binary.roundHalfEven, Nat.div_eq_of_lt hless, Nat.mod_eq_of_lt hless,
    hsmall]

theorem depth_bound (format : Format) :
    2 ^ format.exponentBits - 1 + format.fractionBits ≤ 3 * (format.depth + 1) + format.depth := by
  have hhalf : 2 ^ format.exponentBits ≤ 2 * 2 ^ (format.exponentBits - 1) := by
    rw [← Nat.pow_succ']
    exact Nat.pow_le_pow_right (by decide) (by omega)
  unfold Format.depth
  omega

/-- **The reader rounds exactly**, also where it does not write the decimal out. -/
theorem nearest_eq (decimal : Scaled) :
    decimal.nearest format = format.nearest decimal.fraction.1 decimal.fraction.2 := by
  unfold nearest
  split
  next hzero =>
    rw [fraction_eq, hzero, Nat.zero_mul]
    simp [Format.nearest, Binary.roundHalfEven]
  next hdigits =>
    have hpositive : 0 < decimal.digits := Nat.pos_of_ne_zero hdigits
    split
    next hlarge =>
      -- at least one, times a power of ten that is above every finite value
      have hexponent : format.depth + 1 ≤ decimal.exponent.toNat := by omega
      have hnegative : (-decimal.exponent).toNat = 0 := by omega
      rw [fraction_eq, hnegative]
      refine (nearest_eq_infinity (depth_bound format) ?_).symm
      calc 2 ^ (3 * (format.depth + 1) + format.depth)
          = 8 ^ (format.depth + 1) * 2 ^ format.depth := by
            rw [Nat.pow_add, Nat.pow_mul]
        _ ≤ 10 ^ (format.depth + 1) * 2 ^ format.depth :=
            Nat.mul_le_mul_right _ (Nat.pow_le_pow_left (show 8 ≤ 10 by decide) _)
        _ ≤ 10 ^ decimal.exponent.toNat * 2 ^ format.depth :=
            Nat.mul_le_mul_right _ (Nat.pow_le_pow_right (by decide) hexponent)
        _ ≤ decimal.digits * 10 ^ decimal.exponent.toNat * 2 ^ format.depth :=
            Nat.mul_le_mul_right _ (Nat.le_mul_of_pos_left _ hpositive)
    next =>
      split
      next hsmall =>
        -- the digits cannot make up for the power of ten that divides them
        have hexponent : decimal.exponent.toNat = 0 := by omega
        have hplaces : format.depth + decimal.digits.log2 + 2 ≤ (-decimal.exponent).toNat := by
          omega
        rw [fraction_eq, hexponent, Nat.pow_zero, Nat.mul_one]
        refine (nearest_eq_zero ?_).symm
        calc 2 * (decimal.digits * 2 ^ format.depth)
            < 2 * (2 ^ (decimal.digits.log2 + 1) * 2 ^ format.depth) := by
              have hlog := Nat.lt_log2_self (n := decimal.digits)
              refine (Nat.mul_lt_mul_left (by decide)).mpr ?_
              exact Nat.mul_lt_mul_of_pos_right hlog (Nat.two_pow_pos _)
          _ = 2 ^ (format.depth + decimal.digits.log2 + 2) := by ring
          _ ≤ 10 ^ (format.depth + decimal.digits.log2 + 2) :=
              Nat.pow_le_pow_left (by decide) _
          _ ≤ 10 ^ (-decimal.exponent).toNat := Nat.pow_le_pow_right (by decide) hplaces
      · rfl

/-! ## Trailing zeros -/

/-- Trailing zeros of the digits may stand in the exponent instead. -/
theorem nearest_scale (digits places : Nat) (exponent : Int) :
    (Scaled.mk (digits * 10 ^ places) (exponent - places)).nearest format =
      (Scaled.mk digits exponent).nearest format := by
  rw [nearest_eq, nearest_eq, fraction_eq, fraction_eq]
  refine Format.nearest_congr (Nat.pow_pos (by decide)) (Nat.pow_pos (by decide)) ?_
  have hplaces : places + (exponent - places).toNat + (-exponent).toNat =
      exponent.toNat + (-(exponent - places)).toNat := by omega
  calc digits * 10 ^ places * 10 ^ (exponent - places).toNat * 10 ^ (-exponent).toNat
      = digits * 10 ^ (places + (exponent - places).toNat + (-exponent).toNat) := by ring
    _ = digits * 10 ^ exponent.toNat * 10 ^ (-(exponent - places)).toNat := by
        rw [hplaces]
        ring

theorem nearest_strip (decimal : Scaled) :
    decimal.strip.nearest format = decimal.nearest format := by
  fun_induction strip decimal with
  | case1 decimal hzero ih =>
      have hdigits : decimal.digits / 10 * 10 ^ 1 = decimal.digits := by omega
      have hscale := @nearest_scale format (decimal.digits / 10) 1 (decimal.exponent + 1)
      rw [hdigits, show decimal.exponent + 1 - ((1 : Nat) : Int) = decimal.exponent by omega]
        at hscale
      rw [ih, ← hscale]
  | case2 decimal _ => rfl

end Scaled

/-! ## Shortest decimals -/

variable {format : Format}

/-- A candidate on a grid was read back before it was taken. -/
theorem nearest_onGrid {magnitude : Nat} {exponent : Int} {decimal : Scaled}
    (htaken : onGrid? format magnitude exponent = some decimal) :
    decimal.nearest format = magnitude := by
  simp only [onGrid?] at htaken
  split at htaken
  next hboth =>
    rw [Bool.and_eq_true, beq_iff_eq, beq_iff_eq] at hboth
    split at htaken
    · cases htaken
      exact hboth.1
    · cases htaken
      exact hboth.2
  next =>
    split at htaken
    next hlow =>
      cases htaken
      exact beq_iff_eq.mp hlow
    next =>
      split at htaken
      next hhigh =>
        cases htaken
        exact beq_iff_eq.mp hhigh
      · cases htaken

theorem nearest_exact {magnitude : Nat} (hfinite : magnitude < format.infinity) :
    (exact format magnitude).nearest format = magnitude := by
  rw [Scaled.nearest_eq, Scaled.fraction_eq]
  simp only [exact, Int.neg_neg, Int.toNat_natCast]
  have hexponent : (-(format.depth : Int)).toNat = 0 := by omega
  rw [hexponent, Nat.pow_zero, Nat.mul_one]
  calc format.nearest (format.units magnitude * 5 ^ format.depth) (10 ^ format.depth)
      = format.nearest (format.units magnitude) (2 ^ format.depth) := by
        refine Format.nearest_congr (Nat.pow_pos (by decide)) (Nat.two_pow_pos _) ?_
        rw [show (10 : Nat) = 5 * 2 by rfl, Nat.mul_pow]
        ring
    _ = magnitude := Format.nearest_units hfinite

/-- **The shortest decimal of a finite magnitude reads back to it.** -/
theorem nearest_shortest {magnitude : Nat} (hfinite : magnitude < format.infinity) :
    (shortest format magnitude).nearest format = magnitude := by
  rw [shortest, Scaled.nearest_strip]
  cases hfound : ((List.range (digitLimit format)).map fun (behind : Nat) =>
      leadingPlace format magnitude - behind).findSome? (onGrid? format magnitude) with
  | none => exact nearest_exact hfinite
  | some decimal =>
      obtain ⟨exponent, _, htaken⟩ := List.exists_of_findSome?_eq_some hfound
      exact nearest_onGrid htaken

theorem digits_shortest_pos {magnitude : Nat} (hpositive : 0 < magnitude)
    (hfinite : magnitude < format.infinity) : 0 < (shortest format magnitude).digits := by
  apply Nat.pos_of_ne_zero
  intro hzero
  have hnearest := nearest_shortest hfinite
  rw [Scaled.nearest, if_pos hzero] at hnearest
  omega

end HubLink.Decimal
