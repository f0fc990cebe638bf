import HubLink.Proofs.Binary.Widening

/-!
# Rounding to infinity

A quotient is rounded to infinity from half a unit beyond the greatest finite value on, the half
included, since the greatest significand is odd (`Format.nearest_lt_infinity_iff`).  So a long
number is narrowed to an infinite short one exactly beyond that edge (`Double.narrow_isFinite_iff`),
and whole numbers of 64 bits, which lie far within both formats, are never rounded to infinity.
-/

namespace HubLink.Binary

/-! ## Quotients -/

theorem div_le_roundHalfEven (numerator denominator : Nat) :
    numerator / denominator ≤ roundHalfEven numerator denominator := by
  unfold roundHalfEven
  dsimp only
  split <;> omega

theorem roundHalfEven_le (numerator denominator : Nat) :
    roundHalfEven numerator denominator ≤ numerator / denominator + 1 := by
  unfold roundHalfEven
  dsimp only
  split <;> omega

/-- Rounding to nearest reaches an even number from half a unit below it on. -/
theorem roundHalfEven_lt_iff (numerator : Nat) {denominator : Nat} (hpositive : 0 < denominator)
    (half : Nat) :
    roundHalfEven numerator denominator < 2 * half ↔
      2 * numerator + denominator < 4 * (denominator * half) := by
  have hdiv := Nat.div_add_mod numerator denominator
  have hmod := Nat.mod_lt numerator hpositive
  have hdouble : denominator * (2 * half) = 2 * (denominator * half) := Nat.mul_left_comm _ _ _
  unfold roundHalfEven
  generalize numerator / denominator = quotient at hdiv ⊢
  generalize numerator % denominator = remainder at hdiv hmod ⊢
  rcases Nat.lt_trichotomy (quotient + 1) (2 * half) with hbelow | hedge | habove
  · -- two units below nothing is rounded up far enough
    have hproduct := Nat.mul_le_mul_left denominator (by omega : quotient + 2 ≤ 2 * half)
    rw [Nat.mul_add, hdouble] at hproduct
    dsimp only
    split <;> omega
  · -- one unit below the quotient is odd, so a half is rounded up
    have hproduct := congrArg (denominator * ·) hedge
    simp only [Nat.mul_add, hdouble] at hproduct
    dsimp only
    split <;> omega
  · have hproduct := Nat.mul_le_mul_left denominator (by omega : 2 * half ≤ quotient)
    rw [hdouble] at hproduct
    dsimp only
    split <;> omega

namespace Format

/-- Twice the value, counted in least positive values, from which on a quotient is rounded to
infinity: half a unit beyond the greatest finite value. -/
def edge (format : Format) : Nat :=
  (4 * 2 ^ format.fractionBits - 1) * 2 ^ (2 ^ format.exponentBits - 3)

variable {format : Format}

theorem nearest_le_infinity (format : Format) (numerator denominator : Nat) :
    format.nearest numerator denominator ≤ format.infinity :=
  Nat.min_le_left _ _

/-- The binade of a quotient is where its significand fits. -/
theorem binade_bounds (format : Format) (numerator : Nat) {denominator : Nat}
    (hpositive : 0 < denominator) {binade : Nat}
    (hbinade : (numerator / denominator).log2 - format.fractionBits = binade) :
    numerator < denominator * (2 * 2 ^ format.fractionBits * 2 ^ binade) ∧
      (binade = 0 ∨ denominator * (2 ^ format.fractionBits * 2 ^ binade) ≤ numerator) := by
  rw [← Nat.pow_succ', ← Nat.pow_add, ← Nat.pow_add]
  constructor
  · rw [Nat.mul_comm denominator, ← Nat.div_lt_iff_lt_mul hpositive]
    calc numerator / denominator < 2 ^ ((numerator / denominator).log2 + 1) := Nat.lt_log2_self
      _ ≤ 2 ^ (format.fractionBits.succ + binade) := Nat.pow_le_pow_right Nat.two_pos (by omega)
  · rcases Nat.eq_zero_or_pos binade with hzero | hlarge
    · exact .inl hzero
    · have hlog : (numerator / denominator).log2 = format.fractionBits + binade := by omega
      have hquotient : numerator / denominator ≠ 0 := by
        intro hzero
        rw [hzero] at hlog
        simp at hlog
        omega
      refine .inr ?_
      rw [← hlog]
      exact (Nat.mul_le_mul_left _ (Nat.log2_self_le hquotient)).trans (Nat.mul_div_le _ _)

section

variable {scaled denominator unit binade : Nat}

/-- A significand that fits is rounded onto the first one of the next binade at most. -/
theorem roundHalfEven_binade_le (hhigh : scaled < denominator * (2 * unit * 2 ^ binade)) :
    roundHalfEven scaled (denominator * 2 ^ binade) ≤ 2 * unit := by
  have hquotient : scaled / (denominator * 2 ^ binade) < 2 * unit := by
    apply Nat.div_lt_of_lt_mul
    rw [Nat.mul_assoc, Nat.mul_comm (2 ^ binade)]
    exact hhigh
  exact (roundHalfEven_le _ _).trans hquotient

theorem le_roundHalfEven_binade (hpositive : 0 < denominator)
    (hlow : denominator * (unit * 2 ^ binade) ≤ scaled) :
    unit ≤ roundHalfEven scaled (denominator * 2 ^ binade) := by
  refine Nat.le_trans ?_ (div_le_roundHalfEven _ _)
  rw [Nat.le_div_iff_mul_le (Nat.mul_pos hpositive (Nat.two_pow_pos binade)), Nat.mul_left_comm]
  exact hlow

/-- Half a unit before the end of a binade a value is rounded up to the next one. -/
theorem roundHalfEven_binade_lt_iff (hpositive : 0 < denominator) (hunit : 0 < unit) :
    roundHalfEven scaled (denominator * 2 ^ binade) < 2 * unit ↔
      2 * scaled < denominator * ((4 * unit - 1) * 2 ^ binade) := by
  have hproduct : denominator * ((4 * unit - 1) * 2 ^ binade) + denominator * 2 ^ binade =
      4 * (denominator * 2 ^ binade * unit) := by
    obtain ⟨less, rfl⟩ := Nat.exists_eq_add_of_le' hunit
    rw [(by omega : 4 * (less + 1) - 1 = 4 * less + 3)]
    ring
  rw [roundHalfEven_lt_iff _ (Nat.mul_pos hpositive (Nat.two_pow_pos binade))]
  omega

end

/-- **Rounding stays finite exactly below the edge.** -/
theorem nearest_lt_infinity_iff (hexponent : 2 ≤ format.exponentBits) (numerator : Nat)
    {denominator : Nat} (hpositive : 0 < denominator) :
    format.nearest numerator denominator < format.infinity ↔
      2 * (numerator * 2 ^ format.depth) < denominator * format.edge := by
  generalize hbinade : (numerator * 2 ^ format.depth / denominator).log2 - format.fractionBits =
    binade
  obtain ⟨hhigh, hlow⟩ := binade_bounds format _ hpositive hbinade
  have hexponents : 2 ^ 2 ≤ 2 ^ format.exponentBits := Nat.pow_le_pow_right Nat.two_pos hexponent
  obtain ⟨top, htop⟩ := Nat.exists_eq_add_of_le' (Nat.le_of_succ_le hexponents)
  have hunit := Nat.two_pow_pos format.fractionBits
  have hmin : ∀ bound value : Nat, min bound value < bound ↔ value < bound := by omega
  have hlast : top + 3 - 1 = top + 2 := rfl
  simp only [nearest, infinity, edge, hbinade, htop, hmin, hlast, Nat.add_sub_cancel]
  generalize numerator * 2 ^ format.depth = scaled at hhigh hlow ⊢
  generalize 2 ^ format.fractionBits = unit at hhigh hlow hunit ⊢
  rcases Nat.lt_trichotomy binade top with hbelow | rfl | habove
  · -- the value stays below the top binade, even rounded up
    refine iff_of_true ?_ ?_
    · calc binade * unit + roundHalfEven scaled (denominator * 2 ^ binade)
          ≤ binade * unit + 2 * unit := Nat.add_le_add_left (roundHalfEven_binade_le hhigh) _
        _ = (binade + 2) * unit := (Nat.add_mul _ _ _).symm
        _ < (top + 2) * unit := Nat.mul_lt_mul_of_pos_right (by omega) hunit
    · calc 2 * scaled < 2 * (denominator * (2 * unit * 2 ^ binade)) := by omega
        _ = denominator * (2 * unit * 2 ^ (binade + 1)) := by ring
        _ ≤ denominator * ((4 * unit - 1) * 2 ^ top) := by
            apply Nat.mul_le_mul_left
            exact Nat.mul_le_mul (by omega) (Nat.pow_le_pow_right Nat.two_pos hbelow)
  · -- in the top binade only the step onto infinity counts
    rw [← roundHalfEven_binade_lt_iff hpositive hunit, Nat.add_mul]
    exact Nat.add_lt_add_iff_left
  · -- beyond it the value is too large, even rounded down
    have hlarge : denominator * (unit * 2 ^ binade) ≤ scaled := hlow.resolve_left (by omega)
    refine iff_of_false (Nat.not_lt_of_le ?_) (Nat.not_lt_of_le ?_)
    · calc (top + 2) * unit = (top + 1) * unit + unit := Nat.succ_mul _ _
        _ ≤ binade * unit + roundHalfEven scaled (denominator * 2 ^ binade) :=
            Nat.add_le_add (Nat.mul_le_mul_right _ habove)
              (le_roundHalfEven_binade hpositive hlarge)
    · calc denominator * ((4 * unit - 1) * 2 ^ top)
          ≤ denominator * (4 * unit * 2 ^ top) := by
            apply Nat.mul_le_mul_left
            exact Nat.mul_le_mul_right _ (Nat.sub_le _ _)
        _ = 2 * (denominator * (unit * 2 ^ (top + 1))) := by ring
        _ ≤ 2 * (denominator * (unit * 2 ^ binade)) := by
            apply Nat.mul_le_mul_left
            apply Nat.mul_le_mul_left
            apply Nat.mul_le_mul_left
            exact Nat.pow_le_pow_right Nat.two_pos habove
        _ ≤ 2 * scaled := Nat.mul_le_mul_left 2 hlarge

end Format

end HubLink.Binary

namespace HubLink

open Binary (Format extraDepth two_pow_depth_double)

/-! ## Whole numbers -/

/-- A whole number of 64 bits is rounded to a finite magnitude where a format has room for it. -/
theorem Decimal.Scaled.nearest_whole_lt_infinity (format : Format)
    (hexponent : 2 ≤ format.exponentBits)
    (hroom : 2 * (UInt64.size * 2 ^ format.depth) ≤ format.edge) {n : Nat}
    (hn : n < UInt64.size) : (Scaled.mk n 0).nearest format < format.infinity := by
  have hinfinity : 0 < format.infinity := by
    apply Nat.mul_pos _ (Nat.two_pow_pos _)
    have hpower := Nat.pow_le_pow_right Nat.two_pos hexponent
    omega
  unfold nearest
  split
  · exact hinfinity
  split
  next hexceeds =>
    dsimp only at hexceeds
    omega
  split
  · exact hinfinity
  · show format.nearest (n * 10 ^ 0) 1 < format.infinity
    rw [Nat.pow_zero, Nat.mul_one, Format.nearest_lt_infinity_iff hexponent n Nat.one_pos,
      Nat.one_mul]
    have hless := Nat.mul_lt_mul_of_pos_right hn (Nat.two_pow_pos format.depth)
    omega

theorem Double.isFinite_ofMagnitude (negative : Bool) {magnitude : Nat}
    (hfinite : magnitude < Format.double.infinity) :
    (Double.ofMagnitude negative magnitude).isFinite = true := by
  have hbits : magnitude < Format.double.signBit := Nat.lt_of_lt_of_le hfinite (by decide)
  rw [Double.isFinite, Double.magnitude_ofMagnitude negative hbits]
  exact decide_eq_true hfinite

theorem Double.isFinite_ofDecimal_whole (negative : Bool) {n : Nat} (hn : n < UInt64.size) :
    (Double.ofDecimal negative ⟨n, 0⟩).isFinite = true := by
  apply Double.isFinite_ofMagnitude
  exact Decimal.Scaled.nearest_whole_lt_infinity Format.double (by decide) (by decide +kernel) hn

/-! ## Narrowing -/

namespace Single

theorem isFinite_ofMagnitude_iff (negative : Bool) {magnitude : Nat}
    (hle : magnitude ≤ Format.single.infinity) :
    (ofMagnitude negative magnitude).isFinite = true ↔ magnitude < Format.single.infinity := by
  have hbits : magnitude < Format.single.signBit := Nat.lt_of_le_of_lt hle (by decide)
  rw [Single.isFinite, magnitude_ofMagnitude negative hbits, decide_eq_true_iff]

theorem nonFinite?_ofMagnitude_infinity (negative : Bool) :
    (ofMagnitude negative Format.single.infinity).nonFinite? = some (.infinity negative) := by
  cases negative <;> decide

theorem isFinite_ofDecimal_whole (negative : Bool) {n : Nat} (hn : n < UInt64.size) :
    (ofDecimal negative ⟨n, 0⟩).isFinite = true := by
  have hfinite := Decimal.Scaled.nearest_whole_lt_infinity Format.single (by decide)
    (by decide +kernel) hn
  exact (isFinite_ofMagnitude_iff negative (Nat.le_of_lt hfinite)).mpr hfinite

end Single

namespace Double

/-- Twice the value from which on a long number is too large for a short one, counted in least
positive long values. -/
def narrowEdge : Nat :=
  Format.single.edge * 2 ^ extraDepth

/-- **Narrowing stays finite exactly below the edge.** -/
theorem narrow_isFinite_iff (number : Double) :
    number.narrow.isFinite = true ↔ 2 * Format.double.units number.magnitude < narrowEdge := by
  rw [narrow, Single.isFinite_ofMagnitude_iff _ (Format.nearest_le_infinity _ _ _),
    Format.nearest_lt_infinity_iff (by decide) _ (Nat.two_pow_pos _), two_pow_depth_double,
    narrowEdge, ← Nat.mul_assoc, Nat.mul_comm _ (2 ^ Format.single.depth), Nat.mul_assoc,
    Nat.mul_lt_mul_left (Nat.two_pow_pos _), Nat.mul_comm (2 ^ extraDepth)]

theorem narrow_eq_infinity {number : Double}
    (hedge : narrowEdge ≤ 2 * Format.double.units number.magnitude) :
    number.narrow = .ofMagnitude number.negative Format.single.infinity := by
  have hlarge : ¬ number.narrow.isFinite = true := by
    rw [narrow_isFinite_iff]
    exact Nat.not_lt_of_le hedge
  rw [narrow, Single.isFinite_ofMagnitude_iff _ (Format.nearest_le_infinity _ _ _)] at hlarge
  rw [narrow, Nat.le_antisymm (Format.nearest_le_infinity _ _ _) (Nat.le_of_not_lt hlarge)]

theorem nonFinite?_narrow {number : Double}
    (hedge : narrowEdge ≤ 2 * Format.double.units number.magnitude) :
    number.narrow.nonFinite? = some (.infinity number.negative) := by
  rw [narrow_eq_infinity hedge]
  exact Single.nonFinite?_ofMagnitude_infinity number.negative

end Double

end HubLink
