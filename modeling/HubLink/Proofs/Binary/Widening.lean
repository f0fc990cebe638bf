import HubLink.Proofs.Binary.Rounding

/-!
# Short readings in long clothes

A short reading travels as a long number.  Every finite short number is a long number, with room to
spare at both ends of the range, so widening is exact and narrowing brings the very bits back
(`narrow_widen`); a negative zero keeps its sign on the way.
-/

namespace HubLink

open Binary (Format)

/-! ## Bits, sign and magnitude -/

namespace Binary

namespace Format

variable {format : Format} {magnitude : Nat}

theorem pattern_lt (negative : Bool) (hlt : magnitude < format.signBit) :
    format.pattern negative magnitude < 2 * format.signBit := by
  cases negative <;> simp [pattern] <;> omega

theorem magnitude_pattern (negative : Bool) (hlt : magnitude < format.signBit) :
    format.magnitude (format.pattern negative magnitude) = magnitude := by
  cases negative with
  | false => exact Nat.mod_eq_of_lt hlt
  | true => exact (Nat.add_mod_right _ _).trans (Nat.mod_eq_of_lt hlt)

theorem negative_pattern (negative : Bool) (hlt : magnitude < format.signBit) :
    format.negative (format.pattern negative magnitude) = negative := by
  cases negative with
  | false => exact decide_eq_false (Nat.not_le_of_gt hlt)
  | true => exact decide_eq_true (Nat.le_add_left _ _)

/-- A bit pattern is its sign and its magnitude. -/
theorem pattern_self {bits : Nat} (hlt : bits < 2 * format.signBit) :
    format.pattern (format.negative bits) (format.magnitude bits) = bits := by
  by_cases hsign : format.signBit ≤ bits
  · have hbelow : bits - format.signBit < format.signBit := by omega
    rw [pattern, Format.negative, if_pos (decide_eq_true hsign), Format.magnitude,
      Nat.mod_eq_sub_mod hsign, Nat.mod_eq_of_lt hbelow, Nat.sub_add_cancel hsign]
  · have hbelow := Nat.lt_of_not_le hsign
    rw [pattern, Format.negative, if_neg (by simpa using hbelow), Format.magnitude,
      Nat.mod_eq_of_lt hbelow, Nat.add_zero]

end Format

theorem nonFinite?_eq_none_iff {format : Format} {negative : Bool} {magnitude : Nat} :
    nonFinite? format negative magnitude = none ↔ magnitude < format.infinity := by
  unfold nonFinite?
  split
  next hfinite => simp [hfinite]
  next hlarge => split <;> simp [hlarge]

end Binary

namespace Single

variable {magnitude : Nat} (number : Single)

theorem toNat_ofMagnitude (negative : Bool) (hlt : magnitude < Format.single.signBit) :
    (ofMagnitude negative magnitude).bits.toNat = Format.single.pattern negative magnitude :=
  UInt32.toNat_ofNat_of_lt' (Format.pattern_lt negative hlt)

theorem magnitude_ofMagnitude (negative : Bool) (hlt : magnitude < Format.single.signBit) :
    (ofMagnitude negative magnitude).magnitude = magnitude := by
  rw [Single.magnitude, toNat_ofMagnitude negative hlt, Format.magnitude_pattern negative hlt]

/-- A short number is its sign and its magnitude. -/
theorem ofMagnitude_self : ofMagnitude number.negative number.magnitude = number := by
  have hbits := @Format.pattern_self .single _ number.bits.toNat_lt
  rw [ofMagnitude, Single.negative, Single.magnitude, hbits, UInt32.ofNat_toNat]

theorem nonFinite?_eq_none_iff : number.nonFinite? = none ↔ number.isFinite = true :=
  Binary.nonFinite?_eq_none_iff.trans decide_eq_true_iff.symm

theorem isSome_nonFinite?_iff : number.nonFinite?.isSome = true ↔ number.isFinite = false := by
  rw [← Bool.not_eq_true, ← number.nonFinite?_eq_none_iff, Option.isSome_iff_ne_none]

end Single

namespace Double

variable {magnitude : Nat} (number : Double)

theorem toNat_ofMagnitude (negative : Bool) (hlt : magnitude < Format.double.signBit) :
    (ofMagnitude negative magnitude).bits.toNat = Format.double.pattern negative magnitude :=
  UInt64.toNat_ofNat_of_lt' (Format.pattern_lt negative hlt)

theorem magnitude_ofMagnitude (negative : Bool) (hlt : magnitude < Format.double.signBit) :
    (ofMagnitude negative magnitude).magnitude = magnitude := by
  rw [Double.magnitude, toNat_ofMagnitude negative hlt, Format.magnitude_pattern negative hlt]

theorem negative_ofMagnitude (negative : Bool) (hlt : magnitude < Format.double.signBit) :
    (ofMagnitude negative magnitude).negative = negative := by
  rw [Double.negative, toNat_ofMagnitude negative hlt, Format.negative_pattern negative hlt]

/-- A long number is its sign and its magnitude. -/
theorem ofMagnitude_self : ofMagnitude number.negative number.magnitude = number := by
  have hbits := @Format.pattern_self .double _ number.bits.toNat_lt
  rw [ofMagnitude, Double.negative, Double.magnitude, hbits, UInt64.ofNat_toNat]

theorem nonFinite?_eq_none_iff : number.nonFinite? = none ↔ number.isFinite = true :=
  Binary.nonFinite?_eq_none_iff.trans decide_eq_true_iff.symm

theorem isSome_nonFinite?_iff : number.nonFinite?.isSome = true ↔ number.isFinite = false := by
  rw [← Bool.not_eq_true, ← number.nonFinite?_eq_none_iff, Option.isSome_iff_ne_none]

end Double

/-! ## Widening -/

namespace Binary

/-- How many binary places the least long number lies below the least short one. -/
def extraDepth : Nat :=
  Format.double.depth - Format.single.depth

theorem two_pow_depth_double :
    2 ^ Format.double.depth = 2 ^ Format.single.depth * 2 ^ extraDepth := by
  rw [← Nat.pow_add]
  congr 1

/-- A significand that is not zero, moved up until its top bit is where the long format has it. -/
theorem exists_moved_up {significand : Nat} (hpositive : 0 < significand)
    (hfits : significand < 2 ^ 24) :
    ∃ places moved, places ≤ 52 ∧ moved = significand * 2 ^ places ∧
      2 ^ 52 ≤ moved ∧ moved < 2 * 2 ^ 52 := by
  obtain ⟨hlow, hhigh⟩ := (Nat.log2_eq_iff (Nat.ne_of_gt hpositive)).mp rfl
  have hlog : significand.log2 < 24 := (Nat.log2_lt (Nat.ne_of_gt hpositive)).mpr hfits
  have htop : 2 ^ significand.log2 * 2 ^ (52 - significand.log2) = 2 ^ 52 := by
    rw [← Nat.pow_add]
    congr 1
    omega
  refine ⟨52 - significand.log2, _, by omega, rfl, ?_, ?_⟩
  · calc 2 ^ 52 = 2 ^ significand.log2 * 2 ^ (52 - significand.log2) := htop.symm
      _ ≤ significand * 2 ^ (52 - significand.log2) := Nat.mul_le_mul_right _ hlow
  · calc significand * 2 ^ (52 - significand.log2)
        < 2 ^ (significand.log2 + 1) * 2 ^ (52 - significand.log2) :=
          Nat.mul_lt_mul_of_pos_right hhigh (Nat.two_pow_pos _)
      _ = 2 * 2 ^ 52 := by rw [Nat.pow_succ', Nat.mul_assoc, htop]

/-- The exact value of a finite short magnitude is that of a finite long one. -/
theorem exists_double_units {magnitude : Nat} (hfinite : magnitude < Format.single.infinity) :
    ∃ long, long < Format.double.infinity ∧
      Format.double.units long = Format.single.units magnitude * 2 ^ extraDepth := by
  obtain ⟨binade, significand, hsignificand, rfl⟩ :=
    Format.exists_significand Format.single magnitude
  rw [Format.units_eq hsignificand]
  have hfits : significand < 2 ^ 24 := hsignificand.1
  have hbinade : binade < 255 := by
    have hinfinity : binade * 2 ^ 23 + significand < 255 * 2 ^ 23 := hfinite
    omega
  rcases Nat.eq_zero_or_pos significand with rfl | hpositive
  · exact ⟨0, by decide, by simp [Format.units]⟩
  · obtain ⟨places, moved, hplaces, hmoved, htop, hbound⟩ := exists_moved_up hpositive hfits
    have hextra : extraDepth = 925 := rfl
    have hlong : Format.double.IsSignificand (binade + extraDepth - places) moved :=
      ⟨hbound, Or.inr htop⟩
    refine ⟨(binade + extraDepth - places) * 2 ^ Format.double.fractionBits + moved, ?_, ?_⟩
    · -- even the greatest short number stands far below the greatest long one
      have hplace : binade + extraDepth - places ≤ 1179 := by omega
      calc (binade + extraDepth - places) * 2 ^ 52 + moved
          < 1179 * 2 ^ 52 + 2 * 2 ^ 52 :=
            Nat.add_lt_add_of_le_of_lt (Nat.mul_le_mul_right _ hplace) hbound
        _ ≤ Format.double.infinity := by decide
    · have hplace : places + (binade + extraDepth - places) = binade + extraDepth := by omega
      rw [Format.units_eq hlong, hmoved, Nat.mul_assoc, Nat.mul_assoc, ← Nat.pow_add,
        ← Nat.pow_add, hplace]

end Binary

open Binary (extraDepth two_pow_depth_double)

/-- Widening keeps the sign and, exactly, the value. -/
theorem Single.widen_spec {number : Single} (hfinite : number.isFinite = true) :
    number.widen.isFinite = true ∧ number.widen.negative = number.negative ∧
      Format.double.units number.widen.magnitude =
        Format.single.units number.magnitude * 2 ^ extraDepth := by
  obtain ⟨long, hlong, hunits⟩ := Binary.exists_double_units (of_decide_eq_true hfinite)
  have hnearest : Format.double.nearest (Format.single.units number.magnitude)
      (2 ^ Format.single.depth) = long := by
    rw [← Format.nearest_units hlong]
    refine Format.nearest_congr (Nat.two_pow_pos _) (Nat.two_pow_pos _) ?_
    rw [hunits, two_pow_depth_double]
    ring
  have hbits : long < Format.double.signBit := Nat.lt_of_lt_of_le hlong (by decide)
  rw [Single.widen, hnearest]
  refine ⟨?_, Double.negative_ofMagnitude _ hbits, ?_⟩
  · rw [Double.isFinite, Double.magnitude_ofMagnitude _ hbits]
    exact decide_eq_true hlong
  · rw [Double.magnitude_ofMagnitude _ hbits, hunits]

/-- **Narrowing undoes widening**, bit for bit. -/
theorem Single.narrow_widen {number : Single} (hfinite : number.isFinite = true) :
    number.widen.narrow = number := by
  obtain ⟨-, hnegative, hunits⟩ := Single.widen_spec hfinite
  have hnearest : Format.single.nearest (Format.double.units number.widen.magnitude)
      (2 ^ Format.double.depth) = number.magnitude := by
    rw [hunits, two_pow_depth_double, Nat.mul_comm _ (2 ^ extraDepth),
      Nat.mul_comm _ (2 ^ extraDepth), Format.nearest_mul (Nat.two_pow_pos _)]
    exact Format.nearest_units (of_decide_eq_true hfinite)
  rw [Double.narrow, hnegative, hnearest, Single.ofMagnitude_self]

end HubLink
