import HubLink.Message.Envelope
import HubLink.Proofs.Text.Whole
import Mathlib.Data.List.TakeWhile

/-!
# Versions that can be read here

A peer's schema can be read if its major version agrees with the one of this library.  A version is
any text, so agreeing is a matter of spelling: the part before the first point must spell the number
of this library, and what comes behind the point does not matter.  The versions that pass are those
of one language over a plus sign, zeros and a final one (`compatible_language`).

Two parts that are no numbers do not agree, although neither of them has a number.
-/

namespace HubLink.Message

variable {version : String} {major : List Char}

/-- The part of a version before its first point; all of it if there is no point. -/
def IsMajor (version : String) (major : List Char) : Prop :=
  '.' ∉ major ∧ (version.toList = major ∨ ∃ behind, version.toList = major ++ '.' :: behind)

/-- The spellings of one: perhaps a plus sign, then any number of zeros, then a single one. -/
def SpellsOne (major : List Char) : Prop :=
  ∃ sign zeros, (sign = [] ∨ sign = ['+']) ∧ major = sign ++ List.replicate zeros '0' ++ ['1']

theorem spells_one_iff : Text.Spells major 1 ↔ SpellsOne major := by
  have hone : Nat.toDigits 10 1 = ['1'] := rfl
  rw [Text.spells_iff, hone]
  constructor
  · rintro ⟨zeros, hbare | hplus⟩
    · exact ⟨[], zeros, .inl rfl, hbare⟩
    · exact ⟨['+'], zeros, .inr rfl, hplus⟩
  · rintro ⟨sign, zeros, rfl | rfl, hmajor⟩
    · exact ⟨zeros, .inl hmajor⟩
    · exact ⟨zeros, .inr hmajor⟩

theorem takeWhile_eq_of_isMajor (hmajor : IsMajor version major) :
    version.toList.takeWhile (· != '.') = major := by
  obtain ⟨hpoint, hversion⟩ := hmajor
  have hall : ∀ c ∈ major, (c != '.') = true := by
    intro c hc
    rw [bne_iff_ne]
    rintro rfl
    exact hpoint hc
  rcases hversion with hversion | ⟨behind, hversion⟩
  · rw [hversion]
    exact List.takeWhile_eq_self_iff.mpr hall
  · rw [hversion, List.takeWhile_append_of_pos hall, List.takeWhile_cons_of_neg (by simp),
      List.append_nil]

theorem isMajor_takeWhile (version : String) :
    IsMajor version (version.toList.takeWhile (· != '.')) := by
  have hwhole := List.takeWhile_append_dropWhile (p := (· != '.')) (l := version.toList)
  constructor
  · intro hpoint
    have hne := List.mem_takeWhile_imp hpoint
    rw [bne_self_eq_false] at hne
    cases hne
  · cases hrest : version.toList.dropWhile (· != '.') with
    | nil =>
        rw [hrest, List.append_nil] at hwhole
        exact .inl hwhole.symm
    | cons c behind =>
        have hc := List.head?_dropWhile_not (· != '.') version.toList
        rw [hrest] at hwhole hc
        have hpoint : c = '.' := by simpa using hc
        subst hpoint
        exact .inr ⟨behind, hwhole.symm⟩

namespace Envelope

variable {n : Nat}

theorem majorVersion?_eq (hmajor : IsMajor version major) :
    majorVersion? version = Text.natBelow? UInt64.size (String.ofList major) := by
  rw [majorVersion?, takeWhile_eq_of_isMajor hmajor]

theorem majorVersion?_eq_some_iff (hmajor : IsMajor version major) :
    majorVersion? version = some n ↔ Text.Spells major n ∧ n < UInt64.size := by
  rw [majorVersion?_eq hmajor, Text.natBelow?_eq_some_iff, String.toList_ofList]

theorem majorVersion?_eq_none_iff (hmajor : IsMajor version major) :
    majorVersion? version = none ↔ Text.Unreadable UInt64.size major := by
  rw [majorVersion?_eq hmajor, Text.natBelow?_eq_none_iff, String.toList_ofList]

/-- The major version of this library. -/
theorem majorVersion?_schemaVersion : majorVersion? schemaVersion = some 1 := by
  decide

theorem isCompatible_iff (envelope : Envelope) :
    envelope.isCompatible = true ↔ majorVersion? envelope.version = some 1 := by
  rw [isCompatible, majorVersion?_schemaVersion, Bool.and_eq_true, beq_iff_eq]
  constructor
  · exact And.right
  · intro hone
    exact ⟨by rw [hone]; rfl, hone⟩

/-- The versions that can be read here are those whose major part spells one, and nothing but the
major part matters.  A major part that is no number, or too large a one, has no number to agree
with: it is turned down, and not taken for equal to anything. -/
theorem compatible_language (envelope : Envelope) :
    ∃ major, IsMajor envelope.version major ∧
      (envelope.isCompatible = true ↔ SpellsOne major) ∧
      (∀ other : Envelope, IsMajor other.version major →
        other.isCompatible = envelope.isCompatible) ∧
      (majorVersion? envelope.version = none ↔ Text.Unreadable UInt64.size major) ∧
      (Text.Unreadable UInt64.size major → envelope.isCompatible = false) := by
  have hmajor := isMajor_takeWhile envelope.version
  refine ⟨_, hmajor, ?_, ?_, majorVersion?_eq_none_iff hmajor, ?_⟩
  · rw [isCompatible_iff, majorVersion?_eq_some_iff hmajor, spells_one_iff]
    exact and_iff_left (by decide)
  · intro other hother
    rw [Bool.eq_iff_iff, isCompatible_iff, isCompatible_iff, majorVersion?_eq hother,
      majorVersion?_eq hmajor]
  · intro hunreadable
    have hnone := (majorVersion?_eq_none_iff hmajor).mpr hunreadable
    rw [Bool.eq_false_iff, ne_eq, isCompatible_iff, hnone]
    simp

/-- A sign of life from a peer of the given version. -/
def signOfLife (version : String) : Envelope :=
  ⟨version, "a", 0, .heartbeat⟩

/-- A sign, zeros and what stands behind the point do not matter, and a number that is one but for a
multiple of the size of a word is not one. -/
theorem compatible_language_at_word_size :
    (signOfLife "+0001.banana").isCompatible = true ∧
      (signOfLife "+0001").isCompatible = (signOfLife "+0001.banana").isCompatible ∧
      Text.Unreadable UInt64.size "18446744073709551617".toList ∧
      (signOfLife "18446744073709551617.0").isCompatible = false := by
  obtain ⟨major, hmajor, hlanguage, hsame, -⟩ := compatible_language (signOfLife "+0001.banana")
  obtain ⟨large, hlarge, -, -, -, hrefused⟩ :=
    compatible_language (signOfLife "18446744073709551617.0")
  have hone : ['+', '0', '0', '0', '1'] = major := takeWhile_eq_of_isMajor hmajor
  have hdigits : "18446744073709551617".toList = large := takeWhile_eq_of_isMajor hlarge
  have hunreadable : Text.Unreadable UInt64.size "18446744073709551617".toList :=
    .tooLarge ⟨_, by decide, List.all_eq_true.mp rfl, rfl, .inl rfl⟩ (by decide)
  subst hone hdigits
  exact ⟨hlanguage.mpr ⟨['+'], 3, .inr rfl, rfl⟩, hsame _ ⟨by decide, .inl rfl⟩, hunreadable,
    hrefused hunreadable⟩

end Envelope

end HubLink.Message
