import HubLink.Json.Reader
import HubLink.Proofs.Json.Member
import HubLink.Proofs.Outcome
import Mathlib.Tactic.SplitIfs

/-!
# What the reader accepts

Whatever text a value is read from, the value is well formed: whole numbers are within 64 bits,
other numbers are finite, and the keys of every object ascend, because members are put into place
one by one.  Its brackets nest no deeper than the reader's budget.
-/

namespace HubLink.Json

open Text (byte)

/-! ## Scalars -/

theorem isWhole_of_whole? {numeral : Numeral} {n : Int} (hwhole : numeral.whole? = some n) :
    IsWhole n := by
  simp only [Numeral.whole?] at hwhole
  unfold IsWhole
  split_ifs at hwhole <;> cases hwhole <;> omega

theorem wellFormed_toJson {numeral : Numeral} {value : Json}
    (hvalue : numeral.toJson = .ok value) : WellFormed value ∧ depth value = 0 := by
  unfold Numeral.toJson at hvalue
  split at hvalue
  next n hwhole =>
    cases hvalue
    exact ⟨isWhole_of_whole? hwhole, rfl⟩
  next =>
    obtain ⟨number, hnumber, rfl⟩ := map_eq_ok.mp hvalue
    simp only [Numeral.toDouble] at hnumber
    split at hnumber
    next hfinite =>
      cases hnumber
      exact ⟨hfinite, rfl⟩
    · cases hnumber

/-- A scalar is well formed and opens no bracket. -/
theorem readScalar_wellFormed {text rest : List UInt8} {value : Json}
    (hread : readScalar text = .ok (value, rest)) : WellFormed value ∧ depth value = 0 := by
  cases text with
  | nil => cases hread
  | cons b more =>
      rw [readScalar] at hread
      split at hread
      · obtain ⟨_, _, hread⟩ := bind_eq_ok.mp hread
        cases hread
        exact ⟨trivial, rfl⟩
      split at hread
      · obtain ⟨_, _, hread⟩ := bind_eq_ok.mp hread
        cases hread
        exact ⟨trivial, rfl⟩
      split at hread
      · obtain ⟨_, _, hread⟩ := bind_eq_ok.mp hread
        cases hread
        exact ⟨trivial, rfl⟩
      split at hread
      · obtain ⟨⟨numeral, behind⟩, _, hread⟩ := bind_eq_ok.mp hread
        obtain ⟨number, hnumber, hread⟩ := bind_eq_ok.mp hread
        cases hread
        exact wellFormed_toJson hnumber
      split at hread
      · obtain ⟨⟨content, behind⟩, _, hread⟩ := bind_eq_ok.mp hread
        cases hread
        exact ⟨trivial, rfl⟩
      · cases hread

/-! ## Values -/

/-- Well formed, with brackets that fit the budget. -/
def Fits (budget : Nat) (value : Json) : Prop :=
  WellFormed value ∧ depth value ≤ budget

section

variable {budget : Nat}

theorem fits_string (text : String) : Fits budget (.string text) :=
  ⟨trivial, Nat.zero_le _⟩

theorem fits_bool (value : Bool) : Fits budget (.bool value) :=
  ⟨trivial, Nat.zero_le _⟩

theorem fits_natural {n : Nat} (hn : n < UInt64.size) : Fits budget (.integer n) := by
  refine ⟨?_, Nat.zero_le _⟩
  unfold WellFormed IsWhole
  omega

theorem fits_signed {n : Int} (hleast : -(Int64.size / 2 : Nat) ≤ n)
    (hmost : n < (Int64.size / 2 : Nat)) : Fits budget (.integer n) := by
  have hsize : Int64.size = UInt64.size := rfl
  refine ⟨?_, Nat.zero_le _⟩
  unfold WellFormed IsWhole
  omega

theorem fits_u8 (n : UInt8) : Fits budget (.integer n.toNat) :=
  fits_natural (Nat.lt_trans n.toNat_lt (by decide))

theorem fits_u16 (n : UInt16) : Fits budget (.integer n.toNat) :=
  fits_natural (Nat.lt_trans n.toNat_lt (by decide))

theorem fits_u32 (n : UInt32) : Fits budget (.integer n.toNat) :=
  fits_natural (Nat.lt_trans n.toNat_lt (by decide))

theorem fits_u64 (n : UInt64) : Fits budget (.integer n.toNat) :=
  fits_natural n.toNat_lt

theorem fits_i16 (n : Int16) : Fits budget (.integer n.toInt) :=
  fits_signed (Int.le_trans (by decide) n.le_toInt) (Int.lt_trans n.toInt_lt (by decide))

theorem fits_i64 (n : Int64) : Fits budget (.integer n.toInt) :=
  fits_signed n.le_toInt n.toInt_lt

theorem fits_array {items : List Json} (hitems : ∀ item ∈ items, Fits budget item) :
    Fits (budget + 1) (.array items) :=
  ⟨wellFormedItems_iff.mpr fun item hitem => (hitems item hitem).1,
    Nat.succ_le_succ (depthItems_le_iff.mpr fun item hitem => (hitems item hitem).2)⟩

theorem fits_ofMembers {members : List (String × Json)}
    (hmembers : ∀ m ∈ members, Fits budget m.2) : Fits (budget + 1) (ofMembers members) :=
  ⟨wellFormed_ofMembers fun m hm => (hmembers m hm).1,
    depth_ofMembers_le fun m hm => (hmembers m hm).2⟩

end

/-- The three readers by induction on their common fuel. -/
theorem within_fits (fuel : Nat) :
    (∀ {budget text value rest}, valueWithin fuel budget text = .ok (value, rest) →
      Fits budget value) ∧
    (∀ {budget first text items rest}, itemsWithin fuel budget first text = .ok (items, rest) →
      ∀ item ∈ items, Fits budget item) ∧
    (∀ {budget first text members rest},
      membersWithin fuel budget first text = .ok (members, rest) →
        ∀ m ∈ members, Fits budget m.2) := by
  induction fuel with
  | zero =>
      refine ⟨?_, ?_, ?_⟩
      · intro budget text value rest hread
        cases hread
      · intro budget first text items rest hread
        cases hread
      · intro budget first text members rest hread
        cases hread
  | succ fuel ih =>
      obtain ⟨hvalues, hitems, hmembers⟩ := ih
      refine ⟨?_, ?_, ?_⟩
      · intro budget text value rest hread
        rw [valueWithin] at hread
        split at hread
        · cases hread
        next b more _ =>
          split at hread
          · cases budget with
            | zero => cases hread
            | succ budget =>
                obtain ⟨⟨items, behind⟩, hread, hvalue⟩ := bind_eq_ok.mp hread
                cases hvalue
                exact fits_array (hitems hread)
          · split at hread
            · cases budget with
              | zero => cases hread
              | succ budget =>
                  obtain ⟨⟨members, behind⟩, hread, hvalue⟩ := bind_eq_ok.mp hread
                  cases hvalue
                  exact fits_ofMembers (hmembers hread)
            · obtain ⟨hvalue, hdepth⟩ := readScalar_wellFormed hread
              exact ⟨hvalue, hdepth ▸ Nat.zero_le budget⟩
      · intro budget first text items rest hread
        rw [itemsWithin] at hread
        obtain ⟨next, _, hread⟩ := bind_eq_ok.mp hread
        cases next with
        | closed behind =>
            cases hread
            exact List.forall_mem_nil _
        | entry entry =>
            obtain ⟨⟨item, behind⟩, hitem, hread⟩ := bind_eq_ok.mp hread
            obtain ⟨⟨others, end_⟩, hothers, hread⟩ := bind_eq_ok.mp hread
            cases hread
            exact List.forall_mem_cons.mpr ⟨hvalues hitem, hitems hothers⟩
      · intro budget first text members rest hread
        rw [membersWithin] at hread
        obtain ⟨next, _, hread⟩ := bind_eq_ok.mp hread
        cases next with
        | closed behind =>
            cases hread
            exact List.forall_mem_nil _
        | entry entry =>
            obtain ⟨⟨key, behind⟩, _, hread⟩ := bind_eq_ok.mp hread
            obtain ⟨⟨value, more⟩, hvalue, hread⟩ := bind_eq_ok.mp hread
            obtain ⟨⟨others, end_⟩, hothers, hread⟩ := bind_eq_ok.mp hread
            cases hread
            exact List.forall_mem_cons.mpr ⟨hvalues hvalue, hmembers hothers⟩

/-- **What is read from any text is well formed and fits the budget.** -/
theorem readValue_fits {budget : Nat} {text rest : List UInt8} {value : Json}
    (hread : readValue budget text = .ok (value, rest)) : Fits budget value :=
  (within_fits _).1 hread

end HubLink.Json
