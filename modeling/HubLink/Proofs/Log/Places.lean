import HubLink.Log.Reassembly
import Mathlib.Data.List.Range
import Mathlib.Logic.Function.Basic

/-!
# The places of a pending log

A pending log keeps the filled places in ascending order.  `slots` is the same list described by
what is in each place, for all places of the log at once.  Filling a place changes what is in it and
nothing else (`fill_slots`); the list is as long as the log has places exactly when no place is
empty (`length_slots_lt_iff`); and then its bytes are the contents of the places in order.
-/

namespace HubLink.Log

/-- The filled ones among some places, given the content of each. -/
def slotsFrom (start count : Nat) (content : Nat → Option (List UInt8)) :
    List (Nat × List UInt8) :=
  (List.range' start count).filterMap fun place => (content place).map fun bytes => (place, bytes)

/-- The filled places of a log, given the content of each. -/
def slots (total : Nat) (content : Nat → Option (List UInt8)) : List (Nat × List UInt8) :=
  slotsFrom 0 total content

variable {start count index : Nat} {content : Nat → Option (List UInt8)}

theorem slotsFrom_succ (start count : Nat) (content : Nat → Option (List UInt8)) :
    slotsFrom start (count + 1) content =
      ((content start).map fun bytes => (start, bytes)).toList ++
        slotsFrom (start + 1) count content := by
  unfold slotsFrom
  rw [List.range'_succ, List.filterMap_cons]
  cases content start <;> rfl

theorem le_of_mem_slotsFrom {entry : Nat × List UInt8}
    (hentry : entry ∈ slotsFrom start count content) : start ≤ entry.1 := by
  obtain ⟨place, hplace, hvalue⟩ := List.mem_filterMap.mp hentry
  obtain ⟨bytes, _, rfl⟩ := Option.map_eq_some_iff.mp hvalue
  exact (List.mem_range'_1.mp hplace).1

/-- A place outside the range does not matter. -/
theorem slotsFrom_update_of_lt (hbelow : index < start) (bytes : List UInt8) :
    slotsFrom start count (Function.update content index (some bytes)) =
      slotsFrom start count content := by
  apply List.filterMap_congr
  intro place hplace
  have hne : place ≠ index := by
    have hstart := (List.mem_range'_1.mp hplace).1
    omega
  rw [Function.update_of_ne hne]

theorem fill_of_lt {bytes : List UInt8} {filled : List (Nat × List UInt8)}
    (hbelow : ∀ entry ∈ filled, index < entry.1) :
    fill index bytes filled = (index, bytes) :: filled := by
  cases filled with
  | nil => rfl
  | cons entry rest => rw [fill, if_pos (hbelow entry List.mem_cons_self)]

theorem fill_slotsFrom (bytes : List UInt8) (hlow : start ≤ index)
    (hhigh : index < start + count) :
    fill index bytes (slotsFrom start count content) =
      slotsFrom start count (Function.update content index (some bytes)) := by
  -- on the places that are left; the first of them is the one to fill, or it stays as it is
  induction count generalizing start with
  | zero => omega
  | succ count ih =>
      rw [slotsFrom_succ, slotsFrom_succ]
      by_cases hhere : index = start
      · subst hhere
        have hlater : ∀ entry ∈ slotsFrom (index + 1) count content, index < entry.1 :=
          fun entry hentry => le_of_mem_slotsFrom hentry
        rw [slotsFrom_update_of_lt (Nat.lt_succ_self index), Function.update_self]
        cases content index with
        | none => exact fill_of_lt hlater
        | some old => simp [fill]
      · have hbehind : start + 1 ≤ index := by omega
        rw [Function.update_of_ne (Ne.symm hhere), ← ih hbehind (by omega)]
        cases content start with
        | none => rfl
        | some old =>
            have hnot : ¬ index < start := by omega
            simp [fill, hnot, hhere]

/-- Filling a place changes the content of that place. -/
theorem fill_slots {total : Nat} (bytes : List UInt8) (hindex : index < total) :
    fill index bytes (slots total content) =
      slots total (Function.update content index (some bytes)) :=
  fill_slotsFrom bytes (Nat.zero_le index) (by omega)

/-- The list is shorter than the log exactly while a place is empty. -/
theorem length_slots_lt_iff {total : Nat} :
    (slots total content).length < total ↔ ∃ place < total, content place = none := by
  have hcount : (slots total content).length =
      (List.range' 0 total).countP fun place => (content place).isSome := by
    unfold slots slotsFrom
    rw [List.length_filterMap_eq_countP]
    simp only [Option.isSome_map]
  have hle : (slots total content).length ≤ total := by
    rw [hcount]
    exact List.countP_le_length.trans_eq List.length_range'
  have hfull : (slots total content).length = total ↔ ∀ place < total, (content place).isSome := by
    have hall := List.countP_eq_length (p := fun place => (content place).isSome)
      (l := List.range' 0 total)
    rw [← hcount, List.length_range'] at hall
    rw [hall]
    simp only [List.mem_range'_1, Nat.zero_le, Nat.zero_add, true_and]
  constructor
  · intro hlt
    by_contra hnone
    push Not at hnone
    have hsome := hfull.mpr fun place hplace => Option.isSome_iff_ne_none.mpr (hnone place hplace)
    omega
  · rintro ⟨place, hplace, hempty⟩
    apply lt_of_le_of_ne hle
    intro heq
    have hsome := hfull.mp heq place hplace
    rw [hempty] at hsome
    cases hsome

/-- The bytes of the filled places are the contents in order. -/
theorem joined_slots (total : Nat) (content : Nat → Option (List UInt8)) :
    joined (slots total content) =
      (List.range total).flatMap fun place => (content place).getD [] := by
  unfold joined slots slotsFrom
  rw [List.range_eq_range']
  induction List.range' 0 total with
  | nil => rfl
  | cons place rest ih =>
      rw [List.filterMap_cons, List.flatMap_cons]
      cases content place with
      | none => exact ih
      | some bytes => exact congrArg (bytes ++ ·) ih

end HubLink.Log
