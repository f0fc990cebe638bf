import HubLink.Proofs.Log.Acceptance
import HubLink.Proofs.Log.Places

/-!
# The chunks that a pending log is made of

A pending log forgets its chunks: it keeps a place for each index, and what came last for it.  Seen
from outside there is nothing but the period of the log, the chunks that were taken since it began.
`Collected` says that a pending log is what its period makes of it.  Then it is complete exactly
when the period covers every index of the total that the first chunk announced, and its bytes are
those that came last for each of the indices.
-/

namespace HubLink.Log

open Message (LogChunk)

/-- The total that the first chunk of a period announced. -/
def announced (period : List LogChunk) : Nat :=
  (period.head?.map fun chunk => chunk.totalChunks.toNat).getD 0

/-- Every index of the announced total was among the chunks of a period. -/
def Covered (period : List LogChunk) : Prop :=
  period ≠ [] ∧ ∀ index < announced period, ∃ chunk ∈ period, chunk.chunkIndex.toNat = index

instance (period : List LogChunk) : Decidable (Covered period) :=
  inferInstanceAs (Decidable (_ ∧ _))

/-- The bytes that came last for an index in a period, if any came. -/
def latest? (period : List LogChunk) (index : Nat) : Option (List UInt8) :=
  (period.reverse.find? fun chunk => chunk.chunkIndex.toNat == index).bind fun chunk =>
    chunk.content.toOption

/-- The bytes that came last for each index of a period, in order. -/
def whole (period : List LogChunk) : List UInt8 :=
  (List.range (announced period)).flatMap fun index => (latest? period index).getD []

/-- A pending log is what a period makes of it. -/
structure Collected (log : Pending) (period : List LogChunk) : Prop where
  total_eq : ∀ chunk ∈ period, chunk.totalChunks = log.total
  readable : ∀ chunk ∈ period, ∃ content, chunk.content = .ok content
  filled_eq : log.filled = slots log.total.toNat (latest? period)

variable {log : Pending} {period : List LogChunk} {chunk : LogChunk} {content : List UInt8}

/-! ## What came last -/

theorem latest?_append (hcontent : chunk.content = .ok content) :
    latest? (period ++ [chunk]) =
      Function.update (latest? period) chunk.chunkIndex.toNat (some content) := by
  funext index
  unfold latest?
  rw [List.reverse_append, List.reverse_singleton, List.singleton_append, List.find?_cons]
  by_cases hindex : index = chunk.chunkIndex.toNat
  · subst hindex
    rw [Function.update_self, beq_self_eq_true, Option.bind_some, hcontent]
    rfl
  · rw [Function.update_of_ne hindex, beq_eq_false_iff_ne.mpr (Ne.symm hindex)]

theorem latest?_eq_none_iff (hreadable : ∀ chunk ∈ period, ∃ content, chunk.content = .ok content)
    (index : Nat) :
    latest? period index = none ↔ ∀ chunk ∈ period, chunk.chunkIndex.toNat ≠ index := by
  unfold latest?
  cases hfound : period.reverse.find? fun chunk => chunk.chunkIndex.toNat == index with
  | none =>
      rw [List.find?_eq_none] at hfound
      refine ⟨fun _ chunk hchunk => ?_, fun _ => rfl⟩
      simpa using hfound chunk (List.mem_reverse.mpr hchunk)
  | some chunk =>
      have hmem := List.mem_reverse.mp (List.mem_of_find?_eq_some hfound)
      have hindex : chunk.chunkIndex.toNat = index := by simpa using List.find?_some hfound
      obtain ⟨content, hcontent⟩ := hreadable chunk hmem
      rw [Option.bind_some, hcontent]
      exact ⟨fun h => (by cases h), fun hnone => absurd hindex (hnone chunk hmem)⟩

theorem exists_of_latest?_eq_some {index : Nat} (hlatest : latest? period index = some content) :
    ∃ chunk ∈ period, chunk.chunkIndex.toNat = index ∧ chunk.content = .ok content := by
  obtain ⟨chunk, hfound, hcontent⟩ := Option.bind_eq_some_iff.mp hlatest
  have hindex : chunk.chunkIndex.toNat = index := by simpa using List.find?_some hfound
  refine ⟨chunk, List.mem_reverse.mp (List.mem_of_find?_eq_some hfound), hindex, ?_⟩
  cases hread : chunk.content with
  | error fault =>
      rw [hread] at hcontent
      cases hcontent
  | ok bytes =>
      rw [hread] at hcontent
      cases hcontent
      rfl

/-! ## A log and its period -/

namespace Collected

/-- A log without a filled place has no chunks yet. -/
theorem nil (hfilled : log.filled = []) : Collected log [] where
  total_eq := List.forall_mem_nil _
  readable := List.forall_mem_nil _
  filled_eq := by
    rw [hfilled]
    unfold slots slotsFrom
    symm
    rw [List.filterMap_eq_nil_iff]
    intro place _
    rfl

theorem filledBy (hcollected : Collected log period) (htotal : chunk.totalChunks = log.total)
    (hindex : chunk.chunkIndex.toNat < chunk.totalChunks.toNat)
    (hcontent : chunk.content = .ok content) :
    Collected (log.filledBy chunk content) (period ++ [chunk]) where
  total_eq := List.forall_mem_append.mpr
    ⟨hcollected.total_eq, List.forall_mem_singleton.mpr htotal⟩
  readable := List.forall_mem_append.mpr
    ⟨hcollected.readable, List.forall_mem_singleton.mpr ⟨content, hcontent⟩⟩
  filled_eq := by
    rw [htotal] at hindex
    rw [latest?_append hcontent]
    unfold Pending.filledBy
    dsimp only
    rw [hcollected.filled_eq, fill_slots content hindex]

theorem announced_eq (hcollected : Collected log period) (hbegun : period ≠ []) :
    announced period = log.total.toNat := by
  obtain ⟨first, rest, rfl⟩ := List.exists_cons_of_ne_nil hbegun
  exact congrArg UInt32.toNat (hcollected.total_eq first List.mem_cons_self)

/-- Counting the filled places tells whether every index has come. -/
theorem covered_iff (hcollected : Collected log period) (hbegun : period ≠ []) :
    Covered period ↔ ¬ log.filled.length < log.total.toNat := by
  rw [hcollected.filled_eq, length_slots_lt_iff, Covered, hcollected.announced_eq hbegun]
  simp only [latest?_eq_none_iff hcollected.readable]
  push Not
  exact ⟨And.right, fun hcovered => ⟨hbegun, hcovered⟩⟩

theorem joined_eq (hcollected : Collected log period) (hbegun : period ≠ []) :
    joined log.filled = whole period := by
  rw [hcollected.filled_eq, joined_slots, whole, hcollected.announced_eq hbegun]

end Collected

end HubLink.Log
