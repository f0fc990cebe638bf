import HubLink.Proofs.Checksum.Register
import Mathlib.Tactic.ByContra

/-!
# Bursts of damage

Noise on the line comes in bursts.  A burst of up to four bytes changes the register that has taken
in all of the bytes, wherever it falls (`foldl_absorb_ne`): the bytes before it lead to one
register, the four bytes of the burst take that register to two, and no later byte brings the two
together.
-/

namespace HubLink.Checksum

/-! ## Bursts -/

/-- Damage to some bytes: at least one differs, and all that do lie within four places, the first of
which is `start`. -/
structure Burst (start : Nat) (sent received : List UInt8) : Prop where
  length_eq : received.length = sent.length
  ne : received ≠ sent
  within : ∀ i, received[i]? ≠ sent[i]? → start ≤ i ∧ i < start + 4

namespace Burst

variable {start : Nat} {sent received : List UInt8}

theorem take_eq (hburst : Burst start sent received) {count : Nat} (hcount : count ≤ start) :
    received.take count = sent.take count := by
  apply List.ext_getElem?
  intro i
  rw [List.getElem?_take, List.getElem?_take]
  split
  next hi =>
    by_contra hne
    have hwithin := hburst.within i hne
    omega
  · rfl

theorem drop_eq (hburst : Burst start sent received) {count : Nat} (hcount : start + 4 ≤ count) :
    received.drop count = sent.drop count := by
  apply List.ext_getElem?
  intro i
  rw [List.getElem?_drop, List.getElem?_drop]
  by_contra hne
  have hwithin := hburst.within (count + i) hne
  omega

/-- A burst that spares the first bytes is a burst on the others. -/
theorem drop (hburst : Burst start sent received) {count : Nat} (hcount : count ≤ start) :
    Burst (start - count) (sent.drop count) (received.drop count) where
  length_eq := by rw [List.length_drop, List.length_drop, hburst.length_eq]
  ne heq := by
    apply hburst.ne
    rw [← List.take_append_drop count received, hburst.take_eq hcount, heq,
      List.take_append_drop]
  within i hne := by
    rw [List.getElem?_drop, List.getElem?_drop] at hne
    have hwithin := hburst.within (count + i) hne
    omega

/-- A burst near the end lies within the last four bytes. -/
theorem exists_start (hburst : Burst start sent received) (hlong : 4 ≤ sent.length) :
    ∃ early, early + 4 ≤ sent.length ∧ Burst early sent received := by
  by_cases hstart : start + 4 ≤ sent.length
  · exact ⟨start, hstart, hburst⟩
  · refine ⟨sent.length - 4, by omega, hburst.length_eq, hburst.ne, ?_⟩
    intro i hne
    have hwithin := hburst.within i hne
    have hinside : i < sent.length := by
      by_contra houtside
      have hlength := hburst.length_eq
      rw [List.getElem?_eq_none (by omega), List.getElem?_eq_none (by omega)] at hne
      exact hne rfl
    omega

end Burst

/-- The register notices every burst. -/
theorem foldl_absorb_ne {start : Nat} {sent received : List UInt8}
    (hburst : Burst start sent received) (hlong : 4 ≤ sent.length) (register : UInt32) :
    received.foldl absorb register ≠ sent.foldl absorb register := by
  intro heq
  obtain ⟨early, hearly, hburst⟩ := hburst.exists_start hlong
  have hlength := hburst.length_eq
  have hsplit : ∀ data : List UInt8,
      data = data.take early ++ ((data.drop early).take 4 ++ data.drop (early + 4)) := by
    intro data
    rw [← List.drop_drop, List.take_append_drop, List.take_append_drop]
  rw [hsplit received, hsplit sent, hburst.take_eq (Nat.le_refl early),
    hburst.drop_eq (Nat.le_refl _), List.foldl_append, List.foldl_append, List.foldl_append,
    List.foldl_append] at heq
  -- the bytes behind the burst are the same, so the registers right behind it agree already
  have hwindow := absorb_word_injective (by rw [List.length_take, List.length_drop]; omega)
    (by rw [List.length_take, List.length_drop]; omega) (foldl_absorb_injective _ heq)
  apply hburst.ne
  rw [hsplit received, hwindow, hburst.take_eq (Nat.le_refl early),
    hburst.drop_eq (Nat.le_refl _), ← hsplit sent]

end HubLink.Checksum
