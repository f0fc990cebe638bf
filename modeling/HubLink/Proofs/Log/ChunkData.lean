import HubLink.Proofs.Bytes.Canonical
import HubLink.Proofs.Log.Chunks

/-!
# The data of a chunk is canonical

A chunk carries its bytes as base64 text.  The bytes come back from the text that is made of them,
and the text from the bytes that are read of it (`data_canonical`).  So a chunk whose data was
tampered with is either refused or has other bytes: there is no second spelling that hides a change.
-/

namespace HubLink.Log

open Message (LogChunk)
open Base64 (Canonical alphabet letter)

theorem content_eq_ok_iff {chunk : LogChunk} {content : List UInt8} {jobId nodeId : String}
    {index total : UInt32} :
    chunk.content = .ok content ↔
      (LogChunk.ofBytes jobId nodeId index total content).data = chunk.data := by
  have hbytes : Text.bytes (LogChunk.ofBytes jobId nodeId index total content).data =
      Base64.encode content :=
    Text.bytes_ofBytes fun _ => Base64.lt_of_mem_encode
  calc chunk.content = .ok content
    _ ↔ Base64.encode content = Text.bytes chunk.data := Base64.decode_eq_ok_iff
    _ ↔ (LogChunk.ofBytes jobId nodeId index total content).data = chunk.data := by
      rw [← hbytes]
      exact ⟨Text.bytes_injective, congrArg Text.bytes⟩

theorem exists_content_iff {chunk : LogChunk} :
    (∃ content, chunk.content = .ok content) ↔ Canonical chunk.data :=
  Base64.exists_decode_bytes_iff

theorem exists_fault_of_not_canonical {chunk : LogChunk} (hdata : ¬ Canonical chunk.data) :
    ∃ fault, chunk.content = .error fault := by
  cases hcontent : chunk.content with
  | ok content => exact absurd (exists_content_iff.mp ⟨content, hcontent⟩) hdata
  | error fault => exact ⟨fault, rfl⟩

/-- **The data text of a chunk is canonical.**  Any bytes come back from the text that is made of
them.  The text that is made of what was read is the text that was read, so no two texts have the
same bytes.  A text is read exactly if it is in standard form.  In particular a text is refused that
differs from one that is read in its padding alone, or in the unused bits of its last symbol, and so
is any text with a character from outside the alphabet. -/
theorem data_canonical :
    (∀ jobId nodeId index total content,
      (LogChunk.ofBytes jobId nodeId index total content).content = .ok content) ∧
    (∀ (chunk : LogChunk) content, chunk.content = .ok content →
      ∀ jobId nodeId index total,
        (LogChunk.ofBytes jobId nodeId index total content).data = chunk.data) ∧
    (∀ (chunk other : LogChunk) content, chunk.content = .ok content →
      other.content = .ok content → chunk.data = other.data) ∧
    (∀ chunk : LogChunk, (∃ content, chunk.content = .ok content) ↔ Canonical chunk.data) ∧
    (∀ (chunk altered : LogChunk) content, chunk.content = .ok content →
      altered.data ≠ chunk.data →
      altered.data.toList.filter (· != '=') = chunk.data.toList.filter (· != '=') →
        ∃ fault, altered.content = .error fault) ∧
    (∀ (chunk altered : LogChunk) content front last stray padding,
      chunk.content = .ok content → (∀ n ∈ front, n < 64) → last + stray < 64 →
      chunk.data.toList = (front ++ [last]).map letter ++ List.replicate padding '=' →
      altered.data.toList =
        (front ++ [last + stray]).map letter ++ List.replicate padding '=' →
      0 < stray → stray < 4 ^ padding → ∃ fault, altered.content = .error fault) ∧
    ∀ (chunk : LogChunk), ∀ c ∈ chunk.data.toList, c ∉ alphabet → c ≠ '=' →
      ∃ fault, chunk.content = .error fault := by
  refine ⟨content_ofBytes, ?_, ?_, fun _ => exists_content_iff, ?_, ?_, ?_⟩
  · intro chunk content hcontent jobId nodeId index total
    exact content_eq_ok_iff.mp hcontent
  · intro chunk other content hchunk hother
    have hfirst := (@content_eq_ok_iff chunk content "" "" 0 0).mp hchunk
    have hsecond := (@content_eq_ok_iff other content "" "" 0 0).mp hother
    exact hfirst.symm.trans hsecond
  · intro chunk altered content hchunk hne hsymbols
    apply exists_fault_of_not_canonical
    intro haltered
    exact hne (haltered.eq_of_symbols (exists_content_iff.mp ⟨content, hchunk⟩) hsymbols)
  · intro chunk altered content front last stray padding hchunk hfront hlast hchars haltered hpos hlt
    apply exists_fault_of_not_canonical
    intro hcanonical
    have hunused : 4 ^ padding ∣ last :=
      (exists_content_iff.mp ⟨content, hchunk⟩).dvd_last hfront (by omega) hchars
    have hstray : 4 ^ padding ∣ stray :=
      (Nat.dvd_add_iff_right hunused).mpr (hcanonical.dvd_last hfront hlast haltered)
    exact absurd (Nat.le_of_dvd hpos hstray) (Nat.not_le.mpr hlt)
  · intro chunk c hc halphabet hpad
    apply exists_fault_of_not_canonical
    intro hcanonical
    rcases hcanonical.mem_alphabet hc with hmem | heq
    · exact halphabet hmem
    · exact hpad heq

/-- One byte takes two symbols and two padding signs.  Of the other spellings one lacks the padding,
one has a bit set beyond the byte, and one a line break behind it. -/
theorem data_canonical_other_spellings :
    let chunk : LogChunk := .ofBytes "j" "n" 0 1 [0x41]
    let bare : LogChunk := { chunk with data := "QQ" }
    let stray : LogChunk := { chunk with data := "QR==" }
    let broken : LogChunk := { chunk with data := "QQ==\n" }
    chunk.data = "QQ==" ∧ chunk.content = .ok [0x41] ∧
      (LogChunk.ofBytes "k" "m" 7 9 [0x41]).data = chunk.data ∧
      (∃ fault, bare.content = .error fault) ∧ (∃ fault, stray.content = .error fault) ∧
      ∃ fault, broken.content = .error fault := by
  intro chunk bare stray broken
  obtain ⟨hback, hagain, -, -, hpadding, hstray, hforeign⟩ := data_canonical
  have hchunk : chunk.content = .ok [0x41] := hback "j" "n" 0 1 [0x41]
  have hdata : chunk.data = "QQ==" := by decide +kernel
  refine ⟨hdata, hchunk, hagain chunk [0x41] hchunk "k" "m" 7 9, ?_, ?_, ?_⟩
  · exact hpadding chunk bare [0x41] hchunk (by rw [hdata]; decide) (by rw [hdata]; decide +kernel)
  · exact hstray chunk stray [0x41] [16] 16 1 2 hchunk (by decide) (by decide)
      (by rw [hdata]; decide +kernel) (by decide +kernel) (by decide) (by decide)
  · exact hforeign broken '\n' (by decide) (by decide) (by decide)

end HubLink.Log
