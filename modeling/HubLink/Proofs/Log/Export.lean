import HubLink.Proofs.Bytes.Hex
import HubLink.Proofs.Log.Transfer
import HubLink.Proofs.Stream.Envelopes
import HubLink.Tool.Run
import Mathlib.Data.List.Nodup
import Mathlib.Data.List.Perm.Subperm

/-!
# An exported log arrives

An export passes a log through every layer: it is cut into chunks, each chunk is put into an
envelope, framed, and printed as hexadecimal digits.  Whoever reads the printed lines back, in
whatever pieces the bytes reach the decoder, has one envelope a line, and their chunks in any order
give the end of the log (`export_arrives`).

Each layer has its own theory, and here they only have to meet.  `encoded_frames` is the way from
envelopes to a stream, `history_of_perm` the way from the chunks, each taken once, to the log.
-/

namespace HubLink.Log

open Message (LogChunk)

variable {job : String} {limit : Nat} {parts : List (List UInt8)} {sent : List LogChunk}

/-! ## The sending side -/

/-- An export that comes to its end has framed every envelope. -/
theorem encoded_frames {envelopes : List Message.Envelope} {framed : List (List UInt8)}
    (hframes : frames limit envelopes = (framed, none)) :
    List.Forall₂ (fun envelope frame => Message.Codec.encode limit envelope = .ok frame)
      envelopes framed := by
  induction envelopes generalizing framed with
  | nil =>
      cases hframes
      exact .nil
  | cons envelope rest ih =>
      unfold frames at hframes
      split at hframes
      next => cases hframes
      next frame hencode =>
        obtain ⟨hframed, hfault⟩ := Prod.mk.inj hframes
        rw [← hframed]
        exact .cons hencode (ih (Prod.ext rfl hfault))

section

variable (version : String) (stamps : Nat → Message.Stamp) (chunks : List LogChunk)

theorem payload_envelopes :
    (envelopes version stamps chunks).map Message.Envelope.payload = chunks.map .nodeLogChunk := by
  calc (envelopes version stamps chunks).map Message.Envelope.payload
      = chunks.zipIdx.map fun entry => .nodeLogChunk entry.1 := by
        rw [envelopes, List.map_map]
        rfl
    _ = (chunks.zipIdx.map Prod.fst).map .nodeLogChunk := by
        rw [List.map_map]
        rfl
    _ = chunks.map .nodeLogChunk := by rw [List.zipIdx_map_fst]

theorem length_envelopes : (envelopes version stamps chunks).length = chunks.length := by
  rw [envelopes, List.length_map, List.length_zipIdx]

/-- The envelopes of an export are of one kind, which has no free-form parts. -/
theorem of_mem_envelopes {envelope : Message.Envelope}
    (hmem : envelope ∈ envelopes version stamps chunks) :
    envelope.kind = .nodeLogChunk ∧ envelope.payload.Plain := by
  have hpayload := List.mem_map_of_mem (f := Message.Envelope.payload) hmem
  rw [payload_envelopes] at hpayload
  obtain ⟨chunk, _, hchunk⟩ := List.mem_map.mp hpayload
  rw [Message.Envelope.kind, ← hchunk]
  exact ⟨rfl, rfl, rfl⟩

end

/-! ## The receiving side -/

namespace Carry

/-- No chunk is sent twice: there are as many chunks as indices, and every index has one. -/
theorem nodup (hcarry : Carry job parts sent) : sent.Nodup := by
  have hindices : List.range parts.length ⊆ sent.map fun chunk => chunk.chunkIndex.toNat := by
    intro index hindex
    obtain ⟨chunk, hchunk, heq⟩ := hcarry.exists_index index (List.mem_range.mp hindex)
    exact List.mem_map.mpr ⟨chunk, hchunk, heq⟩
  have hlength : (sent.map fun chunk => chunk.chunkIndex.toNat).length ≤
      (List.range parts.length).length := by
    rw [List.length_map, List.length_range, hcarry.length_eq]
  have hperm := (List.subperm_of_subset List.nodup_range hindices).perm_of_length_le hlength
  exact List.Nodup.of_map _ (hperm.nodup_iff.mp List.nodup_range)

/-- Chunks that are taken once each, in any order, give their log with the last one. -/
theorem history_of_perm {start : Reassembler} (hcarry : Carry job parts sent)
    (hparts : parts ≠ []) (hnew : start.pending? job = none)
    (hroom : start.jobs.length < start.maxJobs) (hfits : sent.length ≤ start.maxChunks)
    {order : List LogChunk} (horder : order.Perm sent) :
    (start.history (order.map .add)).map Served.answer =
      List.replicate (parts.length - 1) (.taken none) ++ [.taken (some parts.flatten)] := by
  have hlength : order.length = parts.length := horder.length_eq.trans hcarry.length_eq
  obtain rfl | ⟨earlier, last, rfl⟩ := List.eq_nil_or_concat' order
  · exact absurd (List.length_eq_zero_iff.mp hlength.symm) hparts
  rw [List.length_append, List.length_singleton] at hlength
  obtain ⟨hearlier, hlast⟩ := List.append_subset.mp horder.subset
  -- without its last chunk an order is too short to have them all
  have hmissing : ¬ sent ⊆ earlier := by
    intro hall
    have hle := (List.subperm_of_subset hcarry.nodup hall).length_le
    rw [hcarry.length_eq] at hle
    omega
  have hidle : UnderWay start job start [] := .idle
  obtain ⟨hanswers, hunder⟩ := hidle.history_add hcarry hnew hroom hfits hearlier hmissing
  rw [List.nil_append] at hunder
  have hserve := (hunder.serve_add hcarry hnew hroom hfits hearlier
    (hlast (List.mem_singleton_self last))).1 horder.symm.subset
  rw [List.map_append, Reassembler.history_append, List.map_append, hanswers, ← hlength,
    Nat.add_sub_cancel]
  simp only [List.map_cons, List.map_nil, Reassembler.history, hserve]

end Carry

end HubLink.Log

namespace HubLink.Tool

open Log (Reassembler Served)

/-- What an export that succeeds has read, framed and printed. -/
theorem exists_of_exportFile_eq {world : World} {settings : Settings} {file job node : String}
    {maxBytes : UInt32} {lines : List String}
    (hrun : exportFile world settings file job node maxBytes = ⟨lines, .success⟩) :
    ∃ log framed, world.file file = some log ∧ lines = framed.map Hex.encode ∧
      Log.frames settings.maxFrameSize (Log.envelopes settings.schemaVersion world.stamp
        (Log.chunks settings.logChunkSize job node log maxBytes)) = (framed, none) := by
  unfold exportFile at hrun
  split at hrun
  next => cases hrun
  next log hfile =>
    obtain ⟨hlines, hstatus⟩ := Outcome.mk.inj hrun
    refine ⟨log, _, hfile, hlines.symm, Prod.ext rfl ?_⟩
    -- a fault would be the status
    cases hfault : (Log.frames settings.maxFrameSize (Log.envelopes settings.schemaVersion
        world.stamp (Log.chunks settings.logChunkSize job node log maxBytes))).2 with
    | none => rfl
    | some fault =>
        rw [hfault] at hstatus
        cases hstatus

/-- **An exported log arrives.**  An export that succeeds prints one frame a line.  Read back and put
together, the frames reach a decoder in pieces that have nothing to do with the lines, and still it
finds one chunk for each line and nothing else.  If a log may have that many chunks, a new
reassembler that takes each of them once, in whatever order, hands out the end of the file with the
last one, and nothing before. -/
theorem export_arrives {world : World} {settings : Settings} {file job node : String}
    {maxBytes : UInt32} {lines : List String}
    (hrun : (Command.exportLog file job node maxBytes).run world settings = ⟨lines, .success⟩)
    (hfew : lines.length ≤ 4096) :
    ∃ (log : List UInt8) (frames : List (List UInt8)) (envelopes : List Message.Envelope)
        (chunks : List Message.LogChunk),
      world.file file = some log ∧
      lines.mapM Hex.decode? = some frames ∧
      (∀ steps, Receiver.appended steps = frames.flatten →
        (Message.Codec.receiver settings.maxFrameSize).finish steps = (envelopes.map .ok, [])) ∧
      envelopes.length = lines.length ∧
      (∀ envelope ∈ envelopes, envelope.kind = .nodeLogChunk) ∧
      envelopes.map Message.Envelope.payload = chunks.map .nodeLogChunk ∧
      ∀ order : List Message.LogChunk, order.Perm chunks →
        (({} : Reassembler).history (order.map .add)).map Served.answer =
          List.replicate (lines.length - 1) (.taken none) ++
            [.taken (some (Log.tail log maxBytes.toNat))] := by
  obtain ⟨log, framed, hfile, rfl, hframes⟩ := exists_of_exportFile_eq hrun
  let sent := Log.chunks settings.logChunkSize job node log maxBytes
  let envelopes := Log.envelopes settings.schemaVersion world.stamp sent
  have hcarry := Log.carry_chunks settings.logChunkSize job node log maxBytes
  have hencoded := Log.encoded_frames hframes
  have henvelopes : ∀ envelope ∈ envelopes, envelope.kind = .nodeLogChunk ∧ envelope.payload.Plain :=
    fun envelope => Log.of_mem_envelopes settings.schemaVersion world.stamp sent
  have hlines : envelopes.length = (framed.map Hex.encode).length := by
    rw [List.length_map]
    exact hencoded.length_eq
  have hsent : sent.length = (framed.map Hex.encode).length := by
    rw [← hlines, Log.length_envelopes]
  refine ⟨log, framed, envelopes, sent, hfile, Hex.mapM_decode?_encode framed, ?_, hlines,
    fun envelope hmem => (henvelopes envelope hmem).1, Log.payload_envelopes _ _ sent, ?_⟩
  · intro steps hsteps
    rw [Receiver.finish_eq_drain, hsteps]
    exact Message.Codec.drain_encoded (fun envelope hmem => (henvelopes envelope hmem).2) hencoded
  · intro order horder
    have hidle : ({} : Reassembler).pending? job = none := rfl
    have hhistory := hcarry.history_of_perm (Log.parts_ne_nil _ _ _) hidle (by decide)
      (hsent ▸ hfew) horder
    rwa [Log.flatten_parts, ← hcarry.length_eq, hsent] at hhistory

/-- The end of a log is exported in two frames, and the second chunk is taken first. -/
theorem export_arrives_reversed :
    let world : World :=
      { file := fun _ => some [1, 2, 3, 4, 5], environment := fun _ => none
        stamp := fun _ => ⟨"c", -7⟩ }
    let settings : Settings := { logChunkSize := 2 }
    ∃ lines frames, ∃ envelopes : List Message.Envelope, ∃ first second,
      (Command.exportLog "log" "a" "n" 3).run world settings = ⟨lines, .success⟩ ∧
      lines.length ≤ 4096 ∧
      lines.mapM Hex.decode? = some frames ∧
      (Message.Codec.receiver settings.maxFrameSize).finish [.poll, .append frames.flatten] =
        (envelopes.map .ok, []) ∧
      envelopes.map Message.Envelope.payload = [.nodeLogChunk first, .nodeLogChunk second] ∧
      (({} : Reassembler).history [.add second, .add first]).map Served.answer =
        [.taken none, .taken (some [3, 4, 5])] := by
  intro world settings
  have hexit : ((Command.exportLog "log" "a" "n" 3).run world settings).printed.length = 2 ∧
      ((Command.exportLog "log" "a" "n" 3).run world settings).status.exitCode = 0 := by
    decide +kernel
  generalize hrun : (Command.exportLog "log" "a" "n" 3).run world settings = outcome at hexit ⊢
  obtain ⟨lines, _ | _ | _⟩ := outcome
  case failed => cases hexit.2
  case misused => cases hexit.2
  have hlines : lines.length = 2 := hexit.1
  have hfew : lines.length ≤ 4096 := by omega
  obtain ⟨log, frames, envelopes, chunks, hfile, hframes, hfinish, hlength, -, hpayloads,
    hhistory⟩ := export_arrives hrun hfew
  obtain rfl := Option.some.inj hfile
  obtain ⟨first, second, rfl⟩ : ∃ first second, chunks = [first, second] := by
    rw [← List.length_eq_two, ← List.length_map (f := Message.Payload.nodeLogChunk), ← hpayloads,
      List.length_map, hlength, hlines]
  have hreversed := hhistory [second, first] (.swap _ _ _)
  rw [hlines] at hreversed
  exact ⟨lines, frames, envelopes, first, second, rfl, hfew, hframes,
    hfinish [.poll, .append frames.flatten] (List.append_nil _), hpayloads, hreversed⟩

end HubLink.Tool
