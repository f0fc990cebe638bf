import HubLink.Proofs.Message.Printable
import HubLink.Proofs.Tool.OwnFrames

/-!
# What the decoder accepts can be passed on

A relay writes what it has read, and the decode command prints it.  Both succeed for every accepted
envelope but one sort: a discovery whose reading was too large for a short number.  It is accepted
with an infinite reading, and then neither the relay nor the command can write it
(`accepted_printable_iff`).
-/

namespace HubLink.Tool

open Message (Envelope Payload)

variable {settings : Settings} {buffer : List UInt8} {envelope : Envelope}

theorem describeFrame_of_printable (world : World)
    (haccepted : ∀ envelope,
      Message.Codec.decode settings.maxFrameSize buffer = .ok (some envelope) →
        ∃ json, envelope.payload.toJson = .ok json) :
    ∃ told, describeFrame world settings buffer = .ok told := by
  unfold describeFrame
  split
  next => exact ⟨_, rfl⟩
  next envelope hdecode =>
    obtain ⟨json, hjson⟩ := haccepted envelope hdecode
    obtain ⟨text, htext⟩ := (Envelope.exists_print hjson).2
    rw [htext]
    exact ⟨_, rfl⟩
  all_goals exact ⟨_, rfl⟩

theorem describeFrame_of_unprintable (world : World) {reading : Binary.NonFinite}
    (hdecode : Message.Codec.decode settings.maxFrameSize buffer = .ok (some envelope))
    (hjson : envelope.payload.toJson = .error reading) :
    describeFrame world settings buffer = .error (.unprintable reading) := by
  unfold describeFrame
  rw [hdecode]
  simp only [(Envelope.print_eq_error hjson).2]

/-- **Whatever bytes the decoder accepts, their envelope can be written again**, and the decode
command prints an outcome for them, unless the envelope is a discovery whose reading was too large
for a short number; then writing fails at an infinite reading.  Bytes that are not accepted always
have an outcome that is printed. -/
theorem accepted_printable_iff (settings : Settings) (buffer : List UInt8) :
    (∀ envelope, Message.Codec.decode settings.maxFrameSize buffer = .ok (some envelope) →
      ((∃ text, envelope.print = .ok text) ↔ ¬ ∃ long, envelope.payload.Overflown long) ∧
      ∀ reading, envelope.print = .error reading → ∃ negative, reading = .infinity negative) ∧
    ∀ world hex, Hex.decode? (Text.trim hex) = some buffer →
      ((∃ told, (Command.decode hex).run world settings = .print told) ↔
        ∀ envelope, Message.Codec.decode settings.maxFrameSize buffer = .ok (some envelope) →
          ¬ ∃ long, envelope.payload.Overflown long) := by
  refine ⟨fun envelope hdecode => ?_, fun world hex hhex => ?_⟩
  · obtain ⟨hprintable, hinfinite⟩ := Message.Codec.printable_iff_of_decode hdecode
    rw [← hprintable]
    refine ⟨⟨?_, ?_⟩, ?_⟩
    · rintro ⟨text, hprint⟩
      exact Envelope.exists_toJson hprint
    · rintro ⟨json, hjson⟩
      exact (Envelope.exists_print hjson).1
    · intro reading hreading
      cases hjson : envelope.payload.toJson with
      | ok json =>
          obtain ⟨text, hprint⟩ := (Envelope.exists_print hjson).1
          rw [hprint] at hreading
          cases hreading
      | error other =>
          rw [(Envelope.print_eq_error hjson).1] at hreading
          cases hreading
          exact hinfinite reading hjson
  · rw [run_decode_of_bytes world settings hhex]
    constructor
    · rintro ⟨told, htold⟩ envelope hdecode ⟨long, hover⟩
      rw [describeFrame_of_unprintable world hdecode hover.toJson_eq] at htold
      cases htold
    · intro haccepted
      have htold : ∃ told, describeFrame world settings buffer = .ok told := by
        apply describeFrame_of_printable
        intro envelope hdecode
        exact (Message.Codec.printable_iff_of_decode hdecode).1.mpr (haccepted envelope hdecode)
      obtain ⟨told, htold⟩ := htold
      rw [htold]
      exact ⟨told, rfl⟩

/-! ## At the edge -/

theorem decode_layout_of_parse {limit : Nat} {text : List UInt8}
    (hlimit : text.length ≤ limit ∧ text.length < UInt32.size)
    (hparse : Envelope.parse text = .ok envelope) :
    Message.Codec.decode limit (Frame.layout text) = .ok (some envelope) := by
  have hdecode := Message.Codec.decode_layout hlimit.1 hlimit.2 []
  rw [List.append_nil, hparse] at hdecode
  exact hdecode

/-- The text of a discovery whose reading is spelled like this. -/
def discoveryText (reading : String) : List UInt8 :=
  Text.bytes ("\x7b\"version\":\"1.0.0\",\"type\":\"node_discovered\",\"correlationId\":\"c\"," ++
    "\"timestamp\":0,\"payload\":\x7b\"nodeId\":\"n\",\"rssi\":0,\"advertisementData\":\x7b" ++
    "\"batteryPercent\":1,\"lastReading\":" ++ reading ++
    ",\"faultFlags\":0,\"counter\":0\x7d\x7d\x7d")

/-- The greatest long number below the edge is accepted, written and printed. -/
theorem accepted_printable_below_edge :
    let buffer := Frame.layout (discoveryText "3.4028235677973362e38")
    ∃ envelope text, Message.Codec.decode Frame.defaultLimit buffer = .ok (some envelope) ∧
      envelope.print = .ok text ∧
      ∀ world, ∃ told, (Command.decode (Hex.encode buffer)).run world {} = .print told := by
  have hsmall : (discoveryText "3.4028235677973362e38").length ≤ Frame.defaultLimit ∧
      (discoveryText "3.4028235677973362e38").length < UInt32.size := by
    decide +kernel
  have hwritten : ((Envelope.parse (discoveryText "3.4028235677973362e38")).toOption.bind
      fun envelope => envelope.print.toOption).isSome = true := by
    decide +kernel
  generalize discoveryText "3.4028235677973362e38" = sent at hsmall hwritten
  cases hparse : Envelope.parse sent with
  | error fault =>
      rw [hparse] at hwritten
      cases hwritten
  | ok envelope =>
      cases hprint : envelope.print with
      | error reading => simp [hparse, Except.toOption, hprint] at hwritten
      | ok text =>
          have hdecode := decode_layout_of_parse hsmall hparse
          have hhex : Hex.decode? (Text.trim (Hex.encode (Frame.layout sent))) =
              some (Frame.layout sent) := by
            rw [Hex.trim_encode, Hex.decode?_encode]
          obtain ⟨haccepted, hprinted⟩ := accepted_printable_iff {} (Frame.layout sent)
          have hfinite := (haccepted envelope hdecode).1.mp ⟨text, hprint⟩
          refine ⟨envelope, text, hdecode, hprint, fun world => ?_⟩
          refine (hprinted world _ hhex).mpr fun other hother => ?_
          rw [Option.some.inj (Except.ok.inj (hother.symm.trans hdecode))]
          exact hfinite

/-- A reading beyond the edge is accepted too, and then neither written nor printed. -/
theorem accepted_unprintable :
    let buffer := Frame.layout (discoveryText "1e39")
    ∃ envelope, Message.Codec.decode Frame.defaultLimit buffer = .ok (some envelope) ∧
      envelope.print = .error (.infinity false) ∧
      ∀ world, (Command.decode (Hex.encode buffer)).run world {} =
        .fail (.unprintable (.infinity false)) := by
  have hsmall : (discoveryText "1e39").length ≤ Frame.defaultLimit ∧
      (discoveryText "1e39").length < UInt32.size := by
    decide +kernel
  have hrefused : (Envelope.parse (discoveryText "1e39")).toOption.map
      (fun envelope => envelope.payload.toJson.map Json.depth) =
        some (.error (.infinity false)) := by
    decide +kernel
  generalize discoveryText "1e39" = sent at hsmall hrefused
  cases hparse : Envelope.parse sent with
  | error fault =>
      rw [hparse] at hrefused
      cases hrefused
  | ok envelope =>
      cases hjson : envelope.payload.toJson with
      | ok json => simp [hparse, Except.toOption, hjson, Except.map] at hrefused
      | error reading =>
          obtain rfl : reading = .infinity false := by
            simpa [hparse, Except.toOption, hjson, Except.map] using hrefused
          have hdecode := decode_layout_of_parse hsmall hparse
          refine ⟨envelope, hdecode, (Envelope.print_eq_error hjson).1, fun world => ?_⟩
          rw [run_decode_encode, describeFrame_of_unprintable world hdecode hjson]
          rfl

end HubLink.Tool
