import HubLink.Proofs.Bytes.Hex
import HubLink.Proofs.Stream.Envelopes
import HubLink.Tool.Run

/-!
# The tool reads its own frames

The encode command reads its payload as a text of its own and prints it inside an envelope, one
bracket deeper; the decode command reads the whole envelope.  Both readers admit the same number of
open brackets.  So the decode command takes what the encode command prints, the very envelope that
was made, unless the written text nests one bracket too deep, and then it calls its own frame
malformed (`decode_of_encode`).  A payload that leaves one bracket unused is safe, and so is every
payload without free-form parts.
-/

namespace HubLink.Tool

open Message (Envelope Kind Payload)
open Json (Fits)

/-- What the encode command makes of its arguments: the value of the payload text, and the envelope
around the payload that its kind finds in the value. -/
structure Made (settings : Settings) (stamp : Message.Stamp) (kind payload : String)
    (correlationId : Option String) (value : Json) (envelope : Envelope) : Prop where
  kind_eq : Kind.ofName? kind = some envelope.kind
  parse_eq : Json.parse (Text.bytes payload) = .ok value
  payload_eq : Payload.ofJson envelope.kind value = .ok envelope.payload
  version_eq : envelope.version = settings.schemaVersion
  correlationId_eq : envelope.correlationId = correlationId.getD stamp.correlationId
  timestamp_eq : envelope.timestamp = stamp.timestamp

variable {settings : Settings} {stamp : Message.Stamp} {kind payload : String}
  {correlationId : Option String} {value : Json} {envelope : Envelope} {text : List UInt8}

/-! ## Making a frame -/

theorem payloadOf_eq_ok {kind : Kind} {body : Payload} (hbody : payloadOf kind payload = .ok body) :
    ∃ value, Json.parse (Text.bytes payload) = .ok value ∧
      Payload.ofJson kind value = .ok body := by
  unfold payloadOf at hbody
  split at hbody
  · cases hbody
  next value hvalue =>
    split at hbody
    · cases hbody
    next hread =>
      cases hbody
      exact ⟨value, hvalue, hread⟩

theorem exists_made {frame : List UInt8}
    (hframe : encodeFrame settings stamp kind payload correlationId = .ok frame) :
    ∃ value envelope, Made settings stamp kind payload correlationId value envelope ∧
      Message.Codec.encode settings.maxFrameSize envelope = .ok frame := by
  unfold encodeFrame at hframe
  split at hframe
  · cases hframe
  next known hknown =>
    obtain ⟨body, hbody, hframe⟩ := bind_eq_ok.mp hframe
    obtain ⟨value, hvalue, hread⟩ := payloadOf_eq_ok hbody
    dsimp only at hframe
    split at hframe
    · cases hframe
    next hencode =>
      cases hframe
      -- a payload is of the kind that it was read as
      obtain rfl := (Payload.received hread).kind_eq
      refine ⟨value, _, ?_, hencode⟩
      constructor
      · exact hknown
      · exact hvalue
      · exact hread
      · rfl
      · rfl
      · rfl

theorem parse_fits (hvalue : Json.parse text = .ok value) : Fits Json.nestingLimit value := by
  obtain ⟨⟨found, behind⟩, hread, hvalue⟩ := bind_eq_ok.mp hvalue
  obtain ⟨_, _, hvalue⟩ := bind_eq_ok.mp hvalue
  obtain rfl := Except.ok.inj hvalue
  exact Json.readValue_fits hread

/-! ## Its text -/

theorem nesting_of_print (hwell : envelope.WellFormed) (hprint : envelope.print = .ok text) :
    ∃ json, envelope.payload.toJson = .ok json ∧ Json.nesting text = Json.depth json + 1 := by
  obtain ⟨json, hjson, htext⟩ := bind_eq_ok.mp hprint
  obtain rfl := Except.ok.inj htext
  have hjsonWell := Envelope.wellFormed_toJson hwell hjson
  exact ⟨json, hjson, Envelope.nesting_print_fields envelope hjsonWell⟩

theorem nesting_le_of_plain (hplain : envelope.payload.Plain) (hprint : envelope.print = .ok text) :
    Json.nesting text ≤ 127 := by
  obtain ⟨json, hjson, hnesting⟩ := nesting_of_print (hplain.everyDocument _) hprint
  obtain ⟨budget, hbudget⟩ := Envelope.exists_budget_within envelope.payload (by decide : 5 ≤ 126)
  have hfits := Payload.fits_toJson hjson (hplain.everyDocument (Fits (budget + 3)))
  rw [hbudget] at hfits
  rw [hnesting]
  exact Nat.succ_le_succ hfits.2

namespace Made

variable (hmade : Made settings stamp kind payload correlationId value envelope)

include hmade

theorem payloadOf_eq : payloadOf envelope.kind payload = .ok envelope.payload := by
  unfold payloadOf
  simp only [hmade.parse_eq, hmade.payload_eq]

theorem wellFormed : envelope.WellFormed := by
  obtain ⟨budget, hbudget⟩ :=
    Envelope.exists_budget_within envelope.payload (by decide : 5 ≤ Json.nestingLimit)
  have hvalue := parse_fits hmade.parse_eq
  rw [← hbudget] at hvalue
  obtain ⟨hrequired, hoptional⟩ := (Payload.received hmade.payload_eq).fits hvalue
  exact ⟨fun document hmem => (hrequired document hmem).1,
    fun optional hmem document hdocument => (hoptional optional hmem document hdocument).1⟩

/-- The text of what was read is at most one bracket deeper than what it was read from. -/
theorem nesting_le (hprint : envelope.print = .ok text) {most : Nat} (hmost : 5 ≤ most)
    (hdepth : Json.depth value ≤ most) : Json.nesting text ≤ most + 1 := by
  obtain ⟨json, hjson, hnesting⟩ := nesting_of_print hmade.wellFormed hprint
  have hvalue : Fits most value := ⟨(parse_fits hmade.parse_eq).1, hdepth⟩
  have hfits := Envelope.fits_of_received_within hmost hvalue hmade.payload_eq hjson
  rw [hnesting]
  exact Nat.succ_le_succ hfits.2

theorem parse_print (hprint : envelope.print = .ok text) :
    Envelope.parse text = if Json.nesting text ≤ 127 then .ok envelope
      else .error (.malformed .malformed) := by
  have hnull := (Payload.received hmade.payload_eq).no_null
  rw [Envelope.parse_print hmade.wellFormed hprint, Envelope.withoutNulls_eq_self_iff.mpr hnull]

end Made

/-! ## Reading it again -/

theorem run_decode_of_bytes (world : World) (settings : Settings) {hex : String}
    {buffer : List UInt8} (hhex : Hex.decode? (Text.trim hex) = some buffer) :
    (Command.decode hex).run world settings = .ofExcept (describeFrame world settings buffer) := by
  have hbytes : bytesOf .frameText hex = .ok buffer := by
    unfold bytesOf
    rw [hhex]
  simp only [Command.run, hbytes]
  rfl

theorem run_decode_encode (world : World) (settings : Settings) (frame : List UInt8) :
    (Command.decode (Hex.encode frame)).run world settings =
      .ofExcept (describeFrame world settings frame) := by
  apply run_decode_of_bytes
  rw [Hex.trim_encode, Hex.decode?_encode]

namespace Made

variable {limit : Nat} (hmade : Made settings stamp kind payload correlationId value envelope)
  (hprint : envelope.print = .ok text) (hsize : text.length < UInt32.size)

include hmade hprint hsize

theorem decode_layout (hlimit : text.length ≤ limit) :
    Message.Codec.decode limit (Frame.layout text) =
      if Json.nesting text ≤ 127 then .ok (some envelope) else .error (.malformed .malformed) := by
  have hdecode := Message.Codec.decode_layout hlimit hsize []
  rw [List.append_nil, hmade.parse_print hprint] at hdecode
  rw [hdecode]
  by_cases hnesting : Json.nesting text ≤ 127
  · rw [if_pos hnesting, if_pos hnesting]
  · rw [if_neg hnesting, if_neg hnesting]
    rfl

/-- What is told of the tool's own frame: the envelope, or that it is malformed. -/
theorem run_decode (world : World) (hlimit : text.length ≤ settings.maxFrameSize)
    {indented : List UInt8} (hindented : envelope.printIndented = .ok indented) :
    (Command.decode (Hex.encode (Frame.layout text))).run world settings =
      .print (if Json.nesting text ≤ 127 then Text.ofBytes indented
        else "malformed: malformed envelope: " ++ world.wording (Frame.layout text) .malformed) := by
  rw [run_decode_encode, describeFrame, hmade.decode_layout hprint hsize hlimit]
  by_cases hnesting : Json.nesting text ≤ 127
  · simp only [if_pos hnesting, hindented]
    rfl
  · simp only [if_neg hnesting]
    rfl

end Made

/-- **What the encode command prints, the decode command reads as the envelope that was made**,
exactly when its text nests no deeper than the reader admits; otherwise it is called malformed.  The
text never nests more than one bracket too deep; it does not when the payload text leaves one
bracket unused, nor when the payload has no free-form parts. -/
theorem decode_of_encode {world : World} {hex : String}
    (hrun : (Command.encode kind payload correlationId).run world settings = .print hex) :
    ∃ frame value envelope text indented,
      hex = Hex.encode frame ∧
      Made settings (world.stamp 0) kind payload correlationId value envelope ∧
      envelope.print = .ok text ∧ envelope.printIndented = .ok indented ∧
      (Message.Codec.decode settings.maxFrameSize frame = .ok (some envelope) ↔
        Json.nesting text ≤ 127) ∧
      (127 < Json.nesting text →
        Message.Codec.decode settings.maxFrameSize frame = .error (.malformed .malformed)) ∧
      (Command.decode hex).run world settings =
        .print (if Json.nesting text ≤ 127 then Text.ofBytes indented
          else "malformed: malformed envelope: " ++ world.wording frame .malformed) ∧
      Json.nesting text ≤ 128 ∧
      (Json.depth value ≤ 126 ∨ envelope.payload.Plain → Json.nesting text ≤ 127) := by
  cases hframe : encodeFrame settings (world.stamp 0) kind payload correlationId with
  | error failure =>
      simp only [Command.run, hframe] at hrun
      cases hrun
  | ok frame =>
      have hhex : hex = Hex.encode frame := by
        simp only [Command.run, hframe] at hrun
        cases hrun
        rfl
      obtain ⟨value, envelope, hmade, hencode⟩ := exists_made hframe
      obtain ⟨text, hprint, hlimit, hsize, rfl⟩ := Message.Codec.of_encode_eq_ok hencode
      obtain ⟨json, hjson⟩ := Envelope.exists_toJson hprint
      obtain ⟨indented, hindented⟩ := (Envelope.exists_print hjson).2
      have hdecode := hmade.decode_layout hprint hsize hlimit
      refine ⟨Frame.layout text, value, envelope, text, indented, hhex, hmade, hprint, hindented,
        ?_, ?_, ?_, ?_, ?_⟩
      · rw [hdecode]
        by_cases hnesting : Json.nesting text ≤ 127 <;> simp [hnesting]
      · intro hdeep
        rw [hdecode, if_neg (Nat.not_le_of_gt hdeep)]
      · rw [hhex]
        exact hmade.run_decode hprint hsize world hlimit hindented
      · exact hmade.nesting_le hprint (by decide) (parse_fits hmade.parse_eq).2
      · rintro (hdepth | hplain)
        · exact hmade.nesting_le hprint (by decide) hdepth
        · exact nesting_le_of_plain hplain hprint

/-- A reported state of as many nested arrays. -/
def nestedReport (arrays : Nat) : String :=
  "\x7b\"reported\":" ++ String.ofList (List.replicate arrays '[' ++ List.replicate arrays ']') ++
    "\x7d"

/-- A world without files and variables, in which a text of one line nests too deep at column 232. -/
def deepWorld : World where
  file _ := none
  environment _ := none
  stamp _ := ⟨"c", 12⟩
  wording _ _ := "recursion limit exceeded at line 1 column 232"

/-- A payload that leaves one bracket unused is read back. -/
theorem decode_of_encode_deep :
    let world := deepWorld
    ∃ hex indented, (Command.encode "twin_reported_update" (nestedReport 125) none).run world {} =
        .print hex ∧
      (Command.decode hex).run world {} = .print (Text.ofBytes indented) ∧
      ∃ frame envelope, Hex.decode? hex = some frame ∧ envelope.correlationId = "c" ∧
        Message.Codec.decode Frame.defaultLimit frame = .ok (some envelope) := by
  intro world
  have hexit : ((Command.encode "twin_reported_update" (nestedReport 125) none).run
      world {}).status.exitCode = 0 := by
    decide +kernel
  have hdeep : (Json.parse (Text.bytes (nestedReport 125))).toOption.map Json.depth = some 126 := by
    decide +kernel
  cases hframe : encodeFrame {} (world.stamp 0) "twin_reported_update" (nestedReport 125) none with
  | error failure =>
      simp only [Command.run, hframe] at hexit
      cases hexit
  | ok frame =>
      have hrun : (Command.encode "twin_reported_update" (nestedReport 125) none).run world {} =
          .print (Hex.encode frame) := by
        simp only [Command.run, hframe]
        rfl
      obtain ⟨sent, value, envelope, text, indented, hhex, hmade, -, -, hdecode, -, hprinted, -,
        hnesting⟩ := decode_of_encode hrun
      have hdepth : Json.depth value = 126 := by
        rw [hmade.parse_eq] at hdeep
        exact Option.some.inj hdeep
      have hshallow := hnesting (.inl (Nat.le_of_eq hdepth))
      rw [if_pos hshallow] at hprinted
      refine ⟨_, indented, hrun, hprinted, sent, envelope, ?_, hmade.correlationId_eq,
        hdecode.mpr hshallow⟩
      rw [hhex, Hex.decode?_encode]

/-- With one array more the encode command still prints a frame, and the decode command calls that
frame malformed. -/
theorem own_frame_refused :
    let world := deepWorld
    ∃ hex, (Command.encode "twin_reported_update" (nestedReport 126) none).run world {} =
        .print hex ∧
      (Command.decode hex).run world {} = .print ("malformed: malformed envelope: " ++
        "recursion limit exceeded at line 1 column 232") := by
  intro world
  have hexit : ((Command.encode "twin_reported_update" (nestedReport 126) none).run
      world {}).status.exitCode = 0 := by
    decide +kernel
  have hdeep : (payloadOf .twinReportedUpdate (nestedReport 126)).toOption.bind (fun body =>
      body.toJson.toOption.map Json.depth) = some 127 := by
    decide +kernel
  cases hframe : encodeFrame {} (world.stamp 0) "twin_reported_update" (nestedReport 126) none with
  | error failure =>
      simp only [Command.run, hframe] at hexit
      cases hexit
  | ok frame =>
      refine ⟨Hex.encode frame, by simp only [Command.run, hframe]; rfl, ?_⟩
      obtain ⟨value, envelope, hmade, hencode⟩ := exists_made hframe
      obtain ⟨text, hprint, hlimit, hsize, rfl⟩ := Message.Codec.of_encode_eq_ok hencode
      have hkind : envelope.kind = .twinReportedUpdate := (Option.some.inj hmade.kind_eq).symm
      obtain ⟨json, hjson, hnesting⟩ := nesting_of_print hmade.wellFormed hprint
      obtain ⟨indented, hindented⟩ := (Envelope.exists_print hjson).2
      have hdepth : Json.depth json = 127 := by
        rw [← hkind, hmade.payloadOf_eq] at hdeep
        simpa [Except.toOption, hjson] using hdeep
      have hdeeper : ¬ Json.nesting text ≤ 127 := by omega
      rw [hmade.run_decode hprint hsize world hlimit hindented, if_neg hdeeper]
      rfl

end HubLink.Tool
