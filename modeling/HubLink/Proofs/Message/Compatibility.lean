import HubLink.Proofs.Json.Written
import HubLink.Proofs.Message.Decoding
import HubLink.Proofs.Message.Outline
import Mathlib.Logic.Relation

/-!
# Messages from newer peers

A newer peer may add to a message, and an older one must read it as if nothing had been added.  There
are two places for additions, and two readers.  A body is read from a value, whose members stand in
the order of their keys: it may grow by members that nobody knows and by nulls where optional ones
were absent, at any record inside it (`ofJson_of_grows`).  The header is read straight from the text,
in the order of the text: its members may be reordered, and others put between them
(`parse_of_objectText`); but none of its own may stand twice (`parse_of_repeated`).
-/

namespace HubLink.Message

open Text (byte)
open Json (Grows ObjectText)
open Relation (ReflTransGen)

/-- A payload is read from a body that has grown any number of times as from the body before. -/
theorem Payload.ofJson_of_grows {kind : Kind} {body grown : Json}
    (hgrown : ReflTransGen (Grows kind.outline) body grown) :
    Payload.ofJson kind grown = Payload.ofJson kind body := by
  induction hgrown with
  | refl => rfl
  | tail _ hstep ih => exact (Payload.ofJson_grown hstep).trans ih

namespace Envelope

variable {members more grown : List (String × List UInt8)} {text grownText : List UInt8}
  {envelope : Envelope}

/-- Members of other names and the order of all make no difference to what stands alone. -/
theorem HasOne.of_perm {name : String} {good : List UInt8 → Prop}
    (hone : HasOne members name good) (hperm : grown.Perm (members ++ more))
    (hmore : name ∉ more.map Prod.fst) : HasOne grown name good := by
  obtain ⟨hcount, value, hmem, hgood⟩ := hone
  refine ⟨?_, value, hperm.mem_iff.mpr (List.mem_append_left _ hmem), hgood⟩
  rw [(hperm.map Prod.fst).count_eq, List.map_append, List.count_append, hcount,
    List.count_eq_zero.mpr hmore]

/-- The members of a header are still a header's in any order and with others between them. -/
theorem Header.InMembers.of_perm {header : Header} (hheader : header.InMembers members)
    (hperm : grown.Perm (members ++ more)) (hmore : ∀ m ∈ more, m.1 ∉ headerNames) :
    header.InMembers grown := by
  have hother : ∀ name ∈ headerNames, name ∉ more.map Prod.fst := by
    intro name hname hmem
    obtain ⟨m, hm, rfl⟩ := List.mem_map.mp hmem
    exact hmore m hm hname
  refine ⟨fun item hitem => ?_, ?_⟩
  · exact (hheader.required item hitem).of_perm hperm (hother _ item.name_mem)
  · have hbody := hother "payload" (by decide)
    refine hheader.payload.imp (fun hone => hone.of_perm hperm hbody) fun ⟨habsent, hnull⟩ => ?_
    refine ⟨fun hmem => ?_, hnull⟩
    rw [(hperm.map Prod.fst).mem_iff, List.map_append, List.mem_append] at hmem
    exact hmem.elim habsent hbody

/-- No header has a member twice. -/
theorem Header.InMembers.count_le {header : Header} (hheader : header.InMembers members)
    {name : String} (hname : name ∈ headerNames) : (members.map Prod.fst).count name ≤ 1 := by
  by_cases hmem : name ∈ members.map Prod.fst
  · obtain ⟨_, -, hone⟩ := hheader.allSpelled name hname hmem
    exact hone.1.le
  · rw [List.count_eq_zero.mpr hmem]
    exact Nat.zero_le 1

/-- An envelope is read from a text with more members, in any order, as from the text before. -/
theorem parse_of_objectText (htext : ObjectText members text)
    (hgrownText : ObjectText grown grownText) (hperm : grown.Perm (members ++ more))
    (hmore : ∀ m ∈ more, m.1 ∉ headerNames) (hparse : parse text = .ok envelope) :
    parse grownText = .ok envelope := by
  obtain ⟨header, hheader, -⟩ := parse_eq_ok_iff.mp hparse
  have hmembers := (hasHeader_iff_inMembers htext).mp hheader
  have hgrown := (hasHeader_iff_inMembers hgrownText).mpr (hmembers.of_perm hperm hmore)
  rw [parse_of_hasHeader hgrown, ← parse_of_hasHeader hheader, hparse]

/-- Of texts that open as an object's, only such with members are read. -/
theorem exists_objectText_of_parse (hparse : parse text = .ok envelope)
    (hopening : (Json.skipBlanks text).head? = some (byte '\x7b')) :
    ∃ members, ObjectText members text := by
  obtain ⟨header, hheader, -⟩ := parse_eq_ok_iff.mp hparse
  cases hheader with
  | object htext => exact ⟨_, htext⟩
  | array htext =>
      have hsquare : Json.isBlank (byte '[') = false := by decide
      cases htext with
      | mk hbefore =>
          rw [Json.skipBlanks_blanks hbefore hsquare] at hopening
          cases hopening

/-- A member of the header that stands twice is malformed, whatever its two values are. -/
theorem parse_of_repeated (htext : ObjectText members text) {name : String}
    (hname : name ∈ headerNames) (hcount : 2 ≤ (members.map Prod.fst).count name) :
    ∃ cause, parse text = .error (.malformed cause) := by
  apply parse_of_not_hasHeader
  intro header hheader
  have hone := ((hasHeader_iff_inMembers htext).mp hheader).count_le hname
  omega

end Envelope

/-- **Messages may grow.**  A payload of any kind is read from a grown body as from the body before,
whether that is read or refused: growth adds, at any record along the outline of the kind, members
that the record does not know, or nulls for optional members that are absent.  A text that opens as an
object's and is read has members.  The envelope that is read from it is read from every text that has
these members in any order with others between them, whatever grammatical values the others have and
however blanks and keys are spelled; but a text that has one of the five members of the header twice
is malformed. -/
theorem read_of_grown :
    (∀ {kind : Kind} {body grown : Json}, ReflTransGen (Grows kind.outline) body grown →
      Payload.ofJson kind grown = Payload.ofJson kind body) ∧
    (∀ {text : List UInt8} {envelope : Envelope}, Envelope.parse text = .ok envelope →
      (Json.skipBlanks text).head? = some (byte '\x7b') → ∃ members, ObjectText members text) ∧
    ∀ {members more grown : List (String × List UInt8)} {text grownText : List UInt8}
      {envelope : Envelope}, ObjectText members text → Envelope.parse text = .ok envelope →
        ObjectText grown grownText → grown.Perm (members ++ more) →
          ((∀ m ∈ more, m.1 ∉ Envelope.headerNames) →
            Envelope.parse grownText = .ok envelope) ∧
          ∀ name ∈ Envelope.headerNames, 2 ≤ (grown.map Prod.fst).count name →
            ∃ cause, Envelope.parse grownText = .error (.malformed cause) := by
  refine ⟨Payload.ofJson_of_grows, Envelope.exists_objectText_of_parse, ?_⟩
  intro members more grown text grownText envelope htext hparse hgrownText hperm
  constructor
  · intro hmore
    exact Envelope.parse_of_objectText htext hgrownText hperm hmore hparse
  · intro name hname hcount
    exact Envelope.parse_of_repeated hgrownText hname hcount

/-! ## A request and a heartbeat that have grown -/

/-- A configuration request around the given configuration. -/
def requestBody (config : List (String × Json)) : Json :=
  .object [("config", .object config), ("jobId", .string "j"), ("nodeId", .string "n"),
    ("timeoutSeconds", .integer 30)]

theorem grows_requestBody :
    ReflTransGen (Grows Kind.applyNodeConfig.outline) (requestBody [])
      (requestBody [("sampling", .null), ("zone", .array [])]) := by
  have hconfig : ("config", false, Json.Outline.record NodeConfig.outline) ∈
      ApplyNodeConfig.outline := by
    simp [ApplyNodeConfig.outline, Json.Outline.required]
  have hsampling : ("sampling", true, Json.Outline.record SamplingConfig.outline) ∈
      NodeConfig.outline := by
    simp [NodeConfig.outline, Json.Outline.optional]
  have hzone : Grows (.record NodeConfig.outline) (.object []) (.object [("zone", .array [])]) :=
    .unknown (.array []) (by simp [NodeConfig.outline, Json.Outline.optional])
  have habsent : Json.member? "sampling" [("zone", Json.array [])] = none := rfl
  have hnull : Grows (.record NodeConfig.outline) (.object [("zone", .array [])])
      (.object [("sampling", .null), ("zone", .array [])]) :=
    .null hsampling habsent
  have hmember : ∀ {old new}, Grows (.record NodeConfig.outline) (.object old) (.object new) →
      Grows Kind.applyNodeConfig.outline (requestBody old) (requestBody new) :=
    fun hgrows => @Grows.member _ [] _ _ _ _ _ _ hconfig hgrows
  exact (ReflTransGen.single (hmember hzone)).tail (hmember hnull)

/-- The members of a heartbeat without a body. -/
def heartbeatMembers : List (String × List UInt8) :=
  [("version", Json.literal "1"), ("type", Json.literal "heartbeat"),
    ("correlationId", Json.literal "c"), ("timestamp", Text.decimalInt 7)]

/-- A member whose value denotes no text: a leading surrogate stands alone. -/
def surrogateMember : String × List UInt8 :=
  ("zone", Text.ascii ['"', '\\', 'u', 'd', '8', '0', '0', '"'])

theorem isValue_heartbeatMembers : ∀ m ∈ heartbeatMembers, Json.IsValue m.2 := by
  have hliteral : ∀ value : String, Json.IsValue (Json.literal value) :=
    fun value => .scalar (Json.isScalar_literal value)
  have htime : Json.IsValue (Text.decimalInt 7) :=
    Json.isValue_print (.integer 7) (show Json.IsWhole 7 by decide)
  simp only [heartbeatMembers, List.forall_mem_cons]
  exact ⟨hliteral _, hliteral _, hliteral _, htime, List.forall_mem_nil _⟩

theorem isValue_surrogateMember : Json.IsValue surrogateMember.2 := by
  have hcode : Json.HexCode (Text.ascii ['d', '8', '0', '0']) 0xD800 :=
    @Json.HexCode.mk _ _ _ _ 13 8 0 0 (by decide) (by decide) (by decide) (by decide)
  have hcontent : Json.IsContent (Text.ascii ['\\', 'u', 'd', '8', '0', '0']) :=
    .unicode hcode .nil
  exact .scalar (.string hcontent)

/-- A request with a new section and an explicit null inside its configuration; a heartbeat in
another order with a member that could not be read, and one with two kinds. -/
theorem read_of_grown_request_and_heartbeat :
    Payload.ofJson .applyNodeConfig (requestBody [("sampling", .null), ("zone", .array [])]) =
      Payload.ofJson .applyNodeConfig (requestBody []) ∧
    ∃ envelope, Envelope.parse (Json.printFields heartbeatMembers) = .ok envelope ∧
      Envelope.parse (Json.printFields (surrogateMember :: heartbeatMembers.reverse)) =
        .ok envelope ∧
      (∃ members, ObjectText members (Json.printFields heartbeatMembers)) ∧
      ∃ cause, Envelope.parse (Json.printFields (("type", Json.literal "error") ::
        heartbeatMembers)) = .error (.malformed cause) := by
  refine ⟨read_of_grown.1 grows_requestBody, ?_⟩
  have hsome : (Envelope.parse (Json.printFields heartbeatMembers)).toOption.isSome = true := by
    decide +kernel
  obtain ⟨envelope, hparse⟩ := Option.isSome_iff_exists.mp hsome
  have hparse := toOption_eq_some_iff.mp hparse
  have htext := Json.objectText_printFields isValue_heartbeatMembers
  have hreversed : ∀ m ∈ heartbeatMembers.reverse, Json.IsValue m.2 := fun m hm =>
    isValue_heartbeatMembers m (List.mem_reverse.mp hm)
  have hgrown := Json.objectText_printFields
    (List.forall_mem_cons.mpr ⟨isValue_surrogateMember, hreversed⟩)
  have hrepeated : ObjectText (("type", Json.literal "error") :: heartbeatMembers) _ :=
    Json.objectText_printFields (List.forall_mem_cons.mpr
      ⟨.scalar (Json.isScalar_literal "error"), isValue_heartbeatMembers⟩)
  have hperm : (surrogateMember :: heartbeatMembers.reverse).Perm
      (heartbeatMembers ++ [surrogateMember]) :=
    (List.perm_append_singleton _ _).symm.trans
      (List.Perm.append_right _ (List.reverse_perm heartbeatMembers))
  have hperm' : (("type", Json.literal "error") :: heartbeatMembers).Perm
      (heartbeatMembers ++ [("type", Json.literal "error")]) :=
    (List.perm_append_singleton _ _).symm
  refine ⟨envelope, hparse, ?_, read_of_grown.2.1 hparse (by decide), ?_⟩
  · exact (read_of_grown.2.2 htext hparse hgrown hperm).1 (by decide)
  · exact (read_of_grown.2.2 htext hparse hrepeated hperm').2 "type" (by decide) (by decide)

end HubLink.Message
