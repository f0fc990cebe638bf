import HubLink.Proofs.Message.HeaderMembers

/-!
# Headers by their texts

A header is read from the text of an object, member by member, or from the text of an array, item by
item (`fill_header_iff`); and no other text holds one.  In both cases what is read is what the text
says it is: the reader takes exactly the well typed headers (`hasHeader_iff`).
-/

namespace HubLink.Message.Envelope

open Json (TextField IsValue ObjectText ArrayText)
open Json.TextRecord (fill)

variable {draft final : Draft} {header : Header} {text : List UInt8} {field : TextField Draft}
  {members : List (String × List UInt8)} {texts : List (List UInt8)}

/-! ## Arrays -/

/-- The next item is read into the place of the next field. -/
theorem fill_cons_iff {α : Type} {make : α → Item} {fields : List (TextField Draft)}
    (hfield : field ∈ headerFields) (hmake : Makes field.name make) (hvalue : IsValue text) :
    fill bodyBudget (field :: fields) (text :: texts) draft = some final ↔
      ∃ value, (make value).Spelled text ∧
        fill bodyBudget fields texts (draft.set (make value)) = some final := by
  have hread := fun next => @read_eq_some_iff draft next text field hfield hvalue
  have hitem : ∀ next, (∃ item : Item, item.name = field.name ∧ item.Spelled text ∧
      draft.set item = next) ↔
        ∃ value, (make value).Spelled text ∧ draft.set (make value) = next := by
    intro next
    constructor
    · rintro ⟨item, hname, hspelled, hset⟩
      obtain ⟨value, rfl⟩ := (hmake item).mp hname
      exact ⟨value, hspelled, hset⟩
    · rintro ⟨value, hspelled, hset⟩
      exact ⟨make value, (hmake _).mpr ⟨value, rfl⟩, hspelled, hset⟩
  simp only [hitem] at hread
  have hfill : fill bodyBudget (field :: fields) (text :: texts) draft =
      ((field.read bodyBudget draft text).toOption.map Prod.fst).bind
        fun next => fill bodyBudget fields texts next := by
    rw [fill]
    cases (field.read bodyBudget draft text).toOption <;> rfl
  rw [hfill, Option.bind_eq_some_iff]
  simp only [hread]
  constructor
  · rintro ⟨_, ⟨value, hspelled, rfl⟩, hmore⟩
    exact ⟨value, hspelled, hmore⟩
  · rintro ⟨value, hspelled, hmore⟩
    exact ⟨_, ⟨value, hspelled, rfl⟩, hmore⟩

theorem getElem_mem_headerFields (i : Nat) (hi : i < 5) : headerFields[i] ∈ headerFields :=
  List.getElem_mem hi

/-- A body is read from the last item, if there is one. -/
theorem fill_body_iff (hvalues : ∀ text ∈ texts, IsValue text) (hfree : draft.payload = none) :
    fill bodyBudget (headerFields.drop 4) texts draft = some final ↔
      ∃ body? : Option Json,
        List.Forall₂ Item.Spelled (body?.toList.map .payload) texts ∧
          final = { draft with payload := body? } := by
  cases texts with
  | nil =>
      constructor
      · intro hfill
        cases hfill
        exact ⟨none, .nil, by rw [← hfree]⟩
      · rintro ⟨body?, hitems, rfl⟩
        cases body? with
        | none => exact congrArg some (by rw [← hfree])
        | some body => cases hitems
  | cons text more =>
      have hvalue := hvalues text List.mem_cons_self
      have hstep := @fill_cons_iff draft final text headerFields[4] more _ _ []
        (getElem_mem_headerFields 4 (by decide)) makes_payload hvalue
      refine hstep.trans ⟨?_, ?_⟩
      · rintro ⟨body, hbody, hfill⟩
        cases more with
        | nil =>
            cases hfill
            exact ⟨some body, .cons hbody .nil, rfl⟩
        | cons extra others => cases hfill
      · rintro ⟨body?, hitems, rfl⟩
        cases body? with
        | none => cases hitems
        | some body =>
            obtain ⟨hbody, hmore⟩ := List.forall₂_cons.mp hitems
            cases hmore
            exact ⟨body, hbody, rfl⟩

/-- The items of an array go into the places of a draft in order. -/
theorem fill_header_iff (hvalues : ∀ text ∈ texts, IsValue text) :
    fill bodyBudget headerFields texts {} = some draft ↔
      ∃ version kind correlationId timestamp body?,
        List.Forall₂ Item.Spelled ([.version version, .kind kind, .correlationId correlationId,
          .timestamp timestamp] ++ body?.toList.map .payload) texts ∧
          draft = ⟨some version, some kind, some correlationId, some timestamp, body?⟩ := by
  constructor
  · intro hfill
    have hoptional := Json.TextRecord.all_optional_of_fill hfill
    match texts, hvalues, hfill, hoptional with
    | [], _, _, hoptional => cases hoptional
    | [_], _, _, hoptional => cases hoptional
    | [_, _], _, _, hoptional => cases hoptional
    | [_, _, _], _, _, hoptional => cases hoptional
    | first :: second :: third :: fourth :: more, hvalues, hfill, _ =>
        simp only [List.forall_mem_cons] at hvalues
        obtain ⟨hfirst, hsecond, hthird, hfourth, hmore⟩ := hvalues
        obtain ⟨version, hversion, hfill⟩ :=
          (fill_cons_iff (getElem_mem_headerFields 0 (by decide)) makes_version hfirst).mp hfill
        obtain ⟨kind, hkind, hfill⟩ :=
          (fill_cons_iff (getElem_mem_headerFields 1 (by decide)) makes_kind hsecond).mp hfill
        obtain ⟨correlationId, hcorrelationId, hfill⟩ :=
          (fill_cons_iff (getElem_mem_headerFields 2 (by decide)) makes_correlationId hthird).mp
            hfill
        obtain ⟨timestamp, htimestamp, hfill⟩ :=
          (fill_cons_iff (getElem_mem_headerFields 3 (by decide)) makes_timestamp hfourth).mp hfill
        obtain ⟨body?, hbody, rfl⟩ := (fill_body_iff hmore rfl).mp hfill
        exact ⟨version, kind, correlationId, timestamp, body?,
          .cons hversion (.cons hkind (.cons hcorrelationId (.cons htimestamp hbody))), rfl⟩
  · rintro ⟨version, kind, correlationId, timestamp, body?, hitems, rfl⟩
    rcases hitems with _ | ⟨hversion, _ | ⟨hkind, _ | ⟨hcorrelationId, _ | ⟨htimestamp, hbody⟩⟩⟩⟩
    simp only [List.forall_mem_cons] at hvalues
    obtain ⟨hfirst, hsecond, hthird, hfourth, hmore⟩ := hvalues
    refine (fill_cons_iff (getElem_mem_headerFields 0 (by decide)) makes_version hfirst).mpr
      ⟨version, hversion, ?_⟩
    refine (fill_cons_iff (getElem_mem_headerFields 1 (by decide)) makes_kind hsecond).mpr
      ⟨kind, hkind, ?_⟩
    refine (fill_cons_iff (getElem_mem_headerFields 2 (by decide)) makes_correlationId hthird).mpr
      ⟨correlationId, hcorrelationId, ?_⟩
    refine (fill_cons_iff (getElem_mem_headerFields 3 (by decide)) makes_timestamp hfourth).mpr
      ⟨timestamp, htimestamp, ?_⟩
    exact (fill_body_iff hmore rfl).mpr ⟨body?, hbody, rfl⟩

/-- **What the items of an array make of an empty draft** is a header if they are a header's. -/
theorem exists_fill_finish_iff (hvalues : ∀ text ∈ texts, IsValue text) :
    (∃ draft, fill bodyBudget headerFields texts {} = some draft ∧
      draft.finish = .ok header) ↔ header.InItems texts := by
  simp only [fill_header_iff hvalues]
  constructor
  · rintro ⟨_, ⟨version, kind, correlationId, timestamp, body?, hitems, rfl⟩, hfinish⟩
    cases hfinish
    cases body? with
    | none => exact .withoutBody hitems rfl
    | some body => exact .whole hitems
  · intro hitems
    cases hitems with
    | whole hitems => exact ⟨_, ⟨_, _, _, _, some header.payload, hitems, rfl⟩, rfl⟩
    | withoutBody hitems hpayload =>
        obtain ⟨version, kind, correlationId, timestamp, _⟩ := header
        obtain rfl := hpayload
        exact ⟨_, ⟨_, _, _, _, none, hitems, rfl⟩, rfl⟩

/-! ## Texts -/

/-- What follows the record of a header is blank. -/
theorem readAll_readHeader_eq_ok_iff {behind : List UInt8} {state? : Option Draft}
    (hbehind : Json.IsBlanks behind)
    (hread : (Json.TextRecord.read "RawEnvelope" headerFields {} Json.nestingLimit text).toOption =
      state?.map (·, behind)) :
    Json.readAll readHeader text = .ok header ↔
      ∃ draft, state? = some draft ∧ draft.finish = .ok header := by
  have hend : Json.expectEnd behind = .ok () := by
    have hblanks : Json.skipBlanks (behind ++ []) = [] := Json.skipBlanks_append hbehind
    rw [List.append_nil] at hblanks
    rw [Json.expectEnd, hblanks]
    rfl
  have hall : (Json.readAll readHeader text).toOption =
      state?.bind fun draft => draft.finish.toOption := by
    rw [Json.readAll, toOption_bind, readHeader, toOption_bind, hread]
    cases state? with
    | none => rfl
    | some draft =>
        simp only [Option.map_some, Option.bind_some, toOption_bind]
        cases draft.finish with
        | error fault => rfl
        | ok header => simp only [Except.toOption, Option.bind_some, hend]
  rw [← toOption_eq_some_iff, hall, Option.bind_eq_some_iff]
  simp only [toOption_eq_some_iff]

theorem readAll_of_objectText (htext : ObjectText members text) :
    Json.readAll readHeader text = .ok header ↔ header.InMembers members := by
  obtain ⟨behind, hbehind, hread⟩ :=
    Json.TextRecord.read_objectText fieldsSettled_header htext "RawEnvelope" {}
  rw [readAll_readHeader_eq_ok_iff hbehind hread, exists_foldl_finish_iff htext.isValue]

theorem readAll_of_arrayText (htext : ArrayText texts text) :
    Json.readAll readHeader text = .ok header ↔ header.InItems texts := by
  obtain ⟨behind, hbehind, hread⟩ :=
    Json.TextRecord.read_arrayText fieldsSettled_header htext "RawEnvelope" {}
  rw [readAll_readHeader_eq_ok_iff hbehind hread, exists_fill_finish_iff htext.isValue]

/-- **The reader of headers takes exactly the well typed ones.** -/
theorem hasHeader_iff : HasHeader text header ↔ Json.readAll readHeader text = .ok header := by
  constructor
  · intro hheader
    cases hheader with
    | object htext hmembers => exact (readAll_of_objectText htext).mpr hmembers
    | array htext hitems => exact (readAll_of_arrayText htext).mpr hitems
  · intro hread
    obtain ⟨⟨found, behind⟩, hfound, hnext⟩ := bind_eq_ok.mp hread
    obtain ⟨_, hend, hnext⟩ := bind_eq_ok.mp hnext
    obtain ⟨⟨draft, left⟩, hdraft, hfinish⟩ := bind_eq_ok.mp hfound
    obtain ⟨header', _, hfinish⟩ := bind_eq_ok.mp hfinish
    cases hfinish
    have hblanks := Json.isBlanks_of_expectEnd hend
    obtain ⟨before, inside, hbefore, ⟨members, hinside, rfl⟩ | ⟨items, hinside, rfl⟩⟩ :=
      Json.TextRecord.read_taken fieldsTaken_header hdraft
    · have htext := ObjectText.mk hbefore hinside hblanks
      exact .object htext ((readAll_of_objectText htext).mp hread)
    · have htext := ArrayText.mk hbefore hinside hblanks
      exact .array htext ((readAll_of_arrayText htext).mp hread)

/-- Of an object's text only the members matter. -/
theorem hasHeader_iff_inMembers (htext : ObjectText members text) :
    HasHeader text header ↔ header.InMembers members :=
  hasHeader_iff.trans (readAll_of_objectText htext)

end HubLink.Message.Envelope
