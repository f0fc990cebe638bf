import HubLink.Proofs.Json.FieldText
import HubLink.Proofs.Json.TextItems
import HubLink.Proofs.Message.Header

/-!
# Well typed headers

What a well typed header is can be said without its reader (`HasHeader`).  An object is a header if
each of the four required members stands in it once, with a value of its type, and the body at most
once; members of other names and the order of all do not matter.  An array is a header if its items
are those values in the order of the header, with or without the body.

The reader fills a draft, and each of its fields has a place of its own there: a field takes the
values that spell its member, and puts the member into its place (`read_eq_some_iff`).
-/

namespace HubLink.Message.Envelope

open Json (Reader TextField IsValue IsEntry Settles Takes ObjectText ArrayText IsLiteralOf)
open Json.TextRecord (FieldsSettled FieldsTaken)

/-! ## Well typed headers -/

/-- The names of the members of a header. -/
def headerNames : List String :=
  ["version", "type", "correlationId", "timestamp", "payload"]

/-- A member of a header with its value. -/
inductive Item where
  | version (value : String)
  | kind (value : String)
  | correlationId (value : String)
  | timestamp (value : Int64)
  | payload (value : Json)

/-- The name under which a member stands. -/
def Item.name : Item → String
  | .version _ => "version"
  | .kind _ => "type"
  | .correlationId _ => "correlationId"
  | .timestamp _ => "timestamp"
  | .payload _ => "payload"

/-- The value of a member is spelled by a text: a literal that denotes it, the decimal of a number,
or the text of any value that leaves room for the bracket of the header. -/
def Item.Spelled : Item → List UInt8 → Prop
  | .version value, text => IsLiteralOf value text
  | .kind value, text => IsLiteralOf value text
  | .correlationId value, text => IsLiteralOf value text
  | .timestamp value, text => text = Text.decimalInt value.toInt
  | .payload value, text => Json.readValue bodyBudget text = .ok (value, [])

/-- The members that a header must have. -/
def Header.required (header : Header) : List Item :=
  [.version header.version, .kind header.kind, .correlationId header.correlationId,
    .timestamp header.timestamp]

/-- One of the members has the name, and no second one; its value is as said. -/
def HasOne (members : List (String × List UInt8)) (name : String) (good : List UInt8 → Prop) :
    Prop :=
  (members.map Prod.fst).count name = 1 ∧ ∃ value, (name, value) ∈ members ∧ good value

/-- The members of an object are a header's, perhaps with others between them; a body that is absent
counts as null. -/
structure Header.InMembers (header : Header) (members : List (String × List UInt8)) : Prop where
  required : ∀ item ∈ header.required, HasOne members item.name item.Spelled
  payload : HasOne members "payload" (Item.payload header.payload).Spelled ∨
    "payload" ∉ members.map Prod.fst ∧ header.payload = .null

/-- The items of an array are the values of a header's members in order. -/
inductive Header.InItems (header : Header) (items : List (List UInt8)) : Prop
  | whole (hitems : List.Forall₂ Item.Spelled (header.required ++ [.payload header.payload]) items)
  | withoutBody (hitems : List.Forall₂ Item.Spelled header.required items)
      (hpayload : header.payload = .null)

/-- The text is a well typed header, whatever its kind and its body. -/
inductive HasHeader (text : List UInt8) (header : Header) : Prop
  | object {members : List (String × List UInt8)} (htext : ObjectText members text)
      (hmembers : header.InMembers members)
  | array {items : List (List UInt8)} (htext : ArrayText items text)
      (hitems : header.InItems items)

/-! ## Drafts -/

/-- The draft with one place filled. -/
def Draft.set (draft : Draft) : Item → Draft
  | .version value => { draft with version := some value }
  | .kind value => { draft with kind := some value }
  | .correlationId value => { draft with correlationId := some value }
  | .timestamp value => { draft with timestamp := some value }
  | .payload value => { draft with payload := some value }

/-- The place of a member is filled with its value. -/
def Draft.Holds (draft : Draft) : Item → Prop
  | .version value => draft.version = some value
  | .kind value => draft.kind = some value
  | .correlationId value => draft.correlationId = some value
  | .timestamp value => draft.timestamp = some value
  | .payload value => draft.payload = some value

/-- The place of a name is filled. -/
def Draft.Has (draft : Draft) (name : String) : Prop :=
  ∃ item : Item, item.name = name ∧ draft.Holds item

variable {draft final : Draft} {header : Header} {text : List UInt8} {item other : Item}
  {name : String} {field : TextField Draft}

/-- The members of the name are those that `make` gives. -/
def Makes {α : Type} (name : String) (make : α → Item) : Prop :=
  ∀ item : Item, item.name = name ↔ ∃ value, make value = item

theorem makes_version : Makes "version" .version := by
  intro item
  cases item <;> simp [Item.name]

theorem makes_kind : Makes "type" .kind := by
  intro item
  cases item <;> simp [Item.name]

theorem makes_correlationId : Makes "correlationId" .correlationId := by
  intro item
  cases item <;> simp [Item.name]

theorem makes_timestamp : Makes "timestamp" .timestamp := by
  intro item
  cases item <;> simp [Item.name]

theorem makes_payload : Makes "payload" .payload := by
  intro item
  cases item <;> simp [Item.name]

theorem Item.name_mem (item : Item) : item.name ∈ headerNames := by
  cases item <;> simp [Item.name, headerNames]

/-- A place keeps what it holds unless it is filled anew. -/
theorem Draft.holds_set :
    (draft.set item).Holds other ↔ other = item ∨ other.name ≠ item.name ∧ draft.Holds other := by
  cases item <;> cases other <;>
    simp [Draft.set, Draft.Holds, Item.name, eq_comm]

theorem Draft.has_set : (draft.set item).Has name ↔ item.name = name ∨ draft.Has name := by
  constructor
  · rintro ⟨other, rfl, hholds⟩
    rcases Draft.holds_set.mp hholds with rfl | ⟨-, hholds⟩
    · exact .inl rfl
    · exact .inr ⟨other, rfl, hholds⟩
  · rintro (rfl | ⟨other, rfl, hholds⟩)
    · exact ⟨item, rfl, Draft.holds_set.mpr (.inl rfl)⟩
    · by_cases hname : other.name = item.name
      · exact ⟨item, hname.symm, Draft.holds_set.mpr (.inl rfl)⟩
      · exact ⟨other, rfl, Draft.holds_set.mpr (.inr ⟨hname, hholds⟩)⟩

theorem not_holds_empty (item : Item) : ¬ ({} : Draft).Holds item := by
  cases item <;> simp [Draft.Holds]

/-- A draft becomes a header once the required places are filled. -/
theorem finish_eq_ok_iff :
    draft.finish = .ok header ↔
      (∀ item ∈ header.required, draft.Holds item) ∧
        header.payload = draft.payload.getD .null := by
  obtain ⟨version?, kind?, correlationId?, timestamp?, payload?⟩ := draft
  obtain ⟨version, kind, correlationId, timestamp, payload⟩ := header
  simp only [Header.required, List.forall_mem_cons, List.not_mem_nil, false_implies, implies_true,
    and_true, Draft.Holds]
  constructor
  · intro hfinish
    obtain ⟨_, hversion, hfinish⟩ := bind_eq_ok.mp hfinish
    obtain ⟨_, hkind, hfinish⟩ := bind_eq_ok.mp hfinish
    obtain ⟨_, hcorrelationId, hfinish⟩ := bind_eq_ok.mp hfinish
    obtain ⟨_, htimestamp, hfinish⟩ := bind_eq_ok.mp hfinish
    cases hfinish
    rw [Json.TextRecord.need_eq_ok_iff] at hversion hkind hcorrelationId htimestamp
    exact ⟨⟨hversion, hkind, hcorrelationId, htimestamp⟩, rfl⟩
  · rintro ⟨⟨rfl, rfl, rfl, rfl⟩, rfl⟩
    rfl

/-! ## Fields -/

/-- The field reads its own member from a text, and puts it into its place. -/
structure ItemReader (field : TextField Draft) (reader : Reader Item) : Prop where
  read_eq : ∀ draft text, field.read bodyBudget draft text =
    (reader text).map fun found => (draft.set found.1, found.2)
  filled_iff : ∀ draft, field.filled draft = true ↔ draft.Has field.name
  settles : ∀ {text}, IsValue text → ∃ result, Settles reader text result
  taken : Takes reader fun _ part => IsEntry part
  spelled : ∀ {text}, IsValue text → ∀ item,
    reader text = .ok (item, []) ↔ item.name = field.name ∧ item.Spelled text

theorem ItemReader.of {α : Type} {reader : Reader α} (make : α → Item) (get : Draft → Option α)
    (hread : ∀ draft text, field.read bodyBudget draft text =
      (reader text) >>= fun found => .ok (draft.set (make found.1), found.2))
    (hfilled : ∀ draft, field.filled draft = (get draft).isSome)
    (hholds : ∀ draft value, draft.Holds (make value) ↔ get draft = some value)
    (hmake : Makes field.name make)
    (hsettles : ∀ {text}, IsValue text → ∃ result, Settles reader text result)
    (htaken : Takes reader fun _ part => IsEntry part)
    (hspelled : ∀ {text}, IsValue text → ∀ value,
      reader text = .ok (value, []) ↔ (make value).Spelled text) :
    ItemReader field fun text => (reader text).map fun found => (make found.1, found.2) where
  read_eq draft text := by
    rw [hread]
    cases reader text <;> rfl
  filled_iff draft := by
    rw [hfilled, Option.isSome_iff_exists]
    constructor
    · rintro ⟨value, hvalue⟩
      exact ⟨make value, (hmake _).mpr ⟨value, rfl⟩, (hholds draft value).mpr hvalue⟩
    · rintro ⟨item, hname, hitem⟩
      obtain ⟨value, rfl⟩ := (hmake item).mp hname
      exact ⟨value, (hholds draft value).mp hitem⟩
  settles := by
    intro text hvalue
    obtain ⟨result, hresult⟩ := hsettles hvalue
    refine ⟨result.map make, fun {blanks rest} hblanks hrest => ?_⟩
    rw [toOption_map, hresult hblanks hrest]
    cases result <;> rfl
  taken := by
    intro text item rest hitem
    obtain ⟨⟨value, behind⟩, hvalue, hmake⟩ := map_eq_ok.mp hitem
    cases hmake
    exact htaken hvalue
  spelled := by
    intro text hvalue item
    rw [map_eq_ok, hmake]
    constructor
    · rintro ⟨⟨value, behind⟩, hread, hitem⟩
      cases hitem
      exact ⟨⟨value, rfl⟩, (hspelled hvalue value).mp hread⟩
    · rintro ⟨⟨value, rfl⟩, hitem⟩
      exact ⟨(value, []), (hspelled hvalue value).mpr hitem, rfl⟩

theorem exists_itemReader (hfield : field ∈ headerFields) :
    ∃ reader, ItemReader field reader := by
  simp only [headerFields, List.mem_cons, List.not_mem_nil, or_false] at hfield
  rcases hfield with rfl | rfl | rfl | rfl | rfl
  · exact ⟨_, .of .version (·.version) (fun _ _ => rfl) (fun _ => rfl) (fun _ _ => Iff.rfl)
      makes_version Json.exists_settles_readText Json.readText_taken
      fun hvalue _ => Json.readText_eq_ok_iff hvalue⟩
  · exact ⟨_, .of .kind (·.kind) (fun _ _ => rfl) (fun _ => rfl) (fun _ _ => Iff.rfl)
      makes_kind Json.exists_settles_readText Json.readText_taken
      fun hvalue _ => Json.readText_eq_ok_iff hvalue⟩
  · exact ⟨_, .of .correlationId (·.correlationId) (fun _ _ => rfl) (fun _ => rfl)
      (fun _ _ => Iff.rfl) makes_correlationId Json.exists_settles_readText Json.readText_taken
      fun hvalue _ => Json.readText_eq_ok_iff hvalue⟩
  · exact ⟨_, .of .timestamp (·.timestamp) (fun _ _ => rfl) (fun _ => rfl) (fun _ _ => Iff.rfl)
      makes_timestamp (Json.exists_settles_readWholeAs _ _) (Json.readWholeAs_taken _ _)
      fun hvalue _ => Json.readWholeAs_i64_eq_ok_iff hvalue⟩
  · exact ⟨_, .of .payload (·.payload) (fun _ _ => rfl) (fun _ => rfl) (fun _ _ => Iff.rfl)
      makes_payload (Json.exists_settles_readValue _) (Json.readValue_taken _) fun _ _ => Iff.rfl⟩

theorem fieldsSettled_header : FieldsSettled headerFields bodyBudget := by
  intro field hfield draft text hvalue
  obtain ⟨reader, hreader⟩ := exists_itemReader hfield
  obtain ⟨result, hresult⟩ := hreader.settles hvalue
  refine ⟨result.map draft.set, fun {blanks rest} hblanks hrest => ?_⟩
  rw [hreader.read_eq, toOption_map, hresult hblanks hrest]
  cases result <;> rfl

theorem fieldsTaken_header : FieldsTaken headerFields bodyBudget := by
  intro field hfield draft text next rest hread
  obtain ⟨reader, hreader⟩ := exists_itemReader hfield
  rw [hreader.read_eq] at hread
  obtain ⟨⟨item, behind⟩, hitem, hnext⟩ := map_eq_ok.mp hread
  cases hnext
  exact hreader.taken hitem

/-- What a field reads from a value is spelled there, and goes into the field's place. -/
theorem read_eq_some_iff (hfield : field ∈ headerFields) (hvalue : IsValue text) :
    (field.read bodyBudget draft text).toOption.map Prod.fst = some final ↔
      ∃ item : Item, item.name = field.name ∧ item.Spelled text ∧ draft.set item = final := by
  obtain ⟨reader, hreader⟩ := exists_itemReader hfield
  obtain ⟨result, hresult⟩ := hreader.settles hvalue
  have hspelled : ∀ item : Item,
      result = some item ↔ item.name = field.name ∧ item.Spelled text := by
    intro item
    rw [← hreader.spelled hvalue, ← toOption_eq_some_iff, hresult.alone]
    cases result <;> simp
  rw [hreader.read_eq, toOption_map, hresult.alone]
  simp only [← and_assoc, ← hspelled]
  cases result <;> simp

theorem map_name_headerFields : headerFields.map (·.name) = headerNames := rfl

theorem exists_field (hname : name ∈ headerNames) :
    ∃ field ∈ headerFields, field.name = name ∧
      headerFields.find? (·.name == name) = some field := by
  rw [← map_name_headerFields, List.mem_map] at hname
  obtain ⟨field, hfield, hname⟩ := hname
  have hsome : (headerFields.find? (·.name == name)).isSome = true :=
    List.find?_isSome.mpr ⟨field, hfield, beq_iff_eq.mpr hname⟩
  obtain ⟨found, hfound⟩ := Option.isSome_iff_exists.mp hsome
  have hbeq := List.find?_some hfound
  exact ⟨found, List.mem_of_find?_eq_some hfound, beq_iff_eq.mp hbeq, hfound⟩

/-- A value spells one item of a name at most. -/
theorem Item.Spelled.unique (hvalue : IsValue text) (hspelled : item.Spelled text)
    (hspelled' : other.Spelled text) (hname : item.name = other.name) : item = other := by
  obtain ⟨field, hfield, hsame, -⟩ := exists_field item.name_mem
  obtain ⟨reader, hreader⟩ := exists_itemReader hfield
  have hread := (hreader.spelled hvalue item).mpr ⟨hsame.symm, hspelled⟩
  have hread' := (hreader.spelled hvalue other).mpr ⟨(hsame.trans hname).symm, hspelled'⟩
  rw [hread] at hread'
  cases hread'
  rfl

end HubLink.Message.Envelope
