import HubLink.Proofs.Json.Record
import Mathlib.Data.List.Forall2
import Mathlib.Data.List.Nodup

/-!
# Outlines of values

An outline says which parts of a value are read as records, which members these know, and what has to
stand where no record is read.  It settles two questions without any reader: which values are
admitted (`Admits`), and how a value may grow (`Grows`), namely by one member that the record at some
place does not know, or by a null where an optional member was absent.

A shape that reads along an outline succeeds exactly on the values that are admitted, and does not
notice growth: what it reads, and what it refuses the value for, stays the same (`ReadsAlong`).  The
outline of a record is checked against the record field by field, in the order in which the record is
put together (`Outlines`).
-/

namespace HubLink.Json

/-- What has to stand where no record is read. -/
inductive Leaf where
  /-- Any value, the inside of which is nobody's to read. -/
  | any
  | text
  | truth
  /-- A whole number of a type that starts at `least` and ends below `bound`. -/
  | whole (least bound : Int)
  /-- A number, whole or not. -/
  | number

/-- The value is of the kind. -/
def Leaf.Admits : Leaf → Json → Prop
  | .any, _ => True
  | .text, .string _ => True
  | .truth, .bool _ => True
  | .whole least bound, .integer n => least ≤ n ∧ n < bound
  | .number, .integer _ | .number, .real _ => True
  | _, _ => False

/-- Which parts of a value are read as records, and which members these know. -/
inductive Outline where
  /-- A value that is no record, or whose inside is nobody's to read. -/
  | leaf (kind : Leaf)
  /-- A record with the name of each field, whether it is optional, and the outline of its value. -/
  | record (fields : List (String × Bool × Outline))
  /-- A list of values of one outline. -/
  | list (item : Outline)

namespace Outline

/-- A field of a record. -/
abbrev Field : Type := String × Bool × Outline

/-- A field that must be there. -/
def required (name : String) (outline : Outline) : Field := (name, false, outline)

/-- A field that may be absent or null. -/
def optional (name : String) (outline : Outline) : Field := (name, true, outline)

/-- Any value. -/
def any : Outline := .leaf .any

/-- A text. -/
def text : Outline := .leaf .text

/-- A truth value. -/
def truth : Outline := .leaf .truth

/-- A number. -/
def number : Outline := .leaf .number

/-- An unsigned integer below `bound`. -/
def unsigned (bound : Nat) : Outline := .leaf (.whole 0 bound)

/-- A signed integer of magnitude at most `half`. -/
def signed (half : Nat) : Outline := .leaf (.whole (-half) half)

/-- An unsigned integer of eight bits. -/
def u8 : Outline := unsigned 256

/-- An unsigned integer of sixteen bits. -/
def u16 : Outline := unsigned 65536

/-- An unsigned integer of 32 bits. -/
def u32 : Outline := unsigned UInt32.size

/-- An unsigned integer of 64 bits. -/
def u64 : Outline := unsigned UInt64.size

/-- A signed integer of sixteen bits. -/
def i16 : Outline := signed (Int16.size / 2)

/-- A signed integer of 64 bits. -/
def i64 : Outline := signed (Int64.size / 2)

end Outline

mutual

/-- The value is one that the outline describes. -/
inductive Admits : Outline → Json → Prop
  | leaf {kind : Leaf} {value : Json} (hvalue : kind.Admits value) : Admits (.leaf kind) value
  | list {item : Outline} {items : List Json} (hitems : ∀ value ∈ items, Admits item value) :
      Admits (.list item) (.array items)
  /-- The members that the record knows are admitted, and those that must be there are. -/
  | object {fields : List Outline.Field} {members : List (String × Json)}
      (hmembers : ∀ field ∈ fields, ∀ value, (field.1, value) ∈ members → AdmitsField field value)
      (hrequired : ∀ field ∈ fields, field.2.1 = false → field.1 ∈ members.map Prod.fst) :
      Admits (.record fields) (.object members)
  /-- The fields stand as an array in their order, and what is left out at its end may be absent. -/
  | array {fields : List Outline.Field} {items : List Json}
      (hlength : items.length ≤ fields.length)
      (hitems : ∀ place ∈ fields.zip items, AdmitsField place.1 place.2)
      (hrequired : ∀ field ∈ fields.drop items.length, field.2.1 = true) :
      Admits (.record fields) (.array items)

/-- The value may stand in the field. -/
inductive AdmitsField : Outline.Field → Json → Prop
  | null {name : String} {outline : Outline} : AdmitsField (name, true, outline) .null
  | value {name : String} {optional : Bool} {outline : Outline} {value : Json}
      (hvalue : Admits outline value) : AdmitsField (name, optional, outline) value

end

/-- The value grows by one member, at some place along the outline. -/
inductive Grows : Outline → Json → Json → Prop
  /-- A member whose key the record does not know. -/
  | unknown {fields : List Outline.Field} {members : List (String × Json)} {key : String}
      (value : Json) (hkey : ∀ field ∈ fields, field.1 ≠ key) :
      Grows (.record fields) (.object members) (.object (put key value members))
  /-- An explicit null for an optional member that is absent. -/
  | null {fields : List Outline.Field} {members : List (String × Json)} {name : String}
      {outline : Outline} (hfield : (name, true, outline) ∈ fields)
      (habsent : member? name members = none) :
      Grows (.record fields) (.object members) (.object (put name .null members))
  /-- Growth inside a member. -/
  | member {fields : List Outline.Field} {before behind : List (String × Json)} {name : String}
      {optional : Bool} {outline : Outline} {old new : Json}
      (hfield : (name, optional, outline) ∈ fields) (hgrows : Grows outline old new) :
      Grows (.record fields) (.object (before ++ (name, old) :: behind))
        (.object (before ++ (name, new) :: behind))
  /-- Growth inside a field of a record that stands as an array. -/
  | place {fields : List Outline.Field} {before behind : List Json} {name : String}
      {optional : Bool} {outline : Outline} {old new : Json}
      (hfield : fields[before.length]? = some (name, optional, outline))
      (hgrows : Grows outline old new) :
      Grows (.record fields) (.array (before ++ old :: behind)) (.array (before ++ new :: behind))
  /-- Growth inside an item of a list. -/
  | item {item : Outline} {before behind : List Json} {old new : Json}
      (hgrows : Grows item old new) :
      Grows (.list item) (.array (before ++ old :: behind)) (.array (before ++ new :: behind))

variable {α β : Type} {outline : Outline} {name : String} {value : Json}

theorem Grows.ne_null {old new : Json} (hgrows : Grows outline old new) :
    old ≠ .null ∧ new ≠ .null := by
  cases hgrows <;> simp

/-- The shape reads the values that the outline admits, and a grown value as before. -/
structure ReadsAlong (outline : Outline) (shape : Shape α) : Prop where
  accepts : ∀ value, (∃ result, shape value = .ok result) ↔ Admits outline value
  preserves : ∀ old new, Grows outline old new → shape new = shape old

/-! ## Shapes that are no records -/

theorem admits_leaf_iff {kind : Leaf} : Admits (.leaf kind) value ↔ kind.Admits value := by
  constructor
  · intro hvalue
    cases hvalue
    assumption
  · exact .leaf

/-- Nothing grows inside a leaf. -/
theorem readsAlong_leaf {kind : Leaf} {shape : Shape α}
    (haccepts : ∀ value, (∃ result, shape value = .ok result) ↔ kind.Admits value) :
    ReadsAlong (.leaf kind) shape where
  accepts value := (haccepts value).trans admits_leaf_iff.symm
  preserves old new hgrows := by cases hgrows

theorem readsAlong_any : ReadsAlong .any Shape.any :=
  readsAlong_leaf fun value => iff_of_true ⟨value, rfl⟩ trivial

theorem readsAlong_string : ReadsAlong .text Shape.string :=
  readsAlong_leaf fun value => by cases value <;> simp [Shape.string, Leaf.Admits]

theorem readsAlong_bool : ReadsAlong .truth Shape.bool :=
  readsAlong_leaf fun value => by cases value <;> simp [Shape.bool, Leaf.Admits]

theorem readsAlong_double : ReadsAlong .number Shape.double :=
  readsAlong_leaf fun value => by cases value <;> simp [Shape.double, Leaf.Admits]

theorem readsAlong_single : ReadsAlong .number Shape.single :=
  readsAlong_leaf fun value => by cases value <;> simp [Shape.single, Leaf.Admits]

/-- An integer is one that its type has. -/
theorem readsAlong_integer {least bound : Int} {convert? : Int → Option α} (typeName : String)
    (hconvert : ∀ n, (convert? n).isSome = true ↔ least ≤ n ∧ n < bound) :
    ReadsAlong (.leaf (.whole least bound)) (Shape.integer typeName convert?) := by
  refine readsAlong_leaf fun value => ?_
  cases value with
  | integer n =>
      rw [Leaf.Admits, ← hconvert]
      cases hfound : convert? n <;> simp [Shape.integer, hfound]
  | _ => simp [Shape.integer, Leaf.Admits]

theorem readsAlong_unsigned (typeName : String) (bound : Nat) (make : Nat → α) :
    ReadsAlong (.unsigned bound) (Shape.integer typeName (Shape.below bound make)) :=
  readsAlong_integer typeName fun n => by
    rw [Shape.below]
    split <;> simp_all

theorem readsAlong_signed (typeName : String) (half : Nat) (make : Int → α) :
    ReadsAlong (.signed half) (Shape.integer typeName (Shape.within half make)) :=
  readsAlong_integer typeName fun n => by
    rw [Shape.within]
    split <;> simp_all

theorem readsAlong_u8 : ReadsAlong .u8 Shape.u8 := readsAlong_unsigned _ _ _

theorem readsAlong_u16 : ReadsAlong .u16 Shape.u16 := readsAlong_unsigned _ _ _

theorem readsAlong_u32 : ReadsAlong .u32 Shape.u32 := readsAlong_unsigned _ _ _

theorem readsAlong_u64 : ReadsAlong .u64 Shape.u64 := readsAlong_unsigned _ _ _

theorem readsAlong_i16 : ReadsAlong .i16 Shape.i16 := readsAlong_signed _ _ _

theorem readsAlong_i64 : ReadsAlong .i64 Shape.i64 := readsAlong_signed _ _ _

theorem ReadsAlong.map {shape : Shape α} (hshape : ReadsAlong outline shape) (make : α → β) :
    ReadsAlong outline fun value => (shape value).map make where
  accepts value := by
    rw [← hshape.accepts]
    cases shape value <;> simp [Except.map]
  preserves old new hgrows := congrArg (Except.map make) (hshape.preserves old new hgrows)

theorem ReadsAlong.list {shape : Shape α} (hshape : ReadsAlong outline shape) :
    ReadsAlong (.list outline) (Shape.list shape) where
  accepts value := by
    cases value with
    | array items =>
        rw [Shape.list, exists_mapM_eq_ok_iff]
        simp only [hshape.accepts]
        constructor
        · exact .list
        · intro hlist
          cases hlist
          assumption
    | _ =>
        refine iff_of_false (by simp [Shape.list]) fun hlist => ?_
        cases hlist
  preserves old new hgrows := by
    cases hgrows with
    | item hgrows =>
        simp only [Shape.list, List.mapM_append, List.mapM_cons, hshape.preserves _ _ hgrows]

/-! ## Fields -/

theorem admitsField_required_iff :
    AdmitsField (Outline.required name outline) value ↔ Admits outline value := by
  constructor
  · intro hfield
    cases hfield
    assumption
  · exact .value

theorem admitsField_optional_iff :
    AdmitsField (Outline.optional name outline) value ↔ value = .null ∨ Admits outline value := by
  constructor
  · intro hfield
    cases hfield with
    | null => exact .inl rfl
    | value hvalue => exact .inr hvalue
  · rintro (rfl | hvalue)
    · exact .null
    · exact .value hvalue

/-- What is optional may be null, but null does not grow. -/
theorem ReadsAlong.option {shape : Shape α} (hshape : ReadsAlong outline shape) :
    (∀ value, (∃ result, Shape.option shape value = .ok result) ↔
      AdmitsField (Outline.optional name outline) value) ∧
    ∀ old new, Grows outline old new → Shape.option shape new = Shape.option shape old := by
  constructor
  · intro value
    rw [admitsField_optional_iff]
    by_cases hnull : value = .null
    · subst hnull
      exact iff_of_true ⟨none, rfl⟩ (.inl rfl)
    · rw [Shape.option_of_ne_null shape hnull, or_iff_right hnull]
      exact (hshape.map some).accepts value
  · intro old new hgrows
    obtain ⟨hold, hnew⟩ := hgrows.ne_null
    rw [Shape.option_of_ne_null shape hold, Shape.option_of_ne_null shape hnew,
      hshape.preserves _ _ hgrows]

/-- What is found under a field's name before and after some growth. -/
inductive Alike (field : Outline.Field) : Option Json → Option Json → Prop
  | same (found : Option Json) : Alike field found found
  | null (hoptional : field.2.1 = true) : Alike field none (some .null)
  | grown {old new : Json} (hgrows : Grows field.2.2 old new) : Alike field (some old) (some new)

/-- What is found under a field's name is admitted there, or nothing is that may be absent. -/
def AdmitsFound (field : Outline.Field) : Option Json → Prop
  | none => field.2.1 = true
  | some value => AdmitsField field value

/-- The rule of a field takes what the field admits, and does not notice growth. -/
structure FieldOutlines (field : Outline.Field) (rule : FieldRule) : Prop where
  name_eq : rule.name = field.1
  optional_eq : rule.optional = field.2.1
  accepts : ∀ value, rule.check value = .ok () ↔ AdmitsField field value
  preserves : ∀ old new, Grows field.2.2 old new → rule.check new = rule.check old

/-- The fields are those of the record; it is built if what is found for each of them is admitted,
and from alike values alike. -/
structure Outlines (fields : List Outline.Field) (record : Record α) : Prop where
  rules : List.Forall₂ FieldOutlines fields record.rules
  builds_iff : ∀ find : String → Option Json, (∃ result, record.build find = .ok result) ↔
    ∀ field ∈ fields, AdmitsFound field (find field.1)
  build : ∀ find find' : String → Option Json,
    (∀ field ∈ fields, Alike field (find field.1) (find' field.1)) →
      record.build find' = record.build find

theorem outlines_unit (value : α) : Outlines [] (Record.unit value) where
  rules := .nil
  builds_iff _ := iff_of_true ⟨value, rfl⟩ (List.forall_mem_nil _)
  build _ _ _ := rfl

/-- A check forgets what it reads. -/
theorem map_unit_eq_ok_iff {step : Except Mismatch α} :
    (step.map fun _ => ()) = .ok () ↔ ∃ result, step = .ok result := by
  rw [map_eq_ok]
  simp

variable {fields : List Outline.Field}

theorem Outlines.required {record : Record (α → β)} {shape : Shape α}
    (hrecord : Outlines fields record) (name : String) (hshape : ReadsAlong outline shape) :
    Outlines (fields ++ [Outline.required name outline]) (record.required name shape) where
  rules := by
    refine List.rel_append hrecord.rules (.cons ⟨rfl, rfl, fun value => ?_, ?_⟩ .nil)
    · rw [admitsField_required_iff, ← hshape.accepts]
      exact map_unit_eq_ok_iff
    · exact (hshape.map _).preserves
  builds_iff := by
    intro find
    rw [List.forall_mem_append, ← hrecord.builds_iff, List.forall_mem_singleton]
    simp only [Record.build_required_eq_ok]
    change _ ↔ _ ∧ AdmitsFound _ (find name)
    cases find name with
    | none => simp [AdmitsFound, Outline.required]
    | some found =>
        rw [AdmitsFound, admitsField_required_iff, ← hshape.accepts]
        constructor
        · rintro ⟨_, make, hmake, _, ⟨⟩, value, hvalue, -⟩
          exact ⟨⟨make, hmake⟩, value, hvalue⟩
        · rintro ⟨⟨make, hmake⟩, value, hvalue⟩
          exact ⟨_, make, hmake, found, rfl, value, hvalue, rfl⟩
  build := by
    intro find find' halike
    have hbuild := hrecord.build find find' fun field hfield =>
      halike field (List.mem_append_left _ hfield)
    have hlast := halike (Outline.required name outline)
      (List.mem_append_right _ List.mem_cons_self)
    change Alike _ (find name) (find' name) at hlast
    simp only [Record.required, hbuild]
    generalize find name = found, find' name = found' at hlast ⊢
    cases hlast with
    | same => rfl
    | null hoptional => cases hoptional
    | grown hgrows => simp only [hshape.preserves _ _ hgrows]

theorem Outlines.optional {record : Record (Option α → β)} {shape : Shape α}
    (hrecord : Outlines fields record) (name : String) (hshape : ReadsAlong outline shape) :
    Outlines (fields ++ [Outline.optional name outline]) (record.optional name shape) where
  rules := by
    obtain ⟨haccepts, hpreserves⟩ := @ReadsAlong.option _ _ name _ hshape
    refine List.rel_append hrecord.rules (.cons ⟨rfl, rfl, fun value => ?_, ?_⟩ .nil)
    · rw [← haccepts]
      exact map_unit_eq_ok_iff
    · intro old new hgrows
      exact congrArg (Except.map _) (hpreserves old new hgrows)
  builds_iff := by
    intro find
    obtain ⟨haccepts, -⟩ := @ReadsAlong.option _ _ name _ hshape
    rw [List.forall_mem_append, ← hrecord.builds_iff, List.forall_mem_singleton]
    simp only [Record.build_optional_eq_ok]
    change _ ↔ _ ∧ AdmitsFound _ (find name)
    have hfound : (∃ value, Shape.optionalValue shape (find name) = .ok value) ↔
        AdmitsFound (Outline.optional name outline) (find name) := by
      cases find name with
      | none => exact iff_of_true ⟨none, rfl⟩ rfl
      | some found => exact haccepts found
    rw [← hfound]
    constructor
    · rintro ⟨_, make, hmake, value, hvalue, -⟩
      exact ⟨⟨make, hmake⟩, value, hvalue⟩
    · rintro ⟨⟨make, hmake⟩, value, hvalue⟩
      exact ⟨_, make, hmake, value, hvalue, rfl⟩
  build := by
    intro find find' halike
    obtain ⟨-, hpreserves⟩ := @ReadsAlong.option _ _ name _ hshape
    have hbuild := hrecord.build find find' fun field hfield =>
      halike field (List.mem_append_left _ hfield)
    have hlast := halike (Outline.optional name outline)
      (List.mem_append_right _ List.mem_cons_self)
    change Alike _ (find name) (find' name) at hlast
    simp only [Record.optional, hbuild]
    generalize find name = found, find' name = found' at hlast ⊢
    cases hlast with
    | same => rfl
    | null => rfl
    | grown hgrows => simp only [hpreserves _ _ hgrows]

end HubLink.Json
