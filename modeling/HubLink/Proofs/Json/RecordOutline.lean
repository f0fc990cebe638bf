import HubLink.Proofs.Json.Outline

/-!
# Records along their outlines

A record that is put together along an outline is read from exactly the values that the outline admits
(`Outlines.accepts`), and reads a grown value as before (`Outlines.preserves`).  It checks the members
whose names it knows before it builds anything; so what its fields admit is settled by the checks, and
all that is left to the building is that no field is missing.
-/

namespace HubLink.Json

variable {α : Type} {outline : Outline} {name : String} {fields : List Outline.Field}

/-! ## Checks -/

variable {rules : List FieldRule}

/-- The check of one member: that of its field, if the name is known. -/
def checkMember (rules : List FieldRule) (m : String × Json) : Except Mismatch Unit :=
  match rules.find? (·.name == m.1) with
  | none => .ok ()
  | some rule => rule.check m.2

theorem checkMembers_cons (m : String × Json) (rest : List (String × Json)) :
    Record.checkMembers rules (m :: rest) =
      checkMember rules m >>= fun _ => Record.checkMembers rules rest := by
  obtain ⟨key, value⟩ := m
  rw [Record.checkMembers, checkMember]
  cases rules.find? (·.name == key) <;> rfl

theorem checkMembers_append (before behind : List (String × Json)) :
    Record.checkMembers rules (before ++ behind) =
      Record.checkMembers rules before >>= fun _ => Record.checkMembers rules behind := by
  induction before with
  | nil => rfl
  | cons m more ih => rw [List.cons_append, checkMembers_cons, checkMembers_cons, ih, bind_assoc]

/-- No two fields have one name. -/
def Distinct (fields : List Outline.Field) : Prop :=
  (fields.map (·.1)).Nodup

instance (fields : List Outline.Field) : Decidable (Distinct fields) :=
  inferInstanceAs (Decidable (List.Nodup _))

theorem Distinct.eq_of_name_eq (hdistinct : Distinct fields) {field other : Outline.Field}
    (hfield : field ∈ fields) (hother : other ∈ fields) (hname : field.1 = other.1) :
    field = other :=
  List.inj_on_of_nodup_map hdistinct hfield hother hname

variable {record : Record α}

/-- The rule at a place is the rule of the field at that place. -/
theorem Outlines.exists_field_at (hrecord : Outlines fields record) {i : Nat} {rule : FieldRule}
    (hrule : record.rules[i]? = some rule) :
    ∃ field, fields[i]? = some field ∧ FieldOutlines field rule := by
  obtain ⟨hi, rfl⟩ := List.getElem?_eq_some_iff.mp hrule
  have hlength : i < fields.length := hrecord.rules.length_eq ▸ hi
  exact ⟨fields[i], List.getElem?_eq_getElem hlength, hrecord.rules.get hlength hi⟩

/-- The rule under a field's name is the rule of that field. -/
theorem Outlines.rule_of_find? (hrecord : Outlines fields record) (hdistinct : Distinct fields)
    {field : Outline.Field} (hfield : field ∈ fields) {rule : FieldRule}
    (hrule : record.rules.find? (·.name == field.1) = some rule) : FieldOutlines field rule := by
  have hbeq := List.find?_some hrule
  have hname : rule.name = field.1 := beq_iff_eq.mp hbeq
  obtain ⟨i, hi⟩ := List.mem_iff_getElem?.mp (List.mem_of_find?_eq_some hrule)
  obtain ⟨other, hother, houtlines⟩ := hrecord.exists_field_at hi
  have hsame : field = other := hdistinct.eq_of_name_eq hfield (List.mem_of_getElem? hother)
    (hname.symm.trans houtlines.name_eq)
  exact hsame ▸ houtlines

theorem Outlines.names_eq (hrecord : Outlines fields record) :
    record.rules.map (·.name) = fields.map (·.1) := by
  have hrules := hrecord.rules
  clear hrecord
  generalize record.rules = rules at hrules ⊢
  induction hrules with
  | nil => rfl
  | cons hfield _ ih => rw [List.map_cons, List.map_cons, hfield.name_eq, ih]

/-- Each field has a rule under its name. -/
theorem Outlines.exists_rule (hrecord : Outlines fields record) (hdistinct : Distinct fields)
    {field : Outline.Field} (hfield : field ∈ fields) :
    ∃ rule, record.rules.find? (·.name == field.1) = some rule ∧ FieldOutlines field rule := by
  have hmem : field.1 ∈ record.rules.map (·.name) := by
    rw [hrecord.names_eq]
    exact List.mem_map_of_mem hfield
  obtain ⟨rule, hrule, hname⟩ := List.mem_map.mp hmem
  have hsome : (record.rules.find? (·.name == field.1)).isSome = true :=
    List.find?_isSome.mpr ⟨rule, hrule, beq_iff_eq.mpr hname⟩
  obtain ⟨found, hfound⟩ := Option.isSome_iff_exists.mp hsome
  exact ⟨found, hfound, hrecord.rule_of_find? hdistinct hfield hfound⟩

/-- A name that no field has is known to no rule. -/
theorem Outlines.find?_eq_none (hrecord : Outlines fields record) {key : String}
    (hkey : ∀ field ∈ fields, field.1 ≠ key) :
    record.rules.find? (·.name == key) = none := by
  rw [List.find?_eq_none]
  intro rule hrule hname
  have hmem : rule.name ∈ fields.map (·.1) := by
    rw [← hrecord.names_eq]
    exact List.mem_map_of_mem hrule
  obtain ⟨field, hfield, hsame⟩ := List.mem_map.mp hmem
  exact hkey field hfield (hsame.trans (beq_iff_eq.mp hname))

/-! ## What is admitted -/

theorem checkMembers_eq_ok_iff {members : List (String × Json)} :
    Record.checkMembers rules members = .ok () ↔ ∀ m ∈ members, checkMember rules m = .ok () := by
  induction members with
  | nil => exact iff_of_true rfl (List.forall_mem_nil _)
  | cons m rest ih =>
      rw [checkMembers_cons, bind_unit_eq_ok, List.forall_mem_cons, ih]

/-- The check of a member is that of the field that has its name. -/
theorem Outlines.checkMember_eq_ok_iff (hrecord : Outlines fields record)
    (hdistinct : Distinct fields) {m : String × Json} :
    checkMember record.rules m = .ok () ↔
      ∀ field ∈ fields, field.1 = m.1 → AdmitsField field m.2 := by
  by_cases hknown : ∃ field ∈ fields, field.1 = m.1
  · obtain ⟨field, hfield, hname⟩ := hknown
    obtain ⟨rule, hrule, houtlines⟩ := hrecord.exists_rule hdistinct hfield
    rw [hname] at hrule
    simp only [checkMember, hrule, houtlines.accepts]
    constructor
    · intro hadmits other hother hsame
      rwa [hdistinct.eq_of_name_eq hother hfield (hsame.trans hname.symm)]
    · intro hadmits
      exact hadmits field hfield hname
  · have hnone := hrecord.find?_eq_none fun field hfield hname => hknown ⟨field, hfield, hname⟩
    simp only [checkMember, hnone, true_iff]
    intro field hfield hname
    exact absurd ⟨field, hfield, hname⟩ hknown

/-- The fields of an object are found and admitted if its members are, and none is missing. -/
theorem admitsFound_of_members {members : List (String × Json)} {field : Outline.Field}
    (hmembers : ∀ value, (field.1, value) ∈ members → AdmitsField field value)
    (hrequired : field.2.1 = false → field.1 ∈ members.map Prod.fst) :
    AdmitsFound field (member? field.1 members) := by
  cases hfound : member? field.1 members with
  | some value => exact hmembers value (mem_of_member? hfound)
  | none =>
      rw [member?, List.lookup_eq_none_iff] at hfound
      rw [AdmitsFound, ← Bool.not_eq_false]
      intro hneeded
      obtain ⟨m, hm, hname⟩ := List.mem_map.mp (hrequired hneeded)
      have hother := hfound m hm
      rw [hname, bne_self_eq_false] at hother
      cases hother

/-- Items are checked by the fields at their places. -/
theorem checkItems_eq_ok_iff (hrules : List.Forall₂ FieldOutlines fields rules)
    {items : List Json} :
    Record.checkItems rules items = .ok () ↔
      ∀ place ∈ fields.zip items, AdmitsField place.1 place.2 := by
  induction hrules generalizing items with
  | nil => exact iff_of_true rfl (List.forall_mem_nil _)
  | cons hfield _ ih =>
      cases items with
      | nil => exact iff_of_true rfl (List.forall_mem_nil _)
      | cons item items =>
          rw [Record.checkItems, bind_unit_eq_ok, List.zip_cons_cons, List.forall_mem_cons, ih,
            hfield.accepts]

/-- No field that must be there is behind a place. -/
theorem firstRequired?_eq_none_iff (hrules : List.Forall₂ FieldOutlines fields rules)
    (position : Nat) :
    Record.firstRequired? rules position = none ↔
      ∀ field ∈ fields.drop position, field.2.1 = true := by
  have hdropped := List.forall₂_drop position hrules
  rw [Record.firstRequired?, Option.map_eq_none_iff, List.findIdx?_eq_none_iff]
  generalize rules.drop position = behind, fields.drop position = others at hdropped
  induction hdropped with
  | nil => exact iff_of_true (List.forall_mem_nil _) (List.forall_mem_nil _)
  | cons hfield _ ih =>
      rw [List.forall_mem_cons, List.forall_mem_cons, hfield.optional_eq, Bool.not_eq_false']
      exact and_congr_right fun _ => ih

/-- The fields of an array are found at their places and admitted there. -/
theorem admitsFound_of_places (hdistinct : Distinct fields) {items : List Json}
    (hitems : ∀ place ∈ fields.zip items, AdmitsField place.1 place.2)
    (hrequired : ∀ field ∈ fields.drop items.length, field.2.1 = true) :
    ∀ field ∈ fields, AdmitsFound field
      (List.lookup field.1 ((fields.map (·.1)).zip items)) := by
  induction fields generalizing items with
  | nil => exact List.forall_mem_nil _
  | cons first others ih =>
      obtain ⟨hnew, hothers⟩ := List.nodup_cons.mp hdistinct
      cases items with
      | nil =>
          intro field hfield
          rw [List.zip_nil_right]
          exact hrequired field hfield
      | cons item items =>
          rw [List.zip_cons_cons, List.forall_mem_cons] at hitems
          rw [List.map_cons, List.zip_cons_cons, List.forall_mem_cons]
          refine ⟨?_, fun field hfield => ?_⟩
          · rw [List.lookup_cons_self]
            exact hitems.1
          · have hne : field.1 ≠ first.1 := by
              intro hsame
              apply hnew
              exact List.mem_map.mpr ⟨field, hfield, hsame⟩
            rw [List.lookup_cons, beq_false_of_ne hne]
            exact ih hothers hitems.2 hrequired field hfield

theorem Outlines.accepts_object (hrecord : Outlines fields record) (hdistinct : Distinct fields)
    (expected : String) (members : List (String × Json)) :
    (∃ result, record.shape expected (.object members) = .ok result) ↔
      Admits (.record fields) (.object members) := by
  simp only [Record.shape, bind_unit_eq_ok, exists_and_left, checkMembers_eq_ok_iff,
    hrecord.builds_iff, hrecord.checkMember_eq_ok_iff hdistinct]
  constructor
  · rintro ⟨hmembers, hfound⟩
    refine .object (fun field hfield value hmem => hmembers _ hmem field hfield rfl) ?_
    intro field hfield hneeded
    have hhere := hfound field hfield
    cases hvalue : member? field.1 members with
    | none =>
        rw [hvalue, AdmitsFound, hneeded] at hhere
        cases hhere
    | some value => exact List.mem_map_of_mem (f := Prod.fst) (mem_of_member? hvalue)
  · intro hadmits
    cases hadmits with
    | object hmembers hrequired =>
        refine ⟨fun m hm field hfield hname => hmembers field hfield m.2 (hname ▸ hm), ?_⟩
        intro field hfield
        exact admitsFound_of_members (hmembers field hfield) (hrequired field hfield)

theorem Outlines.accepts_array (hrecord : Outlines fields record) (hdistinct : Distinct fields)
    (expected : String) (items : List Json) :
    (∃ result, record.shape expected (.array items) = .ok result) ↔
      Admits (.record fields) (.array items) := by
  simp only [Record.shape, bind_unit_eq_ok, exists_and_left, checkItems_eq_ok_iff hrecord.rules]
  constructor
  · rintro ⟨hitems, result, hread⟩
    split at hread
    · cases hread
    next hmissing =>
      split at hread
      · cases hread
      next hlength =>
        rw [firstRequired?_eq_none_iff hrecord.rules] at hmissing
        rw [hrecord.rules.length_eq.symm] at hlength
        exact .array (Nat.le_of_not_lt hlength) hitems hmissing
  · intro hadmits
    cases hadmits with
    | array hlength hitems hrequired =>
        have hmissing := (firstRequired?_eq_none_iff hrecord.rules _).mpr hrequired
        have hfound := admitsFound_of_places hdistinct hitems hrequired
        rw [← hrecord.names_eq] at hfound
        obtain ⟨result, hbuild⟩ := (hrecord.builds_iff fun key =>
          List.lookup key ((record.rules.map (·.name)).zip items)).mpr hfound
        refine ⟨hitems, result, ?_⟩
        rw [hrecord.rules.length_eq] at hlength
        simp only [hmissing, if_neg (Nat.not_lt.mpr hlength)]
        exact hbuild

/-- **A record is read from the values that its outline admits**, and from no other. -/
theorem Outlines.accepts (hrecord : Outlines fields record) (hdistinct : Distinct fields)
    (expected : String) (value : Json) :
    (∃ result, record.shape expected value = .ok result) ↔ Admits (.record fields) value := by
  cases value with
  | object members => exact hrecord.accepts_object hdistinct expected members
  | array items => exact hrecord.accepts_array hdistinct expected items
  | _ =>
      refine iff_of_false (by simp [Record.shape]) fun hadmits => ?_
      cases hadmits

/-! ## What is not noticed -/

/-- A member that its check passes can be put in where none stands under its key, or where no check
looks. -/
theorem checkMembers_put {key : String} {value : Json} {members : List (String × Json)}
    (hcheck : checkMember rules (key, value) = .ok ())
    (hfree : member? key members = none ∨ rules.find? (·.name == key) = none) :
    Record.checkMembers rules (put key value members) = Record.checkMembers rules members := by
  induction members with
  | nil =>
      rw [put, checkMembers_cons, hcheck]
      rfl
  | cons m rest ih =>
      obtain ⟨key', value'⟩ := m
      rw [put]
      split
      · rw [checkMembers_cons, hcheck]
        rfl
      split
      next heq =>
        subst heq
        rcases hfree with habsent | hunknown
        · rw [member?_cons, if_pos rfl] at habsent
          cases habsent
        · have hold : checkMember rules (key, value') = .ok () := by
            simp only [checkMember, hunknown]
          rw [checkMembers_cons, checkMembers_cons, hcheck, hold]
      next hne =>
        rw [member?_cons, if_neg hne] at hfree
        rw [checkMembers_cons, checkMembers_cons, ih hfree]

theorem checkItems_replace {before behind : List Json} {old new : Json}
    (hcheck : ∀ rule, rules[before.length]? = some rule → rule.check new = rule.check old) :
    Record.checkItems rules (before ++ new :: behind) =
      Record.checkItems rules (before ++ old :: behind) := by
  induction before generalizing rules with
  | nil =>
      cases rules with
      | nil => rfl
      | cons rule more =>
          rw [List.nil_append, List.nil_append, Record.checkItems, Record.checkItems,
            hcheck rule rfl]
  | cons item before ih =>
      cases rules with
      | nil => rfl
      | cons rule more =>
          rw [List.cons_append, List.cons_append, Record.checkItems, Record.checkItems, ih]
          exact hcheck

theorem member?_append (key : String) (before behind : List (String × Json)) :
    member? key (before ++ behind) = (member? key before).or (member? key behind) :=
  List.lookup_append

/-- What is found where one value took the place of another is alike. -/
theorem alike_replace (hdistinct : Distinct fields) {optional : Bool} {old new : Json}
    (hfield : (name, optional, outline) ∈ fields) (hgrows : Grows outline old new)
    (before behind : List (String × Json)) {field : Outline.Field} (hmem : field ∈ fields) :
    Alike field (member? field.1 (before ++ (name, old) :: behind))
      (member? field.1 (before ++ (name, new) :: behind)) := by
  rw [member?_append, member?_append]
  cases member? field.1 before with
  | some found => exact .same _
  | none =>
      rw [Option.none_or, Option.none_or, member?_cons, member?_cons]
      by_cases hname : field.1 = name
      · rw [if_pos hname, if_pos hname]
        obtain rfl := hdistinct.eq_of_name_eq hmem hfield hname
        exact .grown hgrows
      · rw [if_neg hname, if_neg hname]
        exact .same _

/-- The names of the fields, parted at one of them. -/
theorem exists_split_names {i : Nat} {field : Outline.Field} (hfield : fields[i]? = some field) :
    ∃ names others, fields.map (·.1) = names ++ field.1 :: others ∧ names.length = i := by
  obtain ⟨hi, rfl⟩ := List.getElem?_eq_some_iff.mp hfield
  refine ⟨(fields.take i).map (·.1), (fields.drop (i + 1)).map (·.1), ?_, ?_⟩
  · rw [← List.map_cons, ← List.map_append, ← List.drop_eq_getElem_cons hi, List.take_append_drop]
  · rw [List.length_map, List.length_take, Nat.min_eq_left (Nat.le_of_lt hi)]

/-- The check of a member does not notice growth. -/
theorem Outlines.checkMember_grown (hrecord : Outlines fields record) (hdistinct : Distinct fields)
    {optional : Bool} {old new : Json} (hfield : (name, optional, outline) ∈ fields)
    (hgrows : Grows outline old new) :
    checkMember record.rules (name, new) = checkMember record.rules (name, old) := by
  cases hrule : record.rules.find? (·.name == name) with
  | none => simp only [checkMember, hrule]
  | some rule =>
      simp only [checkMember, hrule]
      exact (hrecord.rule_of_find? hdistinct hfield hrule).preserves _ _ hgrows

theorem Outlines.checkMember_null (hrecord : Outlines fields record) (hdistinct : Distinct fields)
    (hfield : (name, true, outline) ∈ fields) :
    checkMember record.rules (name, .null) = .ok () := by
  cases hrule : record.rules.find? (·.name == name) with
  | none => simp only [checkMember, hrule]
  | some rule =>
      simp only [checkMember, hrule]
      exact ((hrecord.rule_of_find? hdistinct hfield hrule).accepts .null).mpr .null

/-- An object is read by the check of its members and by what is found under the fields' names. -/
theorem Outlines.shape_object_eq (hrecord : Outlines fields record)
    {members members' : List (String × Json)}
    (hcheck : Record.checkMembers record.rules members' =
      Record.checkMembers record.rules members)
    (halike : ∀ field ∈ fields, Alike field (member? field.1 members) (member? field.1 members'))
    (expected : String) :
    record.shape expected (.object members') = record.shape expected (.object members) := by
  have hbuild := hrecord.build (member? · members) (member? · members') halike
  simp only [Record.shape, hcheck, hbuild]

theorem Outlines.shape_unknown (hrecord : Outlines fields record) {key : String}
    (hkey : ∀ field ∈ fields, field.1 ≠ key) (value : Json) (members : List (String × Json))
    (expected : String) :
    record.shape expected (.object (put key value members)) =
      record.shape expected (.object members) := by
  have hnone := hrecord.find?_eq_none hkey
  have hcheck : checkMember record.rules (key, value) = .ok () := by
    simp only [checkMember, hnone]
  refine hrecord.shape_object_eq (checkMembers_put hcheck (.inr hnone)) ?_ expected
  intro field hfield
  rw [member?_put, if_neg (hkey field hfield)]
  exact .same _

theorem Outlines.shape_null (hrecord : Outlines fields record) (hdistinct : Distinct fields)
    (hfield : (name, true, outline) ∈ fields) {members : List (String × Json)}
    (habsent : member? name members = none) (expected : String) :
    record.shape expected (.object (put name .null members)) =
      record.shape expected (.object members) := by
  have hcheck := hrecord.checkMember_null hdistinct hfield
  refine hrecord.shape_object_eq (checkMembers_put hcheck (.inl habsent)) ?_ expected
  intro field hmem
  rw [member?_put]
  by_cases hname : field.1 = name
  · obtain rfl := hdistinct.eq_of_name_eq hmem hfield hname
    rw [if_pos hname, habsent]
    exact .null rfl
  · rw [if_neg hname]
    exact .same _

theorem Outlines.shape_member (hrecord : Outlines fields record) (hdistinct : Distinct fields)
    {optional : Bool} {old new : Json} (hfield : (name, optional, outline) ∈ fields)
    (hgrows : Grows outline old new) (before behind : List (String × Json)) (expected : String) :
    record.shape expected (.object (before ++ (name, new) :: behind)) =
      record.shape expected (.object (before ++ (name, old) :: behind)) := by
  have hcheck := hrecord.checkMember_grown hdistinct hfield hgrows
  refine hrecord.shape_object_eq ?_ ?_ expected
  · simp only [checkMembers_append, checkMembers_cons, hcheck]
  · intro field hmem
    exact alike_replace hdistinct hfield hgrows before behind hmem

/-- A record that stands as an array is read by the places of its fields. -/
theorem Outlines.shape_place (hrecord : Outlines fields record) (hdistinct : Distinct fields)
    {optional : Bool} {old new : Json} {before behind : List Json}
    (hfield : fields[before.length]? = some (name, optional, outline))
    (hgrows : Grows outline old new) (expected : String) :
    record.shape expected (.array (before ++ new :: behind)) =
      record.shape expected (.array (before ++ old :: behind)) := by
  have hmem := List.mem_of_getElem? hfield
  have hcheck : ∀ rule, record.rules[before.length]? = some rule →
      rule.check new = rule.check old := by
    intro rule hrule
    obtain ⟨field, hat, houtlines⟩ := hrecord.exists_field_at hrule
    obtain rfl := Option.some.inj (hfield.symm.trans hat)
    exact houtlines.preserves _ _ hgrows
  obtain ⟨names, others, hnames, hplace⟩ := exists_split_names hfield
  have hbuild := hrecord.build
    (member? · ((fields.map (·.1)).zip (before ++ old :: behind)))
    (member? · ((fields.map (·.1)).zip (before ++ new :: behind))) <| by
      intro field hmem'
      rw [hnames, List.zip_append hplace, List.zip_append hplace]
      exact alike_replace hdistinct hmem hgrows _ _ hmem'
  have hlength : (before ++ new :: behind).length = (before ++ old :: behind).length := by
    simp only [List.length_append, List.length_cons]
  rw [Record.shape, Record.shape, checkItems_replace hcheck, hrecord.names_eq, hlength]
  simp only [member?] at hbuild
  rw [hbuild]

/-- **A record does not notice growth.** -/
theorem Outlines.preserves (hrecord : Outlines fields record) (hdistinct : Distinct fields)
    (expected : String) {old new : Json} (hgrows : Grows (.record fields) old new) :
    record.shape expected new = record.shape expected old := by
  cases hgrows with
  | unknown value hkey => exact hrecord.shape_unknown hkey value _ expected
  | null hfield habsent => exact hrecord.shape_null hdistinct hfield habsent expected
  | member hfield hgrows => exact hrecord.shape_member hdistinct hfield hgrows _ _ expected
  | place hfield hgrows => exact hrecord.shape_place hdistinct hfield hgrows expected

theorem Outlines.readsAlong (hrecord : Outlines fields record) (hdistinct : Distinct fields)
    (expected : String) : ReadsAlong (.record fields) (record.shape expected) where
  accepts := hrecord.accepts hdistinct expected
  preserves _ _ := hrecord.preserves hdistinct expected

end HubLink.Json
