import HubLink.Yaml.Field

/-!
# What a mapping says under a name

A reader of settings asks a mapping for the members that it knows, each by its name.  Such a member
is missing or stands once, and what it says is what its value reads as (`Holds`); a second member of
the name spoils the mapping.  Members of names that nobody asks for do not matter.  A member that is
written as nothing says as much as one that is missing, where it may be so written (`MayBeNull`).

The readers of values are relations here, so a mapping inside a mapping is one of them, and what is
known of the inner one can be used as it is.
-/

namespace HubLink.Yaml.Node

variable {α β : Type} {root node : Node} {members : List (String × Node)} {name : String}
  {reads : Node → α → Prop} {read : Node → Option α} {found : Option α}

/-- No member has this name. -/
def IsMissing (members : List (String × Node)) (name : String) : Prop :=
  ∀ member ∈ members, member.1 ≠ name

/-- One member has this name, and this is its value. -/
def StandsOnce (members : List (String × Node)) (name : String) (node : Node) : Prop :=
  ∃ front back, members = front ++ (name, node) :: back ∧
    IsMissing front name ∧ IsMissing back name

/-- What a mapping says under a name, if anything. -/
inductive Holds (members : List (String × Node)) (name : String) (reads : Node → α → Prop) :
    Option α → Prop where
  | missing (hmissing : IsMissing members name) : Holds members name reads none
  | present {node : Node} {value : α} (honce : StandsOnce members name node)
      (hreads : reads node value) : Holds members name reads (some value)

/-- What a value says that may be written as nothing. -/
inductive MayBeNull (root : Node) (reads : Node → α → Prop) (node : Node) : Option α → Prop where
  | null (hnull : isAbsent? root node = some true) : MayBeNull root reads node none
  | value {value : α} (hnull : isAbsent? root node = some false) (hreads : reads node value) :
      MayBeNull root reads node (some value)

/-! ## Members by name -/

theorem filter_eq_nil_iff_isMissing :
    members.filter (·.1 == name) = [] ↔ IsMissing members name := by
  simp [IsMissing]

theorem exists_filter_eq_iff_standsOnce :
    (∃ key, members.filter (·.1 == name) = [(key, node)]) ↔ StandsOnce members name node := by
  simp only [List.filter_eq_cons_iff, StandsOnce, filter_eq_nil_iff_isMissing, beq_iff_eq]
  constructor
  · rintro ⟨key, front, back, hmembers, hfront, rfl, hback⟩
    exact ⟨front, back, hmembers, hfront, hback⟩
  · rintro ⟨front, back, hmembers, hfront, hback⟩
    exact ⟨name, front, back, hmembers, hfront, rfl, hback⟩

theorem member?_eq_some_none_iff :
    member? members name = some none ↔ IsMissing members name := by
  rw [← filter_eq_nil_iff_isMissing, member?]
  split
  next hnil => exact iff_of_true rfl hnil
  next key value hone =>
    rw [hone]
    simp
  next hnil _ => exact iff_of_false (by simp) hnil

theorem member?_eq_some_some_iff :
    member? members name = some (some node) ↔ StandsOnce members name node := by
  rw [← exists_filter_eq_iff_standsOnce, member?]
  split
  next hnil =>
    rw [hnil]
    simp
  next key value hone =>
    rw [hone]
    simp
  next _ hmany =>
    refine iff_of_false (by simp) ?_
    rintro ⟨key, hone⟩
    exact hmany key node hone

/-! ## What is read under a name -/

theorem field?_eq_some_iff (hread : ∀ node value, read node = some value ↔ reads node value) :
    field? members name read = some found ↔ Holds members name reads found := by
  unfold field?
  rw [Option.bind_eq_bind, Option.bind_eq_some_iff]
  constructor
  · rintro ⟨member, hmember, hfound⟩
    cases member with
    | none =>
        cases hfound
        exact .missing (member?_eq_some_none_iff.mp hmember)
    | some node =>
        obtain ⟨value, hvalue, hfound⟩ := Option.bind_eq_some_iff.mp hfound
        cases hfound
        exact .present (member?_eq_some_some_iff.mp hmember) ((hread node value).mp hvalue)
  · intro hholds
    cases hholds with
    | missing hmissing => exact ⟨none, member?_eq_some_none_iff.mpr hmissing, rfl⟩
    | @present node value honce hreads =>
        refine ⟨some node, member?_eq_some_some_iff.mpr honce, ?_⟩
        exact Option.bind_eq_some_iff.mpr ⟨value, (hread node value).mpr hreads, rfl⟩

/-- The reader of a value that may be written as nothing. -/
def readUnlessNull? (root : Node) (read : Node → Option α) (node : Node) : Option (Option α) := do
  if ← isAbsent? root node then some none else return some (← read node)

theorem readUnlessNull?_eq_some_iff
    (hread : ∀ node value, read node = some value ↔ reads node value) :
    readUnlessNull? root read node = some found ↔ MayBeNull root reads node found := by
  unfold readUnlessNull?
  rw [Option.bind_eq_bind, Option.bind_eq_some_iff]
  constructor
  · rintro ⟨absent, habsent, hfound⟩
    cases absent with
    | true =>
        cases hfound
        exact .null habsent
    | false =>
        obtain ⟨value, hvalue, hfound⟩ := Option.bind_eq_some_iff.mp hfound
        cases hfound
        exact .value habsent ((hread node value).mp hvalue)
  · intro hnull
    cases hnull with
    | null habsent => exact ⟨true, habsent, rfl⟩
    | @value value habsent hreads =>
        refine ⟨false, habsent, ?_⟩
        exact Option.bind_eq_some_iff.mpr ⟨value, (hread node value).mpr hreads, rfl⟩

/-- What a mapping says under a name, once each reading is turned into something else. -/
theorem holds_map_iff {f : α → β} {made : Option β} :
    Holds members name (fun node made => ∃ value, reads node value ∧ f value = made) made ↔
      ∃ found, Holds members name reads found ∧ found.map f = made := by
  constructor
  · intro hholds
    cases hholds with
    | missing hmissing => exact ⟨none, .missing hmissing, rfl⟩
    | present honce hreads =>
        obtain ⟨value, hreads, rfl⟩ := hreads
        exact ⟨some value, .present honce hreads, rfl⟩
  · rintro ⟨found, hholds, rfl⟩
    cases hholds with
    | missing hmissing => exact .missing hmissing
    | present honce hreads => exact .present honce ⟨_, hreads, rfl⟩

theorem mayBeNull_map_iff {f : α → β} {made : Option β} :
    MayBeNull root (fun node made => ∃ value, reads node value ∧ f value = made) node made ↔
      ∃ found, MayBeNull root reads node found ∧ found.map f = made := by
  constructor
  · intro hnull
    cases hnull with
    | null hnull => exact ⟨none, .null hnull, rfl⟩
    | value hnull hreads =>
        obtain ⟨value, hreads, rfl⟩ := hreads
        exact ⟨some value, .value hnull hreads, rfl⟩
  · rintro ⟨found, hnull, rfl⟩
    cases hnull with
    | null hnull => exact .null hnull
    | value hnull hreads => exact .value hnull ⟨_, hreads, rfl⟩

theorem optionalField?_eq (root : Node) (members : List (String × Node)) (name : String)
    (read : Node → Option α) :
    optionalField? root members name read =
      (field? members name (readUnlessNull? root read)).map Option.join := by
  unfold optionalField? field?
  cases member? members name with
  | none => rfl
  | some member =>
      cases member with
      | none => rfl
      | some node =>
          change readUnlessNull? root read node =
            ((readUnlessNull? root read node).bind fun value => some (some value)).map Option.join
          cases readUnlessNull? root read node <;> rfl

/-- What is read under a name that may say nothing, once the reading is turned into something
else. -/
theorem optionalField?_eq_some_iff {f : α → β} {read : Node → Option β} {made : Option β}
    (hread : ∀ node made, read node = some made ↔ ∃ value, reads node value ∧ f value = made) :
    optionalField? root members name read = some made ↔
      ∃ found, Holds members name (MayBeNull root reads) found ∧ found.join.map f = made := by
  have hnull : ∀ node made, readUnlessNull? root read node = some made ↔
      ∃ value, MayBeNull root reads node value ∧ value.map f = made :=
    fun _ _ => (readUnlessNull?_eq_some_iff hread).trans mayBeNull_map_iff
  simp only [optionalField?_eq, Option.map_eq_some_iff, field?_eq_some_iff hnull, holds_map_iff]
  constructor
  · rintro ⟨_, ⟨found, hfound, rfl⟩, rfl⟩
    exact ⟨found, hfound, by cases found <;> rfl⟩
  · rintro ⟨found, hfound, rfl⟩
    exact ⟨_, ⟨found, hfound, rfl⟩, by cases found <;> rfl⟩

end HubLink.Yaml.Node
