import HubLink.Json.Shape
import HubLink.Proofs.Json.Accepted

/-!
# Records in JSON values

A record checks its members before it builds its value, and it builds from the same members.  So
where a value is built field by field, no check fails on the way (`Record.Builds`), and a record is
read from what it was written as (`shape_ofMembers`).  In the other direction, whatever form a
record was read from, its fields were found inside that form (`exists_find_of_shape`).
-/

namespace HubLink.Json

/-! ## Numbers of fixed width -/

namespace Shape

theorem integer_below {α : Type} {bound n : Nat} (name : String) (make : Nat → α) (hn : n < bound) :
    integer name (below bound make) (.integer n) = .ok (make n) := by
  have hbounds : (0 : Int) ≤ n ∧ (n : Int) < bound := by omega
  simp only [integer, below, if_pos hbounds, Int.toNat_natCast]

theorem integer_within {α : Type} {half : Nat} {n : Int} (name : String) (make : Int → α)
    (hleast : -(half : Int) ≤ n) (hmost : n < half) :
    integer name (within half make) (.integer n) = .ok (make n) := by
  simp only [integer, within, if_pos (And.intro hleast hmost)]

@[simp]
theorem u8_toNat (n : UInt8) : u8 (.integer n.toNat) = .ok n := by
  rw [u8, integer_below _ _ n.toNat_lt, UInt8.ofNat_toNat]

@[simp]
theorem u16_toNat (n : UInt16) : u16 (.integer n.toNat) = .ok n := by
  rw [u16, integer_below _ _ n.toNat_lt, UInt16.ofNat_toNat]

@[simp]
theorem u32_toNat (n : UInt32) : u32 (.integer n.toNat) = .ok n := by
  rw [u32, integer_below _ _ n.toNat_lt, UInt32.ofNat_toNat]

@[simp]
theorem u64_toNat (n : UInt64) : u64 (.integer n.toNat) = .ok n := by
  rw [u64, integer_below _ _ n.toNat_lt, UInt64.ofNat_toNat]

@[simp]
theorem i16_toInt (n : Int16) : i16 (.integer n.toInt) = .ok n := by
  have hleast : -((Int16.size / 2 : Nat) : Int) ≤ n.toInt := n.le_toInt
  rw [i16, integer_within _ _ hleast n.toInt_lt, Int16.ofInt_toInt]

@[simp]
theorem i64_toInt (n : Int64) : i64 (.integer n.toInt) = .ok n := by
  have hleast : -((Int64.size / 2 : Nat) : Int) ≤ n.toInt := n.le_toInt
  rw [i64, integer_within _ _ hleast n.toInt_lt, Int64.ofInt_toInt]

theorem string_string (text : String) : string (.string text) = .ok text := rfl

theorem any_eq (value : Json) : any value = .ok value := rfl

theorem bool_bool (value : Bool) : bool (.bool value) = .ok value := rfl

/-- The value of an optional field: null counts as absent. -/
def optionalValue {α : Type} (shape : Shape α) : Option Json → Except Mismatch (Option α)
  | none => .ok none
  | some value => option shape value

theorem option_of_ne_null {α : Type} (shape : Shape α) {value : Json} (hvalue : value ≠ .null) :
    option shape value = (shape value).map some := by
  cases value <;> first | rfl | exact absurd rfl hvalue

/-- What an optional field is written as, if that is never null, is read back. -/
theorem optionalValue_map {α : Type} {shape : Shape α} {write : α → Json}
    (hwrite : ∀ value, write value ≠ .null ∧ shape (write value) = .ok value) (field : Option α) :
    optionalValue shape (field.map write) = .ok field := by
  cases field with
  | none => rfl
  | some value =>
      obtain ⟨hnull, hshape⟩ := hwrite value
      rw [Option.map_some, optionalValue, option_of_ne_null shape hnull, hshape]
      rfl

end Shape

namespace Record

variable {α β : Type}

/-! ## Building -/

theorem build_required_eq_ok {record : Record (α → β)} {name : String} {shape : Shape α}
    {find : String → Option Json} {result : β} :
    (record.required name shape).build find = .ok result ↔
      ∃ make, record.build find = .ok make ∧ ∃ found, find name = some found ∧
        ∃ value, shape found = .ok value ∧ make value = result := by
  simp only [required, bind_eq_ok]
  refine exists_congr fun make => and_congr_right fun _ => ?_
  cases find name with
  | none =>
      constructor
      · intro hresult
        cases hresult
      · rintro ⟨_, hfound, _⟩
        cases hfound
  | some found =>
      refine map_eq_ok.trans ⟨fun hvalue => ⟨found, rfl, hvalue⟩, ?_⟩
      rintro ⟨_, ⟨⟩, hvalue⟩
      exact hvalue

theorem build_optional_eq_ok {record : Record (Option α → β)} {name : String} {shape : Shape α}
    {find : String → Option Json} {result : β} :
    (record.optional name shape).build find = .ok result ↔
      ∃ make, record.build find = .ok make ∧
        ∃ value, Shape.optionalValue shape (find name) = .ok value ∧ make value = result := by
  simp only [optional, bind_eq_ok]
  refine exists_congr fun make => and_congr_right fun _ => ?_
  cases find name with
  | none =>
      refine ⟨fun hresult => ⟨none, rfl, Except.ok.inj hresult⟩, ?_⟩
      rintro ⟨value, hvalue, rfl⟩
      cases hvalue
      rfl
  | some found => exact map_eq_ok

/-- The record builds `result` from what `find` finds, and no check fails on that. -/
structure Builds (record : Record α) (find : String → Option Json) (result : α) : Prop where
  build_eq : record.build find = .ok result
  check_eq : ∀ rule ∈ record.rules, ∀ found, find rule.name = some found →
    rule.check found = .ok ()

theorem builds_unit (result : α) (find : String → Option Json) : Builds (unit result) find result :=
  ⟨rfl, List.forall_mem_nil _⟩

variable {find : String → Option Json} {name : String} {shape : Shape α}

theorem Builds.required {record : Record (α → β)} {make : α → β} {found : Json} {value : α}
    (hmake : Builds record find make) (hfound : find name = some found)
    (hvalue : shape found = .ok value) : Builds (record.required name shape) find (make value) where
  build_eq := build_required_eq_ok.mpr ⟨make, hmake.build_eq, found, hfound, value, hvalue, rfl⟩
  check_eq rule hrule other hother := by
    rcases List.mem_append.mp hrule with hrule | hrule
    · exact hmake.check_eq rule hrule other hother
    · cases List.mem_singleton.mp hrule
      cases hfound.symm.trans hother
      exact map_eq_ok.mpr ⟨value, hvalue, rfl⟩

theorem Builds.optional {record : Record (Option α → β)} {make : Option α → β}
    {found : Option Json} {value : Option α} (hmake : Builds record find make)
    (hfound : find name = found) (hvalue : Shape.optionalValue shape found = .ok value) :
    Builds (record.optional name shape) find (make value) where
  build_eq := build_optional_eq_ok.mpr ⟨make, hmake.build_eq, value, hfound ▸ hvalue, rfl⟩
  check_eq rule hrule other hother := by
    rcases List.mem_append.mp hrule with hrule | hrule
    · exact hmake.check_eq rule hrule other hother
    · cases List.mem_singleton.mp hrule
      cases hfound.symm.trans hother
      exact map_eq_ok.mpr ⟨value, hvalue, rfl⟩

/-! ## Reading -/

theorem checkMembers_eq_ok {rules : List FieldRule} {members : List (String × Json)}
    (hmembers : ∀ m ∈ members, ∀ rule ∈ rules, rule.name = m.1 → rule.check m.2 = .ok ()) :
    checkMembers rules members = .ok () := by
  induction members with
  | nil => rfl
  | cons m rest ih =>
      obtain ⟨key, value⟩ := m
      have hrest := ih fun m hm => hmembers m (List.mem_cons_of_mem _ hm)
      rw [checkMembers, hrest]
      cases hrule : rules.find? (·.name == key) with
      | none => rfl
      | some rule =>
          have hfound := List.find?_some hrule
          have hname : rule.name = key := beq_iff_eq.mp hfound
          have hcheck : rule.check value = .ok () :=
            hmembers _ List.mem_cons_self rule (List.mem_of_find?_eq_some hrule) hname
          exact bind_eq_ok.mpr ⟨(), hcheck, rfl⟩

/-- **A record is read from the members it is built from**, the last under a name counting. -/
theorem shape_ofMembers {record : Record α} {members : List (String × Json)} {result : α}
    (hbuilds : Builds record (fun key => last? key members) result) :
    record.shape name (ofMembers members) = .ok result := by
  have hlast : ∀ key, member? key (putAll members []) = last? key members := fun key => by
    rw [member?_putAll]
    exact Option.or_none
  have hchecked : checkMembers record.rules (putAll members []) = .ok () := by
    refine checkMembers_eq_ok fun m hm rule hrule hname => ?_
    have hascending := @ascending_putAll members [] List.Pairwise.nil
    refine hbuilds.check_eq rule hrule m.2 ?_
    rw [hname, ← hlast]
    exact member?_of_mem hascending hm
  rw [ofMembers_eq, Record.shape, hchecked]
  simp only [hlast]
  exact hbuilds.build_eq

/-- Whatever form a record is read from, it is built from values inside that form. -/
theorem exists_find_of_shape {record : Record α} {value : Json} {result : α}
    (hread : record.shape name value = .ok result) :
    ∃ find, record.build find = .ok result ∧
      ∀ {budget key found}, Fits (budget + 1) value → find key = some found →
        Fits budget found := by
  cases value with
  | object members =>
      obtain ⟨_, _, hbuild⟩ := bind_eq_ok.mp hread
      refine ⟨_, hbuild, fun hfits hfound => ?_⟩
      have hmem := mem_of_member? hfound
      exact ⟨wellFormedMembers_iff.mp hfits.1.2 _ hmem,
        depthMembers_le_iff.mp (Nat.le_of_succ_le_succ hfits.2) _ hmem⟩
  | array items =>
      obtain ⟨_, _, hread⟩ := bind_eq_ok.mp hread
      split at hread
      · cases hread
      split at hread
      · cases hread
      refine ⟨_, hread, fun hfits hfound => ?_⟩
      have hmem := (List.of_mem_zip (mem_of_member? hfound)).2
      exact ⟨wellFormedItems_iff.mp hfits.1 _ hmem,
        depthItems_le_iff.mp (Nat.le_of_succ_le_succ hfits.2) _ hmem⟩
  | null => cases hread
  | bool value => cases hread
  | integer n => cases hread
  | real number => cases hread
  | string text => cases hread

end Record

end HubLink.Json
