import HubLink.Json.Value

/-!
# Members of objects

A reader puts members one by one into an object, a printer starts from pieces that may be left out.
Both build with `put`, which keeps the keys ascending; what it builds holds no other values than
were put in, and under each key the value that was put last (`member?_foldl_put`).
-/

namespace HubLink.Json

/-! ## Items and members one by one -/

theorem wellFormedItems_iff {items : List Json} :
    WellFormedItems items ↔ ∀ item ∈ items, WellFormed item := by
  induction items with
  | nil => simp [WellFormedItems]
  | cons item rest ih => simp [WellFormedItems, ih]

theorem wellFormedMembers_iff {members : List (String × Json)} :
    WellFormedMembers members ↔ ∀ m ∈ members, WellFormed m.2 := by
  induction members with
  | nil => simp [WellFormedMembers]
  | cons m rest ih => simp [WellFormedMembers, ih]

theorem depthItems_le_iff {items : List Json} {bound : Nat} :
    depthItems items ≤ bound ↔ ∀ item ∈ items, depth item ≤ bound := by
  induction items with
  | nil => simp [depthItems]
  | cons item rest ih => rw [depthItems, Nat.max_le, ih, List.forall_mem_cons]

theorem depthMembers_le_iff {members : List (String × Json)} {bound : Nat} :
    depthMembers members ≤ bound ↔ ∀ m ∈ members, depth m.2 ≤ bound := by
  induction members with
  | nil => simp [depthMembers]
  | cons m rest ih => rw [depthMembers, Nat.max_le, ih, List.forall_mem_cons]

theorem member?_cons (wanted key : String) (value : Json) (rest : List (String × Json)) :
    member? wanted ((key, value) :: rest) =
      if wanted = key then some value else member? wanted rest := by
  by_cases hwanted : wanted = key
  · rw [if_pos hwanted, hwanted, member?, List.lookup_cons_self]
  · rw [if_neg hwanted, member?, List.lookup_cons, beq_false_of_ne hwanted]

theorem mem_of_member? {key : String} {value : Json} {members : List (String × Json)}
    (hfound : member? key members = some value) : (key, value) ∈ members := by
  obtain ⟨before, behind, rfl, _⟩ := List.lookup_eq_some_iff.mp hfound
  exact List.mem_append_right _ List.mem_cons_self

/-! ## Putting one member -/

/-- The keys of the members ascend. -/
def Ascending (members : List (String × Json)) : Prop :=
  (members.map Prod.fst).Pairwise (· < ·)

theorem member?_of_mem {members : List (String × Json)} (hmembers : Ascending members)
    {m : String × Json} (hm : m ∈ members) : member? m.1 members = some m.2 := by
  induction members with
  | nil => cases hm
  | cons first rest ih =>
      obtain ⟨key, value⟩ := first
      have hsplit := List.pairwise_cons.mp hmembers
      rw [member?_cons]
      rcases List.mem_cons.mp hm with rfl | hm
      · exact if_pos rfl
      · have hless : key < m.1 := hsplit.1 m.1 (List.mem_map_of_mem hm)
        rw [if_neg fun heq => String.lt_irrefl _ (heq ▸ hless)]
        exact ih hsplit.2 hm

theorem mem_put {key : String} {value : Json} {members : List (String × Json)} {m : String × Json}
    (hm : m ∈ put key value members) : m = (key, value) ∨ m ∈ members := by
  induction members with
  | nil => exact .inl (List.mem_singleton.mp hm)
  | cons first rest ih =>
      obtain ⟨key', value'⟩ := first
      unfold put at hm
      split at hm
      · exact List.mem_cons.mp hm
      · split at hm
        · exact (List.mem_cons.mp hm).imp_right (List.mem_cons_of_mem _)
        · rcases List.mem_cons.mp hm with rfl | hm
          · exact .inr List.mem_cons_self
          · exact (ih hm).imp_right (List.mem_cons_of_mem _)

theorem ascending_put {members : List (String × Json)} (hmembers : Ascending members)
    (key : String) (value : Json) : Ascending (put key value members) := by
  induction members with
  | nil => exact List.pairwise_singleton _ _
  | cons first rest ih =>
      obtain ⟨key', value'⟩ := first
      have hsplit := List.pairwise_cons.mp hmembers
      unfold put
      split
      next hless =>
        refine List.pairwise_cons.mpr ⟨?_, hmembers⟩
        intro other hother
        rcases List.mem_cons.mp hother with rfl | hother
        · exact hless
        · exact String.lt_trans hless (hsplit.1 other hother)
      next hless =>
        split
        next heq =>
          subst heq
          exact hmembers
        next hne =>
          refine List.pairwise_cons.mpr ⟨?_, ih hsplit.2⟩
          intro other hother
          obtain ⟨m, hm, rfl⟩ := List.mem_map.mp hother
          rcases mem_put hm with rfl | hm
          · exact Std.lt_of_le_of_ne (String.not_lt.mp hless) (Ne.symm hne)
          · exact hsplit.1 m.1 (List.mem_map_of_mem hm)

theorem put_of_last {key : String} {members : List (String × Json)}
    (hlast : ∀ m ∈ members, m.1 < key) (value : Json) :
    put key value members = members ++ [(key, value)] := by
  induction members with
  | nil => rfl
  | cons first rest ih =>
      obtain ⟨key', value'⟩ := first
      have hless : key' < key := hlast _ List.mem_cons_self
      rw [put, if_neg (String.lt_asymm hless),
        if_neg (fun heq => String.lt_irrefl _ (heq ▸ hless)),
        ih fun m hm => hlast m (List.mem_cons_of_mem _ hm), List.cons_append]

theorem member?_put (wanted key : String) (value : Json) (members : List (String × Json)) :
    member? wanted (put key value members) =
      if wanted = key then some value else member? wanted members := by
  induction members with
  | nil => exact member?_cons wanted key value []
  | cons first rest ih =>
      obtain ⟨key', value'⟩ := first
      unfold put
      split
      · exact member?_cons wanted key value _
      · split
        next heq =>
          subst heq
          rw [member?_cons, member?_cons]
          split <;> rfl
        next hne =>
          rw [member?_cons, member?_cons, ih]
          split
          next heq => rw [if_neg fun hkey => hne (hkey.symm.trans heq)]
          · rfl

/-! ## Putting all members -/

/-- The members after some more were put in. -/
def putAll (members acc : List (String × Json)) : List (String × Json) :=
  members.foldl (fun acc (key, value) => put key value acc) acc

theorem ofMembers_eq (members : List (String × Json)) :
    ofMembers members = .object (putAll members []) := rfl

theorem mem_putAll {members acc : List (String × Json)} {m : String × Json}
    (hm : m ∈ putAll members acc) : m ∈ members ∨ m ∈ acc := by
  induction members generalizing acc with
  | nil => exact .inr hm
  | cons first rest ih =>
      rcases ih hm with hrest | hput
      · exact .inl (List.mem_cons_of_mem _ hrest)
      · rcases mem_put hput with rfl | hacc
        · exact .inl List.mem_cons_self
        · exact .inr hacc

theorem ascending_putAll (members : List (String × Json)) {acc : List (String × Json)}
    (hacc : Ascending acc) : Ascending (putAll members acc) := by
  induction members generalizing acc with
  | nil => exact hacc
  | cons first rest ih => exact ih (ascending_put hacc first.1 first.2)

/-- Ascending members are kept as they stand. -/
theorem putAll_ascending {members acc : List (String × Json)}
    (hmembers : Ascending (acc ++ members)) : putAll members acc = acc ++ members := by
  -- every key that is still to come lies above those that are in, so it is put last
  induction members generalizing acc with
  | nil => exact (List.append_nil acc).symm
  | cons first rest ih =>
      obtain ⟨key, value⟩ := first
      have hlast : ∀ m ∈ acc, m.1 < key := by
        unfold Ascending at hmembers
        rw [List.map_append, List.pairwise_append] at hmembers
        exact fun m hm => hmembers.2.2 m.1 (List.mem_map_of_mem hm) key List.mem_cons_self
      have hput : acc ++ (key, value) :: rest = put key value acc ++ rest := by
        rw [put_of_last hlast, List.append_assoc, List.singleton_append]
      rw [hput] at hmembers ⊢
      exact ih hmembers

theorem ofMembers_ascending {members : List (String × Json)} (hmembers : Ascending members) :
    ofMembers members = .object members :=
  congrArg Json.object (putAll_ascending hmembers)

/-- What is built from well formed members is well formed. -/
theorem wellFormed_ofMembers {members : List (String × Json)}
    (hmembers : ∀ m ∈ members, WellFormed m.2) : WellFormed (ofMembers members) := by
  refine ⟨ascending_putAll members List.Pairwise.nil, wellFormedMembers_iff.mpr fun m hm => ?_⟩
  rcases mem_putAll hm with hm | hm
  · exact hmembers m hm
  · cases hm

theorem depth_ofMembers_le {members : List (String × Json)} {bound : Nat}
    (hmembers : ∀ m ∈ members, depth m.2 ≤ bound) : depth (ofMembers members) ≤ bound + 1 := by
  refine Nat.succ_le_succ (depthMembers_le_iff.mpr fun m hm => ?_)
  rcases mem_putAll hm with hm | hm
  · exact hmembers m hm
  · cases hm

/-! ## Looking up the last one -/

/-- The value that stands last under a key. -/
def last? (key : String) (members : List (String × Json)) : Option Json :=
  member? key members.reverse

@[simp]
theorem last?_append (key : String) (first second : List (String × Json)) :
    last? key (first ++ second) = (last? key second).or (last? key first) := by
  rw [last?, List.reverse_append]
  exact List.lookup_append

theorem last?_singleton (key name : String) (value : Json) :
    last? key [(name, value)] = if key = name then some value else none :=
  member?_cons key name value []

/-- Of the members put in under one key the last one counts. -/
theorem member?_putAll (key : String) (members acc : List (String × Json)) :
    member? key (putAll members acc) = (last? key members).or (member? key acc) := by
  induction members generalizing acc with
  | nil => rfl
  | cons first rest ih =>
      obtain ⟨name, value⟩ := first
      calc member? key (putAll rest (put name value acc))
          = (last? key rest).or (member? key (put name value acc)) := ih _
        _ = (last? key rest).or ((last? key [(name, value)]).or (member? key acc)) := by
            rw [member?_put, last?_singleton]
            split <;> rfl
        _ = (last? key ((name, value) :: rest)).or (member? key acc) := by
            rw [← Option.or_assoc, ← last?_append, List.singleton_append]

end HubLink.Json
