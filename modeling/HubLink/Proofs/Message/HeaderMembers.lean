import HubLink.Proofs.Message.HeaderFields
import Mathlib.Data.List.Induction
import Mathlib.Data.List.Perm.Basic

/-!
# Headers by their members

The header of an envelope is read from an object's text member by member.  The draft gathers the
members in front (`Draft.Gathers`): it holds exactly what those of them say that stand alone.  One more
member keeps that, and it is refused only if it is spelled wrong or its place is filled; so there is
a draft as long as no member of the header is spelled wrong or stands twice (`exists_foldl_absorb`),
and it becomes a header exactly if the members are one's (`exists_foldl_finish_iff`).
-/

namespace HubLink.Message.Envelope

open Json (TextField IsValue)
open Json.TextRecord (absorb)

variable {draft final : Draft} {header : Header} {item : Item} {name : String}
  {members : List (String × List UInt8)} {good : List UInt8 → Prop}

/-! ## One member -/

theorem absorb_of_not_mem {m : String × List UInt8} (hname : m.1 ∉ headerNames)
    (draft? : Option Draft) : absorb headerFields bodyBudget draft? m = draft? := by
  refine Json.TextRecord.absorb_unknown (fun field hfield hsame => hname ?_) draft?
  rw [← map_name_headerFields, ← hsame]
  exact List.mem_map_of_mem hfield

/-- A member of the header is taken in if its place is free and its value is spelled. -/
theorem absorb_eq_some_iff {m : String × List UInt8} (hname : m.1 ∈ headerNames)
    (hvalue : IsValue m.2) :
    absorb headerFields bodyBudget (some draft) m = some final ↔
      ¬ draft.Has m.1 ∧
        ∃ item : Item, item.name = m.1 ∧ item.Spelled m.2 ∧ draft.set item = final := by
  obtain ⟨field, hfield, hsame, hfound⟩ := exists_field hname
  obtain ⟨reader, hreader⟩ := exists_itemReader hfield
  have hfilled := hreader.filled_iff draft
  have hread := @read_eq_some_iff draft final m.2 field hfield hvalue
  rw [hsame] at hfilled hread
  rw [absorb, Option.bind_some, hfound]
  dsimp only
  by_cases hhas : draft.Has m.1
  · simp [hfilled.mpr hhas, hhas]
  · rw [if_neg fun h => hhas (hfilled.mp h), hread]
    exact (and_iff_right hhas).symm

/-! ## Members that stand alone -/

theorem HasOne.mem (hone : HasOne members name good) : name ∈ members.map Prod.fst := by
  apply List.count_pos_iff.mp
  rw [hone.1]
  exact Nat.one_pos

theorem hasOne_append_of_ne {m : String × List UInt8} (hname : m.1 ≠ name) :
    HasOne (members ++ [m]) name good ↔ HasOne members name good := by
  have hcount : [m.1].count name = 0 :=
    List.count_eq_zero.mpr fun hmem => hname (List.mem_singleton.mp hmem).symm
  rw [HasOne, HasOne, List.map_append, List.count_append, List.map_singleton, hcount, Nat.add_zero]
  refine and_congr_right fun _ => exists_congr fun value => and_congr_left fun _ => ?_
  rw [List.mem_append, List.mem_singleton]
  refine or_iff_left fun hsame => hname ?_
  rw [← hsame]

theorem hasOne_append_self {m : String × List UInt8} :
    HasOne (members ++ [m]) m.1 good ↔ m.1 ∉ members.map Prod.fst ∧ good m.2 := by
  rw [HasOne, List.map_append, List.count_append, List.map_singleton, List.count_singleton_self,
    Nat.add_eq_right, List.count_eq_zero]
  refine and_congr_right fun hnew => ⟨?_, fun hgood => ⟨m.2, ?_, hgood⟩⟩
  · rintro ⟨value, hmem, hgood⟩
    rcases List.mem_append.mp hmem with hold | hlast
    · exact absurd (List.mem_map_of_mem (f := Prod.fst) hold) hnew
    · rw [← List.mem_singleton.mp hlast]
      exact hgood
  · exact List.mem_append_right _ (List.mem_singleton.mpr rfl)

/-! ## All members -/

/-- What a draft holds stands alone among the members, and what stands there it holds. -/
structure Draft.Gathers (draft : Draft) (members : List (String × List UInt8)) : Prop where
  hasOne : ∀ {item : Item}, draft.Holds item → HasOne members item.name item.Spelled
  has : ∀ {name}, name ∈ headerNames → name ∈ members.map Prod.fst → draft.Has name

theorem Draft.Gathers.not_has (hgathers : draft.Gathers members)
    (hname : name ∉ members.map Prod.fst) : ¬ draft.Has name := by
  rintro ⟨item, rfl, hholds⟩
  exact hname (hgathers.hasOne hholds).mem

/-- What is taken in is gathered with the rest. -/
theorem Draft.Gathers.append {m : String × List UInt8} (hgathers : draft.Gathers members)
    (hvalue : IsValue m.2)
    (habsorb : absorb headerFields bodyBudget (some draft) m = some final) :
    final.Gathers (members ++ [m]) := by
  by_cases hname : m.1 ∈ headerNames
  · obtain ⟨hfree, item, hitem, hspelled, rfl⟩ := (absorb_eq_some_iff hname hvalue).mp habsorb
    have hnew : m.1 ∉ members.map Prod.fst := fun hmem => hfree (hgathers.has hname hmem)
    refine ⟨fun {other} hholds => ?_, fun {name} hheader hmem => ?_⟩
    · rcases Draft.holds_set.mp hholds with rfl | ⟨hother, hholds⟩
      · rw [hitem]
        exact hasOne_append_self.mpr ⟨hnew, hspelled⟩
      · rw [hasOne_append_of_ne (hitem ▸ Ne.symm hother)]
        exact hgathers.hasOne hholds
    · rw [Draft.has_set, hitem]
      rw [List.map_append, List.mem_append] at hmem
      rcases hmem with hold | hlast
      · exact .inr (hgathers.has hheader hold)
      · exact .inl (List.mem_singleton.mp hlast).symm
  · -- a member of another name changes nothing
    rw [absorb_of_not_mem hname, Option.some.injEq] at habsorb
    subst habsorb
    have hother : ∀ {name}, name ∈ headerNames → m.1 ≠ name := by
      rintro name hheader rfl
      exact hname hheader
    refine ⟨fun {item} hholds => ?_, fun {name} hheader hmem => ?_⟩
    · rw [hasOne_append_of_ne (hother item.name_mem)]
      exact hgathers.hasOne hholds
    · rw [List.map_append, List.mem_append] at hmem
      rcases hmem with hold | hlast
      · exact hgathers.has hheader hold
      · exact absurd (List.mem_singleton.mp hlast).symm (hother hheader)

/-- The draft of the members of an object gathers them. -/
theorem gathers_of_foldl (hvalues : ∀ m ∈ members, IsValue m.2)
    (hfold : members.foldl (absorb headerFields bodyBudget) (some {}) = some draft) :
    draft.Gathers members := by
  induction members using List.reverseRecOn generalizing draft with
  | nil =>
      cases hfold
      exact ⟨fun hholds => absurd hholds (not_holds_empty _), fun _ hmem => by cases hmem⟩
  | append_singleton front m ih =>
      obtain ⟨hfront, hm⟩ := List.forall_mem_append.mp hvalues
      rw [List.foldl_append, List.foldl_cons, List.foldl_nil] at hfold
      cases hbefore : front.foldl (absorb headerFields bodyBudget) (some {}) with
      | none =>
          rw [hbefore] at hfold
          cases hfold
      | some before =>
          rw [hbefore] at hfold
          exact (ih hfront hbefore).append (hm m (List.mem_singleton.mpr rfl)) hfold

/-- No member of the header is spelled wrong or stands twice. -/
def AllSpelled (members : List (String × List UInt8)) : Prop :=
  ∀ name ∈ headerNames, name ∈ members.map Prod.fst →
    ∃ item : Item, item.name = name ∧ HasOne members name item.Spelled

/-- The members of a header are spelled as the header says. -/
theorem Header.InMembers.allSpelled (hmembers : header.InMembers members) :
    AllSpelled members := by
  intro name hname hmem
  have hrequired := hmembers.required
  simp only [Header.required, List.forall_mem_cons] at hrequired
  simp only [headerNames, List.mem_cons, List.not_mem_nil, or_false] at hname
  rcases hname with rfl | rfl | rfl | rfl | rfl
  · exact ⟨_, rfl, hrequired.1⟩
  · exact ⟨_, rfl, hrequired.2.1⟩
  · exact ⟨_, rfl, hrequired.2.2.1⟩
  · exact ⟨_, rfl, hrequired.2.2.2.1⟩
  · rcases hmembers.payload with hone | ⟨habsent, -⟩
    · exact ⟨_, rfl, hone⟩
    · exact absurd hmem habsent

/-- The members in front do not know of the last one. -/
theorem AllSpelled.front {m : String × List UInt8} (hspelled : AllSpelled (members ++ [m])) :
    AllSpelled members := by
  intro name hheader hmem
  have hmem' : name ∈ (members ++ [m]).map Prod.fst := by
    rw [List.map_append]
    exact List.mem_append_left _ hmem
  obtain ⟨item, hitem, hone⟩ := hspelled name hheader hmem'
  by_cases hname : m.1 = name
  · subst hname
    exact absurd hmem (hasOne_append_self.mp hone).1
  · exact ⟨item, hitem, (hasOne_append_of_ne hname).mp hone⟩

/-- Members of which none is spelled wrong or stands twice are all taken in. -/
theorem exists_foldl_absorb (hvalues : ∀ m ∈ members, IsValue m.2) (hspelled : AllSpelled members) :
    ∃ draft, members.foldl (absorb headerFields bodyBudget) (some {}) = some draft := by
  induction members using List.reverseRecOn with
  | nil => exact ⟨{}, rfl⟩
  | append_singleton front m ih =>
      obtain ⟨hfront, hm⟩ := List.forall_mem_append.mp hvalues
      obtain ⟨draft, hdraft⟩ := ih hfront hspelled.front
      rw [List.foldl_append, hdraft, List.foldl_cons, List.foldl_nil]
      by_cases hname : m.1 ∈ headerNames
      · have hlast : m.1 ∈ (front ++ [m]).map Prod.fst :=
          List.mem_map_of_mem (List.mem_append_right _ (List.mem_singleton.mpr rfl))
        obtain ⟨item, hitem, hone⟩ := hspelled m.1 hname hlast
        obtain ⟨hnew, hvalue⟩ := hasOne_append_self.mp hone
        have hfree := (gathers_of_foldl hfront hdraft).not_has hnew
        exact ⟨draft.set item, (absorb_eq_some_iff hname (hm m (List.mem_singleton.mpr rfl))).mpr
          ⟨hfree, item, hitem, hvalue, rfl⟩⟩
      · exact ⟨draft, absorb_of_not_mem hname _⟩

theorem HasOne.unique {good' : List UInt8 → Prop} (hone : HasOne members name good)
    (hother : HasOne members name good') :
    ∃ value, (name, value) ∈ members ∧ good value ∧ good' value := by
  obtain ⟨hcount, value, hmem, hgood⟩ := hone
  obtain ⟨-, value', hmem', hgood'⟩ := hother
  rw [List.count, List.countP_map, List.countP_eq_length_filter, List.length_eq_one_iff] at hcount
  obtain ⟨m, hfilter⟩ := hcount
  have hfound : ∀ {value}, (name, value) ∈ members → (name, value) = m := by
    intro value hmem
    rw [← List.mem_singleton, ← hfilter, List.mem_filter]
    exact ⟨hmem, beq_self_eq_true name⟩
  have hsame : value = value' := congrArg Prod.snd ((hfound hmem).trans (hfound hmem').symm)
  exact ⟨value, hmem, hgood, hsame ▸ hgood'⟩

theorem Draft.Gathers.holds (hgathers : draft.Gathers members)
    (hvalues : ∀ m ∈ members, IsValue m.2) (hone : HasOne members item.name item.Spelled) :
    draft.Holds item := by
  obtain ⟨other, hname, hholds⟩ := hgathers.has item.name_mem hone.mem
  have hother := hgathers.hasOne hholds
  rw [hname] at hother
  obtain ⟨value, hmem, hspelled, hspelled'⟩ := hone.unique hother
  obtain rfl := hspelled.unique (hvalues _ hmem) hspelled' hname.symm
  exact hholds

theorem Draft.Gathers.payload_eq_none_iff (hgathers : draft.Gathers members) :
    draft.payload = none ↔ "payload" ∉ members.map Prod.fst := by
  constructor
  · intro hnone hmem
    obtain ⟨item, hname, hholds⟩ := hgathers.has (by decide) hmem
    cases item with
    | payload value => cases hnone.symm.trans hholds
    | _ => simp [Item.name] at hname
  · intro habsent
    rw [Option.eq_none_iff_forall_ne_some]
    intro value hsome
    exact hgathers.not_has habsent ⟨.payload value, rfl, hsome⟩

/-- **What the members of an object make of an empty draft** is a header if they are a header's. -/
theorem exists_foldl_finish_iff (hvalues : ∀ m ∈ members, IsValue m.2) :
    (∃ draft, members.foldl (absorb headerFields bodyBudget) (some {}) = some draft ∧
      draft.finish = .ok header) ↔ header.InMembers members := by
  constructor
  · rintro ⟨draft, hfold, hfinish⟩
    have hgathers := gathers_of_foldl hvalues hfold
    obtain ⟨hrequired, hpayload⟩ := finish_eq_ok_iff.mp hfinish
    refine ⟨fun item hitem => hgathers.hasOne (hrequired item hitem), ?_⟩
    cases hbody : draft.payload with
    | none =>
        rw [hbody] at hpayload
        exact .inr ⟨hgathers.payload_eq_none_iff.mp hbody, hpayload⟩
    | some value =>
        have hholds : draft.Holds (.payload header.payload) := by
          rw [hpayload, hbody]
          exact hbody
        exact .inl (hgathers.hasOne hholds)
  · intro hmembers
    obtain ⟨draft, hfold⟩ := exists_foldl_absorb hvalues hmembers.allSpelled
    have hgathers := gathers_of_foldl hvalues hfold
    refine ⟨draft, hfold, finish_eq_ok_iff.mpr ⟨?_, ?_⟩⟩
    · intro item hitem
      exact hgathers.holds hvalues (hmembers.required item hitem)
    · rcases hmembers.payload with hone | ⟨habsent, hnull⟩
      · have hholds := @Draft.Gathers.holds _ (.payload header.payload) _ hgathers hvalues hone
        exact (congrArg (·.getD Json.null) hholds).symm
      · rw [hgathers.payload_eq_none_iff.mpr habsent, hnull]
        rfl

end HubLink.Message.Envelope
