import HubLink.Proofs.Json.Derived

/-!
# Arrays by their items

A record may stand as an array of its fields in order.  Such a text is known by its items
(`ArrayText`), and a record is read from it item by item, each by the field at its place; from where
the items end on, only fields that may be absent are left (`fill`).  Besides objects and arrays there
is nothing that a record is read from (`read_taken`).
-/

namespace HubLink.Json

open Text (byte)

/-- What is left of an array with the given items, its closing mark included. -/
inductive ItemsText : (first : Bool) → List (List UInt8) → List UInt8 → Prop
  | closed (first : Bool) {blanks : List UInt8} (hblanks : IsBlanks blanks) :
      ItemsText first [] (blanks ++ [byte ']'])
  | item {first : Bool} {lead value more : List UInt8} {items : List (List UInt8)}
      (hlead : IsLead first lead) (hvalue : IsValue value) (hmore : ItemsText false items more) :
      ItemsText first (value :: items) (lead ++ (value ++ more))

/-- The text of an array with the given items, with blanks around it. -/
inductive ArrayText (items : List (List UInt8)) : List UInt8 → Prop
  | mk {before inside behind : List UInt8} (hbefore : IsBlanks before)
      (hinside : ItemsText true items inside) (hbehind : IsBlanks behind) :
      ArrayText items (before ++ byte '[' :: (inside ++ behind))

variable {items : List (List UInt8)} {first : Bool} {text rest : List UInt8}

theorem ItemsText.isValue (hitems : ItemsText first items text) : ∀ item ∈ items, IsValue item := by
  induction hitems with
  | closed => exact List.forall_mem_nil _
  | item _ hvalue _ ih => exact List.forall_mem_cons.mpr ⟨hvalue, ih⟩

theorem ArrayText.isValue (htext : ArrayText items text) : ∀ item ∈ items, IsValue item := by
  cases htext with
  | mk _ hinside _ => exact hinside.isValue

/-- An array that is known by its items is grammatical. -/
theorem ItemsText.grammatical (hitems : ItemsText first items text) :
    Grammatical (.rest .square first) text := by
  induction hitems with
  | closed first hblanks => exact .closed .square first hblanks
  | item hlead hvalue _ ih => exact .item hlead hvalue ih

theorem IsEntry.itemsText {lead entry more : List UInt8} (hentry : IsEntry entry)
    (hlead : IsLead first lead) (hmore : ItemsText false items more) :
    ∃ value, ItemsText first (value :: items) (lead ++ (entry ++ more)) := by
  obtain ⟨blanks, value, hblanks, hvalue, rfl⟩ := hentry
  have hitem := ItemsText.item (hlead.append_blanks hblanks) hvalue hmore
  refine ⟨value, ?_⟩
  simpa only [List.append_assoc] using hitem

/-- Where an item stands, an array does not end. -/
theorem expectMark_square_item {lead value : List UInt8} (hlead : IsLead first lead)
    (hvalue : IsValue value) : (expectMark ']' (lead ++ (value ++ rest))).toOption = none := by
  obtain ⟨b, more, rfl, hblank, hclosing, -⟩ := hvalue.exists_head
  cases hlead with
  | first hblanks =>
      simp only [expectMark, List.cons_append, skipBlanks_blanks hblanks hblank, if_neg hclosing]
      rfl
  | next hbefore _ =>
      have hcomma : isBlank (byte ',') = false := by decide
      have hother : byte ',' ≠ byte ']' := by decide
      rw [List.append_assoc, List.cons_append]
      simp only [expectMark, skipBlanks_blanks hbefore hcomma, if_neg hother]
      rfl

namespace TextRecord

variable {σ : Type} {fields : List (TextField σ)} {budget position : Nat}

/-- The state that items leave, each read by the field at its place; none if there are more items
than fields, or fewer than must be there. -/
def fill (budget : Nat) : List (TextField σ) → List (List UInt8) → σ → Option σ
  | [], [], state => some state
  | [], _ :: _, _ => none
  | field :: fields, [], state => if (field :: fields).all (·.optional) then some state else none
  | field :: fields, item :: items, state =>
    (field.read budget state item).toOption.bind fun found => fill budget fields items found.1

/-- What no item is left for may be absent. -/
theorem all_optional_of_fill {state final : σ}
    (hfill : fill budget fields items state = some final) :
    (fields.drop items.length).all (·.optional) = true := by
  induction fields generalizing items state with
  | nil => rw [List.drop_nil, List.all_nil]
  | cons field fields ih =>
      cases items with
      | nil =>
          rw [fill] at hfill
          split at hfill
          · assumption
          · cases hfill
      | cons item items =>
          obtain ⟨found, _, hmore⟩ := Option.bind_eq_some_iff.mp hfill
          exact ih hmore

theorem readItems_closed {name : String} {size : Nat} {state : σ} {field : TextField σ}
    {blanks : List UInt8} (hblanks : IsBlanks blanks) :
    (readItems name size budget (field :: fields) position state
        (blanks ++ byte ']' :: rest)).toOption =
      if (field :: fields).all (·.optional) then some (state, rest) else none := by
  have hclosed := nextEntry_blanks_closing .square (position == 0) hblanks rest
  rw [Bracket.closing] at hclosed
  rw [readItems, hclosed]
  cases hmissing : (field :: fields).findIdx? fun field => !field.optional with
  | none =>
      have hall : (field :: fields).all (·.optional) = true := by
        rw [List.findIdx?_eq_none_iff] at hmissing
        simpa [List.all_eq_true] using hmissing
      simp only [bind, Except.bind, if_pos hall]
      rfl
  | some ahead =>
      have hnot : ¬ (field :: fields).all (·.optional) = true := by
        intro hall
        rw [List.findIdx?_eq_none_iff.mpr] at hmissing
        · cases hmissing
        · intro other hother
          rw [List.all_eq_true.mp hall other hother]
          rfl
      simp only [bind, Except.bind, if_neg hnot]
      rfl

/-- **A record is read from an array item by item**, and only its items matter. -/
theorem readItems_items (hsettled : FieldsSettled fields budget)
    (hitems : ItemsText first items text) (hfirst : first = (position == 0)) {name : String}
    {size : Nat} (state : σ) :
    (readItems name size budget fields position state (text ++ rest)).toOption =
      (fill budget fields items state).map (·, rest) := by
  induction hitems generalizing fields position state with
  | closed first hblanks =>
      rw [List.append_assoc, List.singleton_append]
      cases fields with
      | nil =>
          have hmark := expectMark_blanks hblanks ']' (by decide) rest
          rw [readItems, hmark]
          rfl
      | cons field fields =>
          rw [readItems_closed hblanks, fill]
          split <;> rfl
  | @item first lead value more items hlead hvalue hmore ih =>
      obtain ⟨blanks, hblanks, hentry⟩ := exists_nextEntry_value hlead hvalue (more ++ rest)
      rw [List.append_assoc, List.append_assoc]
      cases fields with
      | nil =>
          have hmark := @expectMark_square_item _ (more ++ rest) _ _ hlead hvalue
          rw [readItems, toOption_bind, hmark]
          rfl
      | cons field fields =>
          obtain ⟨result, hread⟩ := hsettled field List.mem_cons_self state hvalue
          have hbounded : Bounded (more ++ rest) := bounded_rest hmore.grammatical
          have hmoreSettled : FieldsSettled fields budget := fun field hfield =>
            hsettled field (List.mem_cons_of_mem _ hfield)
          rw [hfirst] at hentry
          rw [readItems, hentry, fill]
          change (field.read budget state _ >>= _).toOption = _
          rw [toOption_bind, hread hblanks hbounded, hread.alone]
          cases result with
          | none => rfl
          | some next => exact ih hmoreSettled rfl next

theorem readItems_taken (hfields : FieldsTaken fields budget) (name : String) (size : Nat)
    (state : σ) : Takes (readItems name size budget fields position state) fun _ part =>
      ∃ items, ItemsText (position == 0) items part := by
  induction fields generalizing position state with
  | nil =>
      intro text value rest hread
      obtain ⟨behind, hmark, hnext⟩ := bind_eq_ok.mp hread
      cases hnext
      obtain ⟨blanks, hblanks, rfl⟩ := expectMark_taken hmark
      refine ⟨blanks ++ [byte ']'], ?_, [], .closed _ hblanks⟩
      rw [List.append_assoc, List.singleton_append]
  | cons field fields ih =>
      intro text value rest hread
      rw [readItems] at hread
      obtain ⟨next, hfound, hnext⟩ := bind_eq_ok.mp hread
      cases next with
      | closed behind =>
          obtain ⟨blanks, hblanks, rfl⟩ := nextEntry_closed_taken hfound
          dsimp only at hnext
          split at hnext
          · cases hnext
          · cases hnext
            refine ⟨blanks ++ [byte ']'], ?_, [], .closed _ hblanks⟩
            rw [List.append_assoc, List.singleton_append]
      | entry behind =>
          obtain ⟨⟨state', left⟩, hitem, hothers⟩ := bind_eq_ok.mp hnext
          obtain ⟨lead, hlead, rfl⟩ := nextEntry_entry_taken hfound
          obtain ⟨entry, rfl, hentry⟩ := hfields field List.mem_cons_self state hitem
          have hmoreTaken : FieldsTaken fields budget := fun field hfield =>
            hfields field (List.mem_cons_of_mem _ hfield)
          obtain ⟨more, rfl, items, hitems⟩ := ih hmoreTaken state' hothers
          obtain ⟨found, htext⟩ := hentry.itemsText hlead hitems
          refine ⟨_, ?_, _, htext⟩
          simp only [List.append_assoc]

/-- What comes of reading a record from an array's text, with a bracket left for the array. -/
theorem read_arrayText (hsettled : FieldsSettled fields budget) (htext : ArrayText items text)
    (name : String) (start : σ) :
    ∃ behind, IsBlanks behind ∧ (read name fields start (budget + 1) text).toOption =
      (fill budget fields items start).map (·, behind) := by
  cases htext with
  | @mk before inside behind hbefore hinside hbehind =>
      have hopening : isBlank (byte '[') = false := by decide
      have hcurly : byte '[' ≠ byte '\x7b' := by decide
      refine ⟨behind, hbehind, ?_⟩
      simp only [read, skipBlanks_blanks hbefore hopening, if_neg hcurly, if_true]
      exact readItems_items hsettled hinside rfl start

/-- **A text from which a record is read is that of an object, or that of an array.** -/
theorem read_taken {name : String} {start state : σ} (hfields : FieldsTaken fields budget)
    (hread : read name fields start (budget + 1) text = .ok (state, rest)) :
    ∃ before inside, IsBlanks before ∧
      ((∃ members, MembersText true members inside ∧
        text = before ++ byte '\x7b' :: (inside ++ rest)) ∨
      ∃ items, ItemsText true items inside ∧ text = before ++ byte '[' :: (inside ++ rest)) := by
  rw [read] at hread
  split at hread
  · cases hread
  next b behind hskip =>
    obtain ⟨before, hbefore, rfl⟩ := exists_of_skipBlanks hskip
    split at hread
    next hopening =>
      obtain ⟨inside, rfl, members, hmembers⟩ := readMembers_taken hfields _ true start hread
      subst hopening
      exact ⟨before, inside, hbefore, .inl ⟨members, hmembers, rfl⟩⟩
    split at hread
    next hopening =>
      obtain ⟨inside, rfl, items, hitems⟩ := readItems_taken hfields _ _ start hread
      subst hopening
      exact ⟨before, inside, hbefore, .inr ⟨items, hitems, rfl⟩⟩
    · exact absurd hread (wrongType_ne_ok _ _ _)

end TextRecord

end HubLink.Json
