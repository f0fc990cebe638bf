import HubLink.Proofs.Json.Settled

/-!
# Objects by their members

An object's text is known by its members, each a key and the text of a value; blanks and the spelling
of the keys are free (`ObjectText`).  A record is read from such a text member by member: a member
with an unknown key changes nothing, a known one fills its field or has the record refused
(`absorb`).  So what comes of reading is a fold over the members (`readMembers_members`), and the
text matters no further.
-/

namespace HubLink.Json

open Text (byte)

/-- What is left of an object with the given members, its closing mark included. -/
inductive MembersText : (first : Bool) → List (String × List UInt8) → List UInt8 → Prop
  | closed (first : Bool) {blanks : List UInt8} (hblanks : IsBlanks blanks) :
      MembersText first [] (blanks ++ [byte '\x7d'])
  | member {first : Bool} {key : String} {lead content before behind value more : List UInt8}
      {members : List (String × List UInt8)} (hlead : IsLead first lead)
      (hkey : Denotes content (Text.bytes key)) (hbefore : IsBlanks before)
      (hbehind : IsBlanks behind) (hvalue : IsValue value)
      (hmore : MembersText false members more) :
      MembersText first ((key, value) :: members) (lead ++ byte '"' :: (content ++ byte '"' ::
        (before ++ byte ':' :: (behind ++ (value ++ more)))))

/-- The text of an object with the given members, with blanks around it. -/
inductive ObjectText (members : List (String × List UInt8)) : List UInt8 → Prop
  | mk {before inside behind : List UInt8} (hbefore : IsBlanks before)
      (hinside : MembersText true members inside) (hbehind : IsBlanks behind) :
      ObjectText members (before ++ byte '\x7b' :: (inside ++ behind))

variable {members : List (String × List UInt8)} {first : Bool} {text rest : List UInt8}

theorem Denotes.isContent {content bytes : List UInt8} (hdenotes : Denotes content bytes) :
    IsContent content := by
  induction hdenotes with
  | nil => exact .nil
  | plain hplain _ ih => exact .plain hplain ih
  | short hletter _ ih => exact .short hletter ih
  | unicode hdigits _ _ ih => exact .unicode hdigits ih
  | pair hdigits _ hdigits' _ _ ih => exact .unicode hdigits (.unicode hdigits' ih)

theorem MembersText.isValue (hmembers : MembersText first members text) :
    ∀ m ∈ members, IsValue m.2 := by
  induction hmembers with
  | closed => exact List.forall_mem_nil _
  | member _ _ _ _ hvalue _ ih => exact List.forall_mem_cons.mpr ⟨hvalue, ih⟩

theorem ObjectText.isValue (htext : ObjectText members text) : ∀ m ∈ members, IsValue m.2 := by
  cases htext with
  | mk _ hinside _ => exact hinside.isValue

/-- An object that is known by its members is grammatical. -/
theorem MembersText.grammatical (hmembers : MembersText first members text) :
    Grammatical (.rest .curly first) text := by
  induction hmembers with
  | closed first hblanks => exact .closed .curly first hblanks
  | member hlead hkey hbefore hbehind hvalue _ ih =>
      exact .member hlead hkey.isContent hbefore hbehind hvalue ih

namespace TextRecord

variable {σ : Type} {fields : List (TextField σ)} {budget : Nat}

/-- What is left of a state when a member is taken in: a member with an unknown key changes nothing,
a known one fills its field, and without a state there is none. -/
def absorb (fields : List (TextField σ)) (budget : Nat) (state? : Option σ)
    (m : String × List UInt8) : Option σ :=
  state?.bind fun state =>
    match fields.find? (·.name == m.1) with
    | none => some state
    | some field =>
      if field.filled state then none else (field.read budget state m.2).toOption.map Prod.fst

theorem foldl_absorb_none (members : List (String × List UInt8)) :
    members.foldl (absorb fields budget) none = none := by
  induction members with
  | nil => rfl
  | cons m more ih => exact ih

theorem absorb_unknown {m : String × List UInt8} (hunknown : ∀ field ∈ fields, field.name ≠ m.1)
    (state? : Option σ) : absorb fields budget state? m = state? := by
  have hfield : fields.find? (·.name == m.1) = none := by
    rw [List.find?_eq_none]
    intro field hfield hname
    exact hunknown field hfield (beq_iff_eq.mp hname)
  rw [absorb, hfield]
  cases state? <;> rfl

/-- Every field reads a value by itself, or refuses it by itself. -/
def FieldsSettled (fields : List (TextField σ)) (budget : Nat) : Prop :=
  ∀ field ∈ fields, ∀ state {text}, IsValue text →
    ∃ result, Settles (field.read budget state) text result

/-- A member is met behind its lead; its key decides what is done with the value behind the colon. -/
theorem readMembers_key {fuel : Nat} {state : σ} {key : String}
    {lead content before tail : List UInt8} (hlead : IsLead first lead)
    (hkey : Denotes content (Text.bytes key)) (hbefore : IsBlanks before) :
    readMembers fields budget (fuel + 1) first state
        (lead ++ byte '"' :: (content ++ byte '"' :: (before ++ byte ':' :: tail))) =
      match fields.find? (·.name == key) with
      | none => skipValue tail >>= fun rest => readMembers fields budget fuel false state rest
      | some field =>
        if field.filled state then .error (.mismatch (.duplicateField key))
        else
          field.read budget state tail >>= fun found =>
            readMembers fields budget fuel false found.1 found.2 := by
  obtain ⟨blanks, hblanks, hentry⟩ := exists_nextEntry_key hlead
    (content ++ byte '"' :: (before ++ byte ':' :: tail))
  have hquote := expectMark_blanks hblanks '"' (by decide)
    (content ++ byte '"' :: (before ++ byte ':' :: tail))
  have hcolon := expectMark_blanks hbefore ':' (by decide) tail
  rw [readMembers, hentry]
  cases hfield : fields.find? (·.name == key) <;>
    simp only [bind, Except.bind, hquote, readString_denotes hkey, hcolon, hfield]

/-- **A record is read from a text member by member**, and only its members matter. -/
theorem readMembers_members (hsettled : FieldsSettled fields budget)
    (hmembers : MembersText first members text) {fuel : Nat} (hfuel : text.length ≤ fuel)
    (state : σ) :
    (readMembers fields budget fuel first state (text ++ rest)).toOption =
      (members.foldl (absorb fields budget) (some state)).map (·, rest) := by
  induction hmembers generalizing fuel state with
  | closed first hblanks =>
      obtain ⟨fuel, rfl, -⟩ := exists_fuel 0 hfuel (by simp)
      have hclosed := nextEntry_blanks_closing .curly first hblanks rest
      rw [Bracket.closing] at hclosed
      rw [List.append_assoc, List.singleton_append, readMembers, hclosed]
      rfl
  | @member first key lead content before behind value more members hlead hkey hbefore hbehind
      hvalue hmore ih =>
      obtain ⟨fuel, rfl, hleft⟩ := exists_fuel more.length hfuel (by grind)
      have hbounded : Bounded (more ++ rest) := bounded_rest hmore.grammatical
      simp only [List.append_assoc, List.cons_append]
      rw [readMembers_key hlead hkey hbefore, List.foldl_cons, absorb, Option.bind_some]
      cases hfield : fields.find? (·.name == key) with
      | none =>
          simp only [skipValue_of_isValue hvalue hbehind hbounded]
          exact ih hleft state
      | some field =>
          dsimp only
          by_cases hfilled : field.filled state = true
          · rw [if_pos hfilled, if_pos hfilled, foldl_absorb_none]
            rfl
          · obtain ⟨result, hread⟩ :=
              hsettled field (List.mem_of_find?_eq_some hfield) state hvalue
            rw [if_neg hfilled, if_neg hfilled, toOption_bind, hread hbehind hbounded, hread.alone]
            cases result with
            | none =>
                simp only [Option.map_none, foldl_absorb_none]
                rfl
            | some next => exact ih hleft next

/-- What comes of reading a record from an object's text, with a bracket left for the object. -/
theorem read_objectText (hsettled : FieldsSettled fields budget) (htext : ObjectText members text)
    (name : String) (start : σ) :
    ∃ behind, IsBlanks behind ∧ (read name fields start (budget + 1) text).toOption =
      (members.foldl (absorb fields budget) (some start)).map (·, behind) := by
  cases htext with
  | @mk before inside behind hbefore hinside hbehind =>
      have hopening : isBlank (byte '\x7b') = false := by decide
      refine ⟨behind, hbehind, ?_⟩
      simp only [read, skipBlanks_blanks hbefore hopening, if_true]
      apply readMembers_members hsettled hinside
      rw [List.length_append]
      omega

end TextRecord

end HubLink.Json
