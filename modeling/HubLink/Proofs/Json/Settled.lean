import HubLink.Json.TextRecord
import HubLink.Proofs.Json.Passed
import HubLink.Proofs.Json.TextRecord

/-!
# A value is read by itself

What comes of reading a grammatical value, or that it is refused, is settled by its own text: blanks
before it and whatever may stand behind it make no difference (`Settles`).  Which fault a refusal
reports does depend on the place, so the statements are about results without their faults.

For a value of any depth this is an induction on its derivation, which the reader follows within its
budget of brackets (`exists_settles_readValue`).  A reader that expects a text or a whole number
refuses every other value at its first byte.
-/

namespace HubLink.Json

open Text (byte)

variable {α : Type} {text rest : List UInt8} {fuel budget : Nat}

/-- Wherever the text stands as a value, the reader comes out with the same result behind it. -/
def Settles (reader : Reader α) (text : List UInt8) (result : Option α) : Prop :=
  ∀ {blanks rest}, IsBlanks blanks → Bounded rest →
    (reader (blanks ++ (text ++ rest))).toOption = result.map (·, rest)

theorem Settles.alone {reader : Reader α} {result : Option α}
    (hsettles : Settles reader text result) :
    (reader text).toOption = result.map (·, []) := by
  have hread := hsettles isBlanks_nil bounded_nil
  rw [List.append_nil] at hread
  exact hread

/-! ## Scalars -/

/-- A literal is read or refused by itself, whatever becomes of its text. -/
theorem exists_readScalar (hscalar : IsScalar text) :
    ∃ result : Option Json, ∀ {rest}, Bounded rest →
      (readScalar (text ++ rest)).toOption = result.map (·, rest) := by
  cases hscalar with
  | word hword =>
      rcases mem_words_iff.mp hword with rfl | rfl | rfl
      · exact ⟨some .null, fun _ => rfl⟩
      · exact ⟨some (.bool true), fun _ => rfl⟩
      · exact ⟨some (.bool false), fun _ => rfl⟩
  | numeral hnumeral =>
      obtain ⟨numeral, hread⟩ := exists_readNumeral hnumeral
      obtain ⟨b, more, rfl, hhead⟩ := hnumeral.exists_head
      have hother : ∀ other : UInt8, other ≠ byte '-' ∧ Text.isDigit other = false → b ≠ other :=
        fun other hnumeral => numeral_head_ne hhead hnumeral.1 hnumeral.2
      refine ⟨numeral.toJson.toOption, fun {rest} hrest => ?_⟩
      have hnumber := hread .truncated hrest
      rw [List.cons_append] at hnumber ⊢
      rw [readScalar, if_neg (hother (byte 'n') (by decide)),
        if_neg (hother (byte 't') (by decide)), if_neg (hother (byte 'f') (by decide)),
        if_pos hhead, readNumber, hnumber]
      cases hvalue : numeral.toJson <;> simp [bind, Except.bind, hvalue, Except.toOption]
  | @string content hcontent =>
      obtain ⟨result, hread⟩ := exists_readString hcontent
      refine ⟨result.map .string, fun {rest} _ => ?_⟩
      rw [List.cons_append, List.append_assoc, readScalar, if_neg (by decide), if_neg (by decide),
        if_neg (by decide), if_neg (by decide), if_pos rfl, toOption_bind, List.singleton_append,
        hread]
      cases result <;> rfl

/-! ## Values of any depth -/

theorem valueWithin_of_isScalar {blanks : List UInt8} (hblanks : IsBlanks blanks)
    (hscalar : IsScalar text) :
    valueWithin (fuel + 1) budget (blanks ++ (text ++ rest)) = readScalar (text ++ rest) := by
  obtain ⟨b, more, rfl, hblank, hsquare, hcurly, -⟩ := hscalar.exists_head
  rw [List.cons_append]
  simp only [valueWithin, skipBlanks_blanks hblanks hblank, if_neg hsquare, if_neg hcurly]

theorem valueWithin_array {blanks : List UInt8} (hblanks : IsBlanks blanks) :
    valueWithin (fuel + 1) (budget + 1) (blanks ++ byte '[' :: rest) =
      (itemsWithin fuel budget true rest).map fun found => (.array found.1, found.2) := by
  have hopening : isBlank (byte '[') = false := by decide
  simp only [valueWithin, skipBlanks_blanks hblanks hopening, if_true, bind, Except.bind]
  cases itemsWithin fuel budget true rest <;> rfl

theorem valueWithin_object {blanks : List UInt8} (hblanks : IsBlanks blanks) :
    valueWithin (fuel + 1) (budget + 1) (blanks ++ byte '\x7b' :: rest) =
      (membersWithin fuel budget true rest).map fun found => (ofMembers found.1, found.2) := by
  have hopening : isBlank (byte '\x7b') = false := by decide
  have hcurly : byte '\x7b' ≠ byte '[' := by decide
  simp only [valueWithin, skipBlanks_blanks hblanks hopening, if_neg hcurly, if_true, bind,
    Except.bind]
  cases membersWithin fuel budget true rest <;> rfl

/-- A bracket beyond the budget is refused, whatever is inside. -/
theorem valueWithin_beyond {blanks : List UInt8} (hblanks : IsBlanks blanks) {opening : UInt8}
    (hopening : opening = byte '[' ∨ opening = byte '\x7b') :
    valueWithin (fuel + 1) 0 (blanks ++ opening :: rest) = .error .malformed := by
  have hblank : isBlank opening = false := by
    rcases hopening with rfl | rfl <;> decide
  rw [valueWithin, skipBlanks_blanks hblanks hblank]
  rcases hopening with rfl | rfl <;> rfl

theorem itemsWithin_closed {first : Bool}
    (hclosed : nextEntry ']' first text = .ok (.closed rest)) :
    itemsWithin (fuel + 1) budget first text = .ok ([], rest) := by
  rw [itemsWithin, hclosed]
  rfl

theorem membersWithin_closed {first : Bool}
    (hclosed : nextEntry '\x7d' first text = .ok (.closed rest)) :
    membersWithin (fuel + 1) budget first text = .ok ([], rest) := by
  rw [membersWithin, hclosed]
  rfl

theorem itemsWithin_entry {first : Bool}
    (hentry : nextEntry ']' first text = .ok (.entry rest)) :
    itemsWithin (fuel + 1) budget first text =
      (valueWithin fuel budget rest) >>= fun item =>
        (itemsWithin fuel budget false item.2).map fun more => (item.1 :: more.1, more.2) := by
  rw [itemsWithin, hentry]
  simp only [bind, Except.bind]
  cases valueWithin fuel budget rest with
  | error fault => rfl
  | ok item =>
      dsimp only
      cases itemsWithin fuel budget false item.2 <;> rfl

theorem membersWithin_entry {first : Bool}
    (hentry : nextEntry '\x7d' first text = .ok (.entry rest)) :
    membersWithin (fuel + 1) budget first text =
      (readKey rest) >>= fun key => (valueWithin fuel budget key.2) >>= fun value =>
        (membersWithin fuel budget false value.2).map fun more =>
          ((key.1, value.1) :: more.1, more.2) := by
  rw [membersWithin, hentry]
  simp only [bind, Except.bind]
  cases readKey rest with
  | error fault => rfl
  | ok key =>
      dsimp only
      cases valueWithin fuel budget key.2 with
      | error fault => rfl
      | ok value =>
          dsimp only
          cases membersWithin fuel budget false value.2 <;> rfl

/-- A key with its colon is read or refused by itself. -/
theorem exists_readKey {content : List UInt8} (hcontent : IsContent content) :
    ∃ result : Option String, ∀ {blanks before rest}, IsBlanks blanks → IsBlanks before →
      (readKey (blanks ++ byte '"' :: (content ++ byte '"' ::
        (before ++ byte ':' :: rest)))).toOption = result.map (·, rest) := by
  obtain ⟨result, hread⟩ := exists_readString hcontent
  refine ⟨result, fun {blanks before rest} hblanks hbefore => ?_⟩
  have hquote := expectMark_blanks hblanks '"' (by decide)
    (content ++ byte '"' :: (before ++ byte ':' :: rest))
  have hcolon := expectMark_blanks hbefore ':' (by decide) rest
  rw [readKey, hquote]
  show ((readString _) >>= _).toOption = _
  rw [toOption_bind, hread]
  cases result with
  | none => rfl
  | some key =>
      simp only [Option.map_some, Option.bind_some, hcolon]
      rfl

/-- What a part of a text is read as, wherever it stands. -/
def SettledWithin : Part → List UInt8 → Prop
  | .value, text => ∀ budget, ∃ result : Option Json, ∀ {fuel blanks rest},
      2 * text.length ≤ fuel + 1 → IsBlanks blanks → Bounded rest →
        (valueWithin fuel budget (blanks ++ (text ++ rest))).toOption = result.map (·, rest)
  | .rest .square first, text => ∀ budget, ∃ result : Option (List Json), ∀ {fuel rest},
      2 * text.length ≤ fuel →
        (itemsWithin fuel budget first (text ++ rest)).toOption = result.map (·, rest)
  | .rest .curly first, text => ∀ budget, ∃ result : Option (List (String × Json)),
      ∀ {fuel rest}, 2 * text.length ≤ fuel →
        (membersWithin fuel budget first (text ++ rest)).toOption = result.map (·, rest)

theorem settledWithin_scalar (hscalar : IsScalar text) : SettledWithin .value text := by
  intro budget
  obtain ⟨result, hread⟩ := exists_readScalar hscalar
  obtain ⟨b, more, hhead, -⟩ := hscalar.exists_head
  refine ⟨result, fun {fuel blanks rest} hfuel hblanks hrest => ?_⟩
  have hone : 1 ≤ fuel := by
    rw [hhead, List.length_cons] at hfuel
    omega
  obtain ⟨fuel, rfl, -⟩ := exists_fuel 0 hone Nat.one_pos
  rw [valueWithin_of_isScalar hblanks hscalar, hread hrest]

/-- A bracket is settled if what is inside is, and refused beyond the budget. -/
theorem settledWithin_bracket {opening : UInt8} {inner : (fuel budget : Nat) → Reader α}
    {make : α → Json} (hopening : opening = byte '[' ∨ opening = byte '\x7b')
    (hvalue : ∀ {fuel budget blanks rest}, IsBlanks blanks →
      valueWithin (fuel + 1) (budget + 1) (blanks ++ opening :: rest) =
        (inner fuel budget rest).map fun found => (make found.1, found.2))
    (hinner : ∀ budget, ∃ result : Option α, ∀ {fuel rest}, 2 * text.length ≤ fuel →
      (inner fuel budget (text ++ rest)).toOption = result.map (·, rest)) :
    SettledWithin .value (opening :: text) := by
  intro budget
  cases budget with
  | zero =>
      refine ⟨none, fun {fuel blanks rest} hfuel hblanks _ => ?_⟩
      obtain ⟨fuel, rfl, -⟩ := exists_fuel (2 * text.length)
        (Nat.le_of_succ_le_succ hfuel) (by simp)
      rw [List.cons_append, valueWithin_beyond hblanks hopening]
      rfl
  | succ budget =>
      obtain ⟨result, hread⟩ := hinner budget
      refine ⟨result.map make, fun {fuel blanks rest} hfuel hblanks _ => ?_⟩
      obtain ⟨fuel, rfl, hleft⟩ := exists_fuel (2 * text.length)
        (Nat.le_of_succ_le_succ hfuel) (by simp)
      rw [List.cons_append, hvalue hblanks, toOption_map, hread hleft]
      cases result <;> rfl

theorem settledWithin_closed (bracket : Bracket) (first : Bool) {blanks : List UInt8}
    (hblanks : IsBlanks blanks) :
    SettledWithin (.rest bracket first) (blanks ++ [byte bracket.closing]) := by
  cases bracket with
  | square =>
      refine fun budget => ⟨some [], fun {fuel rest} hfuel => ?_⟩
      obtain ⟨fuel, rfl, -⟩ := exists_fuel 0 hfuel (by simp)
      rw [List.append_assoc, List.singleton_append,
        itemsWithin_closed (nextEntry_blanks_closing .square first hblanks rest)]
      rfl
  | curly =>
      refine fun budget => ⟨some [], fun {fuel rest} hfuel => ?_⟩
      obtain ⟨fuel, rfl, -⟩ := exists_fuel 0 hfuel (by simp)
      rw [List.append_assoc, List.singleton_append,
        membersWithin_closed (nextEntry_blanks_closing .curly first hblanks rest)]
      rfl

section Entries

variable {first : Bool} {lead value more : List UInt8} (hlead : IsLead first lead)
  (hvalue : IsValue value) (hsettled : SettledWithin .value value)

include hlead hvalue hsettled

theorem settledWithin_item (hmore : Grammatical (.rest .square false) more)
    (hsettledMore : SettledWithin (.rest .square false) more) :
    SettledWithin (.rest .square first) (lead ++ (value ++ more)) := by
  intro budget
  obtain ⟨item, hitem⟩ := hsettled budget
  obtain ⟨items, hitems⟩ := hsettledMore budget
  refine ⟨item.bind fun item => items.map (item :: ·), fun {fuel rest} hfuel => ?_⟩
  have hone := IsValue.length_pos hvalue
  simp only [List.length_append] at hfuel
  obtain ⟨fuel, rfl, hleft⟩ := exists_fuel (2 * (value.length + more.length) - 1) hfuel
    (by omega)
  obtain ⟨blanks, hblanks, hentry⟩ := exists_nextEntry_value hlead hvalue (more ++ rest)
  rw [List.append_assoc, List.append_assoc, itemsWithin_entry hentry, toOption_bind,
    hitem (by omega) hblanks (bounded_rest hmore)]
  cases item with
  | none => rfl
  | some item =>
      simp only [Option.map_some, Option.bind_some, toOption_map, @hitems fuel rest (by omega)]
      cases items <;> rfl

theorem settledWithin_member {content before behind : List UInt8} (hcontent : IsContent content)
    (hbefore : IsBlanks before) (hbehind : IsBlanks behind)
    (hmore : Grammatical (.rest .curly false) more)
    (hsettledMore : SettledWithin (.rest .curly false) more) :
    SettledWithin (.rest .curly first) (lead ++ byte '"' :: (content ++ byte '"' :: (before ++
      byte ':' :: (behind ++ (value ++ more))))) := by
  intro budget
  obtain ⟨key, hkey⟩ := exists_readKey hcontent
  obtain ⟨item, hitem⟩ := hsettled budget
  obtain ⟨members, hmembers⟩ := hsettledMore budget
  refine ⟨key.bind fun key => item.bind fun item => members.map ((key, item) :: ·),
    fun {fuel rest} hfuel => ?_⟩
  have hone := IsValue.length_pos hvalue
  simp only [List.length_append, List.length_cons] at hfuel
  obtain ⟨fuel, rfl, hleft⟩ := exists_fuel (2 * (value.length + more.length) - 1) hfuel
    (by omega)
  obtain ⟨blanks, hblanks, hentry⟩ := exists_nextEntry_key hlead (content ++ byte '"' ::
    (before ++ byte ':' :: (behind ++ (value ++ (more ++ rest)))))
  simp only [List.append_assoc, List.cons_append]
  rw [membersWithin_entry hentry, toOption_bind, hkey hblanks hbefore]
  cases key with
  | none => rfl
  | some key =>
      simp only [Option.map_some, Option.bind_some, toOption_bind,
        @hitem fuel _ _ (by omega) hbehind (bounded_rest hmore)]
      cases item with
      | none => rfl
      | some item =>
          simp only [Option.map_some, Option.bind_some, toOption_map,
            @hmembers fuel rest (by omega)]
          cases members <;> rfl

end Entries

/-- Every part of a grammatical text is settled, by induction on its derivation. -/
theorem Grammatical.settledWithin {part : Part} (htext : Grammatical part text) :
    SettledWithin part text := by
  induction htext with
  | scalar hscalar => exact settledWithin_scalar hscalar
  | array _ ih => exact settledWithin_bracket (.inl rfl) valueWithin_array ih
  | object _ ih => exact settledWithin_bracket (.inr rfl) valueWithin_object ih
  | closed bracket first hblanks => exact settledWithin_closed bracket first hblanks
  | item hlead hvalue hmore ihValue ihMore =>
      exact settledWithin_item hlead hvalue ihValue hmore ihMore
  | member hlead hcontent hbefore hbehind hvalue hmore ihValue ihMore =>
      exact settledWithin_member hlead hvalue ihValue hcontent hbefore hbehind hmore ihMore

/-! ## The readers of fields -/

/-- **A grammatical value is read or refused by itself**, within any budget. -/
theorem exists_settles_readValue (budget : Nat) (hvalue : IsValue text) :
    ∃ result, Settles (readValue budget) text result := by
  obtain ⟨result, hread⟩ := hvalue.settledWithin budget
  refine ⟨result, fun {blanks rest} hblanks hrest => hread ?_ hblanks hrest⟩
  simp only [List.length_append]
  omega

theorem wrongType_toOption (expected : String) :
    (wrongType (α := α) expected text).toOption = none := by
  apply Option.eq_none_iff_forall_ne_some.mpr
  intro result hresult
  exact wrongType_ne_ok _ _ _ (toOption_eq_some_iff.mp hresult)

/-- A value is a literal, a numeral, or starts with neither a quote nor what a numeral starts with. -/
theorem IsValue.literal_or_numeral_or (hvalue : IsValue text) :
    (∃ content, IsContent content ∧ text = byte '"' :: (content ++ [byte '"'])) ∨
      IsNumeral text ∨
      ∃ b more, text = b :: more ∧ isBlank b = false ∧ b ≠ byte '"' ∧
        ¬ (b = byte '-' ∨ Text.isDigit b = true) := by
  cases hvalue with
  | scalar hscalar =>
      cases hscalar with
      | word hword =>
          rcases mem_words_iff.mp hword with rfl | rfl | rfl
          · exact .inr (.inr ⟨byte 'n', _, rfl, by decide⟩)
          · exact .inr (.inr ⟨byte 't', _, rfl, by decide⟩)
          · exact .inr (.inr ⟨byte 'f', _, rfl, by decide⟩)
      | numeral hnumeral => exact .inr (.inl hnumeral)
      | string hcontent => exact .inl ⟨_, hcontent, rfl⟩
  | array => exact .inr (.inr ⟨byte '[', _, rfl, by decide⟩)
  | object => exact .inr (.inr ⟨byte '\x7b', _, rfl, by decide⟩)

/-- A text is read from a literal, and from no other value. -/
theorem exists_settles_readText (hvalue : IsValue text) : ∃ result, Settles readText text result := by
  have hother : ∀ {b more}, isBlank b = false → b ≠ byte '"' →
      Settles readText (b :: more) none := by
    intro b more hblank hquote blanks rest hblanks _
    rw [List.cons_append]
    simp only [readText, skipBlanks_blanks hblanks hblank, if_neg hquote, wrongType_toOption]
    rfl
  rcases hvalue.literal_or_numeral_or with ⟨content, hcontent, rfl⟩ | hnumeral | hhead
  · obtain ⟨result, hread⟩ := exists_readString hcontent
    refine ⟨result, fun {blanks rest} hblanks _ => ?_⟩
    have hquote : isBlank (byte '"') = false := by decide
    rw [List.cons_append, List.append_assoc, List.singleton_append]
    simp only [readText, skipBlanks_blanks hblanks hquote, if_true]
    exact hread
  · obtain ⟨b, more, rfl, hhead⟩ := hnumeral.exists_head
    have hquote : b ≠ byte '"' := numeral_head_ne hhead (by decide) (by decide)
    exact ⟨none, hother (isBlank_numeral_head hhead) hquote⟩
  · obtain ⟨b, more, rfl, hblank, hquote, -⟩ := hhead
    exact ⟨none, hother hblank hquote⟩

/-- A whole number is read from a numeral, and from no other value. -/
theorem exists_settles_readWholeAs (name : String) (shape : Shape α) (hvalue : IsValue text) :
    ∃ result, Settles (readWholeAs name shape) text result := by
  have hother : ∀ {b more}, isBlank b = false → ¬ (b = byte '-' ∨ Text.isDigit b = true) →
      Settles (readWholeAs name shape) (b :: more) none := by
    intro b more hblank hhead blanks rest hblanks _
    rw [readWholeAs, toOption_bind, List.cons_append]
    simp only [readNumeralAs, skipBlanks_blanks hblanks hblank, if_neg hhead, wrongType_toOption]
    rfl
  rcases hvalue.literal_or_numeral_or with ⟨content, _, rfl⟩ | hnumeral | hhead
  · exact ⟨none, hother (by decide) (by decide)⟩
  · obtain ⟨numeral, hread⟩ := exists_readNumeral hnumeral
    obtain ⟨b, more, rfl, hhead⟩ := hnumeral.exists_head
    have hblank := isBlank_numeral_head hhead
    refine ⟨numeral.toJson.toOption.bind fun value => (shape value).toOption,
      fun {blanks rest} hblanks hrest => ?_⟩
    have hnumber := hread .truncated hrest
    rw [List.cons_append] at hnumber ⊢
    rw [readWholeAs, toOption_bind]
    simp only [readNumeralAs, skipBlanks_blanks hblanks hblank, if_pos hhead, hnumber]
    cases hjson : numeral.toJson with
    | error fault => simp [bind, Except.bind, Except.toOption, hjson]
    | ok value =>
        cases hshape : shape value <;> simp [bind, Except.bind, Except.toOption, hjson, hshape]
  · obtain ⟨b, more, rfl, hblank, -, hhead⟩ := hhead
    exact ⟨none, hother hblank hhead⟩

end HubLink.Json
