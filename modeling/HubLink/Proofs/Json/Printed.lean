import HubLink.Proofs.Json.Literal
import HubLink.Proofs.Json.Member
import HubLink.Proofs.Json.PrintedNumber

/-!
# Printed values are read back

The compact form of a well formed value is read back as that value, if its brackets nest no deeper
than the reader's budget, and is refused otherwise.  The reader goes down into the value as the
printer did, so the proof is an induction on the value: an entry is found where the printer put it,
its value is read or refused by induction, and the delimiter behind it stops every numeral.
-/

namespace HubLink.Json

open Text (byte ascii)

variable {fuel budget : Nat} {b : UInt8} {text rest : List UInt8}

/-! ## Where values and entries start -/

theorem skipBlanks_cons (hblank : isBlank b = false) : skipBlanks (b :: text) = b :: text :=
  List.dropWhile_cons_of_neg (by rw [hblank]; exact Bool.false_ne_true)

theorem valueWithin_scalar (hblank : isBlank b = false) (hsquare : b ≠ byte '[')
    (hcurly : b ≠ byte '\x7b') :
    valueWithin (fuel + 1) budget (b :: text) = readScalar (b :: text) := by
  simp only [valueWithin, skipBlanks_cons hblank, if_neg hsquare, if_neg hcurly]

theorem nextEntry_closed {closing : Char} (hblank : isBlank (byte closing) = false)
    (first : Bool) : nextEntry closing first (byte closing :: rest) = .ok (.closed rest) := by
  simp only [nextEntry, skipBlanks_cons hblank, if_true]

theorem nextEntry_entry {closing : Char} (hclosing : byte ',' ≠ byte closing) (first : Bool)
    (hblank : isBlank b = false) (hstart : b ≠ byte closing) :
    nextEntry closing first ((if first then [] else [byte ',']) ++ b :: text) =
      .ok (.entry (b :: text)) := by
  cases first with
  | true =>
      rw [if_pos rfl, List.nil_append]
      simp only [nextEntry, skipBlanks_cons hblank, if_neg hstart, if_true]
  | false =>
      have hcomma : isBlank (byte ',') = false := by decide
      simp only [Bool.false_eq_true, if_false, List.singleton_append, nextEntry,
        skipBlanks_cons hcomma, if_neg hclosing, if_true]

/-! ## Scalars -/

theorem exists_head_spell {numeral : Numeral} (hspelled : numeral.WellSpelled) :
    ∃ b text, numeral.spell = b :: text ∧ (b = byte '-' ∨ Text.isDigit b = true) := by
  unfold Numeral.spell
  cases numeral.negative with
  | true => exact ⟨byte '-', _, rfl, .inl rfl⟩
  | false =>
      obtain ⟨d, more, hwhole⟩ := List.exists_cons_of_ne_nil hspelled.whole_run.1
      rw [hwhole]
      exact ⟨d, _, rfl, .inr (hspelled.whole_run.2 d (hwhole ▸ List.mem_cons_self))⟩

/-- What a numeral starts with starts nothing else. -/
theorem numeral_head_ne (hhead : b = byte '-' ∨ Text.isDigit b = true) {other : UInt8}
    (hminus : other ≠ byte '-') (hdigit : Text.isDigit other = false) : b ≠ other := by
  rintro rfl
  rcases hhead with rfl | hhead
  · exact hminus rfl
  · rw [hdigit] at hhead
    cases hhead

theorem isBlank_numeral_head (hhead : b = byte '-' ∨ Text.isDigit b = true) :
    isBlank b = false := by
  have hne : ∀ other : UInt8, other ≠ byte '-' → Text.isDigit other = false →
      (b == other) = false :=
    fun other hminus hdigit => beq_false_of_ne (numeral_head_ne hhead hminus hdigit)
  rw [isBlank, hne 32 (by decide) (by decide), hne 9 (by decide) (by decide),
    hne 10 (by decide) (by decide), hne 13 (by decide) (by decide)]
  rfl

theorem valueWithin_numeral {numeral : Numeral} {value : Json} (hspelled : numeral.WellSpelled)
    (hvalue : numeral.toJson = .ok value) (hrest : Delimited rest) :
    valueWithin (fuel + 1) budget (numeral.spell ++ rest) = .ok (value, rest) := by
  obtain ⟨b, text, hspell, hhead⟩ := exists_head_spell hspelled
  have hread : readNumber (numeral.spell ++ rest) = .ok (value, rest) := by
    simp only [readNumber, readNumeral_spell hspelled hrest, hvalue, bind, Except.bind]
  rw [hspell, List.cons_append] at hread ⊢
  have hother : ∀ other : UInt8, other ≠ byte '-' ∧ Text.isDigit other = false → b ≠ other :=
    fun other hnumeral => numeral_head_ne hhead hnumeral.1 hnumeral.2
  rw [valueWithin_scalar (isBlank_numeral_head hhead) (hother _ (by decide)) (hother _ (by decide)),
    readScalar, if_neg (hother (byte 'n') (by decide)), if_neg (hother (byte 't') (by decide)),
    if_neg (hother (byte 'f') (by decide)), if_pos hhead, hread]

theorem valueWithin_integer {n : Int} (hwhole : IsWhole n) (hrest : Delimited rest) :
    valueWithin (fuel + 1) budget (Text.decimalInt n ++ rest) = .ok (.integer n, rest) := by
  rw [← spell_ofInt]
  exact valueWithin_numeral (wellSpelled_ofInt n) (toJson_ofInt hwhole) hrest

theorem valueWithin_real {number : Double} (hfinite : number.isFinite = true)
    (hrest : Delimited rest) :
    valueWithin (fuel + 1) budget (numberText number ++ rest) = .ok (.real number, rest) := by
  obtain ⟨numeral, htext, hspelled, hvalue⟩ := exists_numeral_double hfinite
  rw [numberText, if_pos hfinite, htext]
  exact valueWithin_numeral hspelled hvalue hrest

theorem valueWithin_literal (value : String) (rest : List UInt8) :
    valueWithin (fuel + 1) budget (literal value ++ rest) = .ok (.string value, rest) := by
  rw [literal_append, valueWithin_scalar (by decide) (by decide) (by decide), readScalar,
    if_neg (by decide), if_neg (by decide), if_neg (by decide), if_neg (by decide), if_pos rfl,
    readString_literal]
  rfl

theorem readKey_literal (key : String) (rest : List UInt8) :
    readKey (literal key ++ byte ':' :: rest) = .ok (key, rest) := by
  have hquote : isBlank (byte '"') = false := by decide
  have hcolon : isBlank (byte ':') = false := by decide
  rw [literal_append]
  simp only [readKey, expectMark, skipBlanks_cons hquote, if_true, bind, Except.bind,
    readString_literal, skipBlanks_cons hcolon]

/-! ## Arrays and objects -/

theorem exists_head_print {value : Json} (hvalue : WellFormed value) :
    ∃ b text, print value = b :: text ∧ isBlank b = false ∧ b ≠ byte ']' := by
  have hnumeral : ∀ {numeral : Numeral}, numeral.WellSpelled →
      ∃ b text, numeral.spell = b :: text ∧ isBlank b = false ∧ b ≠ byte ']' := by
    intro numeral hspelled
    obtain ⟨b, text, hspell, hhead⟩ := exists_head_spell hspelled
    exact ⟨b, text, hspell, isBlank_numeral_head hhead,
      numeral_head_ne hhead (by decide) (by decide)⟩
  cases value with
  | null => exact ⟨byte 'n', _, rfl, by decide, by decide⟩
  | bool value => cases value <;> exact ⟨_, _, rfl, by decide, by decide⟩
  | integer n =>
      rw [show print (.integer n) = (Numeral.ofInt n).spell from (spell_ofInt n).symm]
      exact hnumeral (wellSpelled_ofInt n)
  | real number =>
      obtain ⟨numeral, htext, hspelled, _⟩ := exists_numeral_double hvalue
      have hfinite : number.isFinite = true := hvalue
      rw [show print (.real number) = numberText number from rfl, numberText, if_pos hfinite, htext]
      exact hnumeral hspelled
  | string value => exact ⟨byte '"', _, rfl, by decide, by decide⟩
  | array items => exact ⟨byte '[', _, rfl, by decide, by decide⟩
  | object members => exact ⟨byte '\x7b', _, rfl, by decide, by decide⟩

theorem delimited_items (items : List Json) :
    Delimited (printItems false items ++ byte ']' :: rest) := by
  cases items with
  | nil => exact delimited_square rest
  | cons item more => exact delimited_comma _

theorem delimited_members (members : List (String × Json)) :
    Delimited (printMembers false members ++ byte '\x7d' :: rest) := by
  cases members with
  | nil => exact delimited_curly rest
  | cons m more => exact delimited_comma _

/-- Printed members are put into an object one by one; the bracket takes one from the budget. -/
theorem valueWithin_members {members : List (String × Json)}
    (hmembers : ∀ budget,
      membersWithin fuel budget true (printMembers true members ++ byte '\x7d' :: rest) =
        if depthMembers members ≤ budget then .ok (members, rest) else .error .malformed) :
    valueWithin (fuel + 1) budget (print (.object members) ++ rest) =
      if depthMembers members < budget then .ok (ofMembers members, rest)
      else .error .malformed := by
  have hopening : isBlank (byte '\x7b') = false := by decide
  have hsquare : byte '\x7b' ≠ byte '[' := by decide
  rw [print, List.append_assoc, List.cons_append, List.singleton_append]
  cases budget with
  | zero => simp only [valueWithin, skipBlanks_cons hopening, if_neg hsquare, if_true,
      Nat.not_lt_zero, if_false]
  | succ budget =>
      simp only [valueWithin, skipBlanks_cons hopening, if_neg hsquare, if_true, hmembers,
        Nat.lt_succ_iff]
      split <;> rfl

mutual

/-- **A printed value is read back, or refused for its nesting alone.** -/
theorem valueWithin_print (value : Json) (hvalue : WellFormed value) {fuel budget : Nat}
    {rest : List UInt8} (hrest : Delimited rest) (hfuel : 2 * (print value).length < fuel) :
    valueWithin fuel budget (print value ++ rest) =
      if depth value ≤ budget then .ok (value, rest) else .error .malformed := by
  obtain ⟨fuel, rfl⟩ := Nat.exists_eq_succ_of_ne_zero (Nat.ne_zero_of_lt hfuel)
  match value with
  | .null => rfl
  | .bool true => rfl
  | .bool false => rfl
  | .integer n => exact valueWithin_integer hvalue hrest
  | .real number => exact valueWithin_real hvalue hrest
  | .string text => exact valueWithin_literal text rest
  | .array items =>
      have hopening : isBlank (byte '[') = false := by decide
      rw [print, List.length_append, List.length_cons, List.length_singleton] at hfuel
      rw [print, List.append_assoc, List.cons_append, List.singleton_append, valueWithin,
        skipBlanks_cons hopening]
      -- the bracket takes one from the budget, as it adds one to the depth
      cases budget with
      | zero => rfl
      | succ budget =>
          show (do
            let (items, rest) ←
              itemsWithin fuel budget true (printItems true items ++ byte ']' :: rest)
            .ok (Json.array items, rest)) = _
          rw [itemsWithin_print items hvalue true (by omega)]
          have hnested : depth (.array items) ≤ budget + 1 ↔ depthItems items ≤ budget :=
            Nat.add_le_add_iff_right
          by_cases hdepth : depthItems items ≤ budget
          · rw [if_pos hdepth, if_pos (hnested.mpr hdepth)]
            rfl
          · rw [if_neg hdepth, if_neg fun hle => hdepth (hnested.mp hle)]
            rfl
  | .object members =>
      rw [print, List.length_append, List.length_cons, List.length_singleton] at hfuel
      -- the members were printed in the order in which the reader puts them into place
      rw [valueWithin_members fun budget => membersWithin_print members hvalue.2 true (by omega),
        ofMembers_ascending hvalue.1]
      rfl

theorem itemsWithin_print (items : List Json) (hitems : WellFormedItems items) (first : Bool)
    {fuel budget : Nat} {rest : List UInt8}
    (hfuel : 2 * (printItems first items).length + 1 < fuel) :
    itemsWithin fuel budget first (printItems first items ++ byte ']' :: rest) =
      if depthItems items ≤ budget then .ok (items, rest) else .error .malformed := by
  obtain ⟨fuel, rfl⟩ := Nat.exists_eq_succ_of_ne_zero (Nat.ne_zero_of_lt hfuel)
  match items with
  | [] =>
      have hclosed := @nextEntry_closed rest ']' (by decide) first
      rw [printItems, List.nil_append, itemsWithin, hclosed, depthItems, if_pos (Nat.zero_le _)]
      rfl
  | item :: more =>
      obtain ⟨hitem, hmore⟩ := hitems
      obtain ⟨b, text, hprint, hblank, hstart⟩ := exists_head_print hitem
      have hentry := @nextEntry_entry b (text ++ (printItems false more ++ byte ']' :: rest)) ']'
        (by decide) first hblank hstart
      rw [← List.cons_append, ← hprint] at hentry
      rw [printItems, List.length_append, List.length_append] at hfuel
      have hone : 0 < (print item).length := hprint ▸ Nat.succ_pos _
      rw [printItems, List.append_assoc, List.append_assoc, itemsWithin, hentry]
      show (do
        let (item, rest) ← valueWithin fuel budget
          (print item ++ (printItems false more ++ byte ']' :: rest))
        let (items, rest) ← itemsWithin fuel budget false rest
        .ok (item :: items, rest)) = _
      rw [valueWithin_print item hitem (delimited_items more) (by omega), depthItems]
      simp only [Nat.max_le]
      by_cases hdepth : depth item ≤ budget
      · rw [if_pos hdepth]
        show (do
          let (items, rest) ← itemsWithin fuel budget false
            (printItems false more ++ byte ']' :: rest)
          .ok (item :: items, rest)) = _
        rw [itemsWithin_print more hmore false (by omega)]
        by_cases hmoreDepth : depthItems more ≤ budget
        · rw [if_pos hmoreDepth, if_pos ⟨hdepth, hmoreDepth⟩]
          rfl
        · rw [if_neg hmoreDepth, if_neg fun hboth => hmoreDepth hboth.2]
          rfl
      · rw [if_neg hdepth, if_neg fun hboth => hdepth hboth.1]
        rfl

theorem membersWithin_print (members : List (String × Json)) (hmembers : WellFormedMembers members)
    (first : Bool) {fuel budget : Nat} {rest : List UInt8}
    (hfuel : 2 * (printMembers first members).length + 1 < fuel) :
    membersWithin fuel budget first (printMembers first members ++ byte '\x7d' :: rest) =
      if depthMembers members ≤ budget then .ok (members, rest) else .error .malformed := by
  obtain ⟨fuel, rfl⟩ := Nat.exists_eq_succ_of_ne_zero (Nat.ne_zero_of_lt hfuel)
  match members with
  | [] =>
      have hclosed := @nextEntry_closed rest '\x7d' (by decide) first
      rw [printMembers, List.nil_append, membersWithin, hclosed, depthMembers,
        if_pos (Nat.zero_le _)]
      rfl
  | (key, value) :: more =>
      obtain ⟨hvalue, hmore⟩ := hmembers
      have hentry := @nextEntry_entry (byte '"') ((Text.bytes key).flatMap escapedByte ++
        byte '"' :: byte ':' :: (print value ++ (printMembers false more ++ byte '\x7d' :: rest)))
        '\x7d' (by decide) first (by decide) (by decide)
      rw [← literal_append] at hentry
      rw [printMembers, List.length_append, List.length_append, List.length_append,
        List.length_cons] at hfuel
      rw [printMembers, List.append_assoc, List.append_assoc, List.append_assoc, List.cons_append,
        membersWithin, hentry]
      show (do
        let (key, rest) ← readKey (literal key ++ byte ':' ::
          (print value ++ (printMembers false more ++ byte '\x7d' :: rest)))
        let (value, rest) ← valueWithin fuel budget rest
        let (members, rest) ← membersWithin fuel budget false rest
        .ok ((key, value) :: members, rest)) = _
      rw [readKey_literal]
      show (do
        let (value, rest) ← valueWithin fuel budget
          (print value ++ (printMembers false more ++ byte '\x7d' :: rest))
        let (members, rest) ← membersWithin fuel budget false rest
        .ok ((key, value) :: members, rest)) = _
      rw [valueWithin_print value hvalue (delimited_members more) (by omega), depthMembers]
      simp only [Nat.max_le]
      by_cases hdepth : depth value ≤ budget
      · rw [if_pos hdepth]
        show (do
          let (members, rest) ← membersWithin fuel budget false
            (printMembers false more ++ byte '\x7d' :: rest)
          .ok ((key, value) :: members, rest)) = _
        rw [membersWithin_print more hmore false (by omega)]
        by_cases hmoreDepth : depthMembers more ≤ budget
        · rw [if_pos hmoreDepth, if_pos ⟨hdepth, hmoreDepth⟩]
          rfl
        · rw [if_neg hmoreDepth, if_neg fun hboth => hmoreDepth hboth.2]
          rfl
      · rw [if_neg hdepth, if_neg fun hboth => hdepth hboth.1]
        rfl

end

/-- A printed value at the front of a text, under any budget. -/
theorem readValue_print {value : Json} (hvalue : WellFormed value) (hrest : Delimited rest) :
    readValue budget (print value ++ rest) =
      if depth value ≤ budget then .ok (value, rest) else .error .malformed := by
  refine valueWithin_print value hvalue hrest ?_
  rw [List.length_append]
  omega

/-- Members that were printed in any order are read as the object that they make up. -/
theorem readValue_members {members : List (String × Json)} (hmembers : WellFormedMembers members) :
    readValue budget (print (.object members) ++ rest) =
      if depthMembers members < budget then .ok (ofMembers members, rest)
      else .error .malformed := by
  refine valueWithin_members fun budget => membersWithin_print members hmembers true ?_
  rw [print, List.length_append, List.length_append, List.length_cons, List.length_singleton]
  omega

end HubLink.Json
