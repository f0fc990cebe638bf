import HubLink.Json.TextRecord
import HubLink.Proofs.Json.Printed
import HubLink.Proofs.Outcome

/-!
# Records read straight from the text

A record that is read from a text fills its state field by field.  Over a printed object the fields
are met in the order in which they were printed, one step each (`ReadsTo.member`), whether the object
was printed as a value or written from the texts of its members (`read_printFields`).  Over any other
text, as an object or as an array, nothing is known but what every single field guarantees
(`read_invariant`).
-/

namespace HubLink.Json

open Text (byte ascii)

/-! ## Fields -/

theorem readText_literal (value : String) (rest : List UInt8) :
    readText (literal value ++ rest) = .ok (value, rest) := by
  have hquote : isBlank (byte '"') = false := by decide
  rw [literal_append]
  simp only [readText, skipBlanks_cons hquote, if_true, readString_literal]

theorem readNumeralAs_spell {numeral : Numeral} {rest : List UInt8} (name : String)
    (hspelled : numeral.WellSpelled) (hrest : Delimited rest) :
    readNumeralAs name (numeral.spell ++ rest) = .ok (numeral, rest) := by
  obtain ⟨b, text, hspell, hhead⟩ := exists_head_spell hspelled
  have hread := @readNumeral_spell .truncated _ _ hspelled hrest
  rw [hspell, List.cons_append] at hread ⊢
  simp only [readNumeralAs, skipBlanks_cons (isBlank_numeral_head hhead), if_pos hhead, hread]

theorem readWholeAs_integer {α : Type} {name : String} {shape : Shape α} {n : Int} {value : α}
    {rest : List UInt8} (hwhole : IsWhole n) (hshape : shape (.integer n) = .ok value)
    (hrest : Delimited rest) :
    readWholeAs name shape (Text.decimalInt n ++ rest) = .ok (value, rest) := by
  rw [← spell_ofInt]
  simp only [readWholeAs, readNumeralAs_spell name (wellSpelled_ofInt n) hrest,
    toJson_ofInt hwhole, hshape, bind, Except.bind]

/-- **A short number is read back bit for bit.** -/
theorem readSingle_text {number : Single} {rest : List UInt8} (hfinite : number.isFinite = true)
    (hrest : Delimited rest) : readSingle (ascii number.text ++ rest) = .ok (number, rest) := by
  obtain ⟨numeral, htext, hspelled, hvalue⟩ := exists_numeral_single hfinite
  rw [htext]
  simp only [readSingle, readNumeralAs_spell "f32" hspelled hrest, hvalue, bind, Except.bind]

theorem wrongType_ne_ok {α : Type} (expected : String) (text : List UInt8) (result : α) :
    wrongType expected text ≠ .ok result := by
  intro hresult
  unfold wrongType at hresult
  split at hresult
  · cases hresult
  · split at hresult
    · cases hresult
    · split at hresult
      · cases hresult
      · obtain ⟨_, _, hresult⟩ := bind_eq_ok.mp hresult
        cases hresult

theorem intercalate_cons (separator first : List UInt8) (more : List (List UInt8)) :
    separator.intercalate (first :: more) = first ++ more.flatMap (separator ++ ·) := by
  induction more generalizing first with
  | nil => simp
  | cons second more ih =>
      rw [List.intercalate_cons_cons, ih, List.flatMap_cons]
      simp only [List.append_assoc]

namespace TextRecord

variable {σ : Type} {fields : List (TextField σ)} {budget : Nat}

theorem need_eq_ok_iff {α : Type} {name : String} {found : Option α} {value : α} :
    need name found = .ok value ↔ found = some value := by
  cases found with
  | none =>
      constructor
      · intro hneed
        cases hneed
      · intro hfound
        cases hfound
  | some other =>
      rw [need, Except.ok.injEq, Option.some.injEq]

/-! ## Printed members -/

/-- Reading the members of a text, with fuel for its length, has the given result. -/
def ReadsTo (fields : List (TextField σ)) (budget : Nat) (first : Bool) (state : σ)
    (text : List UInt8) (result : Except Fault (σ × List UInt8)) : Prop :=
  ∀ fuel, text.length < fuel → readMembers fields budget fuel first state text = result

theorem readsTo_closed (first : Bool) (state : σ) (rest : List UInt8) :
    ReadsTo fields budget first state (byte '\x7d' :: rest) (.ok (state, rest)) := by
  intro fuel hfuel
  obtain ⟨fuel, rfl⟩ := Nat.exists_eq_succ_of_ne_zero (Nat.ne_zero_of_lt hfuel)
  have hclosed := @nextEntry_closed rest '\x7d' (by decide) first
  rw [readMembers, hclosed]
  rfl

variable {first : Bool} {state : σ} {key : String} {value tail : List UInt8}
  {field : TextField σ}

/-- The reader of a printed member calls the field under its key and goes on behind the value. -/
theorem readMembers_member (hfield : fields.find? (·.name == key) = some field)
    (hfilled : field.filled state = false) (fuel : Nat) :
    readMembers fields budget (fuel + 1) first state ((if first then [] else [byte ',']) ++
      (literal key ++ byte ':' :: (value ++ tail))) = (do
        let (state, rest) ← field.read budget state (value ++ tail)
        readMembers fields budget fuel false state rest) := by
  have hquote : isBlank (byte '"') = false := by decide
  have hcolon : isBlank (byte ':') = false := by decide
  have hentry := @nextEntry_entry (byte '"') ((Text.bytes key).flatMap escapedByte ++ byte '"' ::
    byte ':' :: (value ++ tail)) '\x7d' (by decide) first hquote (by decide)
  rw [literal_append, readMembers, hentry]
  simp only [bind, Except.bind, expectMark, skipBlanks_cons hquote, if_true, readString_literal,
    hfield, hfilled, skipBlanks_cons hcolon, Bool.false_eq_true, if_false]

theorem length_member (first : Bool) (key : String) (value tail : List UInt8) :
    tail.length + 1 ≤ ((if first then [] else [byte ',']) ++
      (literal key ++ byte ':' :: (value ++ tail))).length := by
  simp only [List.length_append, List.length_cons]
  omega

theorem ReadsTo.member {next : σ} {result : Except Fault (σ × List UInt8)}
    (hfield : fields.find? (·.name == key) = some field) (hfilled : field.filled state = false)
    (hread : field.read budget state (value ++ tail) = .ok (next, tail))
    (hrest : ReadsTo fields budget false next tail result) :
    ReadsTo fields budget first state ((if first then [] else [byte ',']) ++
      (literal key ++ byte ':' :: (value ++ tail))) result := by
  intro fuel hfuel
  obtain ⟨fuel, rfl⟩ := Nat.exists_eq_succ_of_ne_zero (Nat.ne_zero_of_lt hfuel)
  have hlength := length_member first key value tail
  rw [readMembers_member hfield hfilled, hread]
  exact hrest fuel (by omega)

theorem readsTo_member_error {fault : Fault}
    (hfield : fields.find? (·.name == key) = some field) (hfilled : field.filled state = false)
    (hread : field.read budget state (value ++ tail) = .error fault) :
    ReadsTo fields budget first state ((if first then [] else [byte ',']) ++
      (literal key ++ byte ':' :: (value ++ tail))) (.error fault) := by
  intro fuel hfuel
  obtain ⟨fuel, rfl⟩ := Nat.exists_eq_succ_of_ne_zero (Nat.ne_zero_of_lt hfuel)
  rw [readMembers_member hfield hfilled, hread]
  rfl

/-- Members with a comma before each but the first, the values as they are written. -/
def memberTexts (first : Bool) : List (String × List UInt8) → List UInt8
  | [] => []
  | (key, value) :: more =>
    (if first then [] else [byte ',']) ++ (literal key ++ byte ':' :: (value ++
      memberTexts false more))

theorem memberTexts_cons_append (first : Bool) (key : String) (value : List UInt8)
    (more : List (String × List UInt8)) (tail : List UInt8) :
    memberTexts first ((key, value) :: more) ++ tail = (if first then [] else [byte ',']) ++
      (literal key ++ byte ':' :: (value ++ (memberTexts false more ++ tail))) := by
  rw [memberTexts]
  simp only [List.append_assoc, List.cons_append]

theorem delimited_memberTexts (members : List (String × List UInt8)) (rest : List UInt8) :
    Delimited (memberTexts false members ++ byte '\x7d' :: rest) := by
  cases members with
  | nil => exact delimited_curly rest
  | cons m more => exact delimited_comma _

theorem printMembers_eq (first : Bool) (members : List (String × Json)) :
    printMembers first members = memberTexts first (members.map fun m => (m.1, print m.2)) := by
  induction members generalizing first with
  | nil => rfl
  | cons m more ih =>
      rw [printMembers, ih, List.map_cons, memberTexts]
      simp only [List.append_assoc, List.cons_append]

theorem printFields_eq (members : List (String × List UInt8)) :
    printFields members = byte '\x7b' :: (memberTexts true members ++ [byte '\x7d']) := by
  have hmore : ∀ more : List (String × List UInt8), memberTexts false more =
      more.flatMap fun m => byte ',' :: (literal m.1 ++ byte ':' :: m.2) := by
    intro more
    induction more with
    | nil => rfl
    | cons m more ih => simp [memberTexts, ih]
  rw [printFields, List.cons_append]
  cases members with
  | nil => rfl
  | cons m more => simp [memberTexts, hmore, intercalate_cons, List.flatMap_map]

/-- An object written from the texts of its values is what is printed for the object. -/
theorem printFields_print (members : List (String × Json)) :
    printFields (members.map fun m => (m.1, print m.2)) = print (.object members) := by
  rw [printFields_eq, print, printMembers_eq, List.cons_append]

/-- A record written from the texts of its values is read by its members. -/
theorem read_printFields {name : String} {start : σ} {members : List (String × List UInt8)}
    {result : Except Fault (σ × List UInt8)}
    (hmembers : ReadsTo fields budget true start
      (memberTexts true members ++ [byte '\x7d']) result) :
    read name fields start (budget + 1) (printFields members) = result := by
  have hopening : isBlank (byte '\x7b') = false := by decide
  rw [printFields_eq]
  simp only [read, skipBlanks_cons hopening, if_true]
  exact hmembers _ (Nat.lt_succ_self _)

/-- A printed object is read by its members. -/
theorem read_object {name : String} {start : σ} {members : List (String × Json)}
    {result : Except Fault (σ × List UInt8)}
    (hmembers : ReadsTo fields budget true start
      (printMembers true members ++ [byte '\x7d']) result) :
    read name fields start (budget + 1) (print (.object members)) = result := by
  rw [printMembers_eq] at hmembers
  rw [← printFields_print]
  exact read_printFields hmembers

/-! ## Any text -/

/-- What every field keeps, whatever it reads. -/
def Keeps (fields : List (TextField σ)) (budget : Nat) (good : σ → Prop) : Prop :=
  ∀ field ∈ fields, ∀ {state text next rest}, good state →
    field.read budget state text = .ok (next, rest) → good next

variable {good : σ → Prop}

theorem readMembers_invariant (hkeeps : Keeps fields budget good) {fuel : Nat} {first : Bool}
    {state final : σ} {text rest : List UInt8} (hgood : good state)
    (hread : readMembers fields budget fuel first state text = .ok (final, rest)) : good final := by
  induction fuel generalizing first state text with
  | zero => cases hread
  | succ fuel ih =>
      rw [readMembers] at hread
      obtain ⟨next, _, hread⟩ := bind_eq_ok.mp hread
      cases next with
      | closed behind =>
          cases hread
          exact hgood
      | entry entry =>
          obtain ⟨_, _, hread⟩ := bind_eq_ok.mp hread
          obtain ⟨⟨key, behind⟩, _, hread⟩ := bind_eq_ok.mp hread
          cases hfield : fields.find? (·.name == key) with
          | none =>
              -- a member with an unknown name is passed over
              simp only [hfield] at hread
              obtain ⟨_, _, hread⟩ := bind_eq_ok.mp hread
              obtain ⟨_, _, hread⟩ := bind_eq_ok.mp hread
              exact ih hgood hread
          | some field =>
              simp only [hfield] at hread
              split at hread
              · cases hread
              · obtain ⟨_, _, hread⟩ := bind_eq_ok.mp hread
                obtain ⟨⟨state', behind⟩, hstate, hread⟩ := bind_eq_ok.mp hread
                exact ih (hkeeps field (List.mem_of_find?_eq_some hfield) hgood hstate) hread

theorem readItems_invariant {name : String} {size position : Nat} {state final : σ}
    {text rest : List UInt8} (hkeeps : Keeps fields budget good) (hgood : good state)
    (hread : readItems name size budget fields position state text = .ok (final, rest)) :
    good final := by
  induction fields generalizing position state text with
  | nil =>
      rw [readItems] at hread
      obtain ⟨_, _, hread⟩ := bind_eq_ok.mp hread
      cases hread
      exact hgood
  | cons field more ih =>
      rw [readItems] at hread
      obtain ⟨next, _, hread⟩ := bind_eq_ok.mp hread
      cases next with
      | entry entry =>
          obtain ⟨⟨state', behind⟩, hstate, hread⟩ := bind_eq_ok.mp hread
          exact ih (fun field hmem => hkeeps field (List.mem_cons_of_mem _ hmem))
            (hkeeps field List.mem_cons_self hgood hstate) hread
      | closed behind =>
          simp only at hread
          split at hread
          · cases hread
          · cases hread
            exact hgood

/-- **What every field keeps, the whole record keeps**, read as an object or as an array. -/
theorem read_invariant {name : String} {start final : σ} {text rest : List UInt8}
    (hkeeps : Keeps fields budget good) (hstart : good start)
    (hread : read name fields start (budget + 1) text = .ok (final, rest)) : good final := by
  unfold read at hread
  split at hread
  · cases hread
  next b more _ =>
    split at hread
    · exact readMembers_invariant hkeeps hstart hread
    · split at hread
      · exact readItems_invariant hkeeps hstart hread
      · exact absurd hread (wrongType_ne_ok _ _ _)

end TextRecord

end HubLink.Json
