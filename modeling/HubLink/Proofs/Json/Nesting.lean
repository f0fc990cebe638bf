import HubLink.Proofs.Json.PrintedNumber

/-!
# The brackets of a text

How deep the brackets of a text nest can be seen from the text alone: an opening bracket adds one,
a closing bracket takes one away, and a bracket inside a string literal is none.  For printed values
this count is the depth of the value (`nestingFrom_print`), which is what a reader's budget is
about.
-/

namespace HubLink.Json

open Text (byte ascii)

/-- Where a count of brackets stands: between literals, inside one, or behind its backslash. -/
inductive Region where
  | between
  | inside
  | escaped
  deriving DecidableEq, Repr

/-- The greatest number of brackets open at one time from here on, with `opened` open already. -/
def nestingFrom : Region → (opened : Nat) → List UInt8 → Nat
  | _, opened, [] => opened
  | .between, opened, b :: rest =>
    if b = byte '"' then nestingFrom .inside opened rest
    else if b = byte '[' ∨ b = byte '\x7b' then nestingFrom .between (opened + 1) rest
    else if b = byte ']' ∨ b = byte '\x7d' then max opened (nestingFrom .between (opened - 1) rest)
    else nestingFrom .between opened rest
  | .inside, opened, b :: rest =>
    if b = byte '"' then nestingFrom .between opened rest
    else if b = byte '\\' then nestingFrom .escaped opened rest
    else nestingFrom .inside opened rest
  | .escaped, opened, _ :: rest => nestingFrom .inside opened rest

/-- How deep the brackets of a text nest. -/
def nesting (text : List UInt8) : Nat :=
  nestingFrom .between 0 text

theorem le_nestingFrom (region : Region) (opened : Nat) (text : List UInt8) :
    opened ≤ nestingFrom region opened text := by
  fun_induction nestingFrom region opened text with
  | case1 => exact Nat.le_refl _
  | case2 _ _ ih => exact ih
  | case3 _ _ _ _ _ ih => exact Nat.le_of_succ_le ih
  | case4 => exact Nat.le_max_left _ _
  | case5 _ _ _ _ _ _ ih => exact ih
  | case6 _ _ ih => exact ih
  | case7 _ _ _ ih => exact ih
  | case8 _ _ _ _ _ ih => exact ih
  | case9 _ _ _ ih => exact ih

variable {opened : Nat} {rest : List UInt8}

/-! ## Numbers and words -/

/-- A byte that opens or closes nothing. -/
def IsPlain (b : UInt8) : Prop :=
  b ≠ byte '"' ∧ b ≠ byte '[' ∧ b ≠ byte '\x7b' ∧ b ≠ byte ']' ∧ b ≠ byte '\x7d'

instance (b : UInt8) : Decidable (IsPlain b) :=
  inferInstanceAs (Decidable (_ ∧ _))

theorem nestingFrom_plain {b : UInt8} (hplain : IsPlain b) :
    nestingFrom .between opened (b :: rest) = nestingFrom .between opened rest := by
  obtain ⟨hquote, hsquare, hcurly, hsquare', hcurly'⟩ := hplain
  rw [nestingFrom, if_neg hquote, if_neg (not_or.mpr ⟨hsquare, hcurly⟩),
    if_neg (not_or.mpr ⟨hsquare', hcurly'⟩)]

theorem nestingFrom_append_plain {text : List UInt8} (hplain : ∀ b ∈ text, IsPlain b) :
    nestingFrom .between opened (text ++ rest) = nestingFrom .between opened rest := by
  induction text with
  | nil => rfl
  | cons b more ih =>
      rw [List.cons_append, nestingFrom_plain (hplain b List.mem_cons_self)]
      exact ih fun b hb => hplain b (List.mem_cons_of_mem _ hb)

theorem nestingFrom_word {text : List UInt8} (hplain : text.all (fun b => decide (IsPlain b)) = true) :
    nestingFrom .between opened (text ++ rest) = nestingFrom .between opened rest :=
  nestingFrom_append_plain fun b hb => of_decide_eq_true (List.all_eq_true.mp hplain b hb)

theorem isPlain_digit {b : UInt8} (hdigit : Text.isDigit b = true) : IsPlain b := by
  have hne : ∀ other : UInt8, Text.isDigit other = false → b ≠ other := by
    rintro _ hother rfl
    rw [hdigit] at hother
    cases hother
  exact ⟨hne _ (by decide), hne _ (by decide), hne _ (by decide), hne _ (by decide),
    hne _ (by decide)⟩

theorem isPlain_spell {numeral : Numeral} (hspelled : numeral.WellSpelled) :
    ∀ b ∈ numeral.spell, IsPlain b := by
  obtain ⟨negative, whole, fraction, exponent⟩ := numeral
  intro b hb
  rw [Numeral.spell, List.mem_append, List.mem_append, List.mem_append] at hb
  rcases hb with ((hsign | hwhole) | hfraction) | hexponent
  · cases negative with
    | true =>
        rw [if_pos rfl, List.mem_singleton] at hsign
        exact hsign ▸ by decide
    | false => cases hsign
  · exact isPlain_digit (hspelled.whole_run.2 b hwhole)
  · cases fraction with
    | none => cases hfraction
    | some digits =>
        rcases List.mem_cons.mp hfraction with rfl | hb
        · decide
        · exact isPlain_digit ((hspelled.fraction_run digits rfl).2 b hb)
  · rcases exponent with _ | ⟨minus, digits⟩
    · cases hexponent
    · rcases List.mem_cons.mp hexponent with rfl | hb
      · decide
      · rcases List.mem_cons.mp hb with rfl | hb
        · cases minus <;> decide
        · exact isPlain_digit ((hspelled.exponent_run _ rfl).2 b hb)

/-! ## Literals -/

theorem nestingFrom_inside {b : UInt8} (hquote : b ≠ byte '"') (hbackslash : b ≠ byte '\\') :
    nestingFrom .inside opened (b :: rest) = nestingFrom .inside opened rest := by
  rw [nestingFrom, if_neg hquote, if_neg hbackslash]

theorem nestingFrom_escapedByte (b : UInt8) :
    nestingFrom .inside opened (escapedByte b ++ rest) = nestingFrom .inside opened rest := by
  have hdigit : ∀ {n}, n < 16 → hexDigit n ≠ byte '"' ∧ hexDigit n ≠ byte '\\' := by
    decide
  unfold escapedByte
  split
  · rfl
  next hmark =>
    obtain ⟨hquote, hbackslash⟩ := not_or.mp hmark
    split
    next hcontrol =>
      have hvalue : b.toNat < 32 := UInt8.lt_iff_toNat_lt.mp hcontrol
      have hhigh := @hdigit (b.toNat / 16) (by omega)
      have hlow := @hdigit (b.toNat % 16) (by omega)
      split
      · rfl
      · show nestingFrom .inside opened
          (hexDigit (b.toNat / 16) :: hexDigit (b.toNat % 16) :: rest) = _
        rw [nestingFrom_inside hhigh.1 hhigh.2, nestingFrom_inside hlow.1 hlow.2]
    · exact nestingFrom_inside hquote hbackslash

theorem nestingFrom_literal (value : String) :
    nestingFrom .between opened (literal value ++ rest) = nestingFrom .between opened rest := by
  suffices hinside : ∀ content : List UInt8,
      nestingFrom .inside opened (content.flatMap escapedByte ++ byte '"' :: rest) =
        nestingFrom .between opened rest by
    rw [literal, List.append_assoc, List.cons_append, List.singleton_append]
    exact hinside (Text.bytes value)
  intro content
  induction content with
  | nil => rfl
  | cons b more ih => rw [List.flatMap_cons, List.append_assoc, nestingFrom_escapedByte, ih]

/-! ## Values -/

theorem nestingFrom_opening {b : UInt8} (hopening : b = byte '[' ∨ b = byte '\x7b') :
    nestingFrom .between opened (b :: rest) = nestingFrom .between (opened + 1) rest := by
  have hquote : b ≠ byte '"' := by
    rcases hopening with rfl | rfl <;> decide
  rw [nestingFrom, if_neg hquote, if_pos hopening]

theorem nestingFrom_closing {b : UInt8} (hclosing : b = byte ']' ∨ b = byte '\x7d') :
    nestingFrom .between (opened + 1) (b :: rest) =
      max (opened + 1) (nestingFrom .between opened rest) := by
  have hothers : b ≠ byte '"' ∧ ¬ (b = byte '[' ∨ b = byte '\x7b') := by
    rcases hclosing with rfl | rfl <;> decide
  rw [nestingFrom, if_neg hothers.1, if_neg hothers.2, if_pos hclosing, Nat.add_sub_cancel]

/-- Brackets around a text add one to its nesting. -/
theorem nestingFrom_brackets {opening closing : UInt8}
    (hopening : opening = byte '[' ∨ opening = byte '\x7b')
    (hclosing : closing = byte ']' ∨ closing = byte '\x7d') {inner : List UInt8} {depth : Nat}
    (hinner : ∀ rest, nestingFrom .between (opened + 1) (inner ++ rest) =
      max (opened + 1 + depth) (nestingFrom .between (opened + 1) rest)) :
    nestingFrom .between opened (opening :: inner ++ [closing] ++ rest) =
      max (opened + (depth + 1)) (nestingFrom .between opened rest) := by
  -- the count behind the closing bracket starts where it stood before the opening one
  have hleast := le_nestingFrom .between opened rest
  rw [List.append_assoc, List.cons_append, List.singleton_append, nestingFrom_opening hopening,
    hinner, nestingFrom_closing hclosing]
  omega

theorem nestingFrom_comma (first : Bool) (text : List UInt8) :
    nestingFrom .between opened ((if first then [] else [byte ',']) ++ text) =
      nestingFrom .between opened text := by
  cases first with
  | true => rfl
  | false => exact nestingFrom_plain (by decide)

mutual

/-- A printed value nests as deep as it is, on top of the brackets around it. -/
theorem nestingFrom_print (value : Json) (hvalue : WellFormed value) {opened : Nat}
    {rest : List UInt8} :
    nestingFrom .between opened (print value ++ rest) =
      max (opened + depth value) (nestingFrom .between opened rest) := by
  have hscalar : ∀ {text : List UInt8},
      nestingFrom .between opened (text ++ rest) = nestingFrom .between opened rest →
        nestingFrom .between opened (text ++ rest) =
          max (opened + 0) (nestingFrom .between opened rest) := by
    intro text htext
    rw [htext, Nat.add_zero, Nat.max_eq_right (le_nestingFrom _ _ _)]
  match value with
  | .null => exact @hscalar (ascii ['n', 'u', 'l', 'l']) (nestingFrom_word (by decide))
  | .bool true => exact @hscalar (ascii ['t', 'r', 'u', 'e']) (nestingFrom_word (by decide))
  | .bool false => exact @hscalar (ascii ['f', 'a', 'l', 's', 'e']) (nestingFrom_word (by decide))
  | .integer n =>
      refine @hscalar (Text.decimalInt n) (nestingFrom_append_plain ?_)
      rw [← spell_ofInt]
      exact isPlain_spell (wellSpelled_ofInt n)
  | .real number =>
      have hfinite : number.isFinite = true := hvalue
      obtain ⟨numeral, htext, hspelled, _⟩ := exists_numeral_double hfinite
      refine @hscalar (numberText number) (nestingFrom_append_plain ?_)
      rw [numberText, if_pos hfinite, htext]
      exact isPlain_spell hspelled
  | .string text => exact @hscalar (literal text) (nestingFrom_literal text)
  | .array items =>
      exact nestingFrom_brackets (.inl rfl) (.inl rfl) fun _ =>
        nestingFrom_printItems items hvalue true
  | .object members =>
      exact nestingFrom_brackets (.inr rfl) (.inr rfl) fun _ =>
        nestingFrom_printMembers members hvalue.2 true

theorem nestingFrom_printItems (items : List Json) (hitems : WellFormedItems items) (first : Bool)
    {opened : Nat} {rest : List UInt8} :
    nestingFrom .between opened (printItems first items ++ rest) =
      max (opened + depthItems items) (nestingFrom .between opened rest) := by
  match items with
  | [] => exact (Nat.max_eq_right (le_nestingFrom _ _ _)).symm
  | item :: more =>
      rw [printItems, List.append_assoc, List.append_assoc, nestingFrom_comma,
        nestingFrom_print item hitems.1, nestingFrom_printItems more hitems.2 false, depthItems]
      omega

theorem nestingFrom_printMembers (members : List (String × Json))
    (hmembers : WellFormedMembers members) (first : Bool) {opened : Nat} {rest : List UInt8} :
    nestingFrom .between opened (printMembers first members ++ rest) =
      max (opened + depthMembers members) (nestingFrom .between opened rest) := by
  match members with
  | [] => exact (Nat.max_eq_right (le_nestingFrom _ _ _)).symm
  | (key, value) :: more =>
      rw [printMembers, List.append_assoc, List.append_assoc, List.append_assoc, List.cons_append,
        nestingFrom_comma, nestingFrom_literal, nestingFrom_plain (by decide),
        nestingFrom_print value hmembers.1, nestingFrom_printMembers more hmembers.2 false,
        depthMembers]
      omega

end

/-- **The brackets of a printed object nest one deeper than its members**, in whatever order these
stand. -/
theorem nesting_print_object {members : List (String × Json)}
    (hmembers : WellFormedMembers members) :
    nesting (print (.object members)) = depthMembers members + 1 := by
  have hprint := @nestingFrom_brackets 0 [] (byte '\x7b') (byte '\x7d') (.inr rfl) (.inr rfl) _ _
    fun _ => nestingFrom_printMembers members hmembers true
  rw [List.append_nil, nestingFrom, Nat.max_zero, Nat.zero_add] at hprint
  exact hprint

end HubLink.Json
