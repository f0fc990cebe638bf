import HubLink.Proofs.Json.Content
import HubLink.Proofs.Json.Scanned

/-!
# Values that are passed over

A member that nobody asked for is passed over, and with a grammatical value that cannot fail
(`skipValue_of_isValue`): neither the size of a number nor the meaning of a literal nor the depth of
the brackets matters.

The reader keeps the open brackets in a list instead of calling itself, so the induction on the
derivation is stated for any brackets around, with what becomes of the text behind as a hypothesis
(`Skips`).
-/

namespace HubLink.Json

open Text (byte ascii)

variable {rest text : List UInt8}

/-! ## Scalars -/

theorem mem_words_iff {word : List UInt8} : word ∈ words ↔
    word = ascii ['n', 'u', 'l', 'l'] ∨ word = ascii ['t', 'r', 'u', 'e'] ∨
      word = ascii ['f', 'a', 'l', 's', 'e'] := by
  simp only [words, List.mem_cons, List.not_mem_nil, or_false]

/-- What a scalar starts with is no blank and no bracket. -/
theorem IsScalar.exists_head (hscalar : IsScalar text) :
    ∃ b more, text = b :: more ∧ isBlank b = false ∧ b ≠ byte '[' ∧ b ≠ byte '\x7b' ∧
      b ≠ byte ']' ∧ b ≠ byte '\x7d' := by
  cases hscalar with
  | word hword =>
      rcases mem_words_iff.mp hword with rfl | rfl | rfl
      · exact ⟨byte 'n', _, rfl, by decide⟩
      · exact ⟨byte 't', _, rfl, by decide⟩
      · exact ⟨byte 'f', _, rfl, by decide⟩
  | numeral hnumeral =>
      obtain ⟨b, more, rfl, hhead⟩ := hnumeral.exists_head
      have hother : ∀ other : UInt8, other ≠ byte '-' ∧ Text.isDigit other = false → b ≠ other :=
        fun other hnumeral => numeral_head_ne hhead hnumeral.1 hnumeral.2
      exact ⟨b, more, rfl, isBlank_numeral_head hhead, hother _ (by decide), hother _ (by decide),
        hother _ (by decide), hother _ (by decide)⟩
  | string => exact ⟨byte '"', _, rfl, by decide⟩

theorem skipScalar_of_isScalar (hscalar : IsScalar text) (hrest : Bounded rest) :
    skipScalar (text ++ rest) = .ok rest := by
  cases hscalar with
  | word hword =>
      rcases mem_words_iff.mp hword with rfl | rfl | rfl <;> rfl
  | numeral hnumeral =>
      obtain ⟨numeral, hread⟩ := exists_readNumeral hnumeral
      obtain ⟨b, more, rfl, hhead⟩ := hnumeral.exists_head
      have hnumber := hread .malformed hrest
      rw [List.cons_append] at hnumber ⊢
      rw [skipScalar, if_pos hhead, hnumber]
      rfl
  | @string content hcontent =>
      rw [List.cons_append, List.append_assoc, skipScalar, if_neg (by decide), if_pos rfl]
      exact skipString_content hcontent

/-- What a value starts with is no blank and closes nothing. -/
theorem IsValue.exists_head (hvalue : IsValue text) :
    ∃ b more, text = b :: more ∧ isBlank b = false ∧ b ≠ byte ']' ∧ b ≠ byte '\x7d' := by
  cases hvalue with
  | scalar hscalar =>
      obtain ⟨b, more, rfl, hblank, -, -, hsquare, hcurly⟩ := hscalar.exists_head
      exact ⟨b, more, rfl, hblank, hsquare, hcurly⟩
  | array => exact ⟨byte '[', _, rfl, by decide⟩
  | object => exact ⟨byte '\x7b', _, rfl, by decide⟩

theorem IsValue.length_pos (hvalue : IsValue text) : 0 < text.length := by
  obtain ⟨b, more, rfl, -⟩ := hvalue.exists_head
  exact Nat.succ_pos more.length

/-- An entry of an array is found behind its lead. -/
theorem exists_nextEntry_value {first : Bool} {lead value : List UInt8} (hlead : IsLead first lead)
    (hvalue : IsValue value) (rest : List UInt8) :
    ∃ blanks, IsBlanks blanks ∧ nextEntry ']' first (lead ++ (value ++ rest)) =
      .ok (.entry (blanks ++ (value ++ rest))) := by
  obtain ⟨b, more, rfl, hblank, hclosing, -⟩ := hvalue.exists_head
  exact exists_nextEntry_lead .square hlead hblank hclosing

/-- A member of an object is found behind its lead. -/
theorem exists_nextEntry_key {first : Bool} {lead : List UInt8} (hlead : IsLead first lead)
    (rest : List UInt8) :
    ∃ blanks, IsBlanks blanks ∧ nextEntry '\x7d' first (lead ++ byte '"' :: rest) =
      .ok (.entry (blanks ++ byte '"' :: rest)) :=
  exists_nextEntry_lead .curly hlead (by decide) (by decide)

/-! ## Any value -/

/-- With fuel for `steps`, passing over ends with `final` left of the text. -/
def Skips (steps : Nat) (enclosing : List Bracket) (place : Place) (text final : List UInt8) :
    Prop :=
  ∀ fuel, steps ≤ fuel → skipFrom fuel enclosing place text = .ok final

variable {steps more : Nat} {enclosing : List Bracket} {place : Place} {final : List UInt8}

theorem Skips.mono (hskips : Skips steps enclosing place text final) (hmore : steps ≤ more) :
    Skips more enclosing place text final :=
  fun fuel hfuel => hskips fuel (Nat.le_trans hmore hfuel)

/-- One step takes one from the fuel. -/
theorem Skips.step {enclosing' : List Bracket} {place' : Place} {text' : List UInt8}
    (hskips : Skips steps enclosing' place' text' final)
    (hstep : ∀ fuel, skipFrom (fuel + 1) enclosing place text =
      skipFrom fuel enclosing' place' text') :
    Skips (steps + 1) enclosing place text final := by
  intro fuel hfuel
  obtain ⟨fuel, rfl, hleft⟩ := exists_fuel _ hfuel (Nat.lt_succ_self steps)
  rw [hstep]
  exact hskips fuel hleft

theorem skips_end (rest : List UInt8) : Skips 1 [] (.entry false) rest rest := by
  intro fuel hfuel
  obtain ⟨fuel, rfl, -⟩ := exists_fuel _ hfuel Nat.one_pos
  rfl

theorem Skips.scalar {blanks : List UInt8} (hblanks : IsBlanks blanks) (hscalar : IsScalar text)
    (hrest : Bounded rest) (hskips : Skips steps enclosing (.entry false) rest final) :
    Skips (steps + 1) enclosing .value (blanks ++ (text ++ rest)) final := by
  apply hskips.step
  intro fuel
  have hscalar' := skipScalar_of_isScalar hscalar hrest
  obtain ⟨b, more, rfl, hblank, hsquare, hcurly, -⟩ := hscalar.exists_head
  rw [List.cons_append] at hscalar' ⊢
  simp only [skipFrom, skipBlanks_blanks hblanks hblank, if_neg hsquare, if_neg hcurly, hscalar',
    bind, Except.bind]

/-- What a part of a text is passed over with, whatever brackets are open around it. -/
def PassedOver : Part → List UInt8 → Prop
  | .value, text => ∀ {steps enclosing blanks rest final}, IsBlanks blanks → Bounded rest →
      Skips steps enclosing (.entry false) rest final →
        Skips (steps + 2 * text.length - 1) enclosing .value (blanks ++ (text ++ rest)) final
  | .rest bracket first, text => ∀ {steps enclosing rest final}, Bounded rest →
      Skips steps enclosing (.entry false) rest final →
        Skips (steps + 2 * text.length) (bracket :: enclosing) (.entry first) (text ++ rest) final

theorem passedOver_scalar (hscalar : IsScalar text) : PassedOver .value text := by
  intro steps enclosing blanks rest final hblanks hrest hskips
  obtain ⟨b, more, rfl, -⟩ := hscalar.exists_head
  refine (hskips.scalar hblanks hscalar hrest).mono ?_
  simp only [List.length_cons]
  omega

/-- Every part of a grammatical text is passed over, by induction on its derivation. -/
theorem Grammatical.passedOver {part : Part} (htext : Grammatical part text) :
    PassedOver part text := by
  induction htext with
  | scalar hscalar => exact passedOver_scalar hscalar
  | @array more _ ih =>
      intro steps enclosing blanks rest final hblanks hrest hskips
      have hopening : isBlank (byte '[') = false := by decide
      refine ((ih hrest hskips).step fun fuel => ?_).mono (by simp only [List.length_cons]; omega)
      simp only [List.cons_append, skipFrom, skipBlanks_blanks hblanks hopening, if_true]
  | @object more _ ih =>
      intro steps enclosing blanks rest final hblanks hrest hskips
      have hopening : isBlank (byte '\x7b') = false := by decide
      have hcurly : byte '\x7b' ≠ byte '[' := by decide
      refine ((ih hrest hskips).step fun fuel => ?_).mono (by simp only [List.length_cons]; omega)
      simp only [List.cons_append, skipFrom, skipBlanks_blanks hblanks hopening, if_neg hcurly,
        if_true]
  | @closed bracket first blanks hblanks =>
      intro steps enclosing rest final hrest hskips
      refine (hskips.step fun fuel => ?_).mono (by grind)
      have hclosed := nextEntry_blanks_closing bracket first hblanks rest
      rw [List.append_assoc, List.singleton_append, skipFrom, hclosed]
      rfl
  | @item first lead value more hlead hvalue hmore ihValue ihMore =>
      intro steps enclosing rest final hrest hskips
      obtain ⟨blanks, hblanks, hentry⟩ := exists_nextEntry_value hlead hvalue (more ++ rest)
      have hinner := ihValue hblanks (bounded_rest hmore) (ihMore hrest hskips)
      have hone := IsValue.length_pos hvalue
      refine (hinner.step fun fuel => ?_).mono (by grind)
      rw [List.append_assoc, List.append_assoc, skipFrom, Bracket.closing, hentry]
      rfl
  | @member first lead content before behind value more hlead hcontent hbefore hbehind hvalue hmore
      ihValue ihMore =>
      intro steps enclosing rest final hrest hskips
      have hinner := ihValue hbehind (bounded_rest hmore) (ihMore hrest hskips)
      have hone := IsValue.length_pos hvalue
      obtain ⟨blanks, hblanks, hentry⟩ := exists_nextEntry_key hlead
        (content ++ byte '"' :: (before ++ byte ':' :: (behind ++ (value ++ (more ++ rest)))))
      have hquote := expectMark_blanks hblanks '"' (by decide)
        (content ++ byte '"' :: (before ++ byte ':' :: (behind ++ (value ++ (more ++ rest)))))
      have hcolon := expectMark_blanks hbefore ':' (by decide) (behind ++ (value ++ (more ++ rest)))
      refine (hinner.step fun fuel => ?_).mono (by grind)
      simp only [List.append_assoc, List.cons_append, skipFrom, Bracket.closing, hentry, skipKey,
        hquote, skipString_content hcontent, hcolon, bind, Except.bind]

/-- **A grammatical value is passed over whole**, wherever it stands. -/
theorem skipValue_of_isValue {blanks : List UInt8} (hvalue : IsValue text)
    (hblanks : IsBlanks blanks) (hrest : Bounded rest) :
    skipValue (blanks ++ (text ++ rest)) = .ok rest := by
  have hskips := hvalue.passedOver hblanks hrest (skips_end rest)
  refine hskips _ ?_
  simp only [List.length_append]
  omega

end HubLink.Json
