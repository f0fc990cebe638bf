import HubLink.Proofs.Json.Content
import Mathlib.Data.List.TakeWhile
import Mathlib.Tactic.SplitIfs

/-!
# What readers take is grammatical

A reader takes a part off the front of a text, and the part is what the grammar says (`Takes`): a
numeral for a number, and for a literal what may stand between its quotes and denotes the text that
is kept.  So nothing is accepted that the grammar does not have.

Here are the readers below values; each theorem about one is read off its own text, from those about
the readers that it calls.
-/

namespace HubLink.Json

open Text (byte IsRun)

variable {α : Type} {text rest : List UInt8}

/-- Whatever the reader takes off the front of a text is of some kind. -/
def Takes (reader : Reader α) (kind : α → List UInt8 → Prop) : Prop :=
  ∀ {text value rest}, reader text = .ok (value, rest) →
    ∃ part, text = part ++ rest ∧ kind value part

/-! ## Between values -/

theorem exists_of_skipBlanks {left : List UInt8} (hskip : skipBlanks text = left) :
    ∃ blanks, IsBlanks blanks ∧ text = blanks ++ left := by
  refine ⟨text.takeWhile isBlank, fun b hb => List.mem_takeWhile_imp hb, ?_⟩
  rw [← hskip, skipBlanks, List.takeWhile_append_dropWhile]

theorem expectMark_taken {mark : Char} (hread : expectMark mark text = .ok rest) :
    ∃ blanks, IsBlanks blanks ∧ text = blanks ++ byte mark :: rest := by
  rw [expectMark] at hread
  split at hread
  · cases hread
  next b more hskip =>
    split at hread
    next hmark =>
      cases hread
      subst hmark
      exact exists_of_skipBlanks hskip
    · cases hread

theorem isBlanks_of_expectEnd (hread : expectEnd text = .ok ()) : IsBlanks text := by
  rw [expectEnd] at hread
  split at hread
  next hempty =>
    obtain ⟨blanks, hblanks, rfl⟩ := exists_of_skipBlanks (List.isEmpty_iff.mp hempty)
    rw [List.append_nil]
    exact hblanks
  · cases hread

theorem expectWord_taken {word : List UInt8} (hread : expectWord word text = .ok rest) :
    text = word ++ rest := by
  induction word generalizing text with
  | nil =>
      cases hread
      rfl
  | cons expected word ih =>
      cases text with
      | nil => cases hread
      | cons actual text =>
          rw [expectWord] at hread
          split at hread
          next hsame => rw [hsame, ih hread, List.cons_append]
          · cases hread

theorem nextEntry_closed_taken {closing : Char} {first : Bool}
    (hread : nextEntry closing first text = .ok (.closed rest)) :
    ∃ blanks, IsBlanks blanks ∧ text = blanks ++ byte closing :: rest := by
  rw [nextEntry] at hread
  split at hread
  · cases hread
  next b more hskip =>
    split at hread
    next hclosing =>
      cases hread
      subst hclosing
      exact exists_of_skipBlanks hskip
    · split_ifs at hread <;> cases hread

theorem nextEntry_entry_taken {closing : Char} {first : Bool}
    (hread : nextEntry closing first text = .ok (.entry rest)) :
    ∃ lead, IsLead first lead ∧ text = lead ++ rest := by
  rw [nextEntry] at hread
  split at hread
  · cases hread
  next b more hskip =>
    obtain ⟨blanks, hblanks, rfl⟩ := exists_of_skipBlanks hskip
    split at hread
    · cases hread
    split at hread
    next hfirst =>
      cases hread
      subst hfirst
      exact ⟨blanks, .first hblanks, rfl⟩
    next hfirst =>
      split at hread
      next hcomma =>
        cases hread
        subst hcomma
        obtain rfl : first = false := Bool.not_eq_true _ ▸ hfirst
        refine ⟨blanks ++ [byte ','], .next hblanks (List.forall_mem_nil _), ?_⟩
        rw [List.append_assoc, List.singleton_append]
      · cases hread

/-! ## Numerals -/

variable {atEnd : Fault}

theorem expectDigits_taken (atEnd : Fault) :
    Takes (expectDigits atEnd) fun digits part => part = digits ∧ IsRun digits := by
  intro text digits rest hread
  have hsplit := List.takeWhile_append_dropWhile (p := Text.isDigit) (l := text)
  have hdigits : ∀ d ∈ text.takeWhile Text.isDigit, Text.isDigit d = true :=
    fun d hd => List.mem_takeWhile_imp hd
  rw [expectDigits, List.span_eq_takeWhile_dropWhile] at hread
  generalize text.takeWhile Text.isDigit = front, text.dropWhile Text.isDigit = behind
    at hread hsplit hdigits
  cases front with
  | nil => cases behind <;> cases hread
  | cons d more =>
      cases hread
      exact ⟨_, hsplit.symm, rfl, List.cons_ne_nil d more, hdigits⟩

theorem readWhole_taken (atEnd : Fault) :
    Takes (readWhole atEnd) fun whole part => part = whole ∧ IsRun whole ∧
      (whole.head? = some (byte '0') → whole.length = 1) := by
  intro text whole rest hread
  obtain ⟨⟨digits, behind⟩, hdigits, hread⟩ := bind_eq_ok.mp hread
  obtain ⟨_, rfl, rfl, hrun⟩ := expectDigits_taken atEnd hdigits
  dsimp only at hread
  split at hread
  · cases hread
  next hlead =>
    cases hread
    refine ⟨_, rfl, rfl, hrun, fun hzero => ?_⟩
    have hone := List.length_pos_iff.mpr hrun.1
    have hmost : ¬ 1 < whole.length := fun hlong => hlead ⟨hzero, hlong⟩
    omega

theorem readFraction_taken (atEnd : Fault) :
    Takes (readFraction atEnd) fun _ part => IsFraction part := by
  intro text fraction rest hread
  cases text with
  | nil =>
      cases hread
      exact ⟨[], rfl, .absent⟩
  | cons b more =>
      rw [readFraction] at hread
      split at hread
      next hpoint =>
        obtain ⟨⟨digits, behind⟩, hdigits, hread⟩ := bind_eq_ok.mp hread
        cases hread
        obtain ⟨_, rfl, rfl, hrun⟩ := expectDigits_taken atEnd hdigits
        subst hpoint
        exact ⟨_, rfl, .present hrun⟩
      · cases hread
        exact ⟨[], rfl, .absent⟩

theorem readExponentSign_taken {negative : Bool}
    (hread : readExponentSign text = (negative, rest)) :
    ∃ sign, (sign = [] ∨ sign = [byte '+'] ∨ sign = [byte '-']) ∧ text = sign ++ rest := by
  cases text with
  | nil =>
      cases hread
      exact ⟨[], .inl rfl, rfl⟩
  | cons b more =>
      rw [readExponentSign] at hread
      split at hread
      next hminus =>
        cases hread
        exact ⟨[b], .inr (.inr (congrArg (fun b => [b]) hminus)), rfl⟩
      split at hread
      next hplus =>
        cases hread
        exact ⟨[b], .inr (.inl (congrArg (fun b => [b]) hplus)), rfl⟩
      · cases hread
        exact ⟨[], .inl rfl, rfl⟩

theorem readExponent_taken (atEnd : Fault) :
    Takes (readExponent atEnd) fun _ part => IsExponent part := by
  intro text exponent rest hread
  cases text with
  | nil =>
      cases hread
      exact ⟨[], rfl, .absent⟩
  | cons b more =>
      rw [readExponent] at hread
      split at hread
      next hletter =>
        cases hsigned : readExponentSign more with
        | mk negative behind =>
            rw [hsigned] at hread
            obtain ⟨sign, hsign, rfl⟩ := readExponentSign_taken hsigned
            obtain ⟨⟨digits, left⟩, hdigits, hread⟩ := bind_eq_ok.mp hread
            cases hread
            obtain ⟨_, rfl, rfl, hrun⟩ := expectDigits_taken atEnd hdigits
            refine ⟨_, ?_, .present hletter hsign hrun⟩
            rw [List.cons_append, List.append_assoc]
      · cases hread
        exact ⟨[], rfl, .absent⟩

theorem readUnsigned_taken (atEnd : Fault) (negative : Bool) :
    Takes (readUnsigned atEnd negative) fun _ part =>
      ∀ {sign}, sign = [] ∨ sign = [byte '-'] → IsNumeral (sign ++ part) := by
  intro text numeral rest hread
  obtain ⟨⟨whole, behind⟩, hwhole, hnext⟩ := bind_eq_ok.mp hread
  obtain ⟨⟨fraction?, left⟩, hfraction, hnext⟩ := bind_eq_ok.mp hnext
  obtain ⟨⟨exponent?, last⟩, hexponent, hnext⟩ := bind_eq_ok.mp hnext
  cases hnext
  obtain ⟨_, rfl, rfl, hrun, hzero⟩ := readWhole_taken atEnd hwhole
  obtain ⟨fraction, rfl, hfraction'⟩ := readFraction_taken atEnd hfraction
  obtain ⟨exponent, rfl, hexponent'⟩ := readExponent_taken atEnd hexponent
  refine ⟨_ ++ (fraction ++ exponent), ?_, fun hsign =>
    .mk hsign hrun hzero hfraction' hexponent'⟩
  simp only [List.append_assoc]

theorem readNumeral_taken (atEnd : Fault) :
    Takes (readNumeral atEnd) fun _ part => IsNumeral part := by
  intro text numeral rest hread
  cases text with
  | nil => cases hread
  | cons b more =>
      rw [readNumeral] at hread
      split at hread
      next hminus =>
        obtain ⟨part, rfl, hnumeral⟩ := readUnsigned_taken atEnd true hread
        subst hminus
        exact ⟨_, rfl, hnumeral (.inr rfl)⟩
      · obtain ⟨part, hpart, hnumeral⟩ := readUnsigned_taken atEnd false hread
        exact ⟨part, hpart, hnumeral (.inl rfl)⟩

/-! ## String literals -/

theorem mem_hexDigits_of_hexValue? {h : UInt8} {n : Nat} (hvalue : hexValue? h = some n) :
    (h, n) ∈ hexDigits := by
  have hall : ∀ i < 256, ∀ n ∈ hexValue? (UInt8.ofNat i), (UInt8.ofNat i, n) ∈ hexDigits := by
    decide +kernel
  have hdigit := hall h.toNat h.toNat_lt n
  rw [UInt8.ofNat_toNat] at hdigit
  exact hdigit hvalue

theorem mem_shortEscapes_of_shortEscape? {letter meaning : UInt8}
    (hmeaning : shortEscape? letter = some meaning) : (letter, meaning) ∈ shortEscapes := by
  rw [shortEscape?] at hmeaning
  split at hmeaning
  next hself =>
    cases hmeaning
    rcases hself with rfl | rfl | rfl <;> decide
  · split_ifs at hmeaning <;> cases hmeaning <;> subst letter <;> decide

theorem readHex4_taken : Takes readHex4 fun code part => HexCode part code := by
  intro text code rest hread
  unfold readHex4 at hread
  split at hread
  next b₀ b₁ b₂ b₃ more =>
    split at hread
    next h₀ h₁ h₂ h₃ hvalue₀ hvalue₁ hvalue₂ hvalue₃ =>
      cases hread
      exact ⟨[b₀, b₁, b₂, b₃], rfl, .mk (mem_hexDigits_of_hexValue? hvalue₀)
        (mem_hexDigits_of_hexValue? hvalue₁) (mem_hexDigits_of_hexValue? hvalue₂)
        (mem_hexDigits_of_hexValue? hvalue₃)⟩
    · cases hread
  · cases hread

/-- The second half of a pair. -/
theorem readTrailing_taken (leading : Nat) :
    Takes (readTrailing leading) fun bytes part => ∃ digits code,
      part = byte '\\' :: byte 'u' :: digits ∧ HexCode digits code ∧ isTrailing code = true ∧
        bytes = encodeChar (pairCode leading code) := by
  intro text bytes rest hread
  unfold readTrailing at hread
  split at hread
  · cases hread
  next b more =>
    split at hread
    next hbackslash =>
      split at hread
      · cases hread
      next u more =>
        split at hread
        next hu =>
          obtain ⟨⟨code, behind⟩, hcode, hnext⟩ := bind_eq_ok.mp hread
          obtain ⟨digits, rfl, hdigits⟩ := readHex4_taken hcode
          dsimp only at hnext
          split at hnext
          next htrailing =>
            obtain ⟨hbytes, rfl⟩ := Prod.mk.inj (Except.ok.inj hnext)
            subst hbackslash hu
            exact ⟨_, rfl, digits, code, rfl, hdigits, htrailing, hbytes.symm⟩
          · cases hnext
        · cases hread
    · cases hread

/-- What a literal is read as: the bytes that it denotes if it is kept, and anything if not. -/
def Means : (kept : Bool) → (content bytes : List UInt8) → Prop
  | true, content, bytes => Denotes content bytes
  | false, content, _ => IsContent content

/-- Put before a literal, the part puts its bytes before those of the literal. -/
def IsElement (kept : Bool) (bytes part : List UInt8) : Prop :=
  ∀ {more others}, Means kept more others → Means kept (part ++ more) (bytes ++ others)

theorem readCodeUnit_taken (kept : Bool) :
    Takes (readCodeUnit kept) fun bytes part =>
      IsElement kept bytes (byte '\\' :: byte 'u' :: part) := by
  intro text bytes rest hread
  obtain ⟨⟨code, behind⟩, hcode, hnext⟩ := bind_eq_ok.mp hread
  obtain ⟨digits, rfl, hdigits⟩ := readHex4_taken hcode
  cases kept with
  | false =>
      cases hnext
      exact ⟨digits, rfl, fun hmore => .unicode hdigits hmore⟩
  | true =>
      simp only [Bool.not_true, Bool.false_eq_true, if_false] at hnext
      split at hnext
      · cases hnext
      next htrailing =>
        rw [isTrailing_iff] at htrailing
        split at hnext
        next hleading =>
          obtain ⟨_, rfl, digits', code', rfl, hdigits', htrailing', hbytes⟩ :=
            readTrailing_taken code hnext
          refine ⟨digits ++ byte '\\' :: byte 'u' :: digits', ?_, fun {more others} hmore => ?_⟩
          · rw [List.append_assoc]
          · have hpair : Means true _ _ := Denotes.pair hdigits (isLeading_iff.mp hleading) hdigits'
              (isTrailing_iff.mp htrailing') hmore
            rw [hbytes]
            simpa only [List.cons_append, List.append_assoc] using hpair
        next hleading =>
          rw [isLeading_iff] at hleading
          have hsingle : code < 0xD800 ∨ 0xDFFF < code := by omega
          cases hnext
          exact ⟨digits, rfl, fun hmore => .unicode hdigits hsingle hmore⟩

theorem readEscape_taken (kept : Bool) :
    Takes (readEscape kept) fun bytes part => IsElement kept bytes (byte '\\' :: part) := by
  intro text bytes rest hread
  cases text with
  | nil => cases hread
  | cons b more =>
      rw [readEscape] at hread
      split at hread
      next hu =>
        obtain ⟨part, rfl, helement⟩ := readCodeUnit_taken kept hread
        subst hu
        exact ⟨_, rfl, helement⟩
      · split at hread
        next meaning hmeaning =>
          have hletter := mem_shortEscapes_of_shortEscape? hmeaning
          cases hread
          refine ⟨[b], rfl, fun {more others} hmore => ?_⟩
          cases kept with
          | false => exact .short hletter hmore
          | true => exact .short hletter hmore
        · cases hread

/-- An element of a literal, or its closing quote. -/
theorem readElement_taken (kept : Bool) :
    Takes (readElement kept) fun element? part =>
      match element? with
      | none => part = [byte '"']
      | some bytes => IsElement kept bytes part := by
  intro text element? rest hread
  cases text with
  | nil => cases hread
  | cons b more =>
      rw [readElement] at hread
      split at hread
      next hquote =>
        cases hread
        exact ⟨[b], rfl, congrArg (fun b => [b]) hquote⟩
      next hquote =>
        split at hread
        next hbackslash =>
          obtain ⟨⟨bytes, behind⟩, hbytes, hread⟩ := bind_eq_ok.mp hread
          cases hread
          obtain ⟨part, rfl, helement⟩ := readEscape_taken kept hbytes
          subst hbackslash
          exact ⟨_, rfl, helement⟩
        next hbackslash =>
          split at hread
          · cases hread
          next hcontrol =>
            cases hread
            have hplain : IsUnescaped b := ⟨hcontrol, hquote, hbackslash⟩
            refine ⟨[b], rfl, fun {more others} hmore => ?_⟩
            cases kept with
            | false => exact .plain hplain hmore
            | true => exact .plain hplain hmore

theorem readElements_taken (kept : Bool) (fuel : Nat) :
    Takes (readElements kept fuel) fun bytes part => ∃ content,
      part = content ++ [byte '"'] ∧ Means kept content bytes := by
  induction fuel with
  | zero =>
      intro text bytes rest hread
      cases hread
  | succ fuel ih =>
      intro text bytes rest hread
      obtain ⟨⟨element?, behind⟩, helement, hread⟩ := bind_eq_ok.mp hread
      obtain ⟨part, rfl, hpart⟩ := readElement_taken kept helement
      cases element? with
      | none =>
          cases hread
          refine ⟨_, rfl, [], hpart, ?_⟩
          cases kept with
          | false => exact .nil
          | true => exact .nil
      | some element =>
          obtain ⟨⟨others, left⟩, hothers, hread⟩ := bind_eq_ok.mp hread
          cases hread
          obtain ⟨_, rfl, content, rfl, hcontent⟩ := ih hothers
          refine ⟨part ++ content ++ [byte '"'], ?_, part ++ content, rfl, hpart hcontent⟩
          simp only [List.append_assoc]

/-- **A kept literal denotes the text that is read from it.** -/
theorem readString_taken :
    Takes readString fun value part => ∃ content,
      part = content ++ [byte '"'] ∧ Denotes content (Text.bytes value) := by
  intro text value rest hread
  obtain ⟨⟨bytes, behind⟩, hbytes, hnext⟩ := bind_eq_ok.mp hread
  obtain ⟨_, rfl, content, rfl, hcontent⟩ := readElements_taken true _ hbytes
  dsimp only at hnext
  split at hnext
  next found hfound =>
    cases hnext
    rw [Text.ofBytes?_eq_some_iff] at hfound
    exact ⟨_, rfl, content, rfl, hfound ▸ hcontent⟩
  · cases hnext

theorem skipString_taken (hread : skipString text = .ok rest) :
    ∃ content, IsContent content ∧ text = content ++ byte '"' :: rest := by
  obtain ⟨⟨bytes, behind⟩, hbytes, rfl⟩ := map_eq_ok.mp hread
  obtain ⟨_, hpart, content, rfl, hcontent⟩ := readElements_taken false _ hbytes
  refine ⟨content, hcontent, ?_⟩
  rw [hpart, List.append_assoc, List.singleton_append]

end HubLink.Json
