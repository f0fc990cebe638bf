import HubLink.Proofs.Json.Grammar
import HubLink.Proofs.Json.Literal

/-!
# Between the quotes

A literal is read element by element.  Passed over, every grammatical literal is left at its closing
quote (`skipString_content`); kept, a literal is read as the text that it denotes
(`readString_denotes`).

A kept literal may also be refused, because a surrogate escape stands alone in it or its bytes are no
UTF-8.  Whether it is does not depend on what stands behind the closing quote (`exists_readString`):
the one element that looks ahead is a leading surrogate, and it finds the quote or another element.
-/

namespace HubLink.Json

open Text (byte)

variable {digits more bytes rest text : List UInt8} {code : Nat}

/-! ## Elements -/

theorem readElement_plain {b : UInt8} (hplain : IsUnescaped b) (kept : Bool) :
    readElement kept (b :: text) = .ok (some [b], text) := by
  obtain ⟨hcontrol, hquote, hbackslash⟩ := hplain
  rw [readElement, if_neg hquote, if_neg hbackslash, if_neg hcontrol]

theorem shortEscape?_of_mem {letter meaning : UInt8} (hletter : (letter, meaning) ∈ shortEscapes) :
    letter ≠ byte 'u' ∧ shortEscape? letter = some meaning := by
  have hall : shortEscapes.all (fun entry =>
      decide (entry.1 ≠ byte 'u') && (shortEscape? entry.1 == some entry.2)) = true := by
    decide
  have hentry := List.all_eq_true.mp hall _ hletter
  rw [Bool.and_eq_true, decide_eq_true_iff, beq_iff_eq] at hentry
  exact hentry

theorem readElement_short {letter meaning : UInt8} (hletter : (letter, meaning) ∈ shortEscapes)
    (kept : Bool) :
    readElement kept (byte '\\' :: letter :: text) = .ok (some [meaning], text) := by
  obtain ⟨hu, hmeaning⟩ := shortEscape?_of_mem hletter
  have hread : readEscape kept (letter :: text) = .ok ([meaning], text) := by
    rw [readEscape, if_neg hu, hmeaning]
  exact bind_eq_ok.mpr ⟨_, hread, rfl⟩

theorem hexValue?_of_mem {h : UInt8} {n : Nat} (hdigit : (h, n) ∈ hexDigits) :
    hexValue? h = some n := by
  have hall : hexDigits.all (fun entry => hexValue? entry.1 == some entry.2) = true := by
    decide
  exact beq_iff_eq.mp (List.all_eq_true.mp hall _ hdigit)

theorem readHex4_of_hexCode (hdigits : HexCode digits code) :
    readHex4 (digits ++ text) = .ok (code, text) := by
  cases hdigits with
  | mk h₀ h₁ h₂ h₃ =>
      simp only [List.cons_append, List.nil_append, readHex4, hexValue?_of_mem h₀,
        hexValue?_of_mem h₁, hexValue?_of_mem h₂, hexValue?_of_mem h₃]

/-- A long escape that is passed over is checked for its digits alone. -/
theorem readElement_unicode_skipped (hdigits : HexCode digits code) :
    readElement false (byte '\\' :: byte 'u' :: (digits ++ text)) = .ok (some [], text) := by
  have hread : readEscape false (byte 'u' :: (digits ++ text)) = .ok ([], text) := by
    rw [readEscape, if_pos rfl, readCodeUnit, readHex4_of_hexCode hdigits]
    rfl
  exact bind_eq_ok.mpr ⟨_, hread, rfl⟩

/-- A long escape that is kept, by the surrogates it may be. -/
theorem readEscape_unicode (hdigits : HexCode digits code) :
    readEscape true (byte 'u' :: (digits ++ text)) =
      if isTrailing code then .error .malformed
      else if isLeading code then readTrailing code text
      else .ok (encodeChar code, text) := by
  rw [readEscape, if_pos rfl, readCodeUnit, readHex4_of_hexCode hdigits]
  rfl

theorem isTrailing_iff : isTrailing code = true ↔ 0xDC00 ≤ code ∧ code ≤ 0xDFFF := by
  rw [isTrailing, Bool.and_eq_true, decide_eq_true_iff, decide_eq_true_iff]

theorem isLeading_iff : isLeading code = true ↔ 0xD800 ≤ code ∧ code ≤ 0xDBFF := by
  rw [isLeading, Bool.and_eq_true, decide_eq_true_iff, decide_eq_true_iff]

/-- The second half of a pair is an escape of its own. -/
theorem readTrailing_unicode {leading : Nat} (hdigits : HexCode digits code) :
    readTrailing leading (byte '\\' :: byte 'u' :: (digits ++ text)) =
      if isTrailing code then .ok (encodeChar (pairCode leading code), text)
      else .error .malformed := by
  rw [readTrailing, if_pos rfl]
  simp only [if_true, readHex4_of_hexCode hdigits, bind, Except.bind]
  rfl

/-- The first element is read, and then what is left of the literal. -/
theorem readElements_step {kept : Bool} {fuel : Nat} {element : List UInt8}
    (hread : readElement kept text = .ok (some element, rest)) :
    readElements kept (fuel + 1) text =
      (readElements kept fuel rest).map fun found => (element ++ found.1, found.2) := by
  rw [readElements, hread]
  simp only [bind, Except.bind]
  cases readElements kept fuel rest <;> rfl

theorem readElements_step_error {kept : Bool} {fuel : Nat} {fault : Fault}
    (hread : readElement kept text = .error fault) :
    readElements kept (fuel + 1) text = .error fault := by
  rw [readElements]
  exact bind_eq_error hread _

/-- Fuel for an element leaves fuel for what is behind it. -/
theorem exists_fuel (behind : Nat) {size fuel : Nat} (hfuel : size ≤ fuel) (hsize : behind < size) :
    ∃ left, fuel = left + 1 ∧ behind ≤ left :=
  ⟨fuel - 1, by omega, by omega⟩

/-! ## Literals that are passed over -/

theorem exists_readElements_skipped {content : List UInt8} (hcontent : IsContent content)
    {fuel : Nat} (hfuel : content.length ≤ fuel) :
    ∃ bytes, readElements false (fuel + 1) (content ++ byte '"' :: rest) = .ok (bytes, rest) := by
  induction hcontent generalizing fuel with
  | nil => exact ⟨[], rfl⟩
  | @plain b more hplain _ ih =>
      obtain ⟨fuel, rfl, hleft⟩ := exists_fuel more.length hfuel (by simp)
      obtain ⟨bytes, hmore⟩ := ih hleft
      exact ⟨_, (readElements_step (readElement_plain hplain false)).trans (congrArg _ hmore)⟩
  | @short letter meaning more hletter _ ih =>
      obtain ⟨fuel, rfl, hleft⟩ := exists_fuel more.length hfuel (by grind)
      obtain ⟨bytes, hmore⟩ := ih hleft
      exact ⟨_, (readElements_step (readElement_short hletter false)).trans (congrArg _ hmore)⟩
  | @unicode digits more code hdigits _ ih =>
      obtain ⟨fuel, rfl, hleft⟩ := exists_fuel more.length hfuel (by grind)
      obtain ⟨bytes, hmore⟩ := ih hleft
      rw [List.cons_append, List.cons_append, List.append_assoc]
      exact ⟨_, (readElements_step (readElement_unicode_skipped hdigits)).trans
        (congrArg _ hmore)⟩

/-- **A literal that is passed over is left at its closing quote.** -/
theorem skipString_content {content : List UInt8} (hcontent : IsContent content) :
    skipString (content ++ byte '"' :: rest) = .ok rest := by
  obtain ⟨bytes, hread⟩ := @exists_readElements_skipped rest content hcontent
    (content ++ byte '"' :: rest).length (by simp)
  rw [skipString, hread]
  rfl

/-! ## Literals that denote text -/

theorem readElements_denotes {content : List UInt8} (hdenotes : Denotes content bytes) {fuel : Nat}
    (hfuel : content.length ≤ fuel) :
    readElements true (fuel + 1) (content ++ byte '"' :: rest) = .ok (bytes, rest) := by
  induction hdenotes generalizing fuel with
  | nil => rfl
  | @plain b more bytes hplain _ ih =>
      obtain ⟨fuel, rfl, hleft⟩ := exists_fuel more.length hfuel (by simp)
      exact (readElements_step (readElement_plain hplain true)).trans (congrArg _ (ih hleft))
  | @short letter meaning more bytes hletter _ ih =>
      obtain ⟨fuel, rfl, hleft⟩ := exists_fuel more.length hfuel (by grind)
      exact (readElements_step (readElement_short hletter true)).trans (congrArg _ (ih hleft))
  | @unicode digits more bytes code hdigits hcode _ ih =>
      obtain ⟨fuel, rfl, hleft⟩ := exists_fuel more.length hfuel (by grind)
      have htrailing : ¬ isTrailing code = true := by
        rw [isTrailing_iff]
        omega
      have hleading : ¬ isLeading code = true := by
        rw [isLeading_iff]
        omega
      have hescape := @readEscape_unicode digits (more ++ byte '"' :: rest) code hdigits
      rw [if_neg htrailing, if_neg hleading] at hescape
      have hread : readElement true
          (byte '\\' :: byte 'u' :: (digits ++ (more ++ byte '"' :: rest))) =
            .ok (some (encodeChar code), more ++ byte '"' :: rest) :=
        bind_eq_ok.mpr ⟨_, hescape, rfl⟩
      rw [List.cons_append, List.cons_append, List.append_assoc]
      exact (readElements_step hread).trans (congrArg _ (ih hleft))
  | @pair digits digits' more bytes leading trailing hdigits hleading hdigits' htrailing _ ih =>
      obtain ⟨fuel, rfl, hleft⟩ := exists_fuel more.length hfuel (by grind)
      have hfirst : ¬ isTrailing leading = true := by
        rw [isTrailing_iff]
        omega
      have hescape := @readEscape_unicode digits
        (byte '\\' :: byte 'u' :: (digits' ++ (more ++ byte '"' :: rest))) leading hdigits
      rw [if_neg hfirst, if_pos (isLeading_iff.mpr hleading), readTrailing_unicode hdigits',
        if_pos (isTrailing_iff.mpr htrailing)] at hescape
      have hread : readElement true (byte '\\' :: byte 'u' :: (digits ++ byte '\\' :: byte 'u' ::
          (digits' ++ (more ++ byte '"' :: rest)))) =
            .ok (some (encodeChar (pairCode leading trailing)), more ++ byte '"' :: rest) :=
        bind_eq_ok.mpr ⟨_, hescape, rfl⟩
      simp only [List.cons_append, List.append_assoc]
      exact (readElements_step hread).trans (congrArg _ (ih hleft))

/-- **A kept literal is read as the text that it denotes**, however it is spelled. -/
theorem readString_denotes {content : List UInt8} {value : String}
    (hdenotes : Denotes content (Text.bytes value)) :
    readString (content ++ byte '"' :: rest) = .ok (value, rest) := by
  have hread := @readElements_denotes _ rest content hdenotes
    (content ++ byte '"' :: rest).length (by simp)
  simp only [readString, hread, bind, Except.bind, Text.ofBytes?_bytes]

/-! ## Literals that are kept or refused -/

/-- What comes of a leading surrogate and the literal behind it: it finds its other half there, and
what is left is shorter, or it is refused. -/
theorem readTrailing_cases {content : List UInt8} (hcontent : IsContent content) (leading : Nat) :
    (∃ bytes more, IsContent more ∧ more.length < content.length ∧ ∀ {rest},
      readTrailing leading (content ++ byte '"' :: rest) =
        .ok (bytes, more ++ byte '"' :: rest)) ∨
    ∀ {rest}, ∃ fault, readTrailing leading (content ++ byte '"' :: rest) = .error fault := by
  cases hcontent with
  | nil => exact .inr ⟨.malformed, rfl⟩
  | @plain b more hplain _ =>
      exact .inr ⟨.malformed, if_neg hplain.2.2⟩
  | @short letter meaning more hletter _ =>
      refine .inr ⟨.malformed, ?_⟩
      rw [List.cons_append, List.cons_append, readTrailing, if_pos rfl]
      exact if_neg (shortEscape?_of_mem hletter).1
  | @unicode digits more code hdigits hmore =>
      by_cases htrailing : isTrailing code = true
      · refine .inl ⟨encodeChar (pairCode leading code), more, hmore, by grind, fun {rest} => ?_⟩
        rw [List.cons_append, List.cons_append, List.append_assoc, readTrailing_unicode hdigits,
          if_pos htrailing]
      · refine .inr fun {rest} => ⟨.malformed, ?_⟩
        rw [List.cons_append, List.cons_append, List.append_assoc, readTrailing_unicode hdigits,
          if_neg htrailing]

/-- The first element of a literal that is kept: the closing quote, an element with a shorter literal
behind it, or a refusal. -/
theorem readElement_cases {content : List UInt8} (hcontent : IsContent content) :
    content = [] ∨
    (∃ element more, IsContent more ∧ more.length < content.length ∧ ∀ {rest},
      readElement true (content ++ byte '"' :: rest) =
        .ok (some element, more ++ byte '"' :: rest)) ∨
    ∀ {rest}, ∃ fault, readElement true (content ++ byte '"' :: rest) = .error fault := by
  cases hcontent with
  | nil => exact .inl rfl
  | @plain b more hplain hmore =>
      exact .inr (.inl ⟨[b], more, hmore, by simp, readElement_plain hplain true⟩)
  | @short letter meaning more hletter hmore =>
      exact .inr (.inl ⟨[meaning], more, hmore, by grind, readElement_short hletter true⟩)
  | @unicode digits more code hdigits hmore =>
      right
      have hescape := @readEscape_unicode digits
      by_cases htrailing : isTrailing code = true
      · refine .inr fun {rest} => ⟨.malformed, ?_⟩
        rw [List.cons_append, List.cons_append, List.append_assoc]
        refine bind_eq_error ?_ _
        rw [hescape hdigits, if_pos htrailing]
      by_cases hleading : isLeading code = true
      · rcases readTrailing_cases hmore code with ⟨bytes, behind, hbehind, hlength, hread⟩ | hread
        · refine .inl ⟨bytes, behind, hbehind, by grind, fun {rest} => ?_⟩
          rw [List.cons_append, List.cons_append, List.append_assoc]
          refine bind_eq_ok.mpr ⟨(bytes, behind ++ byte '"' :: rest), ?_, rfl⟩
          rw [hescape hdigits, if_neg htrailing, if_pos hleading, hread]
        · refine .inr fun {rest} => ?_
          obtain ⟨fault, hread⟩ := @hread rest
          refine ⟨fault, ?_⟩
          rw [List.cons_append, List.cons_append, List.append_assoc]
          refine bind_eq_error ?_ _
          rw [hescape hdigits, if_neg htrailing, if_pos hleading, hread]
      · refine .inl ⟨encodeChar code, more, hmore, by grind, fun {rest} => ?_⟩
        rw [List.cons_append, List.cons_append, List.append_assoc]
        refine bind_eq_ok.mpr ⟨(encodeChar code, more ++ byte '"' :: rest), ?_, rfl⟩
        rw [hescape hdigits, if_neg htrailing, if_neg hleading]

/-- Elements are kept or refused by the literal alone. -/
theorem exists_readElements {content : List UInt8} (hcontent : IsContent content) :
    ∃ result : Option (List UInt8), ∀ {fuel rest}, content.length ≤ fuel →
      (readElements true (fuel + 1) (content ++ byte '"' :: rest)).toOption =
        result.map (·, rest) := by
  induction hsize : content.length using Nat.strongRecOn generalizing content with
  | ind size ih =>
      subst hsize
      rcases readElement_cases hcontent with rfl | ⟨element, more, hmore, hlength, hread⟩ | hread
      · exact ⟨some [], fun _ => rfl⟩
      · obtain ⟨result, hresult⟩ := ih more.length hlength hmore rfl
        refine ⟨result.map (element ++ ·), fun {fuel rest} hfuel => ?_⟩
        obtain ⟨fuel, rfl, hleft⟩ := exists_fuel _ hfuel hlength
        rw [readElements_step hread, toOption_map, hresult hleft]
        cases result <;> rfl
      · refine ⟨none, fun {fuel rest} _ => ?_⟩
        obtain ⟨fault, hread⟩ := @hread rest
        rw [readElements_step_error hread]
        rfl

/-- **A literal is kept or refused by itself**, whatever stands behind its closing quote. -/
theorem exists_readString {content : List UInt8} (hcontent : IsContent content) :
    ∃ result : Option String, ∀ {rest},
      (readString (content ++ byte '"' :: rest)).toOption = result.map (·, rest) := by
  obtain ⟨result, hresult⟩ := exists_readElements hcontent
  refine ⟨result.bind Text.ofBytes?, fun {rest} => ?_⟩
  have hread := @hresult (content ++ byte '"' :: rest).length rest (by simp)
  rw [readString, toOption_bind, hread]
  cases result with
  | none => rfl
  | some bytes =>
      simp only [Option.map_some, Option.bind_some]
      cases Text.ofBytes? bytes <;> rfl

end HubLink.Json
