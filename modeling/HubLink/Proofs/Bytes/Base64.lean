import HubLink.Bytes.Base64
import HubLink.Proofs.Outcome

/-!
# Base64 text is read back

The reader takes a base64 text apart in groups of four symbols, the printer makes it of groups of
three bytes.  A group is read back by itself (`decodeFrom_encode`), and what is checked first, a
foreign byte that stands alone, never stands in a printed text, whose length is a multiple of four
(`decode_encoded`).
-/

namespace HubLink.Base64

/-! ## Symbols -/

theorem value?_symbol {n : Nat} (hn : n < 64) : value? (symbol n) = some n := by
  revert n
  decide

theorem symbol_ne_pad {n : Nat} (hn : n < 64) : symbol n ≠ pad := by
  revert n
  decide

theorem symbol_lt {n : Nat} (hn : n < 64) : symbol n < 128 := by
  revert n
  decide

theorem expectSymbol_symbol {n : Nat} (hn : n < 64) (offset : Nat) :
    expectSymbol (symbol n) offset = .ok n := by
  rw [expectSymbol, value?_symbol hn]

/-! ## Three bytes in four numbers -/

theorem first_lt (a : UInt8) : a.toNat / 4 < 64 := by
  have ha := a.toNat_lt
  omega

theorem second_lt (a b : UInt8) : a.toNat % 4 * 16 + b.toNat / 16 < 64 := by
  have hb := b.toNat_lt
  omega

theorem third_lt (b c : UInt8) : b.toNat % 16 * 4 + c.toNat / 64 < 64 := by
  have hc := c.toNat_lt
  omega

theorem fourth_lt (c : UInt8) : c.toNat % 64 < 64 :=
  Nat.mod_lt _ (by decide)

/-- Three bytes are put together again from their four numbers. -/
theorem bytes3_split (a b c : UInt8) :
    bytes3 (a.toNat / 4) (a.toNat % 4 * 16 + b.toNat / 16) (b.toNat % 16 * 4 + c.toNat / 64)
      (c.toNat % 64) = [a, b, c] := by
  have hb := b.toNat_lt
  have hc := c.toNat_lt
  have hfirst : a.toNat / 4 * 4 + (a.toNat % 4 * 16 + b.toNat / 16) / 16 = a.toNat := by omega
  have hsecond : (a.toNat % 4 * 16 + b.toNat / 16) % 16 * 16 +
      (b.toNat % 16 * 4 + c.toNat / 64) / 4 = b.toNat := by omega
  have hthird : (b.toNat % 16 * 4 + c.toNat / 64) % 4 * 64 + c.toNat % 64 = c.toNat := by omega
  rw [bytes3, hfirst, hsecond, hthird, UInt8.ofNat_toNat, UInt8.ofNat_toNat, UInt8.ofNat_toNat]

/-! ## Groups -/

theorem readLast_symbol {n : Nat} (hn : n < 64) (offset position : Nat) {rest : List UInt8}
    {symbols : List Nat} {padding : Nat}
    (hrest : readLast offset (position + 1) rest = .ok (symbols, padding)) :
    readLast offset position (symbol n :: rest) = .ok (n :: symbols, padding) := by
  rw [readLast, if_neg (symbol_ne_pad hn), expectSymbol_symbol hn, hrest]
  rfl

/-- A whole group at the end of the text. -/
theorem decodeLast_whole {p q r s : Nat} (hp : p < 64) (hq : q < 64) (hr : r < 64) (hs : s < 64)
    (offset : Nat) :
    decodeLast offset [symbol p, symbol q, symbol r, symbol s] = .ok (bytes3 p q r s) := by
  have hend : readLast offset 4 [] = .ok ([], 0) := rfl
  have hread := readLast_symbol hp offset 0 (readLast_symbol hq offset 1
    (readLast_symbol hr offset 2 (readLast_symbol hs offset 3 hend)))
  rw [decodeLast, hread]
  rfl

/-- A group with one padding sign. -/
theorem decodeLast_padded {p q r : Nat} (hp : p < 64) (hq : q < 64) (hr : r < 64)
    (hunused : r % 4 = 0) (offset : Nat) :
    decodeLast offset [symbol p, symbol q, symbol r, pad] = .ok ((bytes3 p q r 0).take 2) := by
  have hpadding : readLast offset 3 [pad] = .ok ([], 1) := rfl
  have hread := readLast_symbol hp offset 0 (readLast_symbol hq offset 1
    (readLast_symbol hr offset 2 hpadding))
  rw [decodeLast, hread]
  simp [hunused, bind, Except.bind]

/-- A group with two padding signs. -/
theorem decodeLast_twice_padded {p q : Nat} (hp : p < 64) (hq : q < 64) (hunused : q % 16 = 0)
    (offset : Nat) :
    decodeLast offset [symbol p, symbol q, pad, pad] = .ok ((bytes3 p q 0 0).take 1) := by
  have hpadding : readLast offset 2 [pad, pad] = .ok ([], 2) := rfl
  have hread := readLast_symbol hp offset 0 (readLast_symbol hq offset 1 hpadding)
  rw [decodeLast, hread]
  simp [hunused, bind, Except.bind]

/-! ## Whole texts -/

/-- Three bytes, or what is left of three, take four symbols. -/
theorem length_encode (content : List UInt8) :
    (encode content).length = 4 * ((content.length + 2) / 3) := by
  fun_induction encode content with
  | case1 a b c rest ih =>
      simp only [List.length_append, List.length_cons, List.length_nil, ih]
      omega
  | _ => simp

/-- What holds of the symbols and of the padding sign holds of every byte of a text. -/
theorem forall_mem_encode {P : UInt8 → Prop} (hsymbol : ∀ n < 64, P (symbol n)) (hpad : P pad)
    (content : List UInt8) : ∀ b ∈ encode content, P b := by
  fun_induction encode content with
  | case1 a b c rest ih =>
      simp only [List.cons_append, List.nil_append, List.forall_mem_cons]
      exact ⟨hsymbol _ (first_lt a), hsymbol _ (second_lt a b), hsymbol _ (third_lt b c),
        hsymbol _ (fourth_lt c), ih⟩
  | case2 a b =>
      simp only [List.forall_mem_cons]
      exact ⟨hsymbol _ (first_lt a), hsymbol _ (second_lt a b), hsymbol _ (third_lt b 0), hpad,
        List.forall_mem_nil _⟩
  | case3 a =>
      simp only [List.forall_mem_cons]
      exact ⟨hsymbol _ (first_lt a), hsymbol _ (second_lt a 0), hpad, hpad, List.forall_mem_nil _⟩
  | case4 => exact List.forall_mem_nil _

theorem lt_of_mem_encode {content : List UInt8} {b : UInt8} (hb : b ∈ encode content) :
    b < 128 :=
  forall_mem_encode (P := (· < 128)) (fun _ => symbol_lt) (by decide) content b hb

/-- Every group is read back by itself. -/
theorem decodeFrom_encode (offset : Nat) (content : List UInt8) :
    decodeFrom offset (encode content) = .ok content := by
  fun_induction encode content generalizing offset with
  | case1 a b c rest ih =>
      cases hrest : encode rest with
      | nil =>
          -- nothing is left to encode, since what is read back from nothing is nothing
          have hnone := ih offset
          rw [hrest] at hnone
          cases hnone
          have hwhole := decodeLast_whole (first_lt a) (second_lt a b) (third_lt b c)
            (fourth_lt c) offset
          rw [bytes3_split] at hwhole
          exact hwhole
      | cons e more =>
          have hmore := ih (offset + 4)
          rw [hrest] at hmore
          simp only [List.cons_append, List.nil_append, decodeFrom,
            expectSymbol_symbol (first_lt a), expectSymbol_symbol (second_lt a b),
            expectSymbol_symbol (third_lt b c), expectSymbol_symbol (fourth_lt c), hmore]
          exact congrArg (fun group => Except.ok (group ++ rest)) (bytes3_split a b c)
  | case2 a b =>
      have hunused : b.toNat % 16 * 4 % 4 = 0 := Nat.mul_mod_left _ 4
      have hpadded := decodeLast_padded (first_lt a) (second_lt a b) (third_lt b 0) hunused offset
      have hsplit := congrArg (List.take 2) (bytes3_split a b 0)
      exact hpadded.trans (congrArg Except.ok hsplit)
  | case3 a =>
      have hunused : a.toNat % 4 * 16 % 16 = 0 := Nat.mul_mod_left _ 16
      have hpadded := decodeLast_twice_padded (first_lt a) (second_lt a 0) hunused offset
      have hsplit := congrArg (List.take 1) (bytes3_split a 0 0)
      exact hpadded.trans (congrArg Except.ok hsplit)
  | case4 => rfl

/-- The bytes of a log chunk survive their way through base64 text. -/
theorem decode_encoded (content : List UInt8) : decode (encode content) = .ok content := by
  have hstray : strayLast? (encode content) = none := by
    unfold strayLast?
    rw [length_encode, Nat.mul_mod_right]
    split <;> simp
  rw [decode, hstray]
  exact decodeFrom_encode 0 content

end HubLink.Base64
