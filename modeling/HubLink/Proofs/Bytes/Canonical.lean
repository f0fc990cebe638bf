import HubLink.Proofs.Bytes.Base64
import HubLink.Proofs.Text.Plain
import Mathlib.Algebra.Order.Ring.Nat

/-!
# Base64 text is canonical

Lenient readers of base64 take several texts for the same bytes: with more or less padding, with
rubbish in the bits that no byte uses, with blanks in between.  This one takes a single text for any
bytes, the one that is written for them (`decode_eq_ok_iff`).  So what is accepted can be said
without the reader, by the marks of a standard text: symbols of the alphabet, padding to a multiple
of four, and no bit set beyond the last byte (`exists_decode_iff`).

Both directions go by groups.  What the reader takes from a group is taken apart again by the writer
(`encode_bytes3_append`), and the last group is three cases, one for each number of padding signs.
-/

namespace HubLink.Base64

variable {a b c d : Nat} {byte : UInt8} {text content group : List UInt8}

/-! ## Groups are written as they were read -/

theorem symbol_of_value? {n : Nat} (hvalue : value? byte = some n) : n < 64 ∧ symbol n = byte := by
  have hall : ∀ k < 256, ∀ n ∈ value? (UInt8.ofNat k), n < 64 ∧ symbol n = UInt8.ofNat k := by
    decide +kernel
  have hbyte := hall byte.toNat byte.toNat_lt n
  rw [UInt8.ofNat_toNat] at hbyte
  exact hbyte hvalue

theorem of_expectSymbol_eq_ok {n offset : Nat} (hread : expectSymbol byte offset = .ok n) :
    n < 64 ∧ symbol n = byte := by
  unfold expectSymbol at hread
  split at hread
  next n' hvalue =>
    cases hread
    exact symbol_of_value? hvalue
  next => cases hread

theorem toNat_first (ha : a < 64) (hb : b < 64) :
    (UInt8.ofNat (a * 4 + b / 16)).toNat = a * 4 + b / 16 :=
  UInt8.toNat_ofNat_of_lt' (show a * 4 + b / 16 < 256 by omega)

theorem toNat_second (hc : c < 64) :
    (UInt8.ofNat (b % 16 * 16 + c / 4)).toNat = b % 16 * 16 + c / 4 :=
  UInt8.toNat_ofNat_of_lt' (show b % 16 * 16 + c / 4 < 256 by omega)

theorem toNat_third (hd : d < 64) : (UInt8.ofNat (c % 4 * 64 + d)).toNat = c % 4 * 64 + d :=
  UInt8.toNat_ofNat_of_lt' (show c % 4 * 64 + d < 256 by omega)

/-- The bytes of a whole group are written as its symbols, whatever follows. -/
theorem encode_bytes3_append (ha : a < 64) (hb : b < 64) (hc : c < 64) (hd : d < 64)
    (rest : List UInt8) :
    encode (bytes3 a b c d ++ rest) = [symbol a, symbol b, symbol c, symbol d] ++ encode rest := by
  have hfirst : (a * 4 + b / 16) / 4 = a := by omega
  have hsecond : (a * 4 + b / 16) % 4 * 16 + (b % 16 * 16 + c / 4) / 16 = b := by omega
  have hthird : (b % 16 * 16 + c / 4) % 16 * 4 + (c % 4 * 64 + d) / 64 = c := by omega
  have hfourth : (c % 4 * 64 + d) % 64 = d := by omega
  simp only [bytes3, List.cons_append, List.nil_append, encode, toNat_first ha hb, toNat_second hc,
    toNat_third hd, hfirst, hsecond, hthird, hfourth]

/-- The two bytes of a group with one padding sign. -/
theorem encode_take_two (ha : a < 64) (hb : b < 64) (hc : c < 64) (hunused : c % 4 = 0) :
    encode ((bytes3 a b c 0).take 2) = [symbol a, symbol b, symbol c, pad] := by
  have hfirst : (a * 4 + b / 16) / 4 = a := by omega
  have hsecond : (a * 4 + b / 16) % 4 * 16 + (b % 16 * 16 + c / 4) / 16 = b := by omega
  have hthird : (b % 16 * 16 + c / 4) % 16 * 4 = c := by omega
  simp only [bytes3, List.take_succ_cons, List.take_zero, encode, toNat_first ha hb,
    toNat_second hc, hfirst, hsecond, hthird]

/-- The byte of a group with two padding signs. -/
theorem encode_take_one (ha : a < 64) (hb : b < 64) (hunused : b % 16 = 0) :
    encode ((bytes3 a b 0 0).take 1) = [symbol a, symbol b, pad, pad] := by
  have hfirst : (a * 4 + b / 16) / 4 = a := by omega
  have hsecond : (a * 4 + b / 16) % 4 * 16 = b := by omega
  simp only [bytes3, List.take_succ_cons, List.take_zero, encode, toNat_first ha hb, hfirst,
    hsecond]

/-- What is read of a last group is its symbols, and nothing but padding signs stands behind. -/
theorem of_readLast_eq_ok {offset position padding : Nat} {symbols : List Nat}
    (hread : readLast offset position group = .ok (symbols, padding)) :
    group = symbols.map symbol ++ List.replicate padding pad ∧ ∀ n ∈ symbols, n < 64 := by
  induction group generalizing position symbols with
  | nil =>
      cases hread
      exact ⟨rfl, List.forall_mem_nil _⟩
  | cons first rest ih =>
      rw [readLast] at hread
      split at hread
      next hpad =>
        split at hread
        · cases hread
        next hplaced =>
          cases hread
          have hrest : ∀ byte ∈ rest, byte = pad := by
            simpa using (not_or.mp hplaced).2
          refine ⟨?_, List.forall_mem_nil _⟩
          rw [List.map_nil, List.nil_append, List.replicate_succ, hpad,
            ← List.eq_replicate_of_mem hrest]
      next =>
        obtain ⟨n, hfirst, hread⟩ := bind_eq_ok.mp hread
        obtain ⟨⟨more, padding'⟩, hmore, hread⟩ := bind_eq_ok.mp hread
        cases hread
        obtain ⟨hrest, hsymbols⟩ := ih hmore
        obtain ⟨hn, hsymbol⟩ := of_expectSymbol_eq_ok hfirst
        refine ⟨?_, List.forall_mem_cons.mpr ⟨hn, hsymbols⟩⟩
        rw [List.map_cons, hsymbol, List.cons_append, ← hrest]

theorem encode_of_decodeLast {offset : Nat} (hread : decodeLast offset group = .ok content) :
    encode content = group := by
  obtain ⟨⟨symbols, padding⟩, hsymbols, hread⟩ := bind_eq_ok.mp hread
  obtain ⟨hgroup, hlt⟩ := of_readLast_eq_ok hsymbols
  dsimp only at hread
  split at hread
  next hempty =>
    cases hread
    exact (List.isEmpty_iff.mp hempty).symm
  next =>
    split at hread
    · cases hread
    next htwo =>
      split at hread
      · cases hread
      next hfour =>
        -- the number of symbols settles that of the padding signs
        have hfour : symbols.length + padding = 4 := Decidable.not_not.mp hfour
        rw [hgroup]
        split at hread
        next p q =>
          obtain rfl : padding = 2 := Nat.add_left_cancel (n := 2) hfour
          simp only [List.forall_mem_cons] at hlt
          split at hread
          next hunused =>
            cases hread
            exact encode_take_one hlt.1 hlt.2.1 hunused
          next => cases hread
        next p q r =>
          obtain rfl : padding = 1 := Nat.add_left_cancel (n := 3) hfour
          simp only [List.forall_mem_cons] at hlt
          split at hread
          next hunused =>
            cases hread
            exact encode_take_two hlt.1 hlt.2.1 hlt.2.2.1 hunused
          next => cases hread
        next p q r s =>
          obtain rfl : padding = 0 := Nat.add_left_cancel (n := 4) hfour
          simp only [List.forall_mem_cons] at hlt
          cases hread
          have hwhole := encode_bytes3_append hlt.1 hlt.2.1 hlt.2.2.1 hlt.2.2.2.1 []
          rwa [List.append_nil] at hwhole
        next hnotTwo hnotThree hnotFour =>
          -- fewer symbols are none of a byte, and more do not leave a group of four
          rcases symbols with _ | ⟨p, _ | ⟨q, _ | ⟨r, _ | ⟨s, _ | ⟨t, more⟩⟩⟩⟩⟩
          · exact absurd (Nat.zero_lt_succ 1) htwo
          · exact absurd (Nat.lt_succ_self 1) htwo
          · exact absurd rfl (hnotTwo p q)
          · exact absurd rfl (hnotThree p q r)
          · exact absurd rfl (hnotFour p q r s)
          · simp only [List.length_cons] at hfour
            omega

/-! ## Whole texts -/

theorem encode_of_decodeFrom {offset : Nat} (hread : decodeFrom offset text = .ok content) :
    encode content = text := by
  fun_induction decodeFrom offset text generalizing content with
  | case1 offset a b c d e rest ih =>
      obtain ⟨p, ha, hread⟩ := bind_eq_ok.mp hread
      obtain ⟨q, hb, hread⟩ := bind_eq_ok.mp hread
      obtain ⟨r, hc, hread⟩ := bind_eq_ok.mp hread
      obtain ⟨s, hd, hread⟩ := bind_eq_ok.mp hread
      obtain ⟨more, hmore, hread⟩ := bind_eq_ok.mp hread
      obtain rfl := Except.ok.inj hread
      obtain ⟨hp, rfl⟩ := of_expectSymbol_eq_ok ha
      obtain ⟨hq, rfl⟩ := of_expectSymbol_eq_ok hb
      obtain ⟨hr, rfl⟩ := of_expectSymbol_eq_ok hc
      obtain ⟨hs, rfl⟩ := of_expectSymbol_eq_ok hd
      rw [encode_bytes3_append hp hq hr hs, ih hmore]
      rfl
  | case2 offset group _ => exact encode_of_decodeLast hread

/-- **A text is read as the bytes that it is written for, and no other text is read as them.** -/
theorem decode_eq_ok_iff : decode text = .ok content ↔ encode content = text := by
  constructor
  · intro hread
    unfold decode at hread
    split at hread
    · cases hread
    · exact encode_of_decodeFrom hread
  · rintro rfl
    exact decode_encoded content

/-! ## The marks of a standard text -/

/-- Symbols for whole groups and a last one, which padding signs make up to four: each of them
leaves two bits of the last symbol unused, and these are zero. -/
structure Standard (symbols : List Nat) (padding : Nat) : Prop where
  symbol_lt : ∀ n ∈ symbols, n < 64
  padding_lt : padding < 3
  whole : (symbols.length + padding) % 4 = 0
  unused : ∀ n ∈ symbols.getLast?, 4 ^ padding ∣ n

/-- The bytes of some symbols and the padding signs behind them. -/
def spelled (symbols : List Nat) (padding : Nat) : List UInt8 :=
  symbols.map symbol ++ List.replicate padding pad

namespace Standard

variable {symbols : List Nat} {padding : Nat}

/-- The number of symbols settles the padding. -/
theorem padding_eq (hstandard : Standard symbols padding) :
    padding = (4 - symbols.length % 4) % 4 := by
  have hwhole := hstandard.whole
  have hlt := hstandard.padding_lt
  omega

theorem getLast?_group (hsymbols : symbols ≠ []) :
    (a :: b :: c :: d :: symbols).getLast? = symbols.getLast? := by
  rw [List.getLast?_cons_of_ne_nil (List.cons_ne_nil _ _),
    List.getLast?_cons_of_ne_nil (List.cons_ne_nil _ _),
    List.getLast?_cons_of_ne_nil (List.cons_ne_nil _ _), List.getLast?_cons_of_ne_nil hsymbols]

/-- A whole group may stand in front of a standard text. -/
theorem cons (ha : a < 64) (hb : b < 64) (hc : c < 64) (hd : d < 64)
    (hrest : Standard symbols padding) : Standard (a :: b :: c :: d :: symbols) padding where
  symbol_lt := by
    simp only [List.forall_mem_cons]
    exact ⟨ha, hb, hc, hd, hrest.symbol_lt⟩
  padding_lt := hrest.padding_lt
  whole := by
    have hwhole := hrest.whole
    simp only [List.length_cons]
    omega
  unused := by
    rcases List.eq_nil_or_concat symbols with rfl | hsome
    · have hnone : padding = 0 := hrest.padding_eq
      rw [hnone, Nat.pow_zero]
      exact fun n _ => Nat.one_dvd n
    · have hne : symbols ≠ [] := by
        obtain ⟨_, _, rfl⟩ := hsome
        simp
      rw [getLast?_group hne]
      exact hrest.unused

theorem tail (hgroup : Standard (a :: b :: c :: d :: symbols) padding) :
    Standard symbols padding where
  symbol_lt n hn := hgroup.symbol_lt n (by simp [hn])
  padding_lt := hgroup.padding_lt
  whole := by
    have hwhole := hgroup.whole
    simp only [List.length_cons] at hwhole
    omega
  unused n hn := by
    have hne : symbols ≠ [] := by
      rintro rfl
      cases hn
    exact hgroup.unused n (getLast?_group hne ▸ hn)

end Standard

/-- What is written is in standard form. -/
theorem exists_standard_encode (content : List UInt8) :
    ∃ symbols padding, Standard symbols padding ∧ encode content = spelled symbols padding := by
  fun_induction encode content with
  | case1 a b c rest ih =>
      obtain ⟨symbols, padding, hstandard, hrest⟩ := ih
      exact ⟨_, padding, hstandard.cons (first_lt a) (second_lt a b) (third_lt b c) (fourth_lt c),
        congrArg _ hrest⟩
  | case2 a b =>
      refine ⟨[a.toNat / 4, a.toNat % 4 * 16 + b.toNat / 16, b.toNat % 16 * 4], 1, ?_, rfl⟩
      refine ⟨?_, by decide, Nat.mod_self 4, ?_⟩
      · simp only [List.forall_mem_cons]
        exact ⟨first_lt a, second_lt a b, third_lt b 0, List.forall_mem_nil _⟩
      · rintro _ ⟨⟩
        exact Nat.dvd_mul_left 4 _
  | case3 a =>
      refine ⟨[a.toNat / 4, a.toNat % 4 * 16], 2, ?_, rfl⟩
      refine ⟨?_, by decide, Nat.mod_self 4, ?_⟩
      · simp only [List.forall_mem_cons]
        exact ⟨first_lt a, second_lt a 0, List.forall_mem_nil _⟩
      · rintro _ ⟨⟩
        exact Nat.dvd_mul_left 16 _
  | case4 => exact ⟨[], 0, ⟨List.forall_mem_nil _, by decide, rfl, fun _ hn => by cases hn⟩, rfl⟩

/-- What is in standard form is written for some bytes. -/
theorem Standard.exists_encode : ∀ {symbols : List Nat} {padding : Nat},
    Standard symbols padding → ∃ content, encode content = spelled symbols padding
  | [], padding, hstandard => by
      obtain rfl : padding = 0 := hstandard.padding_eq
      exact ⟨[], rfl⟩
  | [p], padding, hstandard => by
      have hthree : padding = 3 := hstandard.padding_eq
      have hlt := hstandard.padding_lt
      omega
  | [p, q], padding, hstandard => by
      obtain rfl : padding = 2 := hstandard.padding_eq
      have hp := hstandard.symbol_lt p (by simp)
      have hq := hstandard.symbol_lt q (by simp)
      exact ⟨_, encode_take_one hp hq (Nat.mod_eq_zero_of_dvd (hstandard.unused q rfl))⟩
  | [p, q, r], padding, hstandard => by
      obtain rfl : padding = 1 := hstandard.padding_eq
      have hp := hstandard.symbol_lt p (by simp)
      have hq := hstandard.symbol_lt q (by simp)
      have hr := hstandard.symbol_lt r (by simp)
      exact ⟨_, encode_take_two hp hq hr (Nat.mod_eq_zero_of_dvd (hstandard.unused r rfl))⟩
  | p :: q :: r :: s :: symbols, padding, hstandard => by
      obtain ⟨content, hcontent⟩ := hstandard.tail.exists_encode
      have hp := hstandard.symbol_lt p (by simp)
      have hq := hstandard.symbol_lt q (by simp)
      have hr := hstandard.symbol_lt r (by simp)
      have hs := hstandard.symbol_lt s (by simp)
      refine ⟨bytes3 p q r s ++ content, ?_⟩
      rw [encode_bytes3_append hp hq hr hs, hcontent]
      rfl

/-- **The texts that are accepted are those in standard form.** -/
theorem exists_decode_iff :
    (∃ content, decode text = .ok content) ↔
      ∃ symbols padding, Standard symbols padding ∧ text = spelled symbols padding := by
  simp only [decode_eq_ok_iff]
  constructor
  · rintro ⟨content, rfl⟩
    exact exists_standard_encode content
  · rintro ⟨symbols, padding, hstandard, rfl⟩
    exact hstandard.exists_encode

/-! ## Characters -/

/-- The symbols in the order of their numbers. -/
def alphabet : List Char :=
  "ABCDEFGHIJKLMNOPQRSTUVWXYZabcdefghijklmnopqrstuvwxyz0123456789+/".toList

/-- The symbol of a number as a character. -/
def letter (n : Nat) : Char :=
  alphabet.getD n '='

/-- A text in standard form. -/
def Canonical (text : String) : Prop :=
  ∃ symbols padding, Standard symbols padding ∧
    text.toList = symbols.map letter ++ List.replicate padding '='

theorem ofNat_symbol {n : Nat} (hn : n < 64) : Char.ofNat (symbol n).toNat = letter n := by
  revert n
  decide +kernel

theorem letter_ne_pad {n : Nat} (hn : n < 64) : letter n ≠ '=' := by
  revert n
  decide +kernel

theorem lt_of_mem_spelled {symbols : List Nat} {padding : Nat} (hsymbols : ∀ n ∈ symbols, n < 64) :
    ∀ byte ∈ spelled symbols padding, byte < 128 := by
  intro byte hbyte
  rcases List.mem_append.mp hbyte with hsymbol | hpad
  · obtain ⟨n, hn, rfl⟩ := List.mem_map.mp hsymbol
    exact symbol_lt (hsymbols n hn)
  · rw [List.eq_of_mem_replicate hpad]
    decide

/-- The characters of a text are symbols and padding signs exactly if its bytes are. -/
theorem toList_eq_iff_bytes_eq {chars : String} {symbols : List Nat} {padding : Nat}
    (hsymbols : ∀ n ∈ symbols, n < 64) :
    chars.toList = symbols.map letter ++ List.replicate padding '=' ↔
      Text.bytes chars = spelled symbols padding := by
  have hchars : (spelled symbols padding).map (fun byte => Char.ofNat byte.toNat) =
      symbols.map letter ++ List.replicate padding '=' := by
    rw [spelled, List.map_append, List.map_map, List.map_replicate]
    exact congrArg₂ _ (List.map_congr_left fun n hn => ofNat_symbol (hsymbols n hn)) rfl
  have hbytes : ∀ byte ∈ spelled symbols padding, byte < 128 := lt_of_mem_spelled hsymbols
  constructor
  · intro hlist
    rw [← @String.ofList_toList chars, hlist, ← hchars, Text.bytes_ofList hbytes]
  · intro hspelled
    rw [Text.toList_of_bytes (hspelled ▸ hbytes), hspelled, hchars]

/-- **The texts that are accepted are those in standard form**, character by character. -/
theorem exists_decode_bytes_iff {chars : String} :
    (∃ content, decode (Text.bytes chars) = .ok content) ↔ Canonical chars := by
  rw [exists_decode_iff]
  refine exists_congr fun symbols => exists_congr fun padding => and_congr_right fun hstandard => ?_
  exact (toList_eq_iff_bytes_eq hstandard.symbol_lt).symm

/-! ## Altered texts -/

theorem map_letter_injective {first second : List Nat} (hfirst : ∀ n ∈ first, n < 64)
    (hsecond : ∀ n ∈ second, n < 64) (hsame : first.map letter = second.map letter) :
    first = second := by
  have hindex : ∀ n < 64, alphabet.idxOf (letter n) = n := by decide +kernel
  have hletter : ∀ n < 64, ∀ m < 64, letter n = letter m → n = m := by
    intro n hn m hm heq
    rw [← hindex n hn, ← hindex m hm, heq]
  induction first generalizing second with
  | nil => exact (List.map_eq_nil_iff.mp hsame.symm).symm
  | cons n rest ih =>
      obtain ⟨m, rest', rfl, hhead, htail⟩ := List.map_eq_cons_iff.mp hsame.symm
      rw [List.forall_mem_cons] at hfirst hsecond
      rw [hletter m hsecond.1 n hfirst.1 hhead, ih hfirst.2 hsecond.2 htail.symm]

theorem filter_letters {symbols : List Nat} (hsymbols : ∀ n ∈ symbols, n < 64) (padding : Nat) :
    (symbols.map letter ++ List.replicate padding '=').filter (· != '=') = symbols.map letter := by
  have hletters : ∀ c ∈ symbols.map letter, (c != '=') = true := by
    intro c hc
    obtain ⟨n, hn, rfl⟩ := List.mem_map.mp hc
    exact bne_iff_ne.mpr (letter_ne_pad (hsymbols n hn))
  rw [List.filter_append, List.filter_eq_self.mpr hletters]
  simp

namespace Canonical

variable {first second : String}

/-- Two texts in standard form that differ in their padding alone do not differ. -/
theorem eq_of_symbols (hfirst : Canonical first) (hsecond : Canonical second)
    (hsame : first.toList.filter (· != '=') = second.toList.filter (· != '=')) :
    first = second := by
  obtain ⟨symbols, padding, hstandard, hchars⟩ := hfirst
  obtain ⟨symbols', padding', hstandard', hchars'⟩ := hsecond
  rw [hchars, hchars', filter_letters hstandard.symbol_lt, filter_letters hstandard'.symbol_lt]
    at hsame
  have hlength : symbols.length = symbols'.length := by
    simpa using congrArg List.length hsame
  have hpadding : padding = padding' := by
    rw [hstandard.padding_eq, hstandard'.padding_eq, hlength]
  rw [← String.toList_inj, hchars, hchars', hsame, hpadding]

/-- In a text in standard form the bits of the last symbol that no byte uses are zero. -/
theorem dvd_last {text : String} (htext : Canonical text) {front : List Nat} {last padding : Nat}
    (hfront : ∀ n ∈ front, n < 64) (hlast : last < 64)
    (hchars : text.toList = (front ++ [last]).map letter ++ List.replicate padding '=') :
    4 ^ padding ∣ last := by
  obtain ⟨symbols, padding', hstandard, hchars'⟩ := htext
  have hsymbols : ∀ n ∈ front ++ [last], n < 64 := by
    simp only [List.mem_append, List.mem_singleton]
    rintro n (hn | rfl)
    · exact hfront n hn
    · exact hlast
  have hsame := congrArg (List.filter (· != '=')) (hchars'.symm.trans hchars)
  rw [filter_letters hstandard.symbol_lt, filter_letters hsymbols] at hsame
  obtain rfl := map_letter_injective hstandard.symbol_lt hsymbols hsame
  have hlength := congrArg List.length (hchars'.symm.trans hchars)
  simp only [List.length_append, List.length_replicate, Nat.add_left_cancel_iff] at hlength
  subst hlength
  exact hstandard.unused last List.getLast?_concat

theorem mem_alphabet {text : String} (htext : Canonical text) {c : Char} (hc : c ∈ text.toList) :
    c ∈ alphabet ∨ c = '=' := by
  have hletter : ∀ n < 64, letter n ∈ alphabet := by decide +kernel
  obtain ⟨symbols, padding, hstandard, hchars⟩ := htext
  rw [hchars] at hc
  rcases List.mem_append.mp hc with hc | hc
  · obtain ⟨n, hn, rfl⟩ := List.mem_map.mp hc
    exact .inl (hletter n (hstandard.symbol_lt n hn))
  · exact .inr (List.eq_of_mem_replicate hc)

end Canonical

end HubLink.Base64
