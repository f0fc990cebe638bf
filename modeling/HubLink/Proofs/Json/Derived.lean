import HubLink.Proofs.Json.Taken
import HubLink.Proofs.Json.TextMembers

/-!
# Whatever is accepted has a derivation

A reader of values that succeeds has read a grammatical value (`readValue_taken`), and what is passed
over is one too (`skipValue_taken`): the text behind an entry closes the brackets that are open
around it, one by one (`Closes`).  What a record takes inside an object is its members
(`TextRecord.readMembers_taken`), so what is said of texts with given members is said of every object
that is read.
-/

namespace HubLink.Json

open Text (byte)

variable {α : Type} {text rest : List UInt8} {first : Bool} {lead more : List UInt8}

/-! ## Entries -/

/-- A value with blanks before it. -/
def IsEntry (part : List UInt8) : Prop :=
  ∃ blanks value, IsBlanks blanks ∧ IsValue value ∧ part = blanks ++ value

theorem IsLead.append_blanks {blanks : List UInt8} (hlead : IsLead first lead)
    (hblanks : IsBlanks blanks) : IsLead first (lead ++ blanks) := by
  cases hlead with
  | first hlead => exact .first (List.forall_mem_append.mpr ⟨hlead, hblanks⟩)
  | next hbefore hbehind =>
      rw [List.append_assoc, List.cons_append]
      exact .next hbefore (List.forall_mem_append.mpr ⟨hbehind, hblanks⟩)

theorem IsEntry.grammatical_item {entry : List UInt8} (hentry : IsEntry entry)
    (hlead : IsLead first lead) (hmore : Grammatical (.rest .square false) more) :
    Grammatical (.rest .square first) (lead ++ (entry ++ more)) := by
  obtain ⟨blanks, value, hblanks, hvalue, rfl⟩ := hentry
  have hitem := Grammatical.item (hlead.append_blanks hblanks) hvalue hmore
  simpa only [List.append_assoc] using hitem

/-- A key with blanks around it and its colon, spelled by what stands between its quotes. -/
inductive IsKey (content : List UInt8) : List UInt8 → Prop
  | mk {blanks before : List UInt8} (hblanks : IsBlanks blanks) (hbefore : IsBlanks before) :
      IsKey content (blanks ++ byte '"' :: (content ++ byte '"' :: (before ++ [byte ':'])))

theorem IsEntry.grammatical_member {content key entry : List UInt8} (hentry : IsEntry entry)
    (hlead : IsLead first lead) (hcontent : IsContent content) (hkey : IsKey content key)
    (hmore : Grammatical (.rest .curly false) more) :
    Grammatical (.rest .curly first) (lead ++ (key ++ (entry ++ more))) := by
  obtain ⟨behind, value, hbehind, hvalue, rfl⟩ := hentry
  cases hkey with
  | mk hblanks hbefore =>
      have hmember := Grammatical.member (hlead.append_blanks hblanks) hcontent hbefore hbehind
        hvalue hmore
      simpa only [List.append_assoc, List.cons_append, List.nil_append] using hmember

/-- What is closed has nothing left of it but blanks and the closing mark. -/
theorem nextEntry_closed_grammatical {bracket : Bracket}
    (hread : nextEntry bracket.closing first text = .ok (.closed rest)) :
    ∃ part, text = part ++ rest ∧ Grammatical (.rest bracket first) part := by
  obtain ⟨blanks, hblanks, rfl⟩ := nextEntry_closed_taken hread
  refine ⟨blanks ++ [byte bracket.closing], ?_, .closed bracket first hblanks⟩
  rw [List.append_assoc, List.singleton_append]

/-! ## Values -/

theorem readScalar_taken : Takes readScalar fun _ part => IsScalar part := by
  intro text value rest hread
  cases text with
  | nil => cases hread
  | cons b more =>
      have hword : ∀ {word behind}, b :: word ∈ words → expectWord word more = .ok behind →
          ∃ part, b :: more = part ++ behind ∧ IsScalar part := by
        intro word behind hmem hword
        exact ⟨b :: word, congrArg _ (expectWord_taken hword), .word hmem⟩
      rw [readScalar] at hread
      split at hread
      next hletter =>
        obtain ⟨behind, hbehind, hnext⟩ := bind_eq_ok.mp hread
        cases hnext
        exact hword (by subst hletter; decide) hbehind
      split at hread
      next hletter =>
        obtain ⟨behind, hbehind, hnext⟩ := bind_eq_ok.mp hread
        cases hnext
        exact hword (by subst hletter; decide) hbehind
      split at hread
      next hletter =>
        obtain ⟨behind, hbehind, hnext⟩ := bind_eq_ok.mp hread
        cases hnext
        exact hword (by subst hletter; decide) hbehind
      split at hread
      · obtain ⟨⟨numeral, behind⟩, hnumeral, hnext⟩ := bind_eq_ok.mp hread
        obtain ⟨number, _, hnext⟩ := bind_eq_ok.mp hnext
        cases hnext
        obtain ⟨part, hpart, hnumeral⟩ := readNumeral_taken _ hnumeral
        exact ⟨part, hpart, .numeral hnumeral⟩
      split at hread
      next hquote =>
        obtain ⟨⟨found, behind⟩, hfound, hnext⟩ := bind_eq_ok.mp hread
        cases hnext
        obtain ⟨_, rfl, content, rfl, hdenotes⟩ := readString_taken hfound
        subst hquote
        exact ⟨_, rfl, .string hdenotes.isContent⟩
      · cases hread

theorem readKey_taken : Takes readKey fun key part => ∃ content,
    Denotes content (Text.bytes key) ∧ IsKey content part := by
  intro text key rest hread
  obtain ⟨behind, hquote, hnext⟩ := bind_eq_ok.mp hread
  obtain ⟨⟨found, left⟩, hfound, hnext⟩ := bind_eq_ok.mp hnext
  obtain ⟨last, hcolon, hnext⟩ := bind_eq_ok.mp hnext
  cases hnext
  obtain ⟨blanks, hblanks, rfl⟩ := expectMark_taken hquote
  obtain ⟨_, rfl, content, rfl, hdenotes⟩ := readString_taken hfound
  obtain ⟨before, hbefore, rfl⟩ := expectMark_taken hcolon
  refine ⟨_, ?_, content, hdenotes, .mk hblanks hbefore⟩
  simp only [List.append_assoc, List.cons_append, List.nil_append]

section Within

variable {fuel : Nat}
  (hvalues : ∀ budget, Takes (valueWithin fuel budget) fun _ part => IsEntry part)
  (hitems : ∀ budget first, Takes (itemsWithin fuel budget first) fun _ part =>
    Grammatical (.rest .square first) part)
  (hmembers : ∀ budget first, Takes (membersWithin fuel budget first) fun _ part =>
    Grammatical (.rest .curly first) part)

include hitems hmembers in
theorem valueWithin_taken (budget : Nat) :
    Takes (valueWithin (fuel + 1) budget) fun _ part => IsEntry part := by
  intro text value rest hread
  rw [valueWithin] at hread
  split at hread
  · cases hread
  next b behind hskip =>
    obtain ⟨blanks, hblanks, rfl⟩ := exists_of_skipBlanks hskip
    have hentry : ∀ {part}, b :: behind = part ++ rest → IsValue part →
        ∃ entry, blanks ++ b :: behind = entry ++ rest ∧ IsEntry entry := by
      intro part hpart hvalue
      refine ⟨blanks ++ part, ?_, blanks, part, hblanks, hvalue, rfl⟩
      rw [hpart, List.append_assoc]
    split at hread
    next hopening =>
      cases budget with
      | zero => cases hread
      | succ budget =>
          obtain ⟨⟨items, left⟩, hfound, hnext⟩ := bind_eq_ok.mp hread
          cases hnext
          obtain ⟨part, rfl, hpart⟩ := hitems budget true hfound
          subst hopening
          exact hentry rfl (.array hpart)
    split at hread
    next hopening =>
      cases budget with
      | zero => cases hread
      | succ budget =>
          obtain ⟨⟨members, left⟩, hfound, hnext⟩ := bind_eq_ok.mp hread
          cases hnext
          obtain ⟨part, rfl, hpart⟩ := hmembers budget true hfound
          subst hopening
          exact hentry rfl (.object hpart)
    · obtain ⟨part, hpart, hscalar⟩ := readScalar_taken hread
      exact hentry hpart (.scalar hscalar)

include hvalues hitems in
theorem itemsWithin_taken (budget : Nat) (first : Bool) :
    Takes (itemsWithin (fuel + 1) budget first) fun _ part =>
      Grammatical (.rest .square first) part := by
  intro text items rest hread
  rw [itemsWithin] at hread
  obtain ⟨next, hfound, hnext⟩ := bind_eq_ok.mp hread
  cases next with
  | closed behind =>
      cases hnext
      exact @nextEntry_closed_grammatical _ _ _ .square hfound
  | entry behind =>
      obtain ⟨⟨item, left⟩, hitem, hnext⟩ := bind_eq_ok.mp hnext
      obtain ⟨⟨others, last⟩, hothers, hnext⟩ := bind_eq_ok.mp hnext
      cases hnext
      obtain ⟨lead, hlead, rfl⟩ := nextEntry_entry_taken hfound
      obtain ⟨entry, rfl, hentry⟩ := hvalues budget hitem
      obtain ⟨more, rfl, hmore⟩ := hitems budget false hothers
      refine ⟨_, ?_, hentry.grammatical_item hlead hmore⟩
      simp only [List.append_assoc]

include hvalues hmembers in
theorem membersWithin_taken (budget : Nat) (first : Bool) :
    Takes (membersWithin (fuel + 1) budget first) fun _ part =>
      Grammatical (.rest .curly first) part := by
  intro text members rest hread
  rw [membersWithin] at hread
  obtain ⟨next, hfound, hnext⟩ := bind_eq_ok.mp hread
  cases next with
  | closed behind =>
      cases hnext
      exact @nextEntry_closed_grammatical _ _ _ .curly hfound
  | entry behind =>
      obtain ⟨⟨key, colon⟩, hkey, hnext⟩ := bind_eq_ok.mp hnext
      obtain ⟨⟨value, left⟩, hvalue, hnext⟩ := bind_eq_ok.mp hnext
      obtain ⟨⟨others, last⟩, hothers, hnext⟩ := bind_eq_ok.mp hnext
      cases hnext
      obtain ⟨lead, hlead, rfl⟩ := nextEntry_entry_taken hfound
      obtain ⟨keyText, rfl, content, hdenotes, hkeyText⟩ := readKey_taken hkey
      obtain ⟨entry, rfl, hentry⟩ := hvalues budget hvalue
      obtain ⟨more, rfl, hmore⟩ := hmembers budget false hothers
      refine ⟨_, ?_, hentry.grammatical_member hlead hdenotes.isContent hkeyText hmore⟩
      simp only [List.append_assoc]

end Within

/-- The three readers of values by induction on their common fuel. -/
theorem within_taken (fuel : Nat) :
    (∀ budget, Takes (valueWithin fuel budget) fun _ part => IsEntry part) ∧
    (∀ budget first, Takes (itemsWithin fuel budget first) fun _ part =>
      Grammatical (.rest .square first) part) ∧
    (∀ budget first, Takes (membersWithin fuel budget first) fun _ part =>
      Grammatical (.rest .curly first) part) := by
  induction fuel with
  | zero =>
      refine ⟨fun budget => ?_, fun budget first => ?_, fun budget first => ?_⟩
      all_goals
        intro text value rest hread
        cases hread
  | succ fuel ih =>
      obtain ⟨hvalues, hitems, hmembers⟩ := ih
      exact ⟨valueWithin_taken hitems hmembers, itemsWithin_taken hvalues hitems,
        membersWithin_taken hvalues hmembers⟩

/-- **Only grammatical values are read.** -/
theorem readValue_taken (budget : Nat) : Takes (readValue budget) fun _ part => IsEntry part := by
  intro text value rest hread
  exact (within_taken _).1 budget hread

/-! ## Values that are passed over -/

theorem skipScalar_taken (hread : skipScalar text = .ok rest) :
    ∃ part, text = part ++ rest ∧ IsScalar part := by
  cases text with
  | nil => cases hread
  | cons b more =>
      rw [skipScalar] at hread
      split at hread
      · obtain ⟨⟨numeral, behind⟩, hnumeral, rfl⟩ := map_eq_ok.mp hread
        obtain ⟨part, hpart, hnumeral⟩ := readNumeral_taken _ hnumeral
        exact ⟨part, hpart, .numeral hnumeral⟩
      split at hread
      next hquote =>
        obtain ⟨content, hcontent, rfl⟩ := skipString_taken hread
        subst hquote
        refine ⟨_, ?_, .string hcontent⟩
        rw [List.cons_append, List.append_assoc, List.singleton_append]
      · obtain ⟨⟨value, behind⟩, hvalue, rfl⟩ := map_eq_ok.mp hread
        exact readScalar_taken hvalue

theorem skipKey_taken (hread : skipKey text = .ok rest) :
    ∃ content key, IsContent content ∧ IsKey content key ∧ text = key ++ rest := by
  obtain ⟨behind, hquote, hnext⟩ := bind_eq_ok.mp hread
  obtain ⟨left, hcontent, hcolon⟩ := bind_eq_ok.mp hnext
  obtain ⟨blanks, hblanks, rfl⟩ := expectMark_taken hquote
  obtain ⟨content, hcontent', rfl⟩ := skipString_taken hcontent
  obtain ⟨before, hbefore, rfl⟩ := expectMark_taken hcolon
  refine ⟨content, _, hcontent', .mk hblanks hbefore, ?_⟩
  simp only [List.append_assoc, List.cons_append, List.nil_append]

/-- Behind an entry the text closes the open brackets, and then it is what is left in the end. -/
def Closes : List Bracket → (text final : List UInt8) → Prop
  | [], text, final => text = final
  | bracket :: enclosing, text, final => ∃ more left,
      Grammatical (.rest bracket false) more ∧ text = more ++ left ∧ Closes enclosing left final

/-- What was passed over from a place on. -/
def SkippedFrom : List Bracket → Place → (text final : List UInt8) → Prop
  | enclosing, .value, text, final => ∃ entry left,
      IsEntry entry ∧ text = entry ++ left ∧ Closes enclosing left final
  | [], .entry _, text, final => text = final
  | bracket :: enclosing, .entry first, text, final => ∃ more left,
      Grammatical (.rest bracket first) more ∧ text = more ++ left ∧ Closes enclosing left final

theorem SkippedFrom.closes {enclosing : List Bracket} {final : List UInt8}
    (hskipped : SkippedFrom enclosing (.entry false) text final) : Closes enclosing text final := by
  cases enclosing with
  | nil => exact hskipped
  | cons bracket enclosing => exact hskipped

section SkipFrom

variable {fuel : Nat} {enclosing : List Bracket} {final : List UInt8}
  (hskipped : ∀ {enclosing place text}, skipFrom fuel enclosing place text = .ok final →
    SkippedFrom enclosing place text final)

include hskipped in
/-- A value is a scalar, or opens a bracket that the text behind it closes. -/
theorem skipFrom_value_taken (hread : skipFrom (fuel + 1) enclosing .value text = .ok final) :
    SkippedFrom enclosing .value text final := by
  rw [skipFrom] at hread
  split at hread
  · cases hread
  next b behind hskip =>
    obtain ⟨blanks, hblanks, rfl⟩ := exists_of_skipBlanks hskip
    have hentry : ∀ {part left}, b :: behind = part ++ left → IsValue part →
        Closes enclosing left final →
          SkippedFrom enclosing .value (blanks ++ b :: behind) final := by
      intro part left hpart hvalue hcloses
      refine ⟨blanks ++ part, left, ⟨blanks, part, hblanks, hvalue, rfl⟩, ?_, hcloses⟩
      rw [hpart, List.append_assoc]
    split at hread
    next hopening =>
      obtain ⟨more, left, hmore, rfl, hcloses⟩ := hskipped hread
      subst hopening
      exact hentry rfl (.array hmore) hcloses
    split at hread
    next hopening =>
      obtain ⟨more, left, hmore, rfl, hcloses⟩ := hskipped hread
      subst hopening
      exact hentry rfl (.object hmore) hcloses
    · obtain ⟨left, hleft, hnext⟩ := bind_eq_ok.mp hread
      obtain ⟨part, hpart, hscalar⟩ := skipScalar_taken hleft
      exact hentry hpart (.scalar hscalar) (hskipped hnext).closes

include hskipped in
/-- Inside a bracket stands its closing mark, or an entry with the rest of the bracket behind it. -/
theorem skipFrom_entry_taken {bracket : Bracket}
    (hread : skipFrom (fuel + 1) (bracket :: enclosing) (.entry first) text = .ok final) :
    SkippedFrom (bracket :: enclosing) (.entry first) text final := by
  rw [skipFrom] at hread
  obtain ⟨next, hfound, hnext⟩ := bind_eq_ok.mp hread
  cases next with
  | closed behind =>
      obtain ⟨more, hmore, hclosed⟩ := nextEntry_closed_grammatical hfound
      exact ⟨more, behind, hclosed, hmore, (hskipped hnext).closes⟩
  | entry behind =>
      obtain ⟨lead, hlead, rfl⟩ := nextEntry_entry_taken hfound
      cases bracket with
      | square =>
          obtain ⟨entry, _, hentry, rfl, more, left, hmore, rfl, hcloses⟩ := hskipped hnext
          refine ⟨_, left, hentry.grammatical_item hlead hmore, ?_, hcloses⟩
          simp only [List.append_assoc]
      | curly =>
          obtain ⟨_, hkey, hvalue⟩ := bind_eq_ok.mp hnext
          obtain ⟨content, key, hcontent, hkey', rfl⟩ := skipKey_taken hkey
          obtain ⟨entry, _, hentry, rfl, more, left, hmore, rfl, hcloses⟩ := hskipped hvalue
          refine ⟨_, left, hentry.grammatical_member hlead hcontent hkey' hmore, ?_, hcloses⟩
          simp only [List.append_assoc]

end SkipFrom

theorem skipFrom_taken (fuel : Nat) {enclosing : List Bracket} {place : Place}
    {final : List UInt8} (hread : skipFrom fuel enclosing place text = .ok final) :
    SkippedFrom enclosing place text final := by
  induction fuel generalizing enclosing place text with
  | zero => cases hread
  | succ fuel ih =>
      cases place with
      | value => exact skipFrom_value_taken ih hread
      | entry first =>
          cases enclosing with
          | nil =>
              cases hread
              rfl
          | cons bracket enclosing => exact skipFrom_entry_taken ih hread

/-- **Only grammatical values are passed over.** -/
theorem skipValue_taken (hread : skipValue text = .ok rest) :
    ∃ entry, IsEntry entry ∧ text = entry ++ rest := by
  obtain ⟨entry, left, hentry, htext, rfl⟩ := skipFrom_taken _ hread
  exact ⟨entry, hentry, htext⟩

/-! ## Fields and members -/

theorem readText_taken : Takes readText fun _ part => IsEntry part := by
  intro text value rest hread
  rw [readText] at hread
  split at hread
  · cases hread
  next b behind hskip =>
    split at hread
    next hquote =>
      obtain ⟨blanks, hblanks, rfl⟩ := exists_of_skipBlanks hskip
      obtain ⟨_, rfl, content, rfl, hdenotes⟩ := readString_taken hread
      subst hquote
      refine ⟨_, ?_, blanks, _, hblanks, .scalar (.string hdenotes.isContent), rfl⟩
      rw [List.append_assoc blanks, List.cons_append]
    · exact absurd hread (wrongType_ne_ok _ _ _)

theorem readWholeAs_taken (name : String) (shape : Shape α) :
    Takes (readWholeAs name shape) fun _ part => IsEntry part := by
  intro text value rest hread
  obtain ⟨⟨numeral, behind⟩, hnumeral, hnext⟩ := bind_eq_ok.mp hread
  obtain ⟨found, _, hnext⟩ := bind_eq_ok.mp hnext
  split at hnext
  · cases hnext
    rw [readNumeralAs] at hnumeral
    split at hnumeral
    · cases hnumeral
    next hskip =>
      split at hnumeral
      · obtain ⟨blanks, hblanks, rfl⟩ := exists_of_skipBlanks hskip
        obtain ⟨part, hpart, hvalue⟩ := readNumeral_taken _ hnumeral
        refine ⟨blanks ++ part, ?_, blanks, part, hblanks, .scalar (.numeral hvalue), rfl⟩
        rw [hpart, List.append_assoc]
      · exact absurd hnumeral (wrongType_ne_ok _ _ _)
  · cases hnext

theorem IsEntry.membersText {content key entry : List UInt8} {name : String}
    {members : List (String × List UInt8)} (hentry : IsEntry entry) (hlead : IsLead first lead)
    (hdenotes : Denotes content (Text.bytes name)) (hkey : IsKey content key)
    (hmore : MembersText false members more) :
    ∃ value, MembersText first ((name, value) :: members) (lead ++ (key ++ (entry ++ more))) := by
  obtain ⟨behind, value, hbehind, hvalue, rfl⟩ := hentry
  cases hkey with
  | mk hblanks hbefore =>
      have hmember := MembersText.member (hlead.append_blanks hblanks) hdenotes hbefore hbehind
        hvalue hmore
      refine ⟨value, ?_⟩
      simpa only [List.append_assoc, List.cons_append, List.nil_append] using hmember

namespace TextRecord

variable {σ : Type} {fields : List (TextField σ)} {budget : Nat}

/-- Every field takes a value. -/
def FieldsTaken (fields : List (TextField σ)) (budget : Nat) : Prop :=
  ∀ field ∈ fields, ∀ state, Takes (field.read budget state) fun _ part => IsEntry part

theorem readMembers_taken (hfields : FieldsTaken fields budget) (fuel : Nat) (first : Bool)
    (state : σ) : Takes (readMembers fields budget fuel first state) fun _ part =>
      ∃ members, MembersText first members part := by
  induction fuel generalizing first state with
  | zero =>
      intro text value rest hread
      cases hread
  | succ fuel ih =>
      intro text value rest hread
      rw [readMembers] at hread
      obtain ⟨next, hfound, hnext⟩ := bind_eq_ok.mp hread
      cases next with
      | closed behind =>
          cases hnext
          obtain ⟨blanks, hblanks, rfl⟩ := nextEntry_closed_taken hfound
          refine ⟨blanks ++ [byte '\x7d'], ?_, [], .closed first hblanks⟩
          rw [List.append_assoc, List.singleton_append]
      | entry behind =>
          obtain ⟨left, hquote, hkey⟩ := bind_eq_ok.mp hnext
          obtain ⟨⟨name, colon⟩, hname, hvalue⟩ := bind_eq_ok.mp hkey
          -- Whether the name is known decides who takes the value, and nothing else.
          obtain ⟨_, entry, left, state', hcolon, hentry, hbehind, hmore⟩ : ∃ behind entry left state',
              expectMark ':' colon = .ok behind ∧ IsEntry entry ∧ behind = entry ++ left ∧
                readMembers fields budget fuel false state' left = .ok (value, rest) := by
            dsimp only at hvalue
            split at hvalue
            · obtain ⟨behind, hcolon, hnext⟩ := bind_eq_ok.mp hvalue
              obtain ⟨left, hskip, hnext⟩ := bind_eq_ok.mp hnext
              obtain ⟨entry, hentry, hbehind⟩ := skipValue_taken hskip
              exact ⟨behind, entry, left, state, hcolon, hentry, hbehind, hnext⟩
            next field hfield =>
              split at hvalue
              · cases hvalue
              · obtain ⟨behind, hcolon, hnext⟩ := bind_eq_ok.mp hvalue
                obtain ⟨⟨state', left⟩, hread', hnext⟩ := bind_eq_ok.mp hnext
                obtain ⟨entry, hbehind, hentry⟩ :=
                  hfields field (List.mem_of_find?_eq_some hfield) state hread'
                exact ⟨behind, entry, left, state', hcolon, hentry, hbehind, hnext⟩
          obtain ⟨lead, hlead, rfl⟩ := nextEntry_entry_taken hfound
          obtain ⟨blanks, hblanks, rfl⟩ := expectMark_taken hquote
          obtain ⟨_, rfl, content, rfl, hdenotes⟩ := readString_taken hname
          subst hbehind
          obtain ⟨before, hbefore, rfl⟩ := expectMark_taken hcolon
          obtain ⟨more, rfl, members, hmembers⟩ := ih false state' hmore
          obtain ⟨found, hmember⟩ :=
            hentry.membersText hlead hdenotes (.mk hblanks hbefore) hmembers
          refine ⟨_, ?_, _, hmember⟩
          simp only [List.append_assoc, List.cons_append, List.nil_append]

end TextRecord

end HubLink.Json
