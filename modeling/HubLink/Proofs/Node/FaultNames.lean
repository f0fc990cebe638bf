import HubLink.Proofs.Bytes.Hex
import HubLink.Tool.Run
import Mathlib.Data.List.Forall2

/-!
# Fault lists and fault bits

Faults travel as bits of a byte or as a list of names.  A list is a loose thing: names may stand in
any case, in any order and more than once, and some may be unknown.  What it stands for is the set of
faults that it names (`has_ofNames_iff`), and everything else follows from that, since a byte is
settled by the faults that it has (`ext_has`).

Two readers take such lists.  Telemetry passes over unknown names, the command line stops at the
first of them, and both know the same names (`fault_names_agree`).
-/

namespace HubLink.Text

/-! ## Letters of either case -/

/-- One character, or the two cases of one letter of ASCII. -/
def AlikeChar (c d : Char) : Prop :=
  c = d ∨ ∃ n < 26,
    c = Char.ofNat (65 + n) ∧ d = Char.ofNat (97 + n) ∨
      c = Char.ofNat (97 + n) ∧ d = Char.ofNat (65 + n)

/-- Two texts are equal but for the case of letters of ASCII. -/
def Alike (first second : String) : Prop :=
  List.Forall₂ AlikeChar first.toList second.toList

/-- Only capitals have another lower case. -/
theorem toLower_cases (c : Char) :
    (∃ n < 26, c = Char.ofNat (65 + n) ∧ c.toLower = Char.ofNat (97 + n)) ∨
      c.toLower = c ∧ ∀ n < 26, c ≠ Char.ofNat (65 + n) := by
  rcases Nat.lt_or_ge c.toNat 128 with hascii | hforeign
  · exact forall_ascii (P := fun c =>
      (∃ n < 26, c = Char.ofNat (65 + n) ∧ c.toLower = Char.ofNat (97 + n)) ∨
        c.toLower = c ∧ ∀ n < 26, c ≠ Char.ofNat (65 + n)) (by decide +kernel) hascii
  · have hcapital : ∀ n < 26, (Char.ofNat (65 + n)).toNat < 128 := by decide
    refine .inr ⟨Hex.toLower_of_not_ascii hforeign, ?_⟩
    rintro n hn rfl
    have hlt := hcapital n hn
    omega

theorem toLower_capital {n : Nat} (hn : n < 26) :
    (Char.ofNat (65 + n)).toLower = Char.ofNat (97 + n) := by
  revert n
  decide

theorem toLower_small {n : Nat} (hn : n < 26) :
    (Char.ofNat (97 + n)).toLower = Char.ofNat (97 + n) := by
  revert n
  decide

theorem toLower_eq_iff_alikeChar {c d : Char} : c.toLower = d.toLower ↔ AlikeChar c d := by
  constructor
  · intro hlower
    have hsmall : ∀ n < 26, ∀ m < 26, Char.ofNat (97 + n) = Char.ofNat (97 + m) → n = m := by
      decide +kernel
    rcases toLower_cases c with ⟨n, hn, hc, hclower⟩ | ⟨hc, -⟩ <;>
      rcases toLower_cases d with ⟨m, hm, hd, hdlower⟩ | ⟨hd, -⟩
    · have heq := hsmall n hn m hm (hclower.symm.trans (hlower.trans hdlower))
      exact .inl (by rw [hc, hd, heq])
    · exact .inr ⟨n, hn, .inl ⟨hc, by rw [← hd, ← hlower, hclower]⟩⟩
    · exact .inr ⟨m, hm, .inr ⟨by rw [← hc, hlower, hdlower], hd⟩⟩
    · exact .inl (hc.symm.trans (hlower.trans hd))
  · rintro (rfl | ⟨n, hn, ⟨rfl, rfl⟩ | ⟨rfl, rfl⟩⟩)
    · rfl
    · rw [toLower_capital hn, toLower_small hn]
    · rw [toLower_capital hn, toLower_small hn]

theorem toLower_eq_iff_alike {first second : String} :
    first.toLower = second.toLower ↔ Alike first second := by
  rw [← String.toList_inj, toList_toLower, toList_toLower, Alike,
    ← List.forall₂_eq_eq_eq, List.forall₂_map_left_iff, List.forall₂_map_right_iff]
  simp only [toLower_eq_iff_alikeChar]

end HubLink.Text

namespace HubLink.Node

open Text (Alike)

variable {name : String} {fault : Fault} {names more : List String}

namespace Fault

theorem toLower_name (fault : Fault) : fault.name.toLower = fault.name := by
  cases fault <;> decide +kernel

@[simp]
theorem ofName?_name (fault : Fault) : ofName? fault.name = some fault := by
  cases fault <;> decide +kernel

/-- Names that a fault list is understood by. -/
def Known (name : String) : Prop :=
  ∃ fault : Fault, Alike name fault.name

theorem ofName?_eq (name : String) :
    ofName? name = all.find? fun fault => fault.name == name.toLower := rfl

/-- A text is the name of a fault if it is that in any case. -/
theorem ofName?_eq_some_iff : ofName? name = some fault ↔ Alike name fault.name := by
  rw [← Text.toLower_eq_iff_alike, toLower_name]
  constructor
  · intro hfound
    rw [ofName?_eq] at hfound
    have hname := List.find?_some hfound
    exact (beq_iff_eq.mp hname).symm
  · intro hlower
    have hread := ofName?_name fault
    rw [ofName?_eq, toLower_name] at hread
    rw [ofName?_eq, hlower, hread]

theorem isSome_ofName?_iff : (ofName? name).isSome = true ↔ Known name := by
  simp only [Option.isSome_iff_exists, ofName?_eq_some_iff, Known]

end Fault

namespace FaultFlags

variable {flags other : FaultFlags}

/-! ## The faults of a byte -/

/-- The byte that reports the given faults. -/
def ofFaults (faults : List Fault) : FaultFlags :=
  faults.foldl (fun flags fault => flags.insert (single fault)) empty

theorem ofNames_eq (names : List String) :
    ofNames names = ofFaults (names.filterMap Fault.ofName?) := rfl

theorem or_and (a b m : UInt8) : (a ||| b) &&& m = a &&& m ||| b &&& m := by
  rw [← UInt8.toBitVec_inj]
  simp only [UInt8.toBitVec_and, UInt8.toBitVec_or]
  ext i
  simp [Bool.and_or_distrib_right]

theorem has_insert : (flags.insert other).has fault = (flags.has fault || other.has fault) := by
  rw [Bool.eq_iff_iff]
  simp only [has, insert, bne_iff_ne, ne_eq, Bool.or_eq_true, or_and, UInt8.or_eq_zero_iff]
  exact Decidable.not_and_iff_or_not

theorem has_single {other : Fault} : (single fault).has other = true ↔ other = fault := by
  cases fault <;> cases other <;> decide

theorem has_ofFaults_iff {faults : List Fault} :
    (ofFaults faults).has fault = true ↔ fault ∈ faults := by
  suffices hstart : ∀ start : FaultFlags,
      (faults.foldl (fun flags fault => flags.insert (single fault)) start).has fault = true ↔
        start.has fault = true ∨ fault ∈ faults by
    have hempty : empty.has fault = false := by cases fault <;> decide
    rw [ofFaults, hstart, hempty]
    simp
  induction faults with
  | nil => simp
  | cons first rest ih =>
      intro start
      rw [List.foldl_cons, ih, has_insert, Bool.or_eq_true, has_single, List.mem_cons, or_assoc]

/-- A byte is put together again from its faults. -/
theorem ofFaults_filter_has (flags : FaultFlags) :
    ofFaults (Fault.all.filter flags.has) = flags := by
  have hall : ∀ n < 256, ofFaults (Fault.all.filter (FaultFlags.mk (UInt8.ofNat n)).has) =
      ⟨UInt8.ofNat n⟩ := by
    decide +kernel
  have hflags := hall flags.bits.toNat flags.bits.toNat_lt
  rwa [UInt8.ofNat_toNat] at hflags

/-- A byte is settled by the faults that it has. -/
theorem ext_has (hsame : ∀ fault, flags.has fault = true ↔ other.has fault = true) :
    flags = other := by
  rw [← ofFaults_filter_has flags, ← ofFaults_filter_has other]
  exact congrArg ofFaults (List.filter_congr fun fault _ => Bool.eq_iff_iff.mpr (hsame fault))

/-! ## The faults of a list of names -/

/-- **A list stands for the faults that it names.** -/
theorem has_ofNames_iff :
    (ofNames names).has fault = true ↔ ∃ name ∈ names, Alike name fault.name := by
  rw [ofNames_eq, has_ofFaults_iff, List.mem_filterMap]
  simp only [Fault.ofName?_eq_some_iff]

theorem ofNames_congr (hsame : ∀ fault : Fault, (∃ name ∈ names, Alike name fault.name) ↔
    ∃ name ∈ more, Alike name fault.name) : ofNames names = ofNames more :=
  ext_has fun fault => by rw [has_ofNames_iff, has_ofNames_iff, hsame]

theorem ofNames_append : ofNames (names ++ more) = (ofNames names).insert (ofNames more) := by
  apply ext_has
  intro fault
  rw [has_insert, Bool.or_eq_true]
  simp only [has_ofNames_iff, List.mem_append, or_and_right, exists_or]

/-- Neither the order of names nor their number matters. -/
theorem ofNames_of_same_members (hsame : ∀ name, name ∈ names ↔ name ∈ more) :
    ofNames names = ofNames more :=
  ofNames_congr fun fault => by simp only [hsame]

/-- A name that is not known says nothing. -/
theorem ofNames_unknown (hunknown : ¬ Fault.Known name) :
    ofNames (names ++ name :: more) = ofNames (names ++ more) := by
  apply ofNames_congr
  intro fault
  have hother : ¬ Alike name fault.name := fun halike => hunknown ⟨fault, halike⟩
  simp only [List.mem_append, List.mem_cons, or_and_right, exists_or, exists_eq_left, hother,
    false_or]

/-! ## Back to a list of names -/

theorem mem_filter_has : fault ∈ Fault.all.filter flags.has ↔ flags.has fault = true := by
  have hall : fault ∈ Fault.all := by cases fault <;> decide
  simp [hall]

/-- The names of a byte name its faults. -/
theorem ofNames_names (flags : FaultFlags) : ofNames flags.names = flags := by
  rw [ofNames_eq, FaultFlags.names, List.filterMap_map]
  rw [show Fault.ofName? ∘ Fault.name = some from funext Fault.ofName?_name, List.filterMap_some]
  exact ofFaults_filter_has flags

/-- **A list comes back in lower case, in the order of the bits and without repetitions.** -/
theorem names_ofNames (names : List String) :
    ∃ faults : List Fault, (ofNames names).names = faults.map Fault.name ∧
      faults.Pairwise (fun first second => first.mask < second.mask) ∧
      ∀ fault, fault ∈ faults ↔ ∃ name ∈ names, Alike name fault.name := by
  refine ⟨Fault.all.filter (ofNames names).has, rfl, ?_, ?_⟩
  · have hascending : Fault.all.Pairwise (fun first second => first.mask < second.mask) := by decide
    exact hascending.filter _
  · intro fault
    rw [mem_filter_has, has_ofNames_iff]

theorem mem_names_ofNames_iff {text : String} :
    text ∈ (ofNames names).names ↔ ∃ name ∈ names, Fault.Known name ∧ text = name.toLower := by
  rw [FaultFlags.names, List.mem_map]
  simp only [mem_filter_has, has_ofNames_iff]
  constructor
  · rintro ⟨fault, ⟨name, hmem, halike⟩, rfl⟩
    refine ⟨name, hmem, ⟨fault, halike⟩, ?_⟩
    rw [Text.toLower_eq_iff_alike.mpr halike, Fault.toLower_name]
  · rintro ⟨name, hmem, ⟨fault, halike⟩, rfl⟩
    refine ⟨fault, ⟨name, hmem, halike⟩, ?_⟩
    rw [Text.toLower_eq_iff_alike.mpr halike, Fault.toLower_name]

/-! ## Lists in which every name must be known -/

/-- A list is refused over the first name that is not known. -/
theorem ofNames?_eq_error_iff : ofNames? names = .error name ↔
    ∃ before after, names = before ++ name :: after ∧ (∀ known ∈ before, Fault.Known known) ∧
      ¬ Fault.Known name := by
  have hfind : ofNames? names = .error name ↔
      names.find? (fun name => (Fault.ofName? name).isNone) = some name := by
    rw [ofNames?]
    cases names.find? (fun name => (Fault.ofName? name).isNone) <;> simp
  rw [hfind, List.find?_eq_some_iff_append]
  simp only [← Fault.isSome_ofName?_iff, Option.isNone_iff_eq_none, Bool.not_eq_true,
    Option.isSome_eq_false_iff, Bool.not_eq_eq_eq_not, Bool.not_true, Option.isNone_eq_false_iff]
  constructor
  · rintro ⟨hnone, before, after, hnames, hbefore⟩
    exact ⟨before, after, hnames, hbefore, hnone⟩
  · rintro ⟨before, after, hnames, hbefore, hnone⟩
    exact ⟨hnone, before, after, hnames, hbefore⟩

theorem ofNames?_eq_ok_iff : ofNames? names = .ok flags ↔
    (∀ name ∈ names, Fault.Known name) ∧ flags = ofNames names := by
  have hfind : ofNames? names = .ok flags ↔
      names.find? (fun name => (Fault.ofName? name).isNone) = none ∧ flags = ofNames names := by
    rw [ofNames?]
    cases names.find? (fun name => (Fault.ofName? name).isNone) <;> simp [eq_comm]
  rw [hfind, List.find?_eq_none]
  simp only [← Fault.isSome_ofName?_iff, Option.isNone_iff_eq_none, Option.isSome_iff_ne_none,
    ne_eq]

end FaultFlags

end HubLink.Node

namespace HubLink.Tool

open Node (Advertisement Fault FaultFlags)

variable {advertisement : Advertisement} {names : List String} {name : String}

/-- An advertisement is written only if every fault it is to report is known. -/
theorem encodeAdvertisement_eq_ok_iff {bytes : List UInt8} :
    encodeAdvertisement advertisement names = .ok bytes ↔ (∀ name ∈ names, Fault.Known name) ∧
      bytes = { advertisement with faultFlags := FaultFlags.ofNames names }.encode := by
  rw [encodeAdvertisement]
  cases hread : FaultFlags.ofNames? names with
  | error name =>
      obtain ⟨before, after, hnames, -, hunknown⟩ := FaultFlags.ofNames?_eq_error_iff.mp hread
      have hmem : name ∈ names := by simp [hnames]
      simp only [reduceCtorEq, false_iff, not_and]
      exact fun hknown => absurd (hknown name hmem) hunknown
  | ok flags =>
      obtain ⟨hknown, rfl⟩ := FaultFlags.ofNames?_eq_ok_iff.mp hread
      simp only [Except.ok.injEq]
      exact ⟨fun hbytes => ⟨hknown, hbytes.symm⟩, fun hbytes => hbytes.2.symm⟩

/-- What is told of an advertisement that is not written. -/
theorem encodeAdvertisement_eq_error_iff {failure : Failure} :
    encodeAdvertisement advertisement names = .error failure ↔
      ∃ name, FaultFlags.ofNames? names = .error name ∧ failure = .unknownFault name := by
  rw [encodeAdvertisement]
  cases FaultFlags.ofNames? names <;> simp [eq_comm]

/-- **Lists of fault names.**  A list stands for the faults that its names name in some case: that
settles its byte, with lists put together as their bytes are, and order, repetitions and unknown
names without effect.  A byte is read back from its own names, and the names of a list come back
once each in the order of the bits.  The reader of the command line accepts just the lists without
unknown names, reads them alike, and names the first unknown one of any other. -/
theorem fault_names_agree (names : List String) :
    (∀ fault : Fault, (FaultFlags.ofNames names).has fault = true ↔
        ∃ name ∈ names, Text.Alike name fault.name) ∧
    (∀ more, FaultFlags.ofNames (names ++ more) =
        (FaultFlags.ofNames names).insert (FaultFlags.ofNames more)) ∧
    (∀ more, (∀ name, name ∈ names ↔ name ∈ more) →
        FaultFlags.ofNames names = FaultFlags.ofNames more) ∧
    (∀ unknown more, ¬ Fault.Known unknown →
        FaultFlags.ofNames (names ++ unknown :: more) = FaultFlags.ofNames (names ++ more)) ∧
    (∀ flags : FaultFlags, FaultFlags.ofNames flags.names = flags) ∧
    (∃ faults : List Fault, (FaultFlags.ofNames names).names = faults.map Fault.name ∧
        faults.Pairwise (fun first second => first.mask < second.mask) ∧
        ∀ fault, fault ∈ faults ↔ ∃ name ∈ names, Text.Alike name fault.name) ∧
    (∀ text, text ∈ (FaultFlags.ofNames names).names ↔
        ∃ name ∈ names, Fault.Known name ∧ text = name.toLower) ∧
    (∀ flags, FaultFlags.ofNames? names = .ok flags ↔
        (∀ name ∈ names, Fault.Known name) ∧ flags = FaultFlags.ofNames names) ∧
    (∀ name, FaultFlags.ofNames? names = .error name ↔
        ∃ before after, names = before ++ name :: after ∧
          (∀ known ∈ before, Fault.Known known) ∧ ¬ Fault.Known name) ∧
    ∀ advertisement : Advertisement,
      (∀ bytes, encodeAdvertisement advertisement names = .ok bytes ↔
        (∀ name ∈ names, Fault.Known name) ∧
          bytes = { advertisement with faultFlags := FaultFlags.ofNames names }.encode) ∧
      ∀ failure, encodeAdvertisement advertisement names = .error failure ↔
        ∃ name, FaultFlags.ofNames? names = .error name ∧ failure = .unknownFault name :=
  ⟨fun _ => FaultFlags.has_ofNames_iff,
    fun _ => FaultFlags.ofNames_append,
    fun _ hsame => FaultFlags.ofNames_of_same_members hsame,
    fun _ _ hunknown => FaultFlags.ofNames_unknown hunknown,
    FaultFlags.ofNames_names,
    FaultFlags.names_ofNames names,
    fun _ => FaultFlags.mem_names_ofNames_iff,
    fun _ => FaultFlags.ofNames?_eq_ok_iff,
    fun _ => FaultFlags.ofNames?_eq_error_iff,
    fun _ => ⟨fun _ => encodeAdvertisement_eq_ok_iff, fun _ => encodeAdvertisement_eq_error_iff⟩⟩

/-- Two names in other cases, one of them twice, and one that no fault has. -/
theorem fault_names_agree_mixed :
    (∀ name : String, name ∈ ["Low_Battery", "sensor_high", "Low_Battery"] ↔
        name ∈ ["sensor_high", "Low_Battery"]) ∧
      ¬ Fault.Known "overheated" ∧
      FaultFlags.ofNames ["Low_Battery", "sensor_high", "Low_Battery"] =
        FaultFlags.ofNames ["sensor_high", "Low_Battery"] ∧
      FaultFlags.ofNames ["Low_Battery", "sensor_high", "Low_Battery", "overheated"] =
        FaultFlags.ofNames ["Low_Battery", "sensor_high", "Low_Battery"] ∧
      FaultFlags.ofNames ["sensor_high", "Low_Battery"] = ⟨0x11⟩ := by
  have hsame : ∀ name : String, name ∈ ["Low_Battery", "sensor_high", "Low_Battery"] ↔
      name ∈ ["sensor_high", "Low_Battery"] := by
    intro name
    simp only [List.mem_cons, List.not_mem_nil, or_false]
    tauto
  have hunknown : ¬ Fault.Known "overheated" := by
    rw [← Fault.isSome_ofName?_iff]
    decide +kernel
  obtain ⟨-, -, hmembers, hdropped, -⟩ :=
    fault_names_agree ["Low_Battery", "sensor_high", "Low_Battery"]
  have hbyte : FaultFlags.ofNames ["sensor_high", "Low_Battery"] = ⟨0x11⟩ := by decide +kernel
  exact ⟨hsame, hunknown, hmembers _ hsame, hdropped "overheated" [] hunknown, hbyte⟩

end HubLink.Tool
