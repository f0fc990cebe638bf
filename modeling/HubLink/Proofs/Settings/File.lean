import HubLink.Proofs.Yaml.Field
import HubLink.Settings

/-!
# What a settings file tells

A file is in one of five states: there is none, it is no text, it is a text that cannot be read as
settings, it has no section for this tool, or it has one (`Tells`).  A section may be partial or
full: what it tells is a draft, which the defaults fill up (`Draft.finish`), and of the file only the
draft matters (`ofFile_eq`).

Each reader has its relation.  The relations go by names: the order of members does not matter, nor
do members that nobody asks for.  A file is taken as a whole: if anything in it that is asked for is
wrong, the file is in the third state and nothing in it counts.
-/

namespace HubLink.Settings

open Yaml (Node)
open Yaml.Node (Holds MayBeNull)

/-! ## The states of a file -/

/-- What a section tells of the settings. -/
structure Draft where
  queue : Queue.Config.Draft := {}
  maxFrameSize : Option Nat := none
  schemaVersion : Option String := none
  logChunkSize : Option Nat := none

/-- The settings of a draft, what is missing being at its default. -/
def Draft.finish (draft : Draft) : Settings :=
  let default : Settings := {}
  { queue := draft.queue.finish
    maxFrameSize := draft.maxFrameSize.getD default.maxFrameSize
    schemaVersion := draft.schemaVersion.getD default.schemaVersion
    logChunkSize := draft.logChunkSize.getD default.logChunkSize }

variable {root node : Node} {text : String} {content : List UInt8} {file : Option (List UInt8)}
  {draft : Draft}

/-- A node is the queue part of a section, and this is what it tells. -/
def IsQueue (root node : Node) (draft : Queue.Config.Draft) : Prop :=
  ∃ members, Node.members? root node = some members ∧
    Holds members "capacity" (Node.natBelow? sizeBound root · = some ·) draft.capacity ∧
    Holds members "max_retries" (Node.natBelow? retryBound root · = some ·) draft.maxRetries ∧
    Holds members "requeue_policy" (Node.choice? Queue.Policy.named root · = some ·) draft.policy

/-- A node is a section, and this is what it tells. -/
def IsSection (root node : Node) (draft : Draft) : Prop :=
  ∃ members queue, Node.members? root node = some members ∧
    Holds members "queue" (IsQueue root) queue ∧ queue.getD {} = draft.queue ∧
    Holds members "max_frame_size" (Node.natBelow? sizeBound root · = some ·) draft.maxFrameSize ∧
    Holds members "schema_version" (Node.text? root · = some ·) draft.schemaVersion ∧
    Holds members "log_chunk_size" (Node.natBelow? sizeBound root · = some ·) draft.logChunkSize

/-- A node is the services of a document, and this is what the section among them tells, if
there is one. -/
def IsServices (root node : Node) (draft? : Option Draft) : Prop :=
  ∃ members found, Node.members? root node = some members ∧
    Holds members "hub_ipc" (MayBeNull root (IsSection root)) found ∧ found.join = draft?

/-- A node is a document of settings, and this is what its section tells, if it has one. -/
def IsDocument (root : Node) (draft? : Option Draft) : Prop :=
  ∃ members found, Node.members? root root = some members ∧
    Holds members "services" (MayBeNull root (IsServices root)) found ∧ found.join.join = draft?

/-- A text can be read as settings, and this is what its section tells, if it has one. -/
def IsText (text : String) (draft? : Option Draft) : Prop :=
  ∃ root, Node.ofText? text.toList = some root ∧ IsDocument root draft?

/-- What a file tells, in whichever state it is. -/
inductive Tells : Option (List UInt8) → Draft → Prop where
  /-- There is no file, or it cannot be opened. -/
  | missing : Tells none {}
  /-- The file is no text. -/
  | noText {content : List UInt8} (hbytes : ∀ text, content ≠ Text.bytes text) :
      Tells (some content) {}
  /-- The file is a text that cannot be read as settings. -/
  | noSettings {text : String} (hnone : ∀ draft?, ¬ IsText text draft?) :
      Tells (some (Text.bytes text)) {}
  /-- The file has no section for this tool. -/
  | noSection {text : String} (htext : IsText text none) : Tells (some (Text.bytes text)) {}
  /-- The file has a section, be it partial or full. -/
  | ofSection {text : String} {draft : Draft} (htext : IsText text (some draft)) :
      Tells (some (Text.bytes text)) draft

/-! ## The readers read what is told -/

theorem queueOfNode?_eq_some_iff {config : Queue.Config} :
    queueOfNode? root node = some config ↔
      ∃ draft, IsQueue root node draft ∧ draft.finish = config := by
  simp only [queueOfNode?, IsQueue, Option.bind_eq_bind, Option.bind_eq_some_iff,
    Node.field?_eq_some_iff fun _ _ => Iff.rfl]
  constructor
  · rintro ⟨members, hmembers, capacity, hcapacity, maxRetries, hretries, policy, hpolicy, hmade⟩
    exact ⟨⟨capacity, maxRetries, policy⟩, ⟨members, hmembers, hcapacity, hretries, hpolicy⟩,
      Option.some.inj hmade⟩
  · rintro ⟨draft, ⟨members, hmembers, hcapacity, hretries, hpolicy⟩, rfl⟩
    exact ⟨members, hmembers, _, hcapacity, _, hretries, _, hpolicy, rfl⟩

theorem ofNode?_eq_some_iff {settings : Settings} :
    ofNode? root node = some settings ↔
      ∃ draft, IsSection root node draft ∧ draft.finish = settings := by
  simp only [ofNode?, IsSection, Option.bind_eq_bind, Option.bind_eq_some_iff,
    Node.field?_eq_some_iff fun _ _ => queueOfNode?_eq_some_iff, Node.holds_map_iff]
  simp only [Node.field?_eq_some_iff fun _ _ => Iff.rfl]
  constructor
  · rintro ⟨members, hmembers, _, ⟨queue, hqueue, rfl⟩, frameSize, hframe, version, hversion,
      chunkSize, hchunk, hmade⟩
    refine ⟨⟨queue.getD {}, frameSize, version, chunkSize⟩,
      ⟨members, queue, hmembers, hqueue, rfl, hframe, hversion, hchunk⟩, ?_⟩
    cases queue <;> exact Option.some.inj hmade
  · rintro ⟨⟨_, frameSize, version, chunkSize⟩,
      ⟨members, queue, hmembers, hqueue, rfl, hframe, hversion, hchunk⟩, rfl⟩
    refine ⟨members, hmembers, _, ⟨queue, hqueue, rfl⟩, _, hframe, _, hversion, _, hchunk, ?_⟩
    cases queue <;> rfl

theorem ofServices?_eq_some_iff {found : Option Settings} :
    ofServices? root node = some found ↔
      ∃ draft?, IsServices root node draft? ∧ draft?.map Draft.finish = found := by
  simp only [ofServices?, IsServices, Option.bind_eq_bind, Option.bind_eq_some_iff,
    Node.optionalField?_eq_some_iff fun _ _ => ofNode?_eq_some_iff]
  constructor
  · rintro ⟨members, hmembers, written, hwritten, rfl⟩
    exact ⟨_, ⟨members, written, hmembers, hwritten, rfl⟩, rfl⟩
  · rintro ⟨_, ⟨members, written, hmembers, hwritten, rfl⟩, rfl⟩
    exact ⟨members, hmembers, written, hwritten, rfl⟩

theorem ofDocument?_eq_some_iff {found : Option Settings} :
    ofDocument? root = some found ↔
      ∃ draft?, IsDocument root draft? ∧ draft?.map Draft.finish = found := by
  simp only [ofDocument?, IsDocument, Option.bind_eq_bind, Option.bind_eq_some_iff,
    Node.optionalField?_eq_some_iff fun _ _ => ofServices?_eq_some_iff]
  constructor
  · rintro ⟨members, hmembers, _, ⟨written, hwritten, rfl⟩, hmade⟩
    refine ⟨_, ⟨members, written, hmembers, hwritten, rfl⟩, ?_⟩
    rw [← Option.some.inj hmade]
    cases written.join <;> rfl
  · rintro ⟨_, ⟨members, written, hmembers, hwritten, rfl⟩, rfl⟩
    refine ⟨members, hmembers, _, ⟨written, hwritten, rfl⟩, ?_⟩
    cases written.join <;> rfl

theorem ofFile?_bytes_eq_some_iff {found : Option Settings} :
    ofFile? (Text.bytes text) = some found ↔
      ∃ draft?, IsText text draft? ∧ draft?.map Draft.finish = found := by
  simp only [ofFile?, IsText, Option.bind_eq_bind, Option.bind_eq_some_iff, Text.ofBytes?_bytes,
    ofDocument?_eq_some_iff]
  constructor
  · rintro ⟨_, ⟨⟩, root, hroot, draft?, hdocument, hmade⟩
    exact ⟨draft?, ⟨root, hroot, hdocument⟩, hmade⟩
  · rintro ⟨draft?, ⟨root, hroot, hdocument⟩, hmade⟩
    exact ⟨text, rfl, root, hroot, draft?, hdocument, hmade⟩

theorem ofFile?_eq_none (hbytes : ∀ text, content ≠ Text.bytes text) : ofFile? content = none := by
  have hnone : Text.ofBytes? content = none :=
    Option.eq_none_iff_forall_ne_some.mpr fun text htext =>
      hbytes text (Text.ofBytes?_eq_some_iff.mp htext)
  rw [ofFile?, hnone]
  rfl

/-- The settings of a file are what it tells, with defaults for the rest. -/
theorem ofFile_eq (htells : Tells file draft) : ofFile file = draft.finish := by
  cases htells with
  | missing => rfl
  | noText hbytes =>
      rw [ofFile, Option.bind_some, ofFile?_eq_none hbytes]
      rfl
  | @noSettings text hnone =>
      have hread : ofFile? (Text.bytes text) = none := by
        rw [Option.eq_none_iff_forall_ne_some]
        intro found hfound
        obtain ⟨draft?, htext, -⟩ := ofFile?_bytes_eq_some_iff.mp hfound
        exact hnone draft? htext
      rw [ofFile, Option.bind_some, hread]
      rfl
  | noSection htext =>
      rw [ofFile, Option.bind_some, ofFile?_bytes_eq_some_iff.mpr ⟨none, htext, rfl⟩]
      rfl
  | ofSection htext =>
      rw [ofFile, Option.bind_some, ofFile?_bytes_eq_some_iff.mpr ⟨some draft, htext, rfl⟩]
      rfl

/-- Every file is in one of the states. -/
theorem exists_tells (file : Option (List UInt8)) : ∃ draft, Tells file draft := by
  cases file with
  | none => exact ⟨{}, .missing⟩
  | some content =>
      by_cases hbytes : ∃ text, content = Text.bytes text
      · obtain ⟨text, rfl⟩ := hbytes
        by_cases htext : ∃ draft?, IsText text draft?
        · obtain ⟨draft?, htext⟩ := htext
          cases draft? with
          | none => exact ⟨{}, .noSection htext⟩
          | some draft => exact ⟨draft, .ofSection htext⟩
        · exact ⟨{}, .noSettings (not_exists.mp htext)⟩
      · exact ⟨{}, .noText (not_exists.mp hbytes)⟩

end HubLink.Settings
