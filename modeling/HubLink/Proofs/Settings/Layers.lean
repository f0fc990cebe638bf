import HubLink.Proofs.Settings.File
import HubLink.Proofs.Text.Whole
import Mathlib.Logic.Relator

/-!
# Where each setting comes from

A setting has three places to come from: a variable of the environment, the section of the file, and
its default.  The first of them that has something to tell wins (`Layered`), and each setting is
looked up on its own (`load_in_layers`): a variable that cannot be read counts as not set and leaves
the others alone.  Two settings have no variable.

The layers settle the value (`Layered.unique`), and only the text of one variable is among them.  So
that a setting hangs on no other variable needs no second look at how the variables are put in.
-/

namespace HubLink.Queue.Policy

theorem ofName?_eq_some_iff {name : String} {policy : Policy} :
    ofName? name = some policy ↔ name = policy.name := by
  constructor
  · intro hname
    simp only [ofName?, named, List.map_cons, List.map_nil, List.lookup_cons,
      List.lookup_nil] at hname
    split at hname
    next hkeep =>
      cases hname
      exact beq_iff_eq.mp hkeep
    next =>
      split at hname
      next hmove =>
        cases hname
        exact beq_iff_eq.mp hmove
      next => cases hname
  · rintro rfl
    cases policy <;> decide

end HubLink.Queue.Policy

namespace HubLink.Settings

variable {text : String} {file : Option (List UInt8)} {draft : Draft}

/-! ## Three layers -/

/-- A value comes from three layers.  It is what the text of a variable stands for, or else what a
file tells, or else the default; a text that stands for nothing is passed over. -/
inductive Layered {α : Type} (reads : String → α → Prop) :
    (text? : Option String) → (told? : Option α) → (fallback value : α) → Prop where
  | ofVariable {text : String} {told? : Option α} {fallback value : α} (hreads : reads text value) :
      Layered reads (some text) told? fallback value
  | ofFile {text? : Option String} {fallback value : α}
      (hunread : ∀ text ∈ text?, ∀ value, ¬ reads text value) :
      Layered reads text? (some value) fallback value
  | ofDefault {text? : Option String} {fallback : α}
      (hunread : ∀ text ∈ text?, ∀ value, ¬ reads text value) :
      Layered reads text? none fallback fallback

namespace Layered

variable {α : Type} {reads : String → α → Prop} {text? : Option String} {told? : Option α}
  {fallback value other : α}

theorem getD {read : String → Option α}
    (hread : ∀ {text value}, read text = some value ↔ reads text value) :
    Layered reads text? told? fallback ((text?.bind read).getD (told?.getD fallback)) := by
  cases hfound : text?.bind read with
  | some value =>
      obtain ⟨text, rfl, hvalue⟩ := Option.bind_eq_some_iff.mp hfound
      exact .ofVariable (hread.mp hvalue)
  | none =>
      have hunread : ∀ text ∈ text?, ∀ value, ¬ reads text value := by
        intro text htext value hreads
        rw [Option.bind_eq_none_iff] at hfound
        rw [← hread, hfound text htext] at hreads
        cases hreads
      cases told? with
      | some value => exact .ofFile hunread
      | none => exact .ofDefault hunread

/-- The layers settle the value. -/
theorem unique (hreads : Relator.RightUnique reads)
    (hvalue : Layered reads text? told? fallback value)
    (hother : Layered reads text? told? fallback other) : value = other := by
  cases hvalue with
  | ofVariable hread =>
      cases hother with
      | ofVariable hread' => exact hreads hread hread'
      | ofFile hunread => exact absurd hread (hunread _ rfl _)
      | ofDefault hunread => exact absurd hread (hunread _ rfl _)
  | ofFile hunread =>
      cases hother with
      | ofVariable hread => exact absurd hread (hunread _ rfl _)
      | ofFile => rfl
  | ofDefault hunread =>
      cases hother with
      | ofVariable hread => exact absurd hread (hunread _ rfl _)
      | ofDefault => rfl

end Layered

/-- A text stands for a number below a bound. -/
def IsNumber (bound : Nat) (text : String) (n : Nat) : Prop :=
  Text.Spells text.toList n ∧ n < bound

/-- A text is the name of a policy. -/
def IsPolicy (text : String) (policy : Queue.Policy) : Prop :=
  text = policy.name

theorem rightUnique_isNumber (bound : Nat) : Relator.RightUnique (IsNumber bound) :=
  fun _ _ _ hfirst hsecond => hfirst.1.unique hsecond.1

theorem rightUnique_isPolicy : Relator.RightUnique IsPolicy := by
  intro text first second hfirst hsecond
  rw [IsPolicy, ← Queue.Policy.ofName?_eq_some_iff] at hfirst hsecond
  exact Option.some.inj (hfirst.symm.trans hsecond)

/-- Every setting comes from layers of its own; two of them have no variable. -/
structure InLayers (environment : Environment) (draft : Draft) (settings : Settings) : Prop where
  capacity : Layered (IsNumber sizeBound) (environment "HUB_IPC_QUEUE_CAPACITY")
    draft.queue.capacity ({} : Settings).queue.capacity settings.queue.capacity
  maxRetries : Layered (IsNumber retryBound) (environment "HUB_IPC_MAX_RETRIES")
    draft.queue.maxRetries ({} : Settings).queue.maxRetries settings.queue.maxRetries
  policy : Layered IsPolicy (environment "HUB_IPC_REQUEUE_POLICY")
    draft.queue.policy ({} : Settings).queue.policy settings.queue.policy
  maxFrameSize : Layered (IsNumber sizeBound) (environment "HUB_IPC_MAX_FRAME_SIZE")
    draft.maxFrameSize ({} : Settings).maxFrameSize settings.maxFrameSize
  schemaVersion : settings.schemaVersion = draft.schemaVersion.getD ({} : Settings).schemaVersion
  logChunkSize : settings.logChunkSize = draft.logChunkSize.getD ({} : Settings).logChunkSize

theorem inLayers_load (htells : Tells file draft) (environment : Environment) :
    InLayers environment draft (load file environment) := by
  rw [load, ofFile_eq htells]
  exact
    { capacity := .getD Text.natBelow?_eq_some_iff
      maxRetries := .getD Text.natBelow?_eq_some_iff
      policy := .getD Queue.Policy.ofName?_eq_some_iff
      maxFrameSize := .getD Text.natBelow?_eq_some_iff
      schemaVersion := rfl
      logChunkSize := rfl }

/-- A setting hangs on one variable of the environment only. -/
def HangsOn {α : Type} (name : String) (setting : Environment → α) : Prop :=
  ∀ first second : Environment, first name = second name → setting first = setting second

theorem hangsOn_of_layered {α : Type} {reads : String → α → Prop} {name : String}
    {told? : Option α} {fallback : α} {setting : Environment → α}
    (hreads : Relator.RightUnique reads)
    (hlayers : ∀ environment,
      Layered reads (environment name) told? fallback (setting environment)) :
    HangsOn name setting := by
  intro first second hname
  have hfirst := hlayers first
  rw [hname] at hfirst
  exact hfirst.unique hreads (hlayers second)

theorem getD_getD_self {α : Type} (value? : Option α) (fallback : α) :
    value?.getD (value?.getD fallback) = value?.getD fallback := by
  cases value? <;> rfl

/-- Variables that have been put in already change nothing. -/
theorem withEnvironment_withEnvironment (settings : Settings) (environment : Environment) :
    (settings.withEnvironment environment).withEnvironment environment =
      settings.withEnvironment environment := by
  simp only [withEnvironment, getD_getD_self]

/-- Whatever state the file is in and whatever the environment holds, there are settings, and each
of them comes from layers of its own: its variable if that can be read, else what the file tells,
else the default.  No variable touches the setting of another, and putting the variables in once
more changes nothing. -/
theorem load_in_layers (file : Option (List UInt8)) :
    (∃ draft, Tells file draft) ∧
      (∀ draft environment, Tells file draft →
        InLayers environment draft (load file environment)) ∧
      (HangsOn "HUB_IPC_QUEUE_CAPACITY" fun environment =>
        (load file environment).queue.capacity) ∧
      (HangsOn "HUB_IPC_MAX_RETRIES" fun environment =>
        (load file environment).queue.maxRetries) ∧
      (HangsOn "HUB_IPC_REQUEUE_POLICY" fun environment => (load file environment).queue.policy) ∧
      (HangsOn "HUB_IPC_MAX_FRAME_SIZE" fun environment =>
        (load file environment).maxFrameSize) ∧
      ∀ (settings : Settings) (environment : Environment),
        (settings.withEnvironment environment).withEnvironment environment =
          settings.withEnvironment environment := by
  obtain ⟨draft, htells⟩ := exists_tells file
  have hlayers := inLayers_load htells
  have hsize := rightUnique_isNumber sizeBound
  have hretries := rightUnique_isNumber retryBound
  exact ⟨⟨draft, htells⟩, fun _ environment hother => inLayers_load hother environment,
    hangsOn_of_layered hsize fun environment => (hlayers environment).capacity,
    hangsOn_of_layered hretries fun environment => (hlayers environment).maxRetries,
    hangsOn_of_layered rightUnique_isPolicy fun environment => (hlayers environment).policy,
    hangsOn_of_layered hsize fun environment => (hlayers environment).maxFrameSize,
    withEnvironment_withEnvironment⟩

/-- A file with a section that tells little. -/
def scantFile : String :=
  "services:\n  hub_ipc:\n    queue:\n      capacity: 16\n    max_frame_size: 4096\n"

/-- Variables of which two cannot be read: a retry count that is one too large, and a blank in front
of a size. -/
def mixedEnvironment : Environment := fun name =>
  List.lookup name
    [("HUB_IPC_QUEUE_CAPACITY", "+08"), ("HUB_IPC_MAX_RETRIES", "4294967296"),
      ("HUB_IPC_MAX_FRAME_SIZE", " 2048"), ("HUB_IPC_REQUEUE_POLICY", "move_to_front")]

/-- All three layers at once: the capacity and the policy are those of the variables, the frame size
is that of the file, and the retry count is the default. -/
theorem load_in_layers_mixed :
    ∃ draft, Tells (some (Text.bytes scantFile)) draft ∧ draft.queue.capacity = some 16 ∧
      InLayers mixedEnvironment draft (load (some (Text.bytes scantFile)) mixedEnvironment) ∧
      load (some (Text.bytes scantFile)) mixedEnvironment =
        { queue := { capacity := 8, policy := .moveToFront }, maxFrameSize := 4096 } := by
  have hfound : ofFile? (Text.bytes scantFile) =
      some (some { queue := { capacity := 16 }, maxFrameSize := 4096 }) := by
    rw [ofFile?, Text.ofBytes?_bytes]
    decide +kernel
  obtain ⟨draft?, htext, hmade⟩ := ofFile?_bytes_eq_some_iff.mp hfound
  obtain ⟨draft, rfl, hfinish⟩ := Option.map_eq_some_iff.mp hmade
  obtain ⟨-, hlayers, -⟩ := load_in_layers (some (Text.bytes scantFile))
  have hcapacity : draft.queue.capacity.getD 100 = 16 :=
    congrArg (fun settings => settings.queue.capacity) hfinish
  refine ⟨draft, .ofSection htext, ?_, hlayers draft mixedEnvironment (.ofSection htext), ?_⟩
  · cases htold : draft.queue.capacity with
    | none =>
        rw [htold] at hcapacity
        cases hcapacity
    | some capacity =>
        rw [htold] at hcapacity
        exact congrArg some hcapacity
  · rw [load, ofFile, Option.bind_some, hfound]
    decide

end HubLink.Settings
