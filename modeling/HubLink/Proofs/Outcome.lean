/-!
# Results of steps that may fail

A run of steps succeeds exactly when each step does.  These are the laws by which a success is taken
apart into the successes it was made of.
-/

namespace HubLink

variable {ε α β : Type}

theorem bind_eq_ok {step : Except ε α} {next : α → Except ε β} {result : β} :
    (step >>= next) = .ok result ↔ ∃ value, step = .ok value ∧ next value = .ok result := by
  cases step with
  | error fault =>
      constructor
      · intro hresult
        cases hresult
      · rintro ⟨_, hvalue, _⟩
        cases hvalue
  | ok value =>
      refine ⟨fun hresult => ⟨value, rfl, hresult⟩, ?_⟩
      rintro ⟨_, ⟨⟩, hresult⟩
      exact hresult

theorem bind_unit_eq_ok {step : Except ε Unit} {next : Except ε β} {result : β} :
    (step >>= fun _ => next) = .ok result ↔ step = .ok () ∧ next = .ok result := by
  rw [bind_eq_ok]
  exact ⟨fun ⟨_, hstep, hnext⟩ => ⟨hstep, hnext⟩, fun ⟨hstep, hnext⟩ => ⟨_, hstep, hnext⟩⟩

/-- A fault of the first step is the fault of the run. -/
theorem bind_eq_error {step : Except ε α} {fault : ε} (hstep : step = .error fault)
    (next : α → Except ε β) : (step >>= next) = .error fault := by
  rw [hstep]
  rfl

/-- A last step that cannot fail leaves the faults as they are. -/
theorem bind_pure_eq_error_iff {step : Except ε α} {make : α → β} {fault : ε} :
    (step >>= fun value => pure (make value)) = .error fault ↔ step = .error fault := by
  cases step with
  | error reason =>
      constructor
      · intro hresult
        cases hresult
        rfl
      · intro hstep
        exact bind_eq_error hstep _
  | ok value =>
      constructor
      · intro hresult
        cases hresult
      · intro hstep
        cases hstep

/-- If the fault of a step is known, so is when there is none. -/
theorem exists_ok_iff {step : Except ε α} {fault? : Option ε}
    (hfault : ∀ fault, step = .error fault ↔ fault? = some fault) :
    (∃ value, step = .ok value) ↔ fault? = none := by
  cases hstep : step with
  | error fault =>
      rw [(hfault fault).mp hstep]
      simp
  | ok value =>
      refine iff_of_true ⟨value, rfl⟩ (Option.eq_none_iff_forall_ne_some.mpr ?_)
      intro fault hsome
      rw [(hfault fault).mpr hsome] at hstep
      cases hstep

theorem map_eq_ok {step : Except ε α} {make : α → β} {result : β} :
    step.map make = .ok result ↔ ∃ value, step = .ok value ∧ make value = result := by
  cases step with
  | error fault =>
      constructor
      · intro hresult
        cases hresult
      · rintro ⟨_, hvalue, _⟩
        cases hvalue
  | ok value =>
      refine ⟨fun hresult => ⟨value, rfl, Except.ok.inj hresult⟩, ?_⟩
      rintro ⟨_, ⟨⟩, rfl⟩
      rfl

/-! ## Results without their faults -/

theorem toOption_bind (step : Except ε α) (next : α → Except ε β) :
    (step >>= next).toOption = step.toOption.bind fun value => (next value).toOption := by
  cases step <;> rfl

theorem toOption_map (step : Except ε α) (make : α → β) :
    (step.map make).toOption = step.toOption.map make := by
  cases step <;> rfl

theorem toOption_eq_some_iff {step : Except ε α} {value : α} :
    step.toOption = some value ↔ step = .ok value := by
  cases step with
  | error fault => simp [Except.toOption]
  | ok found => simp [Except.toOption]

/-! ## Lists -/

/-- If every item that one function succeeds on is taken back by another, so is the whole list. -/
theorem mapM_mapM_eq_ok {write : α → Except ε β} {ε' : Type} {read : β → Except ε' α}
    {items : List α} {written : List β} (hwritten : items.mapM write = .ok written)
    (hback : ∀ item ∈ items, ∀ output, write item = .ok output → read output = .ok item) :
    written.mapM read = .ok items := by
  induction items generalizing written with
  | nil =>
      cases hwritten
      rfl
  | cons item rest ih =>
      rw [List.mapM_cons, bind_eq_ok] at hwritten
      obtain ⟨output, houtput, hwritten⟩ := hwritten
      rw [bind_eq_ok] at hwritten
      obtain ⟨outputs, houtputs, hwritten⟩ := hwritten
      cases hwritten
      have hrest := ih houtputs fun item hitem => hback item (List.mem_cons_of_mem _ hitem)
      rw [List.mapM_cons, hback item List.mem_cons_self output houtput, hrest]
      rfl

theorem mem_of_mapM_eq_ok {write : α → Except ε β} {items : List α} {written : List β}
    (hwritten : items.mapM write = .ok written) {output : β} (houtput : output ∈ written) :
    ∃ item ∈ items, write item = .ok output := by
  induction items generalizing written with
  | nil =>
      cases hwritten
      cases houtput
  | cons item rest ih =>
      rw [List.mapM_cons, bind_eq_ok] at hwritten
      obtain ⟨first, hfirst, hwritten⟩ := hwritten
      rw [bind_eq_ok] at hwritten
      obtain ⟨others, hothers, hwritten⟩ := hwritten
      cases hwritten
      rcases List.mem_cons.mp houtput with rfl | houtput
      · exact ⟨item, List.mem_cons_self, hfirst⟩
      · obtain ⟨other, hother, hwrite⟩ := ih hothers houtput
        exact ⟨other, List.mem_cons_of_mem _ hother, hwrite⟩

/-- A list succeeds if each of its items does. -/
theorem exists_mapM_eq_ok_iff {write : α → Except ε β} {items : List α} :
    (∃ written, items.mapM write = .ok written) ↔
      ∀ item ∈ items, ∃ output, write item = .ok output := by
  induction items with
  | nil => exact iff_of_true ⟨[], rfl⟩ (List.forall_mem_nil _)
  | cons item rest ih =>
      rw [List.forall_mem_cons, ← ih]
      simp only [List.mapM_cons, bind_eq_ok]
      constructor
      · rintro ⟨_, output, houtput, outputs, houtputs, -⟩
        exact ⟨⟨output, houtput⟩, outputs, houtputs⟩
      · rintro ⟨⟨output, houtput⟩, outputs, houtputs⟩
        exact ⟨_, output, houtput, outputs, houtputs, rfl⟩

/-- If the faults of the single items are known, so is that of the list: it is the first of them. -/
theorem mapM_eq_error_iff {write : α → Except ε β} {fault? : α → Option ε}
    (hfault : ∀ item fault, write item = .error fault ↔ fault? item = some fault)
    {items : List α} {fault : ε} :
    items.mapM write = .error fault ↔ items.findSome? fault? = some fault := by
  induction items with
  | nil =>
      constructor
      · intro hwritten
        cases hwritten
      · intro hfound
        cases hfound
  | cons item rest ih =>
      rw [List.mapM_cons, List.findSome?_cons]
      cases hitem : fault? item with
      | some reason =>
          rw [bind_eq_error ((hfault item reason).mpr hitem)]
          simp
      | none =>
          cases hwrite : write item with
          | error reason =>
              rw [(hfault item reason).mp hwrite] at hitem
              cases hitem
          | ok output => exact bind_pure_eq_error_iff.trans ih

end HubLink
