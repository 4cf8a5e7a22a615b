import ConnectScrobbler.Lib.Call

/-! A part of a larger state with steps of its own: what a run of the whole does to it is a run of the
part, by the actions that concern it. -/
namespace Call

variable {O P S T A B : Type}

/-- An action of the whole that concerns the part is one step of it, also where that panics; another one
leaves it as it is. -/
structure Projects (step : S → A → Call O S) (own : T → B → Call P T) (view : S → T) (act : A → Option B)
    (obs : O → Option P) : Prop where
  moves : ∀ s a b, act a = some b → (step s a).log.filterMap obs = (own (view s) b).log ∧
    ∀ s', (step s a).value = some s' → (own (view s) b).value = some (view s')
  rests : ∀ s a s', act a = none → (step s a).value = some s' →
    (step s a).log.filterMap obs = [] ∧ view s' = view s

variable {step : S → A → Call O S} {own : T → B → Call P T} {view : S → T} {act : A → Option B}
  {obs : O → Option P}

theorem Projects.run (projects : Projects step own view act obs) {s s' : S} {as : List A}
    (returned : (Call.run step s as).value = some s') :
    Call.run own (view s) (as.filterMap act) =
      ⟨(Call.run step s as).log.filterMap obs, some (view s')⟩ := by
  refine run_induction (P := fun as log s' => Call.run own (view s) (as.filterMap act) =
    ⟨log.filterMap obs, some (view s')⟩) ?_ ?_ returned
  · rfl
  · intro as log s' ih a t stepped
    rw [List.filterMap_append, List.filterMap_append]
    cases concerns : act a with
    | none =>
      obtain ⟨silent, same⟩ := projects.rests s' a t concerns stepped
      rw [List.filterMap_cons_none concerns, List.filterMap_nil, List.append_nil, ih, silent, same,
        List.append_nil]
    | some b =>
      obtain ⟨log', value⟩ := projects.moves s' a b concerns
      have there : (Call.run own (view s) (as.filterMap act)).value = some (view s') := by rw [ih]
      rw [List.filterMap_cons_some concerns, List.filterMap_nil, run_snoc_returned there, ih, log',
        value t stepped]

/-- Each action is a step of the part, with its log under other names, or says nothing about the part. -/
theorem Projects.of_cases (each : ∀ s a,
    (∃ b tag put, act a = some b ∧ (∀ e, obs (tag e) = some e) ∧ (∀ t, view (put t) = t) ∧
      step s a = ⟨(own (view s) b).log.map tag, (own (view s) b).value.map put⟩) ∨
    (act a = none ∧ (∀ e ∈ (step s a).log, obs e = none) ∧
      ∀ s', (step s a).value = some s' → view s' = view s)) : Projects step own view act obs := by
  constructor
  · intro s a b concerns
    rcases each s a with ⟨b', tag, put, concerns', named, there, same⟩ | ⟨other, _⟩
    · cases concerns.symm.trans concerns'
      rw [same]
      refine ⟨?_, ?_⟩
      · rw [List.filterMap_map, show obs ∘ tag = some from funext named, List.filterMap_some]
      · intro s' returned
        obtain ⟨t, stepped, rfl⟩ := Option.map_eq_some_iff.mp returned
        rw [stepped, there]
    · cases concerns.symm.trans other
  · intro s a s' other returned
    rcases each s a with ⟨b, _, _, concerns, _⟩ | ⟨_, silent, kept⟩
    · cases concerns.symm.trans other
    · exact ⟨List.filterMap_eq_nil_iff.mpr silent, kept s' returned⟩

/-- A call that is not of the part. -/
theorem apart {Q R : Type} {x : Call Q R} {tag : Q → O} {put : R → S} {s : S} {a : A}
    (same : step s a = ⟨x.log.map tag, x.value.map put⟩) (silent : ∀ e, obs (tag e) = none)
    (kept : ∀ r, view (put r) = view s) :
    (∀ e ∈ (step s a).log, obs e = none) ∧ ∀ s', (step s a).value = some s' → view s' = view s := by
  rw [same]
  constructor
  · intro e member
    obtain ⟨q, _, rfl⟩ := List.mem_map.mp member
    exact silent q
  · intro s' returned
    obtain ⟨r, _, rfl⟩ := Option.map_eq_some_iff.mp returned
    exact kept r

/-- Whether the part goes on with one action more. -/
theorem Projects.goes_on (projects : Projects step own view act obs) {s s' : S} {as : List A}
    (returned : (Call.run step s as).value = some s') (a : A) :
    (Call.run own (view s) ((as ++ [a]).filterMap act)).value ≠ none ↔
      ∀ b, act a = some b → (own (view s') b).value ≠ none := by
  have there : (Call.run own (view s) (as.filterMap act)).value = some (view s') := by
    rw [projects.run returned]
  rw [List.filterMap_append]
  cases concerns : act a with
  | none =>
    rw [List.filterMap_cons_none concerns, List.filterMap_nil, List.append_nil, there]
    simp
  | some b =>
    rw [List.filterMap_cons_some concerns, List.filterMap_nil, run_snoc_returned there]
    simp

/-- A call for a part of the state, whose result is put back. -/
theorem within_put (tag : P → O) (put : T → S) (x : Call P T) :
    (x.within tag >>= fun t => pure (put t)) = ⟨x.log.map tag, x.value.map put⟩ := by
  obtain ⟨log, value⟩ := x
  cases value <;> simp [within]

/-- A run that has gone on so far. -/
theorem run_before {own : T → B → Call P T} {t : T} {bs more : List B}
    (goes_on : (Call.run own t (bs ++ more)).value ≠ none) : (Call.run own t bs).value ≠ none := by
  rw [run_append] at goes_on
  obtain ⟨t', returned, _⟩ := bind_goes_on.mp goes_on
  rw [returned]
  nofun

end Call
