import ConnectScrobbler.Lib.Call

/-! Two step functions that are fed the same inputs: on which runs their logs agree,
when each step says one thing at a time. -/
namespace Call

variable {O A S S' : Type}

/-- Both calls return, with the same log and in states that are alike. -/
def Together (alike : S → S' → Prop) (x : Call O S) (y : Call O S') : Prop :=
  ∃ log s s', x = ⟨log, some s⟩ ∧ y = ⟨log, some s'⟩ ∧ alike s s'

/-- Steps from states that are alike agree just when the condition is met. A step of the
second has one entry, and one of the first has one or panics without any. -/
structure Lockstep (step : S → A → Call O S) (step' : S' → A → Call O S') (alike : S → S' → Prop)
    (condition : S → A → Prop) : Prop where
  together : ∀ s s' a, alike s s' → condition s a → Together alike (step s a) (step' s' a)
  apart : ∀ s s' a, alike s s' → ¬ condition s a → (step s a).log ≠ (step' s' a).log
  single : ∀ s a, (∃ o t, step s a = ⟨[o], some t⟩) ∨ step s a = ⟨[], none⟩
  single' : ∀ s a, ∃ o t, step' s a = ⟨[o], some t⟩

variable {step : S → A → Call O S} {step' : S' → A → Call O S'} {alike : S → S' → Prop}
  {condition : S → A → Prop} {s : S} {s' : S'} {as : List A}

theorem Together.bind {x : Call O S} {y : Call O S'} {f : S → Call O S} {g : S' → Call O S'}
    (both : Together alike x y)
    (later : ∀ t t', x.value = some t → alike t t' → Together alike (f t) (g t')) :
    Together alike (x >>= f) (y >>= g) := by
  obtain ⟨log, t, t', rfl, rfl, same⟩ := both
  obtain ⟨more, u, u', left, right, alike'⟩ := later t t' rfl same
  refine ⟨log ++ more, u, u', ?_, ?_, alike'⟩
  · simp [left]
  · simp [right]

theorem Lockstep.run (lock : Lockstep step step' alike condition) (start : alike s s')
    (meets : Meets step condition s as) :
    Together alike (run step s as) (run step' s' as) := by
  induction as generalizing s s' with
  | nil => exact ⟨[], s, s', rfl, rfl, start⟩
  | cons a as ih =>
    obtain ⟨here, later⟩ := meets_cons_iff.mp meets
    apply (lock.together s s' a start here).bind
    intro t t' stepped same
    exact ih same (later t stepped)

theorem Lockstep.meets (lock : Lockstep step step' alike condition) (start : alike s s')
    (same : (Call.run step s as).log = (Call.run step' s' as).log) : Meets step condition s as := by
  induction as generalizing s s' with
  | nil => exact meets_nil step condition s
  | cons a as ih =>
    obtain ⟨o', t', right⟩ := lock.single' s' a
    rcases lock.single s a with ⟨o, t, left⟩ | left
    · simp only [Call.run, left, right, bind_some, List.singleton_append, List.cons.injEq] at same
      -- The first entries are those of the first steps.
      have here : condition s a := by
        by_contra fails
        exact lock.apart s s' a start fails (by rw [left, right, same.1])
      obtain ⟨log, u, u', left', right', next⟩ := lock.together s s' a start here
      apply meets_cons here
      intro v stepped
      rw [left] at stepped left'
      rw [right] at right'
      cases stepped
      cases left'
      cases right'
      exact ih next same.2
    · simp [Call.run, left, right] at same

/-- The logs of two runs agree just when every input meets its condition. -/
theorem Lockstep.same_log_iff (lock : Lockstep step step' alike condition) (start : alike s s') :
    (Call.run step s as).log = (Call.run step' s' as).log ↔ Meets step condition s as := by
  refine ⟨lock.meets start, ?_⟩
  intro meets
  obtain ⟨log, t, t', left, right, _⟩ := lock.run start meets
  rw [left, right]

/-- Whatever state the first run reaches, the second reaches one that is alike. -/
theorem Lockstep.reached (lock : Lockstep step step' alike condition) (start : alike s s')
    (meets : Meets step condition s as) {t : S} (reached : (Call.run step s as).value = some t) :
    ∃ t', alike t t' := by
  obtain ⟨log, u, u', left, _, same⟩ := lock.run start meets
  rw [left] at reached
  cases reached
  exact ⟨u', same⟩

end Call
