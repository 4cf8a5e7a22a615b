import Mathlib.Data.List.Induction

/-! Calls that log what they do to the outside and may panic. A panic keeps the
log written so far, so that what a crashing call already did is not forgotten.
A run feeds a list of inputs to a step function and ends at the first panic. -/

/-- The log of a call and its value; no value is a panic. -/
structure Call (O α : Type) where
  log : List O
  value : Option α
  deriving DecidableEq, Repr

namespace Call

variable {O α β S A : Type}

def bind (x : Call O α) (f : α → Call O β) : Call O β :=
  match x.value with
  | none => ⟨x.log, none⟩
  | some a => ⟨x.log ++ (f a).log, (f a).value⟩

instance : Monad (Call O) where
  pure a := ⟨[], some a⟩
  bind := Call.bind

def emit (o : O) : Call O Unit := ⟨[o], some ()⟩

def panic : Call O α := ⟨[], none⟩

def unwrap (x : Option α) : Call O α := ⟨[], x⟩

@[simp] theorem pure_eq (a : α) : (pure a : Call O α) = ⟨[], some a⟩ := rfl

@[simp] theorem bind_some (log : List O) (a : α) (f : α → Call O β) :
    ((⟨log, some a⟩ : Call O α) >>= f) = ⟨log ++ (f a).log, (f a).value⟩ := rfl

@[simp] theorem bind_none (log : List O) (f : α → Call O β) :
    ((⟨log, none⟩ : Call O α) >>= f) = ⟨log, none⟩ := rfl

@[simp] theorem emit_eq (o : O) : emit o = ⟨[o], some ()⟩ := rfl

@[simp] theorem panic_eq : (panic : Call O α) = ⟨[], none⟩ := rfl

@[simp] theorem unwrap_eq (x : Option α) : (unwrap x : Call O α) = ⟨[], x⟩ := rfl

/-- A call along with what it has logged. -/
def listen (x : Call O α) : Call O (α × List O) := ⟨x.log, x.value.map fun a => (a, x.log)⟩

/-- A call as part of a larger program, whose log has entries of its own. -/
def within {P : Type} (f : O → P) (x : Call O α) : Call P α := ⟨x.log.map f, x.value⟩

@[simp] theorem within_log {P : Type} (f : O → P) (x : Call O α) :
    (x.within f).log = x.log.map f := rfl

@[simp] theorem within_value {P : Type} (f : O → P) (x : Call O α) :
    (x.within f).value = x.value := rfl

theorem bind_value (x : Call O α) (f : α → Call O β) :
    (x >>= f).value = x.value.bind (fun a => (f a).value) := by
  obtain ⟨log, value⟩ := x
  cases value <;> rfl

theorem within_bind {P : Type} (f : O → P) (x : Call O α) (g : α → Call O β) :
    (x >>= g).within f = x.within f >>= fun a => (g a).within f := by
  obtain ⟨log, value⟩ := x
  cases value with
  | none => rfl
  | some a => simp [within]

theorem within_within {P Q : Type} (f : O → P) (g : P → Q) (x : Call O α) :
    (x.within f).within g = x.within (g ∘ f) := by
  simp [within]

theorem eq_of_returned {x : Call O α} {a : α} (returned : x.value = some a) :
    ∃ log, x = ⟨log, some a⟩ :=
  ⟨x.log, by rw [← returned]⟩

theorem bind_returns {x : Call O α} {f : α → Call O β} {b : β} :
    (x >>= f).value = some b ↔ ∃ a, x.value = some a ∧ (f a).value = some b := by
  rw [bind_value, Option.bind_eq_some_iff]

theorem bind_log {x : Call O α} {a : α} (h : x.value = some a) (f : α → Call O β) :
    (x >>= f).log = x.log ++ (f a).log := by
  obtain ⟨log, value⟩ := x
  cases h
  rfl

theorem bind_log_panic {x : Call O α} (h : x.value = none) (f : α → Call O β) :
    (x >>= f).log = x.log := by
  obtain ⟨log, value⟩ := x
  cases h
  rfl

/-- What is done with a result, and logs nothing. -/
theorem bind_pure_log (x : Call O α) (f : α → β) : (x >>= fun a => pure (f a)).log = x.log := by
  obtain ⟨log, value⟩ := x
  cases value with
  | none => rfl
  | some a => exact List.append_nil log

theorem listen_returns {x : Call O α} {a : α} {log : List O} (returned : x.listen.value = some (a, log)) :
    x.value = some a ∧ log = x.log := by
  obtain ⟨b, there, same⟩ := Option.map_eq_some_iff.mp returned
  cases same
  exact ⟨there, rfl⟩

theorem bind_congr {x : Call O α} {f g : α → Call O β} (same : ∀ a, x.value = some a → f a = g a) :
    x >>= f = x >>= g := by
  obtain ⟨log, value⟩ := x
  cases value with
  | none => rfl
  | some a => rw [bind_some, bind_some, same a rfl]

theorem mem_bind_left {x : Call O α} {f : α → Call O β} {o : O} (member : o ∈ x.log) :
    o ∈ (x >>= f).log := by
  obtain ⟨log, value⟩ := x
  cases value with
  | none => exact member
  | some a => exact List.mem_append_left _ member

theorem mem_bind_right {x : Call O α} {a : α} (returned : x.value = some a) {f : α → Call O β}
    {o : O} (member : o ∈ (f a).log) : o ∈ (x >>= f).log := by
  rw [bind_log returned]
  exact List.mem_append_right _ member

theorem mem_bind {x : Call O α} {f : α → Call O β} {o : O} (member : o ∈ (x >>= f).log) :
    o ∈ x.log ∨ ∃ a, x.value = some a ∧ o ∈ (f a).log := by
  obtain ⟨log, value⟩ := x
  cases value with
  | none => exact .inl member
  | some a => exact (List.mem_append.mp member).imp_right fun later => ⟨a, rfl, later⟩

theorem bind_goes_on {x : Call O α} {f : α → Call O β} :
    (x >>= f).value ≠ none ↔ ∃ a, x.value = some a ∧ (f a).value ≠ none := by
  rw [bind_value]
  cases x.value <;> simp

theorem bind_total {x : Call O α} {f : α → Call O β} (total : ∀ a, (f a).value ≠ none) :
    (x >>= f).value ≠ none ↔ x.value ≠ none := by
  rw [bind_goes_on, Option.ne_none_iff_exists']
  constructor
  · rintro ⟨a, returned, _⟩
    exact ⟨a, returned⟩
  · rintro ⟨a, returned⟩
    exact ⟨a, returned, total a⟩

theorem bind_assoc {γ : Type} (x : Call O α) (f : α → Call O β) (g : β → Call O γ) :
    (x >>= f) >>= g = x >>= fun a => f a >>= g := by
  obtain ⟨log, value⟩ := x
  cases value with
  | none => rfl
  | some a =>
    simp only [bind_some]
    cases h : (f a).value with
    | none =>
      have e : f a = ⟨(f a).log, none⟩ := by rw [← h]
      rw [e]
      rfl
    | some b =>
      have e : f a = ⟨(f a).log, some b⟩ := by rw [← h]
      rw [e]
      simp [List.append_assoc]

/-- Feed the inputs one after the other; the run ends at the first panic. -/
def run (step : S → A → Call O S) : S → List A → Call O S
  | s, [] => pure s
  | s, a :: rest => step s a >>= fun t => run step t rest

@[simp] theorem run_nil (step : S → A → Call O S) (s : S) : run step s [] = ⟨[], some s⟩ := rfl

theorem run_cons_returned {step : S → A → Call O S} {s t : S} {a : A} {as : List A}
    {log later whole : List O} {value : Option S} (stepped : step s a = ⟨log, some t⟩)
    (rest : run step t as = ⟨later, value⟩) (logged : log ++ later = whole) :
    run step s (a :: as) = ⟨whole, value⟩ := by
  rw [run, stepped, bind_some, rest, logged]

theorem run_append (step : S → A → Call O S) (s : S) (as bs : List A) :
    run step s (as ++ bs) = run step s as >>= fun t => run step t bs := by
  induction as generalizing s with
  | nil => rfl
  | cons a as ih =>
    simp only [List.cons_append, run, bind_assoc, ih]

theorem run_snoc (step : S → A → Call O S) (s : S) (as : List A) (a : A) :
    run step s (as ++ [a]) = run step s as >>= fun t => step t a := by
  rw [run_append]
  congr 1
  funext t
  simp only [run]
  generalize step t a = x
  obtain ⟨log, value⟩ := x
  cases value <;> simp

theorem run_snoc_returned {step : S → A → Call O S} {s t : S} {as : List A}
    (returned : (run step s as).value = some t) (a : A) :
    run step s (as ++ [a]) = ⟨(run step s as).log ++ (step t a).log, (step t a).value⟩ := by
  rw [run_snoc]
  generalize run step s as = x at returned ⊢
  obtain ⟨log, value⟩ := x
  cases returned
  rfl

/-- What holds at the start of a run and is kept by every step that returns
holds after the run. The property may speak of the inputs and the log so far. -/
theorem run_induction {step : S → A → Call O S} {start : S} {P : List A → List O → S → Prop}
    (initial : P [] [] start)
    (preserved : ∀ as log s, P as log s → ∀ a t, (step s a).value = some t →
      P (as ++ [a]) (log ++ (step s a).log) t)
    {as : List A} {s : S} (returned : (run step start as).value = some s) :
    P as (run step start as).log s := by
  induction as using List.reverseRecOn generalizing s with
  | nil => cases returned; exact initial
  | append_singleton as a ih =>
    rw [run_snoc] at returned ⊢
    obtain ⟨t, ht, ha⟩ := bind_returns.mp returned
    rw [bind_log ht]
    exact preserved as _ t (ih ht) a s ha

/-- Every input of a run meets its condition in the state that it finds. -/
def Meets (step : S → A → Call O S) (condition : S → A → Prop) (start : S) (as : List A) : Prop :=
  ∀ before a after, as = before ++ a :: after → ∀ s, (run step start before).value = some s →
    condition s a

theorem meets_nil (step : S → A → Call O S) (condition : S → A → Prop) (start : S) :
    Meets step condition start [] := by
  intro before a after cut
  simp at cut

theorem meets_cons_iff {step : S → A → Call O S} {condition : S → A → Prop} {start : S} {a : A}
    {as : List A} : Meets step condition start (a :: as) ↔
      condition start a ∧ ∀ s, (step start a).value = some s → Meets step condition s as := by
  constructor
  · intro meets
    refine ⟨meets [] a as rfl start rfl, ?_⟩
    intro s stepped before b after cut t reached
    apply meets (a :: before) b after (by rw [cut]; rfl)
    exact bind_returns.mpr ⟨s, stepped, reached⟩
  · rintro ⟨first, rest⟩ before b after cut s returned
    cases before with
    | nil =>
      cases cut
      cases returned
      exact first
    | cons c before =>
      obtain ⟨rfl, later⟩ := List.cons.inj cut
      obtain ⟨t, stepped, reached⟩ := bind_returns.mp returned
      exact rest t stepped before b after later s reached

theorem meets_cons {step : S → A → Call O S} {condition : S → A → Prop} {start : S} {a : A}
    {as : List A} (first : condition start a)
    (rest : ∀ s, (step start a).value = some s → Meets step condition s as) :
    Meets step condition start (a :: as) :=
  meets_cons_iff.mpr ⟨first, rest⟩

theorem Meets.initial {step : S → A → Call O S} {condition : S → A → Prop} {start : S}
    {before after : List A} (meets : Meets step condition start (before ++ after)) :
    Meets step condition start before := by
  intro first a rest cut
  apply meets first a (rest ++ after)
  rw [cut, List.append_assoc]
  rfl

theorem Meets.rest {step : S → A → Call O S} {condition : S → A → Prop} {start s : S}
    {before after : List A} (meets : Meets step condition start (before ++ after))
    (reached : (run step start before).value = some s) : Meets step condition s after := by
  intro first a rest cut t returned
  apply meets (before ++ first) a rest
  · rw [cut, List.append_assoc]
  · rw [run_append]
    exact bind_returns.mpr ⟨s, reached, returned⟩

/-- What every step keeps whose input meets its condition, the run keeps. -/
theorem Meets.induction {step : S → A → Call O S} {condition : S → A → Prop} {start : S}
    {P : List O → S → Prop} (initial : P [] start)
    (preserved : ∀ log s, P log s → ∀ a, condition s a → ∀ t, (step s a).value = some t →
      P (log ++ (step s a).log) t)
    {as : List A} (meets : Meets step condition start as) {s : S}
    (returned : (run step start as).value = some s) : P (run step start as).log s := by
  induction as using List.reverseRecOn generalizing s with
  | nil => cases returned; exact initial
  | append_singleton as a ih =>
    rw [run_snoc] at returned ⊢
    obtain ⟨t, ht, ha⟩ := bind_returns.mp returned
    rw [bind_log ht]
    exact preserved _ t (ih meets.initial ht) a (meets as a [] rfl t ht) s ha

/-- A call panics exactly when it has logged an entry of this kind. -/
def PanicsBy (blamed : O → Prop) (x : Call O α) : Prop :=
  x.value = none ↔ ∃ o ∈ x.log, blamed o

variable {blamed : O → Prop}

theorem panics_by_pure (a : α) : PanicsBy blamed (pure a : Call O α) :=
  ⟨nofun, nofun⟩

theorem panics_by_emit {o : O} (other : ¬ blamed o) : PanicsBy blamed (emit o) := by
  refine ⟨nofun, ?_⟩
  rintro ⟨p, member, kind⟩
  rw [List.mem_singleton.mp member] at kind
  exact absurd kind other

theorem panics_by_unwrap {x : Option α} {a : α} (there : x = some a) :
    PanicsBy blamed (unwrap x : Call O α) := by
  subst there
  exact panics_by_pure a

theorem panics_by_bind {x : Call O α} {f : α → Call O β} (first : PanicsBy blamed x)
    (second : ∀ a, x.value = some a → PanicsBy blamed (f a)) : PanicsBy blamed (x >>= f) := by
  obtain ⟨log, value⟩ := x
  cases value with
  | none => exact ⟨fun _ => first.mp rfl, fun _ => rfl⟩
  | some a =>
    have clean : ¬ ∃ o ∈ log, blamed o := fun found => nomatch first.mpr found
    constructor
    · intro panics
      obtain ⟨o, member, kind⟩ := (second a rfl).mp panics
      exact ⟨o, List.mem_append_right _ member, kind⟩
    · rintro ⟨o, member, kind⟩
      rcases List.mem_append.mp member with early | late
      · exact absurd ⟨o, early, kind⟩ clean
      · exact (second a rfl).mpr ⟨o, late, kind⟩

theorem panics_by_run {step : S → A → Call O S} {s : S} {as : List A}
    (each : ∀ s, ∀ a ∈ as, PanicsBy blamed (step s a)) : PanicsBy blamed (run step s as) := by
  induction as generalizing s with
  | nil => exact panics_by_pure s
  | cons a as ih =>
    exact panics_by_bind (each s a (.head _)) fun t _ => ih fun s a member => each s a (.tail _ member)

end Call
