import ConnectScrobbler.Lib.Call

/-! A monitor reads a log entry by entry and may refuse one. `Follows` is the
triple of a small program logic: every entry a call writes is taken by the
monitor, also when the call panics, and the result meets a postcondition that
may mention where the monitor stands. -/

namespace Call

variable {O α β S A M : Type}

/-- Where the monitor stands after a log; nothing if it refused an entry. -/
def observe (allow : M → O → Option M) : M → List O → Option M
  | m, [] => some m
  | m, o :: rest => (allow m o).bind (fun n => observe allow n rest)

theorem observe_cons {allow : M → O → Option M} {m n : M} {o : O} (taken : allow m o = some n)
    (rest : List O) : observe allow m (o :: rest) = observe allow n rest := by
  rw [observe, taken]
  rfl

theorem observe_singleton {allow : M → O → Option M} {m n : M} {o : O}
    (taken : allow m o = some n) : observe allow m [o] = some n :=
  observe_cons taken []

theorem observe_append (allow : M → O → Option M) (m : M) (xs ys : List O) :
    observe allow m (xs ++ ys) = (observe allow m xs).bind (fun n => observe allow n ys) := by
  induction xs generalizing m with
  | nil => rfl
  | cons x xs ih =>
    simp only [List.cons_append, observe, ih, Option.bind_assoc]

theorem observe_at {allow : M → O → Option M} {m n : M} {before after : List O} {o : O}
    (accepted : observe allow m (before ++ o :: after) = some n) :
    ∃ p q, observe allow m before = some p ∧ allow p o = some q ∧
      observe allow q after = some n := by
  rw [observe_append, Option.bind_eq_some_iff] at accepted
  obtain ⟨p, hp, rest⟩ := accepted
  obtain ⟨q, hq, tail⟩ := Option.bind_eq_some_iff.mp rest
  exact ⟨p, q, hp, hq, tail⟩

def Follows (allow : M → O → Option M) (m : M) (x : Call O α) (Q : α → M → Prop) : Prop :=
  ∃ n, observe allow m x.log = some n ∧ ∀ a, x.value = some a → Q a n

variable {allow : M → O → Option M} {m : M}

theorem Follows.returned {x : Call O α} {Q : α → M → Prop} (h : Follows allow m x Q) {a : α}
    (returned : x.value = some a) : ∃ n, observe allow m x.log = some n ∧ Q a n := by
  obtain ⟨n, hn, post⟩ := h
  exact ⟨n, hn, post a returned⟩

theorem follows_pure {a : α} {Q : α → M → Prop} (post : Q a m) :
    Follows allow m (pure a : Call O α) Q :=
  ⟨m, rfl, fun b hb => by cases hb; exact post⟩

theorem follows_panic {Q : α → M → Prop} : Follows allow m (panic : Call O α) Q :=
  ⟨m, rfl, fun _ hb => by cases hb⟩

theorem follows_emit {o : O} {n : M} {Q : Unit → M → Prop} (taken : allow m o = some n)
    (post : Q () n) : Follows allow m (emit o) Q :=
  ⟨n, by simp [observe, taken], fun _ _ => post⟩

theorem follows_unwrap {x : Option α} {Q : α → M → Prop} (post : ∀ a, x = some a → Q a m) :
    Follows allow m (unwrap x : Call O α) Q :=
  ⟨m, rfl, post⟩

theorem follows_bind {x : Call O α} {f : α → Call O β} {Q : β → M → Prop}
    (first : Follows allow m x (fun a n => Follows allow n (f a) Q)) :
    Follows allow m (x >>= f) Q := by
  obtain ⟨n, hn, rest⟩ := first
  cases hx : x.value with
  | none =>
    refine ⟨n, by rw [bind_log_panic hx]; exact hn, fun b hb => ?_⟩
    rw [bind_value, hx] at hb
    cases hb
  | some a =>
    obtain ⟨k, hk, final⟩ := rest a hx
    refine ⟨k, ?_, fun b hb => ?_⟩
    · rw [bind_log hx, observe_append, hn]
      exact hk
    · rw [bind_value, hx] at hb
      exact final b hb

theorem observe_ignored {log : List O} (ignored : ∀ o ∈ log, allow m o = some m) :
    observe allow m log = some m := by
  induction log with
  | nil => rfl
  | cons o log ih =>
    rw [observe_cons (ignored o (.head _))]
    exact ih fun p member => ignored p (.tail _ member)

/-- A part whose entries the monitor takes no notice of. -/
theorem follows_within {P : Type} {f : P → O} (ignored : ∀ o, allow m (f o) = some m)
    (x : Call P α) : Follows allow m (x.within f) fun a n => n = m ∧ x.value = some a := by
  refine ⟨m, observe_ignored ?_, fun a returned => ⟨rfl, returned⟩⟩
  intro o member
  obtain ⟨p, _, rfl⟩ := List.mem_map.mp member
  exact ignored p

theorem follows_weaken {x : Call O α} {P Q : α → M → Prop} (first : Follows allow m x P)
    (weaker : ∀ a n, P a n → Q a n) : Follows allow m x Q := by
  obtain ⟨n, hn, post⟩ := first
  exact ⟨n, hn, fun a ha => weaker a n (post a ha)⟩

theorem follows_ite {c : Prop} [Decidable c] {x y : Call O α} {Q : α → M → Prop}
    (yes : c → Follows allow m x Q) (no : ¬ c → Follows allow m y Q) :
    Follows allow m (if c then x else y) Q := by
  by_cases h : c
  · rw [if_pos h]; exact yes h
  · rw [if_neg h]; exact no h

/-- Every entry a call writes is of a kind. -/
structure Writes (kind : O → Prop) (x : Call O α) : Prop where
  all : ∀ o ∈ x.log, kind o

theorem Writes.bind {kind : O → Prop} {x : Call O α} {f : α → Call O β} (first : Writes kind x)
    (rest : ∀ a, x.value = some a → Writes kind (f a)) : Writes kind (x >>= f) := by
  constructor
  intro o member
  rcases mem_bind member with early | ⟨a, returned, late⟩
  · exact first.all o early
  · exact (rest a returned).all o late

theorem writes_nothing {kind : O → Prop} {value : Option α} : Writes kind (⟨[], value⟩ : Call O α) := ⟨nofun⟩

theorem writes_emit {kind : O → Prop} {o : O} (fits : kind o) : Writes kind (emit o) := by
  constructor
  intro other member
  rw [List.mem_singleton.mp member]
  exact fits

theorem writes_within {P : Type} {kind : O → Prop} {f : P → O} (fits : ∀ e, kind (f e)) (x : Call P α) :
    Writes kind (x.within f) := by
  constructor
  intro o member
  obtain ⟨e, _, rfl⟩ := List.mem_map.mp member
  exact fits e

theorem Writes.follows {kind : O → Prop} {x : Call O α} (writes : Writes kind x)
    (ignored : ∀ o, kind o → allow m o = some m) :
    Follows allow m x fun a n => n = m ∧ x.value = some a :=
  ⟨m, observe_ignored fun o member => ignored o (writes.all o member), fun _ returned => ⟨rfl, returned⟩⟩

/-- A part that has a monitor of its own, in the monitor of the whole. -/
theorem follows_part {P N : Type} {part : N → P → Option N} {f : P → O} (put : N → M) {kind : P → Prop}
    (takes : ∀ e, kind e → ∀ n n', part n e = some n' → allow (put n) (f e) = some (put n')) {n : N}
    {x : Call P α} {Q : α → N → Prop} (writes : Writes kind x) (h : Follows part n x Q) :
    Follows allow (put n) (x.within f) fun a m => ∃ n', m = put n' ∧ Q a n' := by
  have observed : ∀ log : List P, (∀ e ∈ log, kind e) → ∀ n n', observe part n log = some n' →
      observe allow (put n) (log.map f) = some (put n') := by
    intro log
    induction log with
    | nil =>
      rintro _ n _ ⟨⟩
      rfl
    | cons e log ih =>
      intro kinds n n' accepted
      obtain ⟨next, taken, rest⟩ := Option.bind_eq_some_iff.mp accepted
      rw [List.map_cons, observe_cons (takes e (kinds e List.mem_cons_self) n next taken)]
      exact ih (fun e member => kinds e (List.mem_cons_of_mem _ member)) next n' rest
  obtain ⟨n', accepted, post⟩ := h
  exact ⟨put n', observed x.log writes.all n n' accepted, fun a returned => ⟨n', rfl, post a returned⟩⟩

/-- Simulation: where every step follows the monitor from related states to
related states, so does every run, and the log of a crashed run is accepted too. -/
theorem run_follows {step : S → A → Call O S} {R : S → M → Prop}
    (simulates : ∀ s m, R s m → ∀ a, Follows allow m (step s a) R)
    {s : S} (related : R s m) (as : List A) : Follows allow m (run step s as) R := by
  induction as generalizing s m with
  | nil => exact follows_pure related
  | cons a as ih => exact follows_bind (follows_weaken (simulates s m related a) (fun _ _ h => ih h))

end Call
