import ConnectScrobbler.Lib.Monitor

/-! Futures as their owner sees them: a future is polled until it resolves, and
polling it once more is a panic. Work in flight elsewhere is named by a key and
answered by the outside at each poll; no answer is a panic inside that work. -/

inductive Async (α : Type) where
  | ready (a : α)
  | notReady
  deriving DecidableEq, Repr

abbrev Poll (α ε : Type) := Except ε (Async α)

inductive Oneshot (α : Type) where
  | waiting
  | complete (a : α)
  | canceled
  deriving DecidableEq, Repr

def Oneshot.poll {α : Type} : Oneshot α → Poll α Unit
  | .waiting => .ok .notReady
  | .complete a => .ok (.ready a)
  | .canceled => .error ()

inductive BoxFuture (κ α ε : Type) where
  | empty
  | result (r : Except ε α)
  | task (key : κ)
  | resolved
  deriving DecidableEq, Repr

namespace BoxFuture

variable {O κ α ε : Type}

/-- Poll a future. `again` is logged when it had resolved before, `note` when
work in flight resolves. -/
def poll (again : O) (note : κ → Except ε α → O) (answer : κ → Option (Poll α ε)) :
    BoxFuture κ α ε → Call O (Poll α ε × BoxFuture κ α ε)
  | .empty => return (.ok .notReady, .empty)
  | .result (.ok a) => return (.ok (.ready a), .resolved)
  | .result (.error e) => return (.error e, .resolved)
  | .task key => do
    match ← Call.unwrap (answer key) with
    | .ok .notReady => return (.ok .notReady, .task key)
    | .ok (.ready a) => do
      Call.emit (note key (.ok a))
      return (.ok (.ready a), .resolved)
    | .error e => do
      Call.emit (note key (.error e))
      return (.error e, .resolved)
  | .resolved => do
    Call.emit again
    Call.panic

def poll_result (again : O) (f : BoxFuture Empty α ε) : Call O (Poll α ε × BoxFuture Empty α ε) :=
  f.poll again nofun nofun

theorem poll_writes {kind : O → Prop} {again : O} {note : κ → Except ε α → O}
    {answer : κ → Option (Poll α ε)} (polled_again : kind again) (noted : ∀ key r, kind (note key r))
    (f : BoxFuture κ α ε) : Call.Writes kind (f.poll again note answer) := by
  cases f with
  | empty => exact Call.writes_nothing
  | result r => cases r <;> exact Call.writes_nothing
  | resolved => exact (Call.writes_emit polled_again).bind fun _ _ => Call.writes_nothing
  | task key =>
    rw [poll]
    apply Call.Writes.bind Call.writes_nothing
    rintro (e | a | _) _
    · exact (Call.writes_emit (noted key (.error e))).bind fun _ _ => Call.writes_nothing
    · exact (Call.writes_emit (noted key (.ok a))).bind fun _ _ => Call.writes_nothing
    · exact Call.writes_nothing

/-- An error to come is accounted for by `refused`, a future that has resolved by `spent`. -/
def Blames (refused spent : Bool) : BoxFuture κ α ε → Prop
  | .result (.error _) => refused = true
  | .resolved => spent = true
  | _ => True

theorem Blames.weaken {f : BoxFuture κ α ε} {refused refused' spent spent' : Bool}
    (h : f.Blames refused spent) (later : refused = true → refused' = true)
    (since : spent = true → spent' = true) : f.Blames refused' spent' := by
  match f with
  | .empty => trivial
  | .result (.ok _) => trivial
  | .result (.error _) => exact later h
  | .task _ => trivial
  | .resolved => exact since h

variable {M : Type} {allow : M → O → Option M} {m : M} {again : O}

/-- What polling can do: one case for each shape of the future. -/
theorem follows_poll {note : κ → Except ε α → O} {answer : κ → Option (Poll α ε)}
    {f : BoxFuture κ α ε} {Q : Poll α ε × BoxFuture κ α ε → M → Prop}
    (empty : f = .empty → Q (.ok .notReady, .empty) m)
    (ok : ∀ a, f = .result (.ok a) → Q (.ok (.ready a), .resolved) m)
    (error : ∀ e, f = .result (.error e) → Q (.error e, .resolved) m)
    (waiting : ∀ key, f = .task key → answer key = some (.ok .notReady) →
      Q (.ok .notReady, .task key) m)
    (ready : ∀ key a, f = .task key → answer key = some (.ok (.ready a)) →
      ∃ n, allow m (note key (.ok a)) = some n ∧ Q (.ok (.ready a), .resolved) n)
    (failed : ∀ key e, f = .task key → answer key = some (.error e) →
      ∃ n, allow m (note key (.error e)) = some n ∧ Q (.error e, .resolved) n)
    (resolved : f = .resolved → ∃ n, allow m again = some n) :
    Call.Follows allow m (f.poll again note answer) Q := by
  cases f with
  | empty => exact Call.follows_pure (empty rfl)
  | result r =>
    cases r with
    | ok a => exact Call.follows_pure (ok a rfl)
    | error e => exact Call.follows_pure (error e rfl)
  | task key =>
    refine Call.follows_bind (Call.follows_unwrap fun p hp => ?_)
    match p with
    | .ok .notReady => exact Call.follows_pure (waiting key rfl hp)
    | .ok (.ready a) =>
      obtain ⟨n, taken, post⟩ := ready key a rfl hp
      exact Call.follows_bind (Call.follows_emit taken (Call.follows_pure post))
    | .error e =>
      obtain ⟨n, taken, post⟩ := failed key e rfl hp
      exact Call.follows_bind (Call.follows_emit taken (Call.follows_pure post))
  | resolved =>
    obtain ⟨n, taken⟩ := resolved rfl
    exact Call.follows_bind (Call.follows_emit taken Call.follows_panic)

theorem follows_poll_result {f : BoxFuture Empty α ε}
    {Q : Poll α ε × BoxFuture Empty α ε → M → Prop}
    (empty : f = .empty → Q (.ok .notReady, .empty) m)
    (ok : ∀ a, f = .result (.ok a) → Q (.ok (.ready a), .resolved) m)
    (error : ∀ e, f = .result (.error e) → Q (.error e, .resolved) m)
    (resolved : f = .resolved → ∃ n, allow m again = some n) :
    Call.Follows allow m (f.poll_result again) Q :=
  follows_poll empty ok error nofun nofun nofun resolved

/-- Polling panics only if the future had resolved, as long as the work in flight does not. -/
theorem panics_by_poll {blamed : O → Prop} {note : κ → Except ε α → O}
    {answer : κ → Option (Poll α ε)} {f : BoxFuture κ α ε} (told : blamed again)
    (other : ∀ key r, ¬ blamed (note key r)) (answered : ∀ key, answer key ≠ none) :
    Call.PanicsBy blamed (f.poll again note answer) := by
  cases f with
  | empty => exact Call.panics_by_pure _
  | result r => cases r <;> exact Call.panics_by_pure _
  | task key =>
    obtain ⟨p, there⟩ := Option.ne_none_iff_exists'.mp (answered key)
    refine Call.panics_by_bind (Call.panics_by_unwrap there) fun p _ => ?_
    match p with
    | .ok .notReady => exact Call.panics_by_pure _
    | .ok (.ready a) =>
      exact Call.panics_by_bind (Call.panics_by_emit (other key _)) fun _ _ => Call.panics_by_pure _
    | .error e =>
      exact Call.panics_by_bind (Call.panics_by_emit (other key _)) fun _ _ => Call.panics_by_pure _
  | resolved => exact ⟨fun _ => ⟨again, .head _, told⟩, fun _ => rfl⟩

end BoxFuture

namespace Future

variable {O F G α β ε : Type}

/-- A future that is polled until it resolves, with what all the polls log. -/
inductive Resolves (poll : F → Call O (Poll α ε × F)) : F → List O → α → Prop
  | ready {f f' : F} {log : List O} {a : α} (polled : poll f = ⟨log, some (.ok (.ready a), f')⟩) :
      Resolves poll f log a
  | waits {f f' : F} {log later : List O} {a : α}
      (polled : poll f = ⟨log, some (.ok .notReady, f')⟩) (rest : Resolves poll f' later a) :
      Resolves poll f (log ++ later) a

def silent (poll : F → Poll α ε × F) (f : F) : Call O (Poll α ε × F) := ⟨[], some (poll f)⟩

theorem silent_eq {poll : F → Poll α ε × F} {f : F} {log : List O} {x : Poll α ε × F} :
    silent poll f = ⟨log, some x⟩ ↔ log = [] ∧ poll f = x := by
  rw [silent, Call.mk.injEq, Option.some.injEq, eq_comm]

theorem resolves_silent {poll : F → Poll α ε × F} {f : F} {a : α}
    (polled : (poll f).1 = .ok (.ready a)) : Resolves (silent (O := O) poll) f [] a := by
  have first : silent (O := O) poll f = ⟨[], some (.ok (.ready a), (poll f).2)⟩ := by
    rw [silent, ← polled]
  exact .ready first

theorem waits_silent {poll : F → Poll α ε × F} {f : F} {a : α} (polled : (poll f).1 = .ok .notReady)
    (rest : Resolves (silent (O := O) poll) (poll f).2 [] a) :
    Resolves (silent (O := O) poll) f [] a := by
  have first : silent (O := O) poll f = ⟨[], some (.ok .notReady, (poll f).2)⟩ := by
    rw [silent, ← polled]
  exact .waits first rest

theorem not_resolves_failed {poll : F → Poll α ε × F} {f f' : F} {e : ε} {a : α} {log : List O}
    (failed : poll f = (.error e, f')) : ¬ Resolves (silent (O := O) poll) f log a := by
  intro resolves
  obtain ⟨polled⟩ | ⟨polled, _⟩ := resolves <;> cases failed.symm.trans (silent_eq.mp polled).2

theorem Resolves.unique {poll : F → Call O (Poll α ε × F)} {f : F} {log later : List O} {a b : α}
    (one : Resolves poll f log a) (other : Resolves poll f later b) : log = later ∧ a = b := by
  induction one generalizing later with
  | ready polled =>
    obtain ⟨again⟩ | ⟨again, _⟩ := other <;> cases polled.symm.trans again
    exact ⟨rfl, rfl⟩
  | waits polled _ ih =>
    obtain ⟨again⟩ | ⟨again, rest⟩ := other <;> cases polled.symm.trans again
    obtain ⟨rfl, same⟩ := ih rest
    exact ⟨rfl, same⟩

theorem Resolves.waited {poll : F → Poll α ε × F} {f f' : F} {a : α} {log : List O}
    (waiting : poll f = (.ok .notReady, f')) (resolves : Resolves (silent (O := O) poll) f log a) :
    Resolves (silent (O := O) poll) f' log a := by
  obtain ⟨polled⟩ | ⟨polled, rest⟩ := resolves
  · cases waiting.symm.trans (silent_eq.mp polled).2
  · obtain ⟨none, again⟩ := silent_eq.mp polled
    cases waiting.symm.trans again
    rw [none]
    exact rest

theorem Resolves.congr {poll : F → Call O (Poll α ε × F)} {f g : F} {log : List O} {a : α}
    (same : poll f = poll g) (resolves : Resolves poll g log a) : Resolves poll f log a := by
  cases resolves with
  | ready polled => exact .ready (same.trans polled)
  | waits polled rest => exact .waits (same.trans polled) rest

/-- A future in a loop: while the inner one waits the loop waits with it, and when
it resolves the loop goes on to poll what comes next at once. -/
theorem Resolves.chain {inner : F → Call O (Poll α ε × F)} {outer : G → Call O (Poll β ε × G)}
    (wrap : F → G) (own : List O) {f : F} {next : G} {a : α} {b : β} {log later : List O}
    (resolves : Resolves inner f log a)
    (waits : ∀ f f' log, inner f = ⟨log, some (.ok .notReady, f')⟩ →
      outer (wrap f) = ⟨log, some (.ok .notReady, wrap f')⟩)
    (goes_on : ∀ f f' log, inner f = ⟨log, some (.ok (.ready a), f')⟩ →
      outer (wrap f) = ⟨log ++ own ++ (outer next).log, (outer next).value⟩)
    (rest : Resolves outer next later b) : Resolves outer (wrap f) (log ++ own ++ later) b := by
  induction resolves with
  | ready polled =>
    have first := goes_on _ _ _ polled
    cases rest with
    | ready polled =>
      rw [polled] at first
      exact .ready first
    | waits polled rest =>
      rw [polled] at first
      rw [← List.append_assoc]
      exact .waits first rest
  | waits polled _ ih =>
    have later := ih goes_on
    rw [List.append_assoc, List.append_assoc]
    rw [List.append_assoc] at later
    exact .waits (waits _ _ _ polled) later

theorem Resolves.finish {inner : F → Call O (Poll α ε × F)} {outer : G → Call O (Poll β ε × G)}
    (wrap : F → G) {f : F} {a : α} {b : β} {log own : List O} (resolves : Resolves inner f log a)
    (waits : ∀ f f' log, inner f = ⟨log, some (.ok .notReady, f')⟩ →
      outer (wrap f) = ⟨log, some (.ok .notReady, wrap f')⟩)
    (ends : ∀ f f' log, inner f = ⟨log, some (.ok (.ready a), f')⟩ →
      ∃ g, outer (wrap f) = ⟨log ++ own, some (.ok (.ready b), g)⟩) :
    Resolves outer (wrap f) (log ++ own) b := by
  induction resolves with
  | ready polled =>
    obtain ⟨g, last⟩ := ends _ _ _ polled
    exact .ready last
  | waits polled _ ih =>
    rw [List.append_assoc]
    exact .waits (waits _ _ _ polled) (ih ends)

theorem chain_silent {inner : F → Poll α ε × F} {outer : G → Call O (Poll β ε × G)} (wrap : F → G)
    {f : F} {next : G} {a : α} {b : β} {later : List O}
    (resolves : Resolves (silent (O := O) inner) f [] a)
    (waits : ∀ f f', inner f = (.ok .notReady, f') →
      outer (wrap f) = ⟨[], some (.ok .notReady, wrap f')⟩)
    (goes_on : ∀ f f', inner f = (.ok (.ready a), f') → outer (wrap f) = outer next)
    (rest : Resolves outer next later b) : Resolves outer (wrap f) later b := by
  refine resolves.chain wrap [] (fun f f' log polled => ?_) (fun f f' log polled => ?_) rest
  · obtain ⟨none, waiting⟩ := silent_eq.mp polled
    rw [none]
    exact waits f f' waiting
  · obtain ⟨none, ready⟩ := silent_eq.mp polled
    rw [none]
    exact goes_on f f' ready

theorem finish_silent {inner : F → Poll α ε × F} {outer : G → Call O (Poll β ε × G)} (wrap : F → G)
    {f : F} {a : α} {b : β} {own : List O} (resolves : Resolves (silent (O := O) inner) f [] a)
    (waits : ∀ f f', inner f = (.ok .notReady, f') →
      outer (wrap f) = ⟨[], some (.ok .notReady, wrap f')⟩)
    (ends : ∀ f f', inner f = (.ok (.ready a), f') →
      ∃ g, outer (wrap f) = ⟨own, some (.ok (.ready b), g)⟩) : Resolves outer (wrap f) own b := by
  refine resolves.finish wrap (fun f f' log polled => ?_) (fun f f' log polled => ?_)
  · obtain ⟨none, waiting⟩ := silent_eq.mp polled
    rw [none]
    exact waits f f' waiting
  · obtain ⟨none, ready⟩ := silent_eq.mp polled
    rw [none]
    exact ends f f' ready

/-- A future one of whose polls panics. -/
inductive Panics (poll : F → Call O (Poll α ε × F)) : F → Prop
  | now {f : F} (panicked : (poll f).value = none) : Panics poll f
  | waits {f f' : F} {log : List O} (polled : poll f = ⟨log, some (.ok .notReady, f')⟩)
      (rest : Panics poll f') : Panics poll f

theorem Panics.congr {poll : F → Call O (Poll α ε × F)} {f g : F} (same : poll f = poll g)
    (panics : Panics poll g) : Panics poll f := by
  cases panics with
  | now panicked => exact .now (by rw [same]; exact panicked)
  | waits polled rest => exact .waits (same.trans polled) rest

/-- The outer future does nothing of its own before the inner one has resolved. -/
structure Awaits (inner : F → Poll α ε × F) (outer : G → Call O (Poll β ε × G)) (wrap : F → G) :
    Prop where
  waits : ∀ f f', inner f = (.ok .notReady, f') →
    outer (wrap f) = ⟨[], some (.ok .notReady, wrap f')⟩
  fails : ∀ f f' e, inner f = (.error e, f') → outer (wrap f) = ⟨[], some (.error e, wrap f')⟩

section Awaits

variable {inner : F → Poll α ε × F} {outer : G → Call O (Poll β ε × G)} {wrap : F → G} {f : F}
  {a : α} {b : β} {log : List O}

theorem Awaits.panics (awaits : Awaits inner outer wrap)
    (resolves : Resolves (silent (O := O) inner) f [] a)
    (ends : ∀ f f', inner f = (.ok (.ready a), f') → Panics outer (wrap f)) :
    Panics outer (wrap f) := by
  generalize quiet : ([] : List O) = log at resolves
  induction resolves with
  | ready polled => exact ends _ _ (silent_eq.mp polled).2
  | waits polled _ ih =>
    obtain ⟨none, waiting⟩ := silent_eq.mp polled
    subst none
    exact .waits (awaits.waits _ _ waiting) (ih ends quiet)

theorem Awaits.cases (awaits : Awaits inner outer wrap) (f : F) :
    (∃ f', inner f = (.ok .notReady, f') ∧ outer (wrap f) = ⟨[], some (.ok .notReady, wrap f')⟩) ∨
    (∃ f' e, outer (wrap f) = ⟨[], some (.error e, wrap f')⟩) ∨
    ∃ a f', inner f = (.ok (.ready a), f') := by
  match first : inner f with
  | (.ok .notReady, f') => exact .inl ⟨f', rfl, awaits.waits f f' first⟩
  | (.error e, f') => exact .inr (.inl ⟨f', e, awaits.fails f f' e first⟩)
  | (.ok (.ready a), f') => exact .inr (.inr ⟨a, f', rfl⟩)

/-- Where the outer future panics, the inner one has resolved first. -/
theorem Awaits.panicked (awaits : Awaits inner outer wrap) (panics : Panics outer (wrap f)) :
    ∃ a g g', inner g = (.ok (.ready a), g') ∧ Resolves (silent (O := O) inner) f [] a ∧
      Panics outer (wrap g) := by
  generalize wrapped : wrap f = h at panics
  induction panics generalizing f with
  | now panicked =>
    subst wrapped
    obtain ⟨_, _, own⟩ | ⟨_, _, own⟩ | ⟨a, f', ready⟩ := awaits.cases f
    · rw [own] at panicked
      cases panicked
    · rw [own] at panicked
      cases panicked
    · exact ⟨a, f, f', ready, resolves_silent (congrArg Prod.fst ready), .now panicked⟩
  | waits polled rest ih =>
    subst wrapped
    obtain ⟨_, waiting, own⟩ | ⟨_, _, own⟩ | ⟨a, f', ready⟩ := awaits.cases f
    · rw [own] at polled
      cases polled
      obtain ⟨a, g, g', ready, resolves, panics⟩ := ih rfl
      exact ⟨a, g, g', ready, .waits (silent_eq.mpr ⟨rfl, waiting⟩) resolves, panics⟩
    · rw [own] at polled
      cases polled
    · exact ⟨a, f, f', ready, resolves_silent (congrArg Prod.fst ready), .waits polled rest⟩

/-- Where the outer future resolves, the inner one has resolved first. -/
theorem Awaits.resolved (awaits : Awaits inner outer wrap) (resolved : Resolves outer (wrap f) log b) :
    ∃ a g g', inner g = (.ok (.ready a), g') ∧ Resolves (silent (O := O) inner) f [] a ∧
      Resolves outer (wrap g) log b := by
  generalize wrapped : wrap f = h at resolved
  induction resolved generalizing f with
  | ready polled =>
    subst wrapped
    obtain ⟨_, _, own⟩ | ⟨_, _, own⟩ | ⟨a, f', ready⟩ := awaits.cases f
    · rw [own] at polled
      cases polled
    · rw [own] at polled
      cases polled
    · exact ⟨a, f, f', ready, resolves_silent (congrArg Prod.fst ready), .ready polled⟩
  | waits polled rest ih =>
    subst wrapped
    obtain ⟨_, waiting, own⟩ | ⟨_, _, own⟩ | ⟨a, f', ready⟩ := awaits.cases f
    · rw [own] at polled
      cases polled
      obtain ⟨a, g, g', ready, resolves, resolved⟩ := ih rfl
      exact ⟨a, g, g', ready, .waits (silent_eq.mpr ⟨rfl, waiting⟩) resolves, resolved⟩
    · rw [own] at polled
      cases polled
    · exact ⟨a, f, f', ready, resolves_silent (congrArg Prod.fst ready), .waits polled rest⟩

end Awaits

end Future
