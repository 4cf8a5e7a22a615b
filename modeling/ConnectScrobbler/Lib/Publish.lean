import Mathlib.Data.List.Basic
import Mathlib.Logic.Function.Basic

/-! Watchers of a stream of events, each with a receiver for those that it watches.
Publishing sends an event to every watcher whose receiver is still there, and
forgets the others that watch it. -/
namespace Publish

/-- `since` counts what was published before the watcher was registered. -/
structure Watcher (κ ρ ε : Type) where
  key : κ
  receiver : ρ
  since : Nat
  inbox : List ε

structure Table (κ ρ ε : Type) where
  watchers : List (Watcher κ ρ ε)
  gone : ρ → Bool
  published : List ε
  sent : List (ρ × ε)

inductive Op (κ ρ ε : Type) where
  | register (entries : List (κ × ρ))
  | publish (e : ε)
  | drop (r : ρ)

variable {κ ρ ε : Type}

def Watcher.entry (w : Watcher κ ρ ε) : κ × ρ := (w.key, w.receiver)

/-- What there is of a watcher besides its inbox. -/
def Watcher.place (w : Watcher κ ρ ε) : (κ × ρ) × Nat := (w.entry, w.since)

def register (since : Nat) (entries : List (κ × ρ)) : List (Watcher κ ρ ε) :=
  entries.map fun (key, receiver) => ⟨key, receiver, since, []⟩

def deliver (watches : κ → ε → Bool) (e : ε) (w : Watcher κ ρ ε) : Watcher κ ρ ε :=
  if watches w.key e then { w with inbox := w.inbox ++ [e] } else w

namespace Table

def start (gone : ρ → Bool) (entries : List (κ × ρ)) : Table κ ρ ε :=
  ⟨register 0 entries, gone, [], []⟩

variable [DecidableEq ρ] (watches : κ → ε → Bool)

def step (t : Table κ ρ ε) : Op κ ρ ε → Table κ ρ ε
  | .register entries => { t with watchers := t.watchers ++ register t.published.length entries }
  | .publish e =>
    { t with
      watchers := (t.watchers.filter fun w => !(watches w.key e && t.gone w.receiver)).map
        (deliver watches e)
      published := t.published ++ [e]
      sent := t.sent ++ (t.watchers.filter fun w => watches w.key e && !t.gone w.receiver).map
        fun w => (w.receiver, e) }
  | .drop r => { t with gone := Function.update t.gone r true }

def run (t : Table κ ρ ε) (ops : List (Op κ ρ ε)) : Table κ ρ ε := ops.foldl (step watches) t

/-- What has been sent to a receiver. -/
def sent_to (t : Table κ ρ ε) (r : ρ) : List ε :=
  t.sent.filterMap fun (s, e) => if s = r then some e else none

end Table

@[simp] theorem entry_register (since : Nat) (entries : List (κ × ρ)) :
    (register since entries : List (Watcher κ ρ ε)).map Watcher.entry = entries := by
  simp [register, Watcher.entry, Function.comp_def]

theorem place_register (since : Nat) (entries : List (κ × ρ)) :
    (register since entries : List (Watcher κ ρ ε)).map Watcher.place =
      entries.map fun entry => (entry, since) := by
  simp [register, Watcher.place, Watcher.entry, Function.comp_def]

variable {watches : κ → ε → Bool}

@[simp] theorem deliver_key (e : ε) (w : Watcher κ ρ ε) : (deliver watches e w).key = w.key := by
  unfold deliver
  split <;> rfl

@[simp] theorem deliver_receiver (e : ε) (w : Watcher κ ρ ε) :
    (deliver watches e w).receiver = w.receiver := by
  unfold deliver
  split <;> rfl

@[simp] theorem deliver_since (e : ε) (w : Watcher κ ρ ε) :
    (deliver watches e w).since = w.since := by
  unfold deliver
  split <;> rfl

@[simp] theorem deliver_entry (e : ε) (w : Watcher κ ρ ε) :
    (deliver watches e w).entry = w.entry := by
  simp [Watcher.entry]

@[simp] theorem deliver_place (e : ε) (w : Watcher κ ρ ε) :
    (deliver watches e w).place = w.place := by
  simp [Watcher.place]

namespace Table

variable {t : Table κ ρ ε} {ops : List (Op κ ρ ε)}

/-- Every watcher has what it watches of all that was published since it is there. -/
def Exact (watches : κ → ε → Bool) (t : Table κ ρ ε) : Prop :=
  ∀ w ∈ t.watchers, w.since ≤ t.published.length ∧
    w.inbox = (t.published.drop w.since).filter (watches w.key)

theorem start_exact (watches : κ → ε → Bool) (gone : ρ → Bool) (entries : List (κ × ρ)) :
    (start gone entries).Exact watches := by
  intro w member
  obtain ⟨entry, _, rfl⟩ := List.mem_map.mp member
  exact ⟨Nat.le_refl 0, rfl⟩

variable [DecidableEq ρ]

theorem run_append (t : Table κ ρ ε) (ops later : List (Op κ ρ ε)) :
    t.run watches (ops ++ later) = (t.run watches ops).run watches later :=
  List.foldl_append ..

theorem run_induction {P : Table κ ρ ε → Prop} (initial : P t)
    (preserved : ∀ t, P t → ∀ op, P (t.step watches op)) (ops : List (Op κ ρ ε)) :
    P (t.run watches ops) := by
  induction ops generalizing t with
  | nil => exact initial
  | cons op ops ih => exact ih (preserved t initial op)

theorem step_exact (exact : t.Exact watches) (op : Op κ ρ ε) : (t.step watches op).Exact watches := by
  cases op with
  | register entries =>
    intro w member
    rcases List.mem_append.mp member with old | new
    · exact exact w old
    · obtain ⟨entry, _, rfl⟩ := List.mem_map.mp new
      simp [step]
  | publish e =>
    intro w member
    obtain ⟨old, kept, rfl⟩ := List.mem_map.mp member
    obtain ⟨before, inbox⟩ := exact old (List.mem_filter.mp kept).1
    constructor
    · simp only [step, deliver_since, List.length_append, List.length_singleton]
      omega
    · simp only [step, deliver_since, deliver_key, List.drop_append_of_le_length before,
        List.filter_append, ← inbox]
      cases watched : watches old.key e <;> simp [deliver, watched]
  | drop r => exact exact

theorem run_exact (exact : t.Exact watches) (ops : List (Op κ ρ ε)) :
    (t.run watches ops).Exact watches :=
  run_induction exact (fun _ exact op => step_exact exact op) ops

/-- A watcher is lost only when an event that it watches finds its receiver gone, and is
there from the time on at which it was registered. -/
theorem step_keeps (watches : κ → ε → Bool) (t : Table κ ρ ε) (op : Op κ ρ ε) :
    ((t.watchers.map Watcher.place).filter fun place => !(t.step watches op).gone place.1.2).Sublist
      ((t.step watches op).watchers.map Watcher.place) := by
  cases op with
  | register entries =>
    simp only [step, List.map_append]
    exact List.filter_sublist.trans (List.sublist_append_left ..)
  | publish e =>
    simp only [step, List.map_map, List.filter_map]
    have same : Watcher.place ∘ deliver watches e = (Watcher.place : Watcher κ ρ ε → (κ × ρ) × Nat) :=
      funext (deliver_place e)
    rw [same]
    apply List.Sublist.map
    apply List.monotone_filter_right
    intro w alive
    simp only [Function.comp_apply, Watcher.place, Watcher.entry] at alive
    rw [Bool.not_eq_true'] at alive
    simp [alive]
  | drop r => exact List.filter_sublist

theorem step_gone (t : Table κ ρ ε) (op : Op κ ρ ε) (r : ρ) (gone : t.gone r = true) :
    (t.step watches op).gone r = true := by
  cases op with
  | register entries => exact gone
  | publish e => exact gone
  | drop s =>
    by_cases same : r = s
    · subst same
      exact Function.update_self ..
    · exact (Function.update_of_ne same ..).trans gone

theorem run_gone (ops : List (Op κ ρ ε)) (r : ρ) (gone : t.gone r = true) :
    (t.run watches ops).gone r = true :=
  run_induction (P := fun t => t.gone r = true) gone
    (fun t gone op => step_gone t op r gone) ops

theorem run_keeps (watches : κ → ε → Bool) (t : Table κ ρ ε) (ops : List (Op κ ρ ε)) :
    ((t.watchers.map Watcher.place).filter fun place => !(t.run watches ops).gone place.1.2).Sublist
      ((t.run watches ops).watchers.map Watcher.place) := by
  induction ops generalizing t with
  | nil => exact List.filter_sublist
  | cons op ops ih =>
    have same : t.run watches (op :: ops) = (t.step watches op).run watches ops := rfl
    rw [same]
    have rest := ih (t.step watches op)
    have first := (step_keeps watches t op).filter
      fun place => !((t.step watches op).run watches ops).gone place.1.2
    refine List.Sublist.trans ?_ (first.trans rest)
    rw [List.filter_filter]
    apply List.monotone_filter_right
    intro place alive
    have alive' : ((t.step watches op).run watches ops).gone place.1.2 = false := by
      simpa using alive
    have before : (t.step watches op).gone place.1.2 = false := by
      cases gone : (t.step watches op).gone place.1.2 with
      | false => rfl
      | true => cases (run_gone ops place.1.2 gone).symm.trans alive'
    simp [alive', before]

/-- Of the entries that a table starts with, those whose receivers are not gone are watchers
from the start. -/
theorem start_keeps (watches : κ → ε → Bool) (gone : ρ → Bool) (entries : List (κ × ρ))
    (ops : List (Op κ ρ ε)) :
    ((entries.filter fun entry => !((start gone entries).run watches ops).gone entry.2).map
        fun entry => (entry, 0)).Sublist
      (((start gone entries).run watches ops).watchers.map Watcher.place) := by
  have keeps := run_keeps watches (start gone entries) ops
  rw [start, place_register, List.filter_map] at keeps
  exact keeps

/-- What is owed to a receiver for the event that is published at a time. -/
def owed (watches : κ → ε → Bool) (watchers : List (Watcher κ ρ ε)) (r : ρ) (e : ε) (time : Nat) :
    List ε :=
  (watchers.filter fun w =>
    decide (w.receiver = r) && (decide (w.since ≤ time) && watches w.key e)).map fun _ => e

/-- A receiver that is still there has been sent every event once for each of its watchers. -/
def Served (watches : κ → ε → Bool) (t : Table κ ρ ε) : Prop :=
  ∀ r, t.gone r = false →
    t.sent_to r = t.published.zipIdx.flatMap fun (e, time) => owed watches t.watchers r e time

theorem sent_to_append {t t' : Table κ ρ ε} {more : List (ρ × ε)} (sent : t'.sent = t.sent ++ more)
    (r : ρ) : t'.sent_to r = t.sent_to r ++ more.filterMap fun (s, e) => if s = r then some e else none := by
  rw [sent_to, sent, List.filterMap_append, sent_to]

theorem owed_register (watchers : List (Watcher κ ρ ε)) (entries : List (κ × ρ)) (r : ρ) (e : ε)
    {since time : Nat} (early : time < since) :
    owed watches (watchers ++ register since entries) r e time = owed watches watchers r e time := by
  have none : (register since entries : List (Watcher κ ρ ε)).filter (fun w =>
      decide (w.receiver = r) && (decide (w.since ≤ time) && watches w.key e)) = [] := by
    apply List.filter_eq_nil_iff.mpr
    intro w member
    obtain ⟨entry, _, rfl⟩ := List.mem_map.mp member
    simp [Nat.not_le.mpr early]
  rw [owed, List.filter_append, none, List.append_nil, owed]

theorem owed_deliver (watchers : List (Watcher κ ρ ε)) (gone : ρ → Bool) (r : ρ) (e e' : ε)
    (time : Nat) (alive : gone r = false) :
    owed watches ((watchers.filter fun w => !(watches w.key e' && gone w.receiver)).map
      (deliver watches e')) r e time = owed watches watchers r e time := by
  simp only [owed, List.filter_map, List.map_map, List.filter_filter, Function.comp_def,
    deliver_key, deliver_receiver, deliver_since]
  congr 1
  apply List.filter_congr
  intro w _
  by_cases own : w.receiver = r
  · simp [own, alive]
  · simp [own]

theorem owed_now (watchers : List (Watcher κ ρ ε)) (gone : ρ → Bool) (r : ρ) (e : ε) (time : Nat)
    (alive : gone r = false) (there : ∀ w ∈ watchers, w.since ≤ time) :
    (((watchers.filter fun w => watches w.key e && !gone w.receiver).map
      fun w => (w.receiver, e)).filterMap fun (s, e) => if s = r then some e else none) =
      owed watches watchers r e time := by
  induction watchers with
  | nil => rfl
  | cons w watchers ih =>
    have rest := ih fun w member => there w (.tail _ member)
    have since := there w (.head _)
    simp only [owed, List.filter_cons] at rest ⊢
    by_cases own : w.receiver = r
    · cases watched : watches w.key e <;> simp [own, alive, since, rest]
    · cases watched : watches w.key e <;> cases left : gone w.receiver <;> simp [own, rest]

theorem start_served (watches : κ → ε → Bool) (gone : ρ → Bool) (entries : List (κ × ρ)) :
    (start gone entries).Served watches := by
  intro r _
  rfl

theorem step_served (exact : t.Exact watches) (served : t.Served watches) (op : Op κ ρ ε) :
    (t.step watches op).Served watches := by
  cases op with
  | register entries =>
    intro r alive
    refine (served r alive).trans ?_
    apply List.flatMap_congr
    rintro ⟨e, time⟩ member
    have early := (List.mem_zipIdx member).2.1
    rw [Nat.zero_add] at early
    exact (owed_register t.watchers entries r e early).symm
  | publish e =>
    intro r alive
    have sent : (t.step watches (.publish e)).sent = t.sent ++
        (t.watchers.filter fun w => watches w.key e && !t.gone w.receiver).map
          fun w => (w.receiver, e) := rfl
    have published : (t.step watches (.publish e)).published = t.published ++ [e] := rfl
    rw [sent_to_append sent, served r alive, published, List.zipIdx_append, List.flatMap_append]
    congr 1
    · apply List.flatMap_congr
      rintro ⟨e', time⟩ _
      exact (owed_deliver t.watchers t.gone r e' e time alive).symm
    · simp only [List.zipIdx_singleton, List.flatMap_singleton]
      rw [step, owed_deliver t.watchers t.gone r e e _ alive]
      apply owed_now t.watchers t.gone r e _ alive
      intro w member
      have since := (exact w member).1
      omega
  | drop s =>
    intro r alive
    apply served r
    cases gone : t.gone r with
    | false => rfl
    | true => cases (step_gone t (.drop s) r gone).symm.trans alive

theorem run_served (exact : t.Exact watches) (served : t.Served watches) (ops : List (Op κ ρ ε)) :
    (t.run watches ops).Served watches :=
  (run_induction (P := fun t => t.Exact watches ∧ t.Served watches) ⟨exact, served⟩
    (fun _ h op => ⟨step_exact h.1 op, step_served h.1 h.2 op⟩) ops).2

theorem filter_zipIdx (p : ε → Bool) (since : Nat) (events : List ε) (first : Nat) :
    ((events.zipIdx first).flatMap fun (e, time) =>
      if decide (since ≤ time) && p e then [e] else []) = (events.drop (since - first)).filter p := by
  induction events generalizing first with
  | nil => simp
  | cons e events ih =>
    rw [List.zipIdx_cons, List.flatMap_cons, ih]
    by_cases now : since ≤ first
    · have zero : since - first = 0 := by omega
      have zero' : since - (first + 1) = 0 := by omega
      rw [zero, zero']
      cases watched : p e <;> simp [now, watched]
    · have next : since - first = since - (first + 1) + 1 := by omega
      rw [next]
      simp [now]

/-- A receiver with one watcher has been sent what that watcher has. -/
theorem sent_to_one (exact : t.Exact watches) (served : t.Served watches) {r : ρ}
    (alive : t.gone r = false) {w : Watcher κ ρ ε}
    (only : (t.watchers.filter fun w => decide (w.receiver = r)) = [w]) : t.sent_to r = w.inbox := by
  have member : w ∈ t.watchers := by
    have own : w ∈ t.watchers.filter fun w => decide (w.receiver = r) := by rw [only]; exact .head _
    exact (List.mem_filter.mp own).1
  have one : ∀ e time, owed watches t.watchers r e time =
      if decide (w.since ≤ time) && watches w.key e then [e] else [] := by
    intro e time
    rw [owed]
    have split : (t.watchers.filter fun w =>
        decide (w.receiver = r) && (decide (w.since ≤ time) && watches w.key e)) =
        (t.watchers.filter fun w => decide (w.receiver = r)).filter fun w =>
          decide (w.since ≤ time) && watches w.key e := by
      rw [List.filter_filter]
      apply List.filter_congr
      intro w _
      exact Bool.and_comm ..
    rw [split, only, List.filter_singleton]
    cases (decide (w.since ≤ time) && watches w.key e) <;> rfl
  rw [served r alive, (exact w member).2]
  simp only [one]
  exact filter_zipIdx (watches w.key) w.since t.published 0

end Table

end Publish
