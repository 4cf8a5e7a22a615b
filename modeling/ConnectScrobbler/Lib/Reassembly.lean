import Mathlib.Data.List.Induction

/-! Reassembly of a list of parts from packets. A packet carries whole chunks;
its last chunk may be continued by the first one of the next packet. The
receiver keeps the finished parts and the one it is in the middle of. -/

variable {α : Type}

/-- What a receiver has so far: finished parts and the part that is continued. -/
structure Assembly (α : Type) where
  parts : List (List α)
  carried : Option (List α)
  deriving DecidableEq, Repr

namespace Assembly

def empty : Assembly α := ⟨[], none⟩

def joined (carried : Option (List α)) (chunk : List α) : List α :=
  match carried with
  | some part => part ++ chunk
  | none => chunk

def add (x : Assembly α) (continued : Bool) (chunk : List α) : Assembly α :=
  if continued then ⟨x.parts, some (joined x.carried chunk)⟩
  else ⟨x.parts ++ [joined x.carried chunk], none⟩

/-- Take in the chunks of a packet; only the last one can be continued. -/
def feed (x : Assembly α) (continued : Bool) : List (List α) → Assembly α
  | [] => x
  | [chunk] => x.add continued chunk
  | chunk :: rest => (x.add false chunk).feed continued rest

@[simp] theorem feed_nil (x : Assembly α) (continued : Bool) : x.feed continued [] = x := rfl

theorem feed_cons_cons (x : Assembly α) (continued : Bool) (chunk next : List α)
    (rest : List (List α)) :
    x.feed continued (chunk :: next :: rest) = (x.add false chunk).feed continued (next :: rest) :=
  rfl

theorem feed_whole (x : Assembly α) (chunk : List α) (rest : List (List α)) :
    x.feed false (chunk :: rest) = ⟨x.parts ++ joined x.carried chunk :: rest, none⟩ := by
  induction rest generalizing x chunk with
  | nil => rfl
  | cons next rest ih =>
    rw [feed_cons_cons, ih]
    simp [add, joined]

theorem feed_split (x : Assembly α) (chunk last : List α) (rest : List (List α)) :
    x.feed true (chunk :: rest ++ [last]) =
      ⟨x.parts ++ joined x.carried chunk :: rest, some last⟩ := by
  induction rest generalizing x chunk with
  | nil => rfl
  | cons next rest ih =>
    rw [List.cons_append, List.cons_append, feed_cons_cons, ← List.cons_append, ih]
    simp [add, joined]

theorem parts_le_feed (x : Assembly α) (continued : Bool) (chunks : List (List α)) :
    x.parts.length ≤ (x.feed continued chunks).parts.length := by
  fun_induction feed x continued chunks with
  | case1 x => exact Nat.le_refl _
  | case2 x chunk => cases continued <;> simp [add]
  | case3 x chunk rest _ ih => exact Nat.le_trans (by simp [add]) ih

/-- A packet leaves the assembly as it is only if it is empty, or continues a
carried part with nothing. -/
theorem feed_eq_self {x : Assembly α} {continued : Bool} {chunks : List (List α)} :
    x.feed continued chunks = x ↔
      chunks = [] ∨ continued = true ∧ chunks = [[]] ∧ x.carried ≠ none := by
  obtain ⟨parts, carried⟩ := x
  match chunks with
  | [] => simp
  | [chunk] => cases continued <;> cases carried <;> simp [feed, add, joined]
  | chunk :: next :: rest =>
    have grown := parts_le_feed (add ⟨parts, carried⟩ false chunk) continued (next :: rest)
    simp only [feed_cons_cons, reduceCtorEq, List.cons.injEq, and_false, false_and, or_false,
      iff_false]
    intro same
    rw [same] at grown
    simp only [add, Bool.false_eq_true, if_false, List.length_append, List.length_singleton] at grown
    exact Nat.lt_irrefl _ grown

end Assembly

/-- How a packet ends: in the middle of a part, at the end of one, or with the last one. -/
inductive Ending where
  | continued | whole | final
  deriving DecidableEq, Repr

/-- The ways of cutting a list of parts into packets of one or more chunks. -/
inductive Fragmentation : List (List α) → List (Ending × List (List α)) → Prop
  | final {parts : List (List α)} (some_part : parts ≠ []) :
      Fragmentation parts [(.final, parts)]
  | whole {before after : List (List α)} {packets : List (Ending × List (List α))}
      (some_part : before ≠ []) (rest : Fragmentation after packets) :
      Fragmentation (before ++ after) ((.whole, before) :: packets)
  | continued {before after : List (List α)} {front back : List α}
      {packets : List (Ending × List (List α))} (rest : Fragmentation (back :: after) packets) :
      Fragmentation (before ++ (front ++ back) :: after) ((.continued, before ++ [front]) :: packets)

namespace Fragmentation

def take_in (x : Assembly α) (packet : Ending × List (List α)) : Assembly α :=
  x.feed (packet.1 = .continued) packet.2

theorem nonempty {parts : List (List α)} {packets : List (Ending × List (List α))}
    (cut : Fragmentation parts packets) : parts ≠ [] := by
  cases cut with
  | final some_part => exact some_part
  | whole some_part rest => exact fun empty => some_part (List.append_eq_nil_iff.mp empty).1
  | continued rest => exact fun empty => nomatch (List.append_eq_nil_iff.mp empty).2

theorem endings {parts : List (List α)} {packets : List (Ending × List (List α))}
    (cut : Fragmentation parts packets) : ∃ fragments chunks,
      packets = fragments ++ [(.final, chunks)] ∧ ∀ f ∈ fragments, f.1 ≠ .final := by
  induction cut with
  | @final parts some_part => exact ⟨[], parts, rfl, nofun⟩
  | whole some_part rest ih =>
    obtain ⟨fragments, chunks, rfl, more⟩ := ih
    exact ⟨_ :: fragments, chunks, rfl, List.forall_mem_cons.mpr ⟨nofun, more⟩⟩
  | continued rest ih =>
    obtain ⟨fragments, chunks, rfl, more⟩ := ih
    exact ⟨_ :: fragments, chunks, rfl, List.forall_mem_cons.mpr ⟨nofun, more⟩⟩

theorem last_final {parts : List (List α)} {fragments : List (Ending × List (List α))}
    {last : Ending × List (List α)} (cut : Fragmentation parts (fragments ++ [last])) :
    last.1 = .final ∧ ∀ f ∈ fragments, f.1 ≠ .final := by
  obtain ⟨others, chunks, same, more⟩ := cut.endings
  obtain ⟨rfl, ends⟩ := List.append_inj' same rfl
  cases ends
  exact ⟨rfl, more⟩

/-- Reassembly undoes fragmentation, whatever part the receiver is in the middle of. -/
theorem reassembles {parts : List (List α)} {packets : List (Ending × List (List α))}
    (cut : Fragmentation parts packets) (x : Assembly α) (part : List α) (rest : List (List α))
    (first : parts = part :: rest) :
    packets.foldl take_in x = ⟨x.parts ++ Assembly.joined x.carried part :: rest, none⟩ := by
  induction cut generalizing x part rest with
  | final _ =>
    subst first
    exact Assembly.feed_whole x part rest
  | @whole before after packets some_part cut ih =>
    obtain ⟨next, later, rfl⟩ := List.exists_cons_of_ne_nil cut.nonempty
    cases before with
    | nil => exact absurd rfl some_part
    | cons chunk before =>
      cases first
      rw [List.foldl_cons, take_in, show decide (Ending.whole = .continued) = false from rfl,
        Assembly.feed_whole, ih _ next later rfl]
      simp [Assembly.joined]
  | @continued before after front back packets cut ih =>
    cases before with
    | nil =>
      cases first
      rw [List.foldl_cons, ih _ back after rfl]
      cases x with
      | mk parts carried => cases carried <;> simp [take_in, Assembly.feed, Assembly.add, Assembly.joined]
    | cons chunk before =>
      cases first
      rw [List.foldl_cons, take_in, show decide (Ending.continued = .continued) = true from rfl,
        Assembly.feed_split, ih _ back after rfl]
      simp [Assembly.joined]

end Fragmentation
