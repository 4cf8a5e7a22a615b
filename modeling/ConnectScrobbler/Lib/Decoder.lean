import ConnectScrobbler.Lib.Call

/-! Decoding a stream. What arrives is appended to a buffer; a decoder, whenever it
is called, takes from the front of the buffer and may yield an item. -/

/-- A call of a decoder gives what it yields, its next state and what is left of
the buffer, or fails. -/
abbrev Decode (S α β : Type) := S → List α → Option (Option β × S × List α)

inductive Input (α : Type) where
  | arrive (chunk : List α)
  | decode
  deriving DecidableEq, Repr

namespace Input

variable {α : Type}

def arrivals : List (Input α) → List α
  | [] => []
  | .arrive chunk :: inputs => chunk ++ arrivals inputs
  | .decode :: inputs => arrivals inputs

end Input

namespace Decode

open Input (arrivals)

variable {S α β : Type} {decode : Decode S α β}

/-- The items are logged; a failure ends the run. -/
def step (decode : Decode S α β) (held : S × List α) : Input α → Call β (S × List α)
  | .arrive chunk => return (held.1, held.2 ++ chunk)
  | .decode => do
    let (item, next) ← Call.unwrap (decode held.1 held.2)
    (⟨item.toList, some next⟩ : Call β (S × List α))

/-- In a state, with some bytes to come, these are the items to come. A decoder that
follows such an expectation does not fail whatever part of the bytes is there,
yields no item but the next, and yields that one if all the bytes are there. -/
structure Follows (decode : Decode S α β) (Expects : S → List α → List β → Prop) : Prop where
  call : ∀ s buf future items, Expects s (buf ++ future) items →
    ∃ item s' buf' rest, decode s buf = some (item, s', buf') ∧ items = item.toList ++ rest ∧
      Expects s' (buf' ++ future) rest
  complete : ∀ s buf item items, Expects s buf (item :: items) →
    ∀ s' buf', decode s buf ≠ some (none, s', buf')

variable {Expects : S → List α → List β → Prop}

/-- However the bytes arrive and however often the decoder is called, it has
yielded the first of the items and expects the others. -/
theorem Follows.run (follows : Follows decode Expects) {inputs : List (Input α)} {s : S}
    {buf future : List α} {items : List β}
    (expects : Expects s (buf ++ (arrivals inputs ++ future)) items) :
    ∃ yielded rest s' buf', Call.run decode.step (s, buf) inputs = ⟨yielded, some (s', buf')⟩ ∧
      items = yielded ++ rest ∧ Expects s' (buf' ++ future) rest := by
  induction inputs generalizing s buf items with
  | nil => exact ⟨[], items, s, buf, rfl, rfl, expects⟩
  | cons input inputs ih =>
    cases input with
    | arrive chunk =>
      rw [arrivals, List.append_assoc, ← List.append_assoc] at expects
      obtain ⟨yielded, rest, s', buf', ran, whole, expects⟩ := ih expects
      refine ⟨yielded, rest, s', buf', ?_, whole, expects⟩
      rw [Call.run, step, Call.pure_eq, Call.bind_some, ran]
      rfl
    | decode =>
      obtain ⟨item, s1, buf1, later, called, first, expects⟩ := follows.call s buf _ items expects
      obtain ⟨yielded, rest, s', buf', ran, whole, expects⟩ := ih expects
      refine ⟨item.toList ++ yielded, rest, s', buf', ?_, ?_, expects⟩
      · simp only [Call.run, step, called, Call.unwrap_eq, Call.bind_some, ran, List.nil_append]
      · rw [first, whole, List.append_assoc]

/-- Once all the bytes are there, a call for each item is enough. -/
theorem Follows.drain (follows : Follows decode Expects) {calls : Nat} {s : S} {buf : List α}
    {items : List β} (expects : Expects s buf items) (enough : items.length ≤ calls) :
    ∃ s' buf', Call.run decode.step (s, buf) (List.replicate calls .decode) =
      ⟨items, some (s', buf')⟩ ∧ Expects s' buf' [] := by
  induction calls generalizing s buf items with
  | zero =>
    cases List.length_eq_zero_iff.mp (Nat.le_zero.mp enough)
    exact ⟨s, buf, rfl, expects⟩
  | succ calls ih =>
    have split := expects
    rw [← List.append_nil buf] at split
    obtain ⟨item, s1, buf1, later, called, first, split⟩ := follows.call s buf [] items split
    rw [List.append_nil] at split
    have fewer : later.length ≤ calls := by
      cases item with
      | some item =>
        rw [first, List.length_append] at enough
        simp only [Option.toList_some, List.length_singleton] at enough
        omega
      | none =>
        cases items with
        | nil => rw [List.nil_eq_append_iff.mp first |>.2]; exact Nat.zero_le _
        | cons item items => exact absurd called (follows.complete s buf item items expects s1 buf1)
    obtain ⟨s', buf', ran, done⟩ := ih split fewer
    refine ⟨s', buf', ?_, done⟩
    simp only [List.replicate_succ, Call.run, step, called, Call.unwrap_eq, Call.bind_some, ran,
      List.nil_append, first]

end Decode
