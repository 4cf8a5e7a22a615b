import Mathlib.Data.List.Basic

/-! `StrChunks` of `core/src/util/mod.rs`, which cuts a string into pieces of so many
bytes. To cut inside a character, or past the end, is a panic. -/
namespace ConnectScrobbler.StrChunks

/-- `&data[..size]` and `&data[size..]`. -/
def split_at : (data : List Char) → (size : Nat) → Option (List Char × List Char)
  | data, 0 => some ([], data)
  | [], _ + 1 => none
  | c :: data, size + 1 =>
    if c.utf8Size ≤ size + 1 then do
      let (front, rest) ← split_at data (size + 1 - c.utf8Size)
      return (c :: front, rest)
    else none

/-- The next piece with what follows it, or nothing at the end. -/
def next (size : Nat) (data : List Char) : Option (Option (List Char × List Char)) :=
  if data.isEmpty then some none else (split_at data size).map some

/-- `chunks(size).any(p)`, by the turns that are left. -/
def any (p : List Char → Bool) (size : Nat) : (left : Nat) → List Char → Option Bool
  | 0, _ => some false
  | left + 1, data => do
    match ← next size data with
    | none => return false
    | some (chunk, rest) => if p chunk then return true else any p size left rest

/-- The length of a string in bytes. -/
def len : (data : List Char) → Nat
  | [] => 0
  | c :: data => c.utf8Size + len data

@[simp] theorem len_nil : len [] = 0 := rfl

@[simp] theorem len_cons (c : Char) (data : List Char) : len (c :: data) = c.utf8Size + len data := rfl

theorem split_at_eq_some {data front rest : List Char} {size : Nat} :
    split_at data size = some (front, rest) ↔ data = front ++ rest ∧ len front = size := by
  induction data, size using split_at.induct generalizing front with
  | case1 data =>
    simp only [split_at, Option.some.injEq, Prod.mk.injEq]
    constructor
    · rintro ⟨rfl, rfl⟩
      exact ⟨rfl, rfl⟩
    · rintro ⟨rfl, empty⟩
      cases front with
      | nil => exact ⟨rfl, rfl⟩
      | cons c front =>
        have positive := c.utf8Size_pos
        simp only [len_cons] at empty
        omega
  | case2 size =>
    simp only [split_at, reduceCtorEq, false_iff]
    rintro ⟨empty, length⟩
    cases front with
    | nil => cases length
    | cons c front => cases empty
  | case3 c data size fits ih =>
    simp only [split_at, if_pos fits]
    constructor
    · intro cut
      obtain ⟨⟨before, _⟩, here, done⟩ := Option.bind_eq_some_iff.mp cut
      cases done
      obtain ⟨rfl, length⟩ := ih.mp here
      refine ⟨rfl, ?_⟩
      simp only [len_cons, length]
      omega
    · rintro ⟨whole, length⟩
      cases front with
      | nil => cases length
      | cons d front =>
        obtain ⟨rfl, rfl⟩ := List.cons.inj whole
        rw [len_cons] at length
        have cut := ih.mpr ⟨rfl, by omega⟩
        rw [cut]
        rfl
  | case4 c data size long =>
    simp only [split_at, if_neg long, reduceCtorEq, false_iff]
    rintro ⟨whole, length⟩
    cases front with
    | nil => cases length
    | cons d front =>
      obtain ⟨rfl, _⟩ := List.cons.inj whole
      simp only [len_cons] at length
      omega

theorem next_piece {data : List Char} (more : data ≠ []) (size : Nat) :
    next size data = (split_at data size).map some := by
  rw [next, if_neg]
  simpa using more

theorem next_done {data : List Char} {size : Nat} : next size data = some none ↔ data = [] := by
  cases data with
  | nil => simp [next]
  | cons c data => simp [next_piece]

theorem next_some {data chunk rest : List Char} {size : Nat} :
    next size data = some (some (chunk, rest)) ↔
      data ≠ [] ∧ data = chunk ++ rest ∧ len chunk = size := by
  cases data with
  | nil => simp [next]
  | cons c data => simp [next_piece, split_at_eq_some]

theorem len_pos {chunk : List Char} : 0 < len chunk ↔ chunk ≠ [] := by
  cases chunk with
  | nil => simp
  | cons c chunk => simp [Nat.add_pos_left c.utf8Size_pos]

/-- The string can be cut into pieces of this size, up to one that is looked for. -/
def Cuts (p : List Char → Bool) (size : Nat) (data : List Char) : Prop :=
  ∃ (chunks : List (List Char)) (rest : List Char), data = chunks.flatten ++ rest ∧
    (∀ chunk ∈ chunks, len chunk = size) ∧ (rest = [] ∨ ∃ chunk ∈ chunks, p chunk = true)

theorem cuts_cons {p : List Char → Bool} {chunk rest : List Char} {size : Nat}
    (length : len chunk = size) (positive : 0 < size) :
    Cuts p size (chunk ++ rest) ↔ p chunk = true ∨ Cuts p size rest := by
  constructor
  · rintro ⟨chunks, end_, whole, sized, reason⟩
    cases chunks with
    | nil =>
      exfalso
      rcases reason with rfl | ⟨_, member, _⟩
      · obtain ⟨rfl, _⟩ := List.append_eq_nil_iff.mp whole
        rw [len_nil] at length
        omega
      · cases member
    | cons first chunks =>
      obtain ⟨same, others⟩ := List.forall_mem_cons.mp sized
      have one := split_at_eq_some.mpr ⟨@rfl _ (chunk ++ rest), length⟩
      have two := split_at_eq_some.mpr ⟨whole.trans (List.append_assoc ..), same⟩
      obtain ⟨rfl, rfl⟩ := Prod.mk.inj (Option.some.inj (one.symm.trans two))
      rcases reason with rfl | ⟨other, member, found⟩
      · exact .inr ⟨chunks, [], rfl, others, .inl rfl⟩
      · cases member with
        | head => exact .inl found
        | tail _ member => exact .inr ⟨chunks, end_, rfl, others, .inr ⟨other, member, found⟩⟩
  · rintro (found | ⟨chunks, end_, rfl, sized, reason⟩)
    · refine ⟨[chunk], rest, by simp, ?_, .inr ⟨chunk, .head _, found⟩⟩
      simpa using length
    · refine ⟨chunk :: chunks, end_, by simp, ?_, ?_⟩
      · exact List.forall_mem_cons.mpr ⟨length, sized⟩
      · rcases reason with rfl | ⟨other, member, found⟩
        · exact .inl rfl
        · exact .inr ⟨other, .tail _ member, found⟩

/-- The loop reads the string to its end or to the piece that is looked for, unless it panics. -/
theorem any_returns {p : List Char → Bool} {size left : Nat} (positive : 0 < size)
    {data : List Char} (enough : data.length < left) :
    any p size left data ≠ none ↔ Cuts p size data := by
  induction left generalizing data with
  | zero => omega
  | succ left ih =>
    by_cases more : data = []
    · subst more
      simp only [any, next, List.isEmpty_nil, if_true]
      exact ⟨fun _ => ⟨[], [], rfl, by simp, .inl rfl⟩, fun _ => by simp⟩
    · rw [any, next_piece more]
      cases cut : split_at data size with
      | none =>
        simp only [Option.map_none, Option.bind_eq_bind, Option.bind_none, ne_eq, not_true,
          false_iff]
        rintro ⟨chunks, end_, rfl, sized, reason⟩
        cases chunks with
        | nil =>
          rcases reason with rfl | ⟨_, member, _⟩
          · exact more rfl
          · cases member
        | cons chunk chunks =>
          have here : split_at ((chunk :: chunks).flatten ++ end_) size =
              some (chunk, chunks.flatten ++ end_) := by
            rw [List.flatten_cons, List.append_assoc]
            exact split_at_eq_some.mpr ⟨rfl, sized chunk (.head _)⟩
          cases cut.symm.trans here
      | some piece =>
        obtain ⟨chunk, rest⟩ := piece
        obtain ⟨rfl, length⟩ := split_at_eq_some.mp cut
        have shorter : rest.length < left := by
          have one : chunk ≠ [] := by
            rintro rfl
            rw [len_nil] at length
            omega
          have counted := List.length_pos_of_ne_nil one
          rw [List.length_append] at enough
          omega
        rw [cuts_cons length positive, ← ih shorter]
        cases found : p chunk <;> simp [found]

/-- Of a string that is cut without a panic, `any` sees the pieces. -/
theorem any_flatten (p : List Char → Bool) {size left : Nat} (positive : 0 < size)
    {chunks : List (List Char)} (sized : ∀ chunk ∈ chunks, len chunk = size)
    (enough : chunks.flatten.length < left) : any p size left chunks.flatten = some (chunks.any p) := by
  induction chunks generalizing left with
  | nil =>
    obtain ⟨turns, rfl⟩ := Nat.exists_eq_succ_of_ne_zero (Nat.ne_of_gt enough)
    rfl
  | cons chunk chunks ih =>
    obtain ⟨turns, rfl⟩ := Nat.exists_eq_succ_of_ne_zero (Nat.ne_of_gt (Nat.zero_lt_of_lt enough))
    obtain ⟨length, others⟩ := List.forall_mem_cons.mp sized
    have one : chunk ≠ [] := len_pos.mp (by rw [length]; exact positive)
    have shorter : chunks.flatten.length < turns := by
      have counted := List.length_pos_of_ne_nil one
      rw [List.flatten_cons, List.length_append] at enough
      omega
    have here : next size (chunk :: chunks).flatten = some (some (chunk, chunks.flatten)) :=
      next_some.mpr ⟨by simp [one], rfl, length⟩
    rw [any, here, List.any_cons]
    cases found : p chunk <;> simp [found, ih others shorter]

/-! Iterating to the end. -/

/-- The pieces of a string when the iterator comes to its end; it does not after a panic, nor
if it goes on forever. -/
inductive Yields (size : Nat) : List Char → List (List Char) → Prop
  | done {data : List Char} (ended : next size data = some none) : Yields size data []
  | piece {data chunk rest : List Char} {chunks : List (List Char)}
      (here : next size data = some (some (chunk, rest))) (later : Yields size rest chunks) :
      Yields size data (chunk :: chunks)

/-- The pieces are the string, all but the last are full and none is empty. -/
def Covers (size : Nat) (data : List Char) : Prop :=
  ∃ chunks, Yields size data chunks ∧ chunks.flatten = data ∧
    (∀ chunk ∈ chunks.dropLast, chunk.length = size) ∧ ∀ chunk ∈ chunks, chunk ≠ []

theorem Yields.pieces {size : Nat} {data : List Char} {chunks : List (List Char)}
    (yields : Yields size data chunks) :
    data = chunks.flatten ∧ ∀ chunk ∈ chunks, len chunk = size := by
  induction yields with
  | done ended => exact ⟨next_done.mp ended, by simp⟩
  | piece here _ ih =>
    obtain ⟨_, rfl, length⟩ := next_some.mp here
    obtain ⟨rfl, others⟩ := ih
    exact ⟨rfl, List.forall_mem_cons.mpr ⟨length, others⟩⟩

theorem yields_flatten {size : Nat} (positive : 0 < size) {chunks : List (List Char)}
    (sized : ∀ chunk ∈ chunks, len chunk = size) : Yields size chunks.flatten chunks := by
  induction chunks with
  | nil => exact .done rfl
  | cons chunk chunks ih =>
    obtain ⟨length, others⟩ := List.forall_mem_cons.mp sized
    have one : chunk ≠ [] := len_pos.mp (by rw [length]; exact positive)
    apply Yields.piece ?_ (ih others)
    exact next_some.mpr ⟨by simp [one], rfl, length⟩

theorem len_ascii {data : List Char} (ascii : ∀ c ∈ data, c.toNat < 128) :
    len data = data.length := by
  induction data with
  | nil => rfl
  | cons c data ih =>
    obtain ⟨here, later⟩ := List.forall_mem_cons.mp ascii
    have one : c.utf8Size = 1 := Char.utf8Size_eq_one_iff.mpr (Nat.le_of_lt_succ here)
    rw [len_cons, one, ih later, List.length_cons, Nat.add_comm]

theorem dvd_length_flatten {size : Nat} {chunks : List (List Char)}
    (sized : ∀ chunk ∈ chunks, chunk.length = size) : size ∣ chunks.flatten.length := by
  induction chunks with
  | nil => exact Nat.dvd_zero size
  | cons chunk chunks ih =>
    obtain ⟨here, later⟩ := List.forall_mem_cons.mp sized
    rw [List.flatten_cons, List.length_append, here]
    exact Nat.dvd_add (Nat.dvd_refl size) (ih later)

theorem exists_pieces {size : Nat} {data : List Char} (whole : size ∣ data.length) :
    ∃ chunks : List (List Char), data = chunks.flatten ∧ ∀ chunk ∈ chunks, chunk.length = size := by
  obtain ⟨count, length⟩ := whole
  induction count generalizing data with
  | zero => exact ⟨[], List.eq_nil_of_length_eq_zero length, by simp⟩
  | succ count ih =>
    rw [Nat.mul_succ] at length
    obtain ⟨chunks, rest, sized⟩ := @ih (data.drop size) (by rw [List.length_drop]; omega)
    refine ⟨data.take size :: chunks, ?_, ?_⟩
    · rw [List.flatten_cons, ← rest, List.take_append_drop]
    · refine List.forall_mem_cons.mpr ⟨?_, sized⟩
      rw [List.length_take]
      omega

theorem pieces_iff {size : Nat} {data : List Char} (ascii : ∀ c ∈ data, c.toNat < 128) :
    (∃ chunks : List (List Char), data = chunks.flatten ∧ ∀ chunk ∈ chunks, len chunk = size) ↔
      size ∣ data.length := by
  have length : ∀ {chunks : List (List Char)}, data = chunks.flatten → ∀ chunk ∈ chunks,
      len chunk = chunk.length := by
    rintro chunks rfl chunk member
    apply len_ascii
    intro c inside
    exact ascii c (List.mem_flatten.mpr ⟨chunk, member, inside⟩)
  constructor
  · rintro ⟨chunks, whole, sized⟩
    rw [whole]
    apply dvd_length_flatten
    intro chunk member
    rw [← length whole chunk member, sized chunk member]
  · intro multiple
    obtain ⟨chunks, whole, sized⟩ := exists_pieces multiple
    refine ⟨chunks, whole, ?_⟩
    intro chunk member
    rw [length whole chunk member, sized chunk member]

/-- A string of ASCII characters is covered exactly if its length is a multiple of the size. -/
theorem covers_iff {size : Nat} (positive : 0 < size) {data : List Char}
    (ascii : ∀ c ∈ data, c.toNat < 128) : Covers size data ↔ size ∣ data.length := by
  rw [← pieces_iff ascii]
  constructor
  · rintro ⟨chunks, yields, -⟩
    exact ⟨chunks, yields.pieces⟩
  · rintro ⟨chunks, rfl, sized⟩
    refine ⟨chunks, yields_flatten positive sized, rfl, ?_, ?_⟩
    · intro chunk last
      have member := List.dropLast_subset chunks last
      rw [← len_ascii fun c inside => ascii c (List.mem_flatten.mpr ⟨chunk, member, inside⟩)]
      exact sized chunk member
    · intro chunk member
      apply len_pos.mp
      rw [sized chunk member]
      exact positive

end ConnectScrobbler.StrChunks
