import ConnectScrobbler.Lib.Bytes

/-! Blocks that are combined, one after the other, with what has become of the block before. -/
namespace Chain

def xor (a b : Bytes) : Bytes := List.zipWith (· ^^^ ·) a b

@[simp] theorem length_xor (a b : Bytes) : (xor a b).length = min a.length b.length :=
  List.length_zipWith

theorem getElem?_xor {a b : Bytes} {i : Nat} {x y : UInt8} (left : a[i]? = some x)
    (right : b[i]? = some y) : (xor a b)[i]? = some (x ^^^ y) := by
  rw [xor, List.getElem?_zipWith_eq_some]
  exact ⟨x, y, left, right, rfl⟩

theorem xor_xor {a b : Bytes} (fits : a.length ≤ b.length) : xor (xor a b) b = a := by
  induction a generalizing b with
  | nil => rfl
  | cons x a ih =>
    cases b with
    | nil => cases fits
    | cons y b =>
      simp only [xor, List.zipWith_cons_cons, UInt8.xor_assoc, UInt8.xor_self, UInt8.xor_zero,
        List.cons.injEq, true_and]
      exact ih (Nat.le_of_succ_le_succ fits)

theorem xor_zeros {a : Bytes} {n : Nat} (fits : a.length ≤ n) : xor a (List.replicate n 0) = a := by
  induction a generalizing n with
  | nil => rfl
  | cons x a ih =>
    cases n with
    | zero => cases fits
    | succ n =>
      simp only [xor, List.replicate_succ, List.zipWith_cons_cons, UInt8.xor_zero, List.cons.injEq,
        true_and]
      exact ih (Nat.le_of_succ_le_succ fits)

/-- Each block is combined with the one that has been made before it. -/
def chain (size : Nat) : (blocks : Nat) → (previous data : Bytes) → Bytes
  | 0, _, _ => []
  | blocks + 1, previous, data =>
    let block := xor (data.take size) previous
    block ++ chain size blocks block (data.drop size)

/-- Each byte is combined with the one a block before it, as it stands. -/
def unchain (previous data : Bytes) : Bytes := xor data (previous ++ data)

variable {size : Nat}

theorem length_chain {blocks : Nat} {previous data : Bytes} (before : previous.length = size)
    (whole : data.length = size * blocks) : (chain size blocks previous data).length = size * blocks := by
  induction blocks generalizing previous data with
  | zero => rfl
  | succ blocks ih =>
    rw [Nat.mul_succ] at whole
    have block : (xor (data.take size) previous).length = size := by simp; omega
    have rest : (data.drop size).length = size * blocks := by simp; omega
    rw [chain, List.length_append, block, ih block rest, Nat.mul_succ, Nat.add_comm]

theorem unchain_chain {blocks : Nat} {previous data : Bytes} (before : previous.length = size)
    (whole : data.length = size * blocks) : unchain previous (chain size blocks previous data) = data := by
  induction blocks generalizing previous data with
  | zero => exact (List.length_eq_zero_iff.mp whole).symm
  | succ blocks ih =>
    rw [Nat.mul_succ] at whole
    have block : (xor (data.take size) previous).length = size := by simp; omega
    have rest : (data.drop size).length = size * blocks := by simp; omega
    have back : xor (xor (data.take size) previous) previous = data.take size :=
      xor_xor (by simp; omega)
    have later := ih block rest
    rw [unchain, xor] at later ⊢
    rw [chain, List.zipWith_append (by rw [block, before])]
    calc _ = data.take size ++ data.drop size := by rw [later]; exact congrArg (· ++ _) back
      _ = data := List.take_append_drop size data

/-! The same in place, from the last byte on. -/

def undo_at (size length : Nat) (data : Bytes) (i : Nat) : Option Bytes := do
  let byte ← data[length - i - 1]?
  let earlier ← data[length - i - (size + 1)]?
  some (data.set (length - i - 1) (byte ^^^ earlier))

/-- Before the end of what is done, a turn finds the bytes as they were. -/
theorem undo_at_end {data front : Bytes} {x y : UInt8} (whole : data = front ++ [x])
    (earlier : data[data.length - (size + 1)]? = some y) (done : Bytes) (i : Nat) :
    undo_at size (data.length + i) (data ++ done) i = some (front ++ (x ^^^ y) :: done) := by
  subst whole
  have last : (front ++ [x]).length + i - i - 1 = front.length := by simp
  have there : (front ++ [x]).length + i - i - (size + 1) = (front ++ [x]).length - (size + 1) := by omega
  have within : (front ++ [x]).length - (size + 1) < (front ++ [x]).length := by
    rw [List.length_append, List.length_singleton]
    omega
  rw [undo_at, last, there, List.getElem?_append_left within, earlier]
  simp

theorem length_unchain (previous data : Bytes) : (unchain previous data).length = data.length := by
  simp [unchain]

theorem drop_unchain {data : Bytes} {k : Nat} {x y : UInt8} (here : data[k]? = some x)
    (earlier : data[k - size]? = some y) (behind : size ≤ k) :
    (unchain (List.replicate size 0) data).drop k =
      (x ^^^ y) :: (unchain (List.replicate size 0) data).drop (k + 1) := by
  have found : (unchain (List.replicate size 0) data)[k]? = some (x ^^^ y) := by
    apply getElem?_xor here
    rw [List.getElem?_append_right (by simpa using behind), List.length_replicate]
    exact earlier
  obtain ⟨within, value⟩ := List.getElem?_eq_some_iff.mp found
  rw [List.drop_eq_getElem_cons within, value]

/-- Behind the last `n` turns the bytes are done, before them they are as they were. -/
theorem undo_range {data : Bytes} {n : Nat} (turns : n + size ≤ data.length) :
    (List.range n).foldlM (undo_at size data.length) data =
      some (data.take (data.length - n) ++
        (unchain (List.replicate size 0) data).drop (data.length - n)) := by
  induction n with
  | zero => simp [List.drop_of_length_le (Nat.le_of_eq (length_unchain _ data))]
  | succ n ih =>
    obtain ⟨k, at_⟩ : ∃ k, data.length - n = k + 1 := ⟨data.length - n - 1, by omega⟩
    have next : data.length - (n + 1) = k := by omega
    obtain ⟨x, here⟩ : ∃ x, data[k]? = some x := ⟨_, List.getElem?_eq_getElem (by omega)⟩
    obtain ⟨y, earlier⟩ : ∃ y, data[k - size]? = some y := ⟨_, List.getElem?_eq_getElem (by omega)⟩
    have front : data.take (k + 1) = data.take k ++ [x] := by
      rw [List.take_add_one, here, Option.toList_some]
    have length : (data.take (k + 1)).length = k + 1 := by simp; omega
    have block_before : (data.take (k + 1))[(data.take (k + 1)).length - (size + 1)]? = some y := by
      rw [length, List.getElem?_take_of_lt (by omega), Nat.add_sub_add_right]
      exact earlier
    have turn := undo_at_end front block_before ((unchain (List.replicate size 0) data).drop (k + 1)) n
    have total : (data.take (k + 1)).length + n = data.length := by omega
    rw [total, ← drop_unchain here earlier (by omega)] at turn
    rw [List.range_succ, List.foldlM_append, ih (by omega), at_, next]
    simp only [List.foldlM_cons, List.foldlM_nil, Option.bind_eq_bind, Option.bind_some, turn]
    rfl

theorem undo_all {data : Bytes} (long : size ≤ data.length) :
    (List.range (data.length - size)).foldlM (undo_at size data.length) data =
      some (unchain (List.replicate size 0) data) := by
  rw [undo_range (by omega)]
  have rest : data.length - (data.length - size) = size := by omega
  have first : data.take size = (unchain (List.replicate size 0) data).take size := by
    rw [unchain, xor, List.take_zipWith, List.take_append_of_le_length (by simp), List.take_replicate]
    exact (xor_zeros (by simp)).symm
  rw [rest, first, List.take_append_drop]

end Chain
