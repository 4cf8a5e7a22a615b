import ConnectScrobbler.Core.Util.Int128
import Mathlib.Algebra.BigOperators.ModEq

/-! What the schoolbook product of `util::int128` computes, and when it stops: partial products
of 32-bit limbs are put into sixteen rows, which are added up word by word. -/
namespace ConnectScrobbler.U128

variable {build : Build} {a b c n : U128} {rows : List U128}

theorem fold_returns (returned : rows.foldlM (add_ref build) n = some c) :
    c.val = (n.val + (rows.map val).sum) % 2 ^ 128 := by
  induction rows generalizing n with
  | nil =>
    cases returned
    rw [List.map_nil, List.sum_nil, Nat.add_zero, Nat.mod_eq_of_lt c.val_lt]
  | cons r rows ih =>
    rw [List.foldlM_cons] at returned
    obtain ⟨m, added, rest⟩ := Option.bind_eq_some_iff.mp returned
    have sum : m.val = (n.val + r.val) % 2 ^ 128 := add_returns added
    rw [ih rest, sum, List.map_cons, List.sum_cons, Nat.mod_add_mod, Nat.add_assoc]

/-- Rows are added up without a carry until a sum of words does not fit. -/
theorem fold_stops : rows.foldlM (add_ref build) n = none ↔ build = .debug ∧
    (2 ^ 64 ≤ n.low.toNat + (rows.map fun r => r.low.toNat).sum ∨
      2 ^ 64 ≤ n.high.toNat + (rows.map fun r => r.high.toNat).sum) := by
  induction rows generalizing n with
  | nil =>
    have low := n.low.isLt
    have high := n.high.isLt
    simp only [List.foldlM_nil, List.map_nil, List.sum_nil]
    constructor
    · intro stops
      cases stops
    · omega
  | cons r rows ih =>
    simp only [List.foldlM_cons, List.map_cons, List.sum_cons]
    cases added : add_ref build n r with
    | none =>
      obtain ⟨debug, wraps⟩ := add_stops.mp added
      exact iff_of_true rfl ⟨debug, by omega⟩
    | some m =>
      rw [Option.bind_eq_bind, Option.bind_some, ih]
      apply and_congr_right
      rintro rfl
      obtain ⟨low, high⟩ := add_debug added
      rw [low, high, Nat.add_assoc, Nat.add_assoc]

/-- A build that checks adds up the words of the rows each for itself. -/
theorem fold_debug (returned : rows.foldlM (add_ref .debug) n = some c) :
    c.low.toNat = n.low.toNat + (rows.map fun r => r.low.toNat).sum ∧
      c.high.toNat = n.high.toNat + (rows.map fun r => r.high.toNat).sum := by
  induction rows generalizing n with
  | nil =>
    cases returned
    exact ⟨rfl, rfl⟩
  | cons r rows ih =>
    rw [List.foldlM_cons] at returned
    obtain ⟨m, added, rest⟩ := Option.bind_eq_some_iff.mp returned
    obtain ⟨low, high⟩ := add_debug added
    obtain ⟨lows, highs⟩ := ih rest
    simp only [lows, highs, low, high, List.map_cons, List.sum_cons, Nat.add_assoc, and_self]

/-! Limbs and partial products. -/

/-- The 32-bit digits of a number, the lowest first. -/
def limb (n : U128) (i : Nat) : Nat := n.val / 2 ^ (32 * i) % 2 ^ 32

theorem limb_lt (n : U128) (i : Nat) : n.limb i < 2 ^ 32 := Nat.mod_lt _ (by decide)

theorem val_eq_limbs (n : U128) : n.val =
    n.limb 0 + n.limb 1 * 2 ^ 32 + n.limb 2 * 2 ^ 64 + n.limb 3 * 2 ^ 96 := by
  have bound := n.val_lt
  simp only [limb]
  omega

theorem limbs_getD (n : U128) {i : Nat} (place : i < 4) :
    (n.limbs.getD (3 - i) 0).toNat = n.limb i := by
  have mask (x : BitVec 64) : (x &&& 0xFFFFFFFF).toNat = x.toNat % 2 ^ 32 := by
    rw [BitVec.toNat_and]
    exact Nat.and_two_pow_sub_one_eq_mod x.toNat 32
  have high := n.high.isLt
  have low := n.low.isLt
  have cases : i = 0 ∨ i = 1 ∨ i = 2 ∨ i = 3 := by omega
  obtain rfl | rfl | rfl | rfl := cases
  · change (n.low &&& 0xFFFFFFFF).toNat = _
    rw [mask, limb, val]
    omega
  · change (n.low >>> 32).toNat = _
    rw [BitVec.toNat_ushiftRight, Nat.shiftRight_eq_div_pow, limb, val]
    omega
  · change (n.high &&& 0xFFFFFFFF).toNat = _
    rw [mask, limb, val]
    omega
  · change (n.high >>> 32).toNat = _
    rw [BitVec.toNat_ushiftRight, Nat.shiftRight_eq_div_pow, limb, val]
    omega

/-- What a partial product adds to the low word, and to the high one. -/
def low_part (shift product : Nat) : Nat :=
  match shift with
  | 0 => product
  | 1 => product % 2 ^ 32 * 2 ^ 32
  | _ => 0

def high_part (shift product : Nat) : Nat :=
  match shift with
  | 1 => product / 2 ^ 32
  | 2 => product
  | 3 => product % 2 ^ 32 * 2 ^ 32
  | _ => 0

@[simp] theorem low_part_zero (shift : Nat) : low_part shift 0 = 0 := by
  unfold low_part
  split <;> simp

@[simp] theorem high_part_zero (shift : Nat) : high_part shift 0 = 0 := by
  unfold high_part
  split <;> simp

theorem toNat_shiftLeft_half (x : BitVec 64) : (x <<< 32).toNat = x.toNat % 2 ^ 32 * 2 ^ 32 := by
  rw [BitVec.toNat_shiftLeft, Nat.shiftLeft_eq]
  omega

theorem toNat_ushiftRight_half (x : BitVec 64) : (x >>> 32).toNat = x.toNat / 2 ^ 32 := by
  rw [BitVec.toNat_ushiftRight, Nat.shiftRight_eq_div_pow]

theorem place_stops {shift : Nat} {p : BitVec 64} : place shift p = none ↔ 4 ≤ shift ∧ p ≠ 0 := by
  match shift with
  | 0 | 1 | 2 | 3 => simp [place]
  | shift + 4 => simp [place]

theorem place_returns {shift : Nat} {p high low : BitVec 64} (placed : place shift p = some (high, low)) :
    high.toNat = high_part shift p.toNat ∧ low.toNat = low_part shift p.toNat ∧
      (from_parts high low).val ≡ p.toNat * 2 ^ (32 * shift) [MOD 2 ^ 128] := by
  have bound := p.isLt
  have zero : (0 : BitVec 64).toNat = 0 := rfl
  match shift with
  | 0 =>
    obtain ⟨rfl, rfl⟩ : 0 = high ∧ p = low := by simpa [place] using placed
    simp [low_part, high_part, Nat.ModEq]
  | 1 =>
    obtain ⟨rfl, rfl⟩ : p >>> 32 = high ∧ p <<< 32 = low := by simpa [place] using placed
    rw [val_from_parts, toNat_ushiftRight_half, toNat_shiftLeft_half]
    refine ⟨rfl, rfl, ?_⟩
    rw [Nat.ModEq]
    omega
  | 2 =>
    obtain ⟨rfl, rfl⟩ : p = high ∧ 0 = low := by simpa [place] using placed
    simp [low_part, high_part, Nat.ModEq]
  | 3 =>
    obtain ⟨rfl, rfl⟩ : p <<< 32 = high ∧ 0 = low := by simpa [place] using placed
    rw [val_from_parts, toNat_shiftLeft_half, zero]
    refine ⟨rfl, rfl, ?_⟩
    rw [Nat.ModEq]
    omega
  | shift + 4 =>
    by_cases empty : p = 0
    · obtain ⟨rfl, rfl⟩ : 0 = high ∧ 0 = low := by simpa [place, empty] using placed
      simp [low_part, high_part, empty, Nat.ModEq]
    · rw [place_stops.mpr ⟨by omega, empty⟩] at placed
      cases placed

theorem row_eq (build : Build) (a b : U128) {i j : Nat} (left : i < 4) (right : j < 4) :
    ∃ p : BitVec 64, p.toNat = a.limb i * b.limb j ∧
      row build a.limbs b.limbs i j =
        (place (i + j) p).map fun placed => from_parts placed.1 placed.2 := by
  have small : (a.limbs.getD (3 - i) 0).toNat * (b.limbs.getD (3 - j) 0).toNat < 2 ^ 64 := by
    rw [limbs_getD a left, limbs_getD b right]
    calc a.limb i * b.limb j < 2 ^ 32 * 2 ^ 32 := Nat.mul_lt_mul'' (a.limb_lt i) (b.limb_lt j)
      _ = 2 ^ 64 := by decide
  refine ⟨a.limbs.getD (3 - i) 0 * b.limbs.getD (3 - j) 0, ?_, ?_⟩
  · rw [BitVec.toNat_mul, Nat.mod_eq_of_lt small, limbs_getD a left, limbs_getD b right]
  · rw [row, Build.mul_fits build small]
    simp only [Option.bind_eq_bind, Option.bind_some]
    cases place (i + j) (a.limbs.getD (3 - i) 0 * b.limbs.getD (3 - j) 0) <;> rfl

/-- The panic of the loops: a partial product that lies beyond the 128 bits. -/
theorem row_stops {i j : Nat} (left : i < 4) (right : j < 4) :
    row build a.limbs b.limbs i j = none ↔ 4 ≤ i + j ∧ a.limb i * b.limb j ≠ 0 := by
  obtain ⟨p, product, done⟩ := row_eq build a b left right
  rw [done, Option.map_eq_none_iff, place_stops, ← product]
  exact and_congr_right fun _ => not_congr BitVec.toNat_inj.symm

theorem row_returns {i j : Nat} (left : i < 4) (right : j < 4)
    (returned : row build a.limbs b.limbs i j = some c) :
    c.high.toNat = high_part (i + j) (a.limb i * b.limb j) ∧
      c.low.toNat = low_part (i + j) (a.limb i * b.limb j) ∧
      c.val ≡ a.limb i * b.limb j * 2 ^ (32 * (i + j)) [MOD 2 ^ 128] := by
  obtain ⟨p, product, done⟩ := row_eq build a b left right
  rw [done] at returned
  obtain ⟨⟨high, low⟩, placed, rfl⟩ := Option.map_eq_some_iff.mp returned
  rw [← product]
  exact place_returns placed

/-! Filling the table of rows. -/

section Fill

variable {ι α : Type} {cell : ι → Option α} {cells : List ι} (index : ι → Nat)

theorem fill_returns {value : ι → α} (all : ∀ x ∈ cells, cell x = some (value x)) (table : List α) :
    cells.foldlM (fun table x => do
        let v ← cell x
        return table.set (index x) v) table =
      some (cells.foldl (fun table x => table.set (index x) (value x)) table) := by
  induction cells generalizing table with
  | nil => rfl
  | cons x cells ih =>
    rw [List.foldlM_cons, all x (by simp)]
    exact ih (fun y member => all y (by simp [member])) _

theorem fill_stops (table : List α) (stops : ∃ x ∈ cells, cell x = none) :
    cells.foldlM (fun table x => do
        let v ← cell x
        return table.set (index x) v) table = none := by
  induction cells generalizing table with
  | nil => simp at stops
  | cons x cells ih =>
    rw [List.foldlM_cons]
    cases here : cell x with
    | none => rfl
    | some v =>
      apply ih
      obtain ⟨y, member, stopped⟩ := stops
      cases member with
      | head => simp [here] at stopped
      | tail _ member => exact ⟨y, member, stopped⟩

end Fill

/-- The cells in the order in which their rows are added up. -/
def order : List (Nat × Nat) :=
  (List.range 4).flatMap fun j => (List.range 4).map fun i => (i, j)

theorem cells_small : ∀ x ∈ cells, x.1 < 4 ∧ x.2 < 4 := by decide

theorem order_perm : order.Perm cells := by decide

theorem cells_eq : cells = [(0, 0), (0, 1), (0, 2), (0, 3), (1, 0), (1, 1), (1, 2), (1, 3),
    (2, 0), (2, 1), (2, 2), (2, 3), (3, 0), (3, 1), (3, 2), (3, 3)] := rfl

theorem filled_order (value : Nat × Nat → U128) :
    cells.foldl (fun rows x => rows.set (x.2 * 4 + x.1) (value x)) (List.replicate 16 zero) =
      order.map value := by
  simp [cells_eq, order, List.range_succ, List.replicate_succ]

theorem mul_eq {value : Nat × Nat → U128}
    (all : ∀ x ∈ cells, row build a.limbs b.limbs x.1 x.2 = some (value x)) :
    mul build a b = (order.map value).foldlM (add_ref build) zero := by
  have filled := fill_returns (fun x : Nat × Nat => x.2 * 4 + x.1) all (List.replicate 16 zero)
  rw [filled_order] at filled
  simp only [mul, filled]
  rfl

/-- Some partial product lies beyond the 128 bits. -/
def Crosses (a b : U128) : Prop :=
  ∃ i < 4, ∃ j < 4, 4 ≤ i + j ∧ a.limb i * b.limb j ≠ 0

instance (a b : U128) : Decidable (Crosses a b) :=
  inferInstanceAs (Decidable (∃ i < 4, ∃ j < 4, 4 ≤ i + j ∧ a.limb i * b.limb j ≠ 0))

def column (part : Nat → Nat → Nat) (a b : U128) : Nat :=
  (cells.map fun x => part (x.1 + x.2) (a.limb x.1 * b.limb x.2)).sum

/-- What the low words of the rows add up to, and the high ones. -/
def low_column (a b : U128) : Nat := column low_part a b

def high_column (a b : U128) : Nat := column high_part a b

theorem rows_return (build : Build) (inside : ¬ Crosses a b) : ∃ value : Nat × Nat → U128,
    ∀ x ∈ cells, row build a.limbs b.limbs x.1 x.2 = some (value x) := by
  refine ⟨fun x => (row build a.limbs b.limbs x.1 x.2).getD zero, fun x member => ?_⟩
  obtain ⟨left, right⟩ := cells_small x member
  cases done : row build a.limbs b.limbs x.1 x.2 with
  | none =>
    obtain ⟨outside, positive⟩ := (row_stops left right).mp done
    exact absurd ⟨x.1, left, x.2, right, outside, positive⟩ inside
  | some value => simp [done]

theorem crossing_stops (build : Build) (crosses : Crosses a b) : mul build a b = none := by
  obtain ⟨i, left, j, right, outside, positive⟩ := crosses
  have member : (i, j) ∈ cells := by
    simp only [cells, List.mem_flatMap, List.mem_map, List.mem_range]
    exact ⟨i, left, j, right, rfl⟩
  have some_stops : ∃ x ∈ cells, row build a.limbs b.limbs x.1 x.2 = none :=
    ⟨(i, j), member, (row_stops left right).mpr ⟨outside, positive⟩⟩
  have stopped := fill_stops (fun x : Nat × Nat => x.2 * 4 + x.1) (List.replicate 16 zero) some_stops
  simp only [mul, stopped]
  rfl

/-- A row sum in the order of addition is one over all cells. -/
theorem sum_order (f : Nat × Nat → Nat) : (order.map f).sum = (cells.map f).sum :=
  (order_perm.map f).sum_eq

theorem columns {value : Nat × Nat → U128}
    (all : ∀ x ∈ cells, row build a.limbs b.limbs x.1 x.2 = some (value x)) :
    ((order.map value).map fun r => r.low.toNat).sum = low_column a b ∧
      ((order.map value).map fun r => r.high.toNat).sum = high_column a b := by
  have parts (x) (member : x ∈ cells) :=
    row_returns (cells_small x member).1 (cells_small x member).2 (all x member)
  rw [List.map_map, sum_order, List.map_map, sum_order]
  constructor
  · exact congrArg List.sum (List.map_congr_left fun x member => (parts x member).2.1)
  · exact congrArg List.sum (List.map_congr_left fun x member => (parts x member).1)

theorem mul_stops : mul build a b = none ↔ Crosses a b ∨ build = .debug ∧
    (2 ^ 64 ≤ low_column a b ∨ 2 ^ 64 ≤ high_column a b) := by
  by_cases crosses : Crosses a b
  · exact iff_of_true (crossing_stops build crosses) (.inl crosses)
  · obtain ⟨value, all⟩ := rows_return build crosses
    obtain ⟨low, high⟩ := columns all
    rw [mul_eq all, fold_stops, low, high]
    simp [crosses, zero, from_parts]

/-- A product that comes back has no partial product beyond the 128 bits. -/
theorem mul_inside (returned : mul build a b = some c) : ¬ Crosses a b := by
  intro crosses
  rw [crossing_stops build crosses] at returned
  cases returned

theorem mul_debug (returned : mul .debug a b = some c) :
    c.low.toNat = low_column a b ∧ c.high.toNat = high_column a b := by
  obtain ⟨value, all⟩ := rows_return .debug (mul_inside returned)
  rw [mul_eq all] at returned
  have sums := fold_debug returned
  rw [(columns all).1, (columns all).2] at sums
  simpa [zero, from_parts] using sums

/-- The schoolbook product of two numbers of four digits each. -/
theorem schoolbook (base : Nat) (f g : Nat → Nat) :
    (cells.map fun x => f x.1 * g x.2 * base ^ (x.1 + x.2)).sum =
      (f 0 + f 1 * base + f 2 * base ^ 2 + f 3 * base ^ 3) *
        (g 0 + g 1 * base + g 2 * base ^ 2 + g 3 * base ^ 3) := by
  simp only [cells_eq, List.map_cons, List.map_nil, List.sum_cons, List.sum_nil]
  ring

theorem products_sum (a b : U128) :
    (cells.map fun x => a.limb x.1 * b.limb x.2 * 2 ^ (32 * (x.1 + x.2))).sum = a.val * b.val := by
  rw [val_eq_limbs a, val_eq_limbs b]
  simp only [pow_mul]
  exact schoolbook (2 ^ 32) a.limb b.limb

/-- Products are exact up to what does not fit the two words. -/
theorem mul_returns (returned : mul build a b = some c) : c.val = a.val * b.val % 2 ^ 128 := by
  obtain ⟨value, all⟩ := rows_return build (mul_inside returned)
  rw [mul_eq all] at returned
  rw [fold_returns returned, val_zero, Nat.zero_add, List.map_map, sum_order, ← products_sum]
  apply Nat.ModEq.listSum_map
  intro x member
  exact (row_returns (cells_small x member).1 (cells_small x member).2 (all x member)).2.2

theorem crosses_large (crosses : Crosses a b) : 2 ^ 128 ≤ a.val * b.val := by
  obtain ⟨i, _, j, _, outside, positive⟩ := crosses
  have lower (n : U128) (k : Nat) : n.limb k * 2 ^ (32 * k) ≤ n.val := by
    calc n.limb k * 2 ^ (32 * k) ≤ n.val / 2 ^ (32 * k) * 2 ^ (32 * k) :=
          Nat.mul_le_mul_right _ (Nat.mod_le _ _)
      _ ≤ n.val := Nat.div_mul_le_self _ _
  calc 2 ^ 128 ≤ 2 ^ (32 * (i + j)) := Nat.pow_le_pow_right (by decide) (by omega)
    _ ≤ a.limb i * b.limb j * 2 ^ (32 * (i + j)) :=
      Nat.le_mul_of_pos_left _ (Nat.pos_of_ne_zero positive)
    _ = a.limb i * 2 ^ (32 * i) * (b.limb j * 2 ^ (32 * j)) := by ring
    _ ≤ a.val * b.val := Nat.mul_le_mul (lower a i) (lower b j)

theorem mul_release (inside : ¬ Crosses a b) : mul .release a b ≠ none := by
  intro stops
  obtain crosses | ⟨debug, _⟩ := mul_stops.mp stops
  · exact inside crosses
  · cases debug

/-- Sums and products that fit the 128 bits are computed exactly by a release build. -/
theorem release_exact (a b : U128) :
    (a.val + b.val < 2 ^ 128 →
      (∃ c, add .release a b = some c ∧ c.val = a.val + b.val) ∧
      ∃ c, add_ref .release a b = some c ∧ c.val = a.val + b.val) ∧
    (a.val * b.val < 2 ^ 128 → ∃ c, mul .release a b = some c ∧ c.val = a.val * b.val) := by
  constructor
  · intro fits
    obtain ⟨c, returned⟩ := Option.ne_none_iff_exists'.mp (add_release (a := a) (b := b))
    have sum : c.val = a.val + b.val := by rw [add_returns returned, Nat.mod_eq_of_lt fits]
    exact ⟨⟨c, returned, sum⟩, c, returned, sum⟩
  · intro fits
    have inside : ¬ Crosses a b := fun crosses => Nat.not_le.mpr fits (crosses_large crosses)
    obtain ⟨c, returned⟩ := Option.ne_none_iff_exists'.mp (mul_release inside)
    exact ⟨c, returned, by rw [mul_returns returned, Nat.mod_eq_of_lt fits]⟩

theorem release_exact_at_carry :
    (∃ c, add .release ⟨1, 0xffffffffffffffff⟩ ⟨2, 0xffffffffffffffff⟩ = some c ∧
      c.val = (from_parts 1 0xffffffffffffffff).val + (from_parts 2 0xffffffffffffffff).val) ∧
    ∃ c, mul .release ⟨0, 0xffffffffffffffff⟩ ⟨0, 0xffffffffffffffff⟩ = some c ∧
      c.val = (from_parts 0 0xffffffffffffffff).val * (from_parts 0 0xffffffffffffffff).val :=
  ⟨((release_exact ⟨1, 0xffffffffffffffff⟩ ⟨2, 0xffffffffffffffff⟩).1 (by decide)).1,
    (release_exact ⟨0, 0xffffffffffffffff⟩ ⟨0, 0xffffffffffffffff⟩).2 (by decide)⟩

/-- A sum that does not fit is noticed by the checks of a debug build only. -/
theorem add_wraps (build : Build) (large : 2 ^ 128 ≤ a.val + b.val) :
    add build a b = none ↔ build = .debug := by
  rw [add_stops, and_iff_left_iff_imp]
  intro _
  have ha := a.low.isLt
  have hb := b.low.isLt
  unfold val at large
  omega

end ConnectScrobbler.U128
