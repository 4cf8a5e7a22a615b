import Mathlib.Algebra.Order.Ring.Nat
import Mathlib.Data.List.Induction
import Mathlib.Tactic.Ring

/-! Numerals in any base, the most significant digit first. -/
namespace Digits

variable {base : Nat}

def read (base : Nat) (digits : List Nat) : Nat :=
  digits.foldl (fun n d => n * base + d) 0

/-- The lowest `width` digits of a number. -/
def write (base width n : Nat) : List Nat :=
  (List.range width).reverse.map fun i => n / base ^ i % base

@[simp] theorem length_write (base width n : Nat) : (write base width n).length = width := by
  simp [write]

theorem read_snoc (base : Nat) (digits : List Nat) (d : Nat) :
    read base (digits ++ [d]) = read base digits * base + d := by
  rw [read, List.foldl_append]
  rfl

theorem write_succ (base width n : Nat) :
    write base (width + 1) n = write base width (n / base) ++ [n % base] := by
  simp only [write, List.range_succ_eq_map, List.reverse_cons, List.map_append, List.map_cons,
    List.map_nil, pow_zero, Nat.div_one]
  rw [← List.map_reverse, List.map_map]
  simp [Function.comp_def, pow_succ', Nat.div_div_eq_div_mul]

theorem read_write (base width n : Nat) : read base (write base width n) = n % base ^ width := by
  induction width generalizing n with
  | zero => simp [read, write, Nat.mod_one]
  | succ width ih =>
    rw [write_succ, read_snoc, ih, pow_succ', Nat.mod_mul]
    ring

theorem write_digit_lt (positive : 0 < base) (width n : Nat) : ∀ d ∈ write base width n, d < base := by
  intro d member
  obtain ⟨i, _, rfl⟩ := List.mem_map.mp member
  exact Nat.mod_lt _ positive

theorem write_read {digits : List Nat} (small : ∀ d ∈ digits, d < base) :
    write base digits.length (read base digits) = digits := by
  induction digits using List.reverseRecOn with
  | nil => rfl
  | append_singleton digits d ih =>
    have last : d < base := small d (by simp)
    have rest : (read base digits * base + d) / base = read base digits := by
      rw [Nat.mul_comm, Nat.mul_add_div (by omega), Nat.div_eq_of_lt last, Nat.add_zero]
    have lowest : (read base digits * base + d) % base = d := by
      rw [Nat.add_comm, Nat.add_mul_mod_self_right, Nat.mod_eq_of_lt last]
    rw [List.length_append, List.length_singleton, read_snoc, write_succ, rest, lowest,
      ih fun e member => small e (List.mem_append_left _ member)]

theorem read_lt {digits : List Nat} (small : ∀ d ∈ digits, d < base) :
    read base digits < base ^ digits.length := by
  cases digits with
  | nil => simp [read]
  | cons d rest =>
    have positive : 0 < base := Nat.zero_lt_of_lt (small d (by simp))
    rw [← write_read small, read_write, length_write]
    exact Nat.mod_lt _ (Nat.pow_pos positive)

theorem read_front_le (positive : 0 < base) {front digits : List Nat} (part : front <+: digits) :
    read base front ≤ read base digits := by
  induction digits using List.reverseRecOn with
  | nil => rw [List.prefix_nil.mp part]
  | append_singleton digits d ih =>
    obtain rfl | shorter := List.prefix_concat_iff.mp part
    · exact le_rfl
    · calc read base front ≤ read base digits := ih shorter
        _ ≤ read base digits * base := Nat.le_mul_of_pos_right _ positive
        _ ≤ read base (digits ++ [d]) := by
          rw [read_snoc]
          exact Nat.le_add_right _ _

theorem write_append (base width low n : Nat) :
    write base (width + low) n = write base width (n / base ^ low) ++ write base low n := by
  induction low generalizing n with
  | zero => simp [write]
  | succ low ih =>
    rw [← Nat.add_assoc, write_succ, ih, write_succ, Nat.div_div_eq_div_mul, ← pow_succ',
      List.append_assoc]

theorem write_mod (base width n : Nat) : write base width (n % base ^ width) = write base width n := by
  induction width generalizing n with
  | zero => rfl
  | succ width ih =>
    rw [write_succ, write_succ, pow_succ', Nat.mod_mul_right_div_self, ih, Nat.mod_mul_right_mod]

end Digits
