import Mathlib.Algebra.Order.Ring.Nat
import Mathlib.Data.List.Induction
import Mathlib.Tactic.Ring

/-! Byte strings: big-endian numbers of a fixed width, and reading from the front. -/

abbrev Bytes := List UInt8

namespace Bytes

/-- The lowest `width` bytes of a number, most significant first. -/
def be : (width : Nat) → Nat → Bytes
  | 0, _ => []
  | width + 1, n => be width (n / 256) ++ [UInt8.ofNat n]

def read_be (bytes : Bytes) : Nat :=
  bytes.foldl (fun n byte => 256 * n + byte.toNat) 0

@[simp] theorem length_be (width n : Nat) : (be width n).length = width := by
  induction width generalizing n with
  | zero => rfl
  | succ width ih => rw [be, List.length_append, ih]; rfl

theorem read_be_snoc (bytes : Bytes) (byte : UInt8) :
    read_be (bytes ++ [byte]) = 256 * read_be bytes + byte.toNat := by
  rw [read_be, List.foldl_append]
  rfl

theorem read_be_append (front bytes : Bytes) :
    read_be (front ++ bytes) = read_be front * 256 ^ bytes.length + read_be bytes := by
  induction bytes using List.reverseRecOn with
  | nil => rw [List.append_nil, List.length_nil, pow_zero, Nat.mul_one]; rfl
  | append_singleton bytes byte ih =>
    rw [← List.append_assoc, read_be_snoc, ih, read_be_snoc, List.length_append, List.length_singleton]
    ring

theorem read_be_be (width n : Nat) : read_be (be width n) = n % 256 ^ width := by
  induction width generalizing n with
  | zero => rw [pow_zero, Nat.mod_one]; rfl
  | succ width ih =>
    rw [be, read_be_snoc, ih, pow_succ', Nat.mod_mul]
    have last : (UInt8.ofNat n).toNat = n % 256 := UInt8.toNat_ofNat'
    omega

theorem read_be_be_of_lt {width n : Nat} (fits : n < 256 ^ width) : read_be (be width n) = n := by
  rw [read_be_be, Nat.mod_eq_of_lt fits]

theorem be_read_be (bytes : Bytes) : be bytes.length (read_be bytes) = bytes := by
  induction bytes using List.reverseRecOn with
  | nil => rfl
  | append_singleton bytes byte ih =>
    have small : byte.toNat < 256 := byte.toNat_lt
    have rest : (256 * read_be bytes + byte.toNat) / 256 = read_be bytes := by omega
    have last : UInt8.ofNat (256 * read_be bytes + byte.toNat) = byte := by
      apply UInt8.toNat_inj.mp
      rw [UInt8.toNat_ofNat']
      omega
    rw [List.length_append, List.length_singleton, read_be_snoc, be, rest, ih, last]

theorem read_be_lt (bytes : Bytes) : read_be bytes < 256 ^ bytes.length := by
  have back := read_be_be bytes.length (read_be bytes)
  rw [be_read_be] at back
  rw [back]
  exact Nat.mod_lt _ (Nat.pow_pos (by decide))

theorem be_mod (width n : Nat) : be width (n % 256 ^ width) = be width n := by
  have back := be_read_be (be width n)
  rw [read_be_be, length_be] at back
  exact back

theorem be_inj {width m n : Nat} (hm : m < 256 ^ width) (hn : n < 256 ^ width) :
    be width m = be width n ↔ m = n := by
  refine ⟨fun same => ?_, congrArg _⟩
  rw [← read_be_be_of_lt hm, same, read_be_be_of_lt hn]

/-- Split off the first bytes; nothing if there are too few. -/
def drain_to (at_ : Nat) (data : Bytes) : Option (Bytes × Bytes) :=
  if at_ ≤ data.length then some (data.take at_, data.drop at_) else none

theorem drain_to_append {front : Bytes} {at_ : Nat} (length : front.length = at_) (rest : Bytes) :
    drain_to at_ (front ++ rest) = some (front, rest) := by
  subst length
  simp [drain_to]

theorem drain_to_there {at_ : Nat} {data : Bytes} (there : at_ ≤ data.length) :
    drain_to at_ data = some (data.take at_, data.drop at_) :=
  if_pos there

theorem length_of_drain_to {at_ : Nat} {data front rest : Bytes}
    (drained : drain_to at_ data = some (front, rest)) : front.length = at_ := by
  unfold drain_to at drained
  split at drained
  · cases drained
    simp [*]
  · cases drained

theorem length_drain_to {at_ : Nat} {data front rest : Bytes}
    (drained : drain_to at_ data = some (front, rest)) : data.length = at_ + rest.length := by
  unfold drain_to at drained
  split at drained
  · cases drained
    rw [List.length_drop]
    omega
  · cases drained

/-! Fields as protobuf writes them. -/

/-- A number in groups of seven bits, the lowest first. -/
def varint : (left : Nat) → Nat → Bytes
  | 0, _ => []
  | left + 1, n =>
    if n < 128 then [UInt8.ofNat n] else UInt8.ofNat (n % 128 + 128) :: varint left (n / 128)

def varint_field (number n : Nat) : Bytes := varint 10 (8 * number) ++ varint 10 n

def bytes_field (number : Nat) (data : Bytes) : Bytes :=
  varint 10 (8 * number + 2) ++ varint 10 data.length ++ data

end Bytes
