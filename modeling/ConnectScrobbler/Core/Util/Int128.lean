import ConnectScrobbler.Lib.Overflow
import Mathlib.Data.Nat.ModEq
import Mathlib.Tactic.IntervalCases
import Mathlib.Tactic.Ring

/-! The 128-bit number of `util::int128` in its two 64-bit words. Checked arithmetic stops in a
debug build and wraps around in a release build. -/
namespace ConnectScrobbler

structure U128 where
  high : BitVec 64
  low : BitVec 64
  deriving DecidableEq, Repr

namespace U128

def from_parts (high low : BitVec 64) : U128 := ⟨high, low⟩

def parts (n : U128) : BitVec 64 × BitVec 64 := (n.high, n.low)

def zero : U128 := from_parts 0 0

/-- `From<u8>`. -/
def of_u8 (n : UInt8) : U128 := from_parts 0 (BitVec.ofNat 64 n.toNat)

/-- `Add<u128>`. -/
def add (build : Build) (self rhs : U128) : Option U128 := do
  let low ← build.add self.low rhs.low
  let high ← build.add self.high rhs.high
  let high ← build.add high (if low < self.low then 1 else 0)
  return from_parts high low

/-- `Add<&u128>`, with the same body. -/
def add_ref (build : Build) (self rhs : U128) : Option U128 := add build self rhs

def limbs (n : U128) : List (BitVec 64) :=
  [n.high >>> 32, n.high &&& 0xFFFFFFFF, n.low >>> 32, n.low &&& 0xFFFFFFFF]

/-- Where a partial product belongs: its high and its low word, or the panic of `Mul`. -/
def place (shift : Nat) (product : BitVec 64) : Option (BitVec 64 × BitVec 64) :=
  match shift with
  | 0 => some (0, product)
  | 1 => some (product >>> 32, product <<< 32)
  | 2 => some (product, 0)
  | 3 => some (product <<< 32, 0)
  | _ => if product = 0 then some (0, 0) else none

/-- The body of the loops of `Mul`. -/
def row (build : Build) (top bottom : List (BitVec 64)) (i j : Nat) : Option U128 := do
  let shift := i + j
  let product ← build.mul (top.getD (3 - i) 0) (bottom.getD (3 - j) 0)
  let (high, low) ← place shift product
  return from_parts high low

def cells : List (Nat × Nat) :=
  (List.range 4).flatMap fun i => (List.range 4).map fun j => (i, j)

def mul (build : Build) (self rhs : U128) : Option U128 := do
  let top := self.limbs
  let bottom := rhs.limbs
  let rows ← cells.foldlM (fun rows (i, j) => do
    let row ← row build top bottom i j
    return rows.set (j * 4 + i) row) (List.replicate 16 zero)
  rows.foldlM (add_ref build) zero

def val (n : U128) : Nat := n.high.toNat * 2 ^ 64 + n.low.toNat

theorem val_lt (n : U128) : n.val < 2 ^ 128 := by
  have high := n.high.isLt
  have low := n.low.isLt
  unfold val
  omega

theorem val_high (n : U128) : n.val / 2 ^ 64 = n.high.toNat := by
  have low := n.low.isLt
  unfold val
  omega

theorem val_low (n : U128) : n.val % 2 ^ 64 = n.low.toNat := by
  have low := n.low.isLt
  unfold val
  omega

theorem val_inj {m n : U128} : m.val = n.val ↔ m = n := by
  refine ⟨fun same => ?_, congrArg val⟩
  have high : m.high = n.high := BitVec.eq_of_toNat_eq (by rw [← val_high, same, val_high])
  have low : m.low = n.low := BitVec.eq_of_toNat_eq (by rw [← val_low, same, val_low])
  cases m
  cases n
  rw [U128.mk.injEq]
  exact ⟨high, low⟩

@[simp] theorem val_from_parts (high low : BitVec 64) :
    (from_parts high low).val = high.toNat * 2 ^ 64 + low.toNat := rfl

@[simp] theorem val_zero : zero.val = 0 := rfl

@[simp] theorem val_of_u8 (n : UInt8) : (of_u8 n).val = n.toNat := by
  simp [of_u8]

variable {build : Build} {a b c : U128}

/-- Sums are exact up to what does not fit the two words. -/
theorem add_returns (returned : add build a b = some c) : c.val = (a.val + b.val) % 2 ^ 128 := by
  obtain ⟨low, lows, returned⟩ := Option.bind_eq_some_iff.mp returned
  obtain ⟨high, highs, returned⟩ := Option.bind_eq_some_iff.mp returned
  obtain ⟨carried, carries, done⟩ := Option.bind_eq_some_iff.mp returned
  cases done
  obtain ⟨rfl, _⟩ := Build.add_returns lows
  obtain ⟨rfl, _⟩ := Build.add_returns highs
  obtain ⟨rfl, _⟩ := Build.add_returns carries
  have ha := a.low.isLt
  have hb := b.low.isLt
  simp only [val, from_parts, BitVec.toNat_add, BitVec.add_lt_left_iff]
  split
  · have one : (1 : BitVec 64).toNat = 1 := rfl
    omega
  · have none : (0 : BitVec 64).toNat = 0 := rfl
    omega

/-- No carry reaches the high word in a build that checks: the low words fit already. -/
theorem add_stops : add build a b = none ↔ build = .debug ∧
    (2 ^ 64 ≤ a.low.toNat + b.low.toNat ∨ 2 ^ 64 ≤ a.high.toNat + b.high.toNat) := by
  cases lows : build.add a.low b.low with
  | none =>
    obtain ⟨debug, wraps⟩ := Build.add_stops.mp lows
    exact iff_of_true (by rw [add, lows]; rfl) ⟨debug, .inl wraps⟩
  | some low =>
    obtain ⟨rfl, low_fits⟩ := Build.add_returns lows
    cases highs : build.add a.high b.high with
    | none =>
      obtain ⟨debug, wraps⟩ := Build.add_stops.mp highs
      exact iff_of_true (by rw [add, lows, highs]; rfl) ⟨debug, .inr wraps⟩
    | some high =>
      obtain ⟨rfl, high_fits⟩ := Build.add_returns highs
      have carries : build.add (a.high + b.high) (if a.low + b.low < a.low then 1 else 0) ≠ none := by
        intro stops
        obtain ⟨debug, wraps⟩ := Build.add_stops.mp stops
        have no_carry : ¬ a.low + b.low < a.low := by
          rw [BitVec.add_lt_left_iff]
          have := low_fits debug
          omega
        have sum := (a.high + b.high).isLt
        rw [if_neg no_carry] at wraps
        exact absurd wraps (by simpa using sum)
      obtain ⟨high, carried⟩ := Option.ne_none_iff_exists'.mp carries
      simp only [add, lows, highs, carried, Option.bind_eq_bind, Option.bind_some]
      constructor
      · intro stops
        cases stops
      · rintro ⟨debug, wraps⟩
        have := low_fits debug
        have := high_fits debug
        omega

/-- In a build that checks, words are added each for itself. -/
theorem add_debug (returned : add .debug a b = some c) :
    c.low.toNat = a.low.toNat + b.low.toNat ∧ c.high.toNat = a.high.toNat + b.high.toNat := by
  have fits : ¬ (2 ^ 64 ≤ a.low.toNat + b.low.toNat ∨ 2 ^ 64 ≤ a.high.toNat + b.high.toNat) := by
    intro wraps
    have stops := add_stops.mpr ⟨rfl, wraps⟩
    rw [returned] at stops
    cases stops
  have sum := add_returns returned
  have ha := a.low.isLt
  have hb := b.low.isLt
  have hc := c.low.isLt
  unfold val at sum
  omega

theorem add_release : add .release a b ≠ none := by
  intro stops
  cases (add_stops.mp stops).1

end U128

end ConnectScrobbler
