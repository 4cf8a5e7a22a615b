import Mathlib.Data.BitVec

/-! Machine arithmetic: a debug build stops at an overflow, a release build wraps around. -/

inductive Build where
  | debug | release
  deriving DecidableEq, Repr

namespace Build

variable {w : Nat}

def add (build : Build) (a b : BitVec w) : Option (BitVec w) :=
  if build = .debug ∧ 2 ^ w ≤ a.toNat + b.toNat then none else some (a + b)

def sub (build : Build) (a b : BitVec w) : Option (BitVec w) :=
  if build = .debug ∧ a.toNat < b.toNat then none else some (a - b)

def mul (build : Build) (a b : BitVec w) : Option (BitVec w) :=
  if build = .debug ∧ 2 ^ w ≤ a.toNat * b.toNat then none else some (a * b)

theorem add_returns {build : Build} {a b c : BitVec w} (returned : build.add a b = some c) :
    c = a + b ∧ (build = .debug → a.toNat + b.toNat < 2 ^ w) := by
  unfold add at returned
  split at returned
  · cases returned
  · rename_i fits
    cases returned
    exact ⟨rfl, fun debug => Nat.lt_of_not_le fun wraps => fits ⟨debug, wraps⟩⟩

theorem add_stops {build : Build} {a b : BitVec w} :
    build.add a b = none ↔ build = .debug ∧ 2 ^ w ≤ a.toNat + b.toNat := by
  unfold add
  split <;> simp [*]

theorem add_fits (build : Build) {a b : BitVec w} (fits : a.toNat + b.toNat < 2 ^ w) :
    build.add a b = some (a + b) :=
  if_neg fun wraps => Nat.not_le.mpr fits wraps.2

theorem sub_fits (build : Build) {a b : BitVec w} (fits : b.toNat ≤ a.toNat) :
    build.sub a b = some (a - b) :=
  if_neg fun wraps => Nat.not_lt.mpr fits wraps.2

theorem mul_fits (build : Build) {a b : BitVec w} (fits : a.toNat * b.toNat < 2 ^ w) :
    build.mul a b = some (a * b) :=
  if_neg fun wraps => Nat.not_le.mpr fits wraps.2

end Build

/-- A sum is below its first number just when it has wrapped around. -/
theorem BitVec.add_lt_left_iff {w : Nat} {a b : BitVec w} :
    a + b < a ↔ 2 ^ w ≤ a.toNat + b.toNat := by
  have ha := a.isLt
  have hb := b.isLt
  rw [BitVec.lt_def, BitVec.toNat_add]
  constructor
  · intro below
    by_contra fits
    rw [Nat.mod_eq_of_lt (by omega)] at below
    omega
  · intro wraps
    rw [Nat.mod_eq_sub_mod wraps, Nat.mod_eq_of_lt (by omega)]
    omega
