import ConnectScrobbler.Lib.Overflow

/-! The sequence numbers of `core/src/util/mod.rs`. -/
namespace ConnectScrobbler

/-- `impl_seq!`: the next number, or the panic of a debug build at the last one. -/
def Seq.next {w : Nat} (build : Build) (n : BitVec w) : Option (BitVec w) :=
  build.add n 1

structure SeqGenerator (w : Nat) where
  value : BitVec w
  deriving DecidableEq, Repr

namespace SeqGenerator

variable {w : Nat}

def new (value : BitVec w) : SeqGenerator w := ⟨value⟩

def get (build : Build) (s : SeqGenerator w) : Option (BitVec w × SeqGenerator w) := do
  let value ← Seq.next build s.value
  return (s.value, ⟨value⟩)

theorem get_counts (wide : 0 < w) {build : Build} {n : Nat} {v : BitVec w} {s : SeqGenerator w}
    (returned : get build ⟨BitVec.ofNat w n⟩ = some (v, s)) :
    v = BitVec.ofNat w n ∧ s = ⟨BitVec.ofNat w (n + 1)⟩ ∧
      (build = .debug → n < 2 ^ w → n + 1 < 2 ^ w) := by
  obtain ⟨value, next, done⟩ := Option.bind_eq_some_iff.mp returned
  cases done
  obtain ⟨rfl, fits⟩ := Build.add_returns next
  refine ⟨rfl, by simp [BitVec.ofNat_add], fun debug small => ?_⟩
  have sum := fits debug
  rw [BitVec.toNat_ofNat, Nat.mod_eq_of_lt small] at sum
  have one : (1 : BitVec w).toNat = 1 := Nat.mod_eq_of_lt (Nat.one_lt_two_pow (by omega))
  rwa [one] at sum

/-- Numbers count up while there is a next one. -/
theorem get_next (build : Build) {n : Nat} (few : n + 1 < 2 ^ w) :
    get build ⟨BitVec.ofNat w n⟩ = some (BitVec.ofNat w n, ⟨BitVec.ofNat w (n + 1)⟩) := by
  have wide : 0 < w := by
    rcases Nat.eq_zero_or_pos w with rfl | wide
    · omega
    · exact wide
  have one : (1 : BitVec w).toNat = 1 := Nat.mod_eq_of_lt (Nat.one_lt_two_pow (by omega))
  have fits : (BitVec.ofNat w n).toNat + (1 : BitVec w).toNat < 2 ^ w := by
    rw [BitVec.toNat_ofNat, Nat.mod_eq_of_lt (by omega), one]
    exact few
  have sum : BitVec.ofNat w n + 1 = BitVec.ofNat w (n + 1) := by simp [BitVec.ofNat_add]
  rw [get, Seq.next, Build.add_fits build fits, sum]
  rfl

end SeqGenerator

end ConnectScrobbler
