import Mathlib.Algebra.Ring.Parity
import Mathlib.Data.Nat.ModEq

/-! Modular powers of `core/src/util/mod.rs`. -/
namespace ConnectScrobbler

/-- The loop of `powm`: square and multiply. -/
def powm_loop (modulus base exp result : Nat) : Nat :=
  if exp = 0 then result
  else
    let result := if exp % 2 = 1 then result * base % modulus else result
    powm_loop modulus (base * base % modulus) (exp / 2) result
termination_by exp

def powm (base exp modulus : Nat) : Nat :=
  powm_loop modulus base exp 1

theorem square_powers {modulus base half : Nat} :
    (base * base % modulus) ^ half ≡ base ^ (2 * half) [MOD modulus] := by
  rw [pow_mul, pow_two]
  exact (Nat.mod_modEq _ _).pow half

/-- What the loop has still to multiply in is kept in its base and exponent. -/
theorem powm_loop_modEq (modulus base exp result : Nat) :
    powm_loop modulus base exp result ≡ result * base ^ exp [MOD modulus] := by
  induction base, exp, result using powm_loop.induct modulus with
  | case1 base result =>
    rw [powm_loop, if_pos rfl, pow_zero, mul_one]
  | case2 base exp result left next ih =>
    rw [powm_loop, if_neg left]
    refine ih.trans ?_
    simp only [next]
    split
    · rename_i odd
      have whole : exp = 2 * (exp / 2) + 1 := by omega
      have rest : result * base * base ^ (2 * (exp / 2)) = result * base ^ exp := by
        rw [mul_assoc, ← pow_succ', ← whole]
      rw [← rest]
      exact (Nat.mod_modEq _ _).mul square_powers
    · have whole : exp = 2 * (exp / 2) := by omega
      rw [whole, Nat.mul_div_cancel_left _ (by decide)]
      exact square_powers.mul_left result

theorem powm_loop_lt {modulus : Nat} (base exp : Nat) {result : Nat} (below : result < modulus) :
    powm_loop modulus base exp result < modulus := by
  induction base, exp, result using powm_loop.induct modulus with
  | case1 base result =>
    rw [powm_loop, if_pos rfl]
    exact below
  | case2 base exp result left next ih =>
    rw [powm_loop, if_neg left]
    apply ih
    simp only [next]
    split
    · exact Nat.mod_lt _ (by omega)
    · exact below

theorem powm_lt {modulus : Nat} (wide : 2 ≤ modulus) (base exp : Nat) :
    powm base exp modulus < modulus :=
  powm_loop_lt base exp (Nat.lt_of_lt_of_le (by decide) wide)

theorem powm_eq {modulus : Nat} (wide : 2 ≤ modulus) (base exp : Nat) :
    powm base exp modulus = base ^ exp % modulus := by
  have below := powm_lt wide base exp
  have same := powm_loop_modEq modulus base exp 1
  rw [one_mul] at same
  rw [← Nat.mod_eq_of_lt below]
  exact same

/-- The loop ends for every exponent, with the reduced power. -/
theorem powm_reduced_power {modulus : Nat} (wide : 2 ≤ modulus) (base exp : Nat) :
    powm base exp modulus = base ^ exp % modulus ∧ powm base exp modulus < modulus :=
  ⟨powm_eq wide base exp, powm_lt wide base exp⟩

theorem powm_reduced_power_ten : powm 10 5 7 = 10 ^ 5 % 7 ∧ powm 10 5 7 < 7 :=
  powm_reduced_power (by decide) 10 5

end ConnectScrobbler
