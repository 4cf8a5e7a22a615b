import ConnectScrobbler.Lib.Chain
import ConnectScrobbler.Lib.Sha1

/-! Keys derived from a password: a keyed hash is applied to its own result, over and over. -/
namespace Sha1

/-- What is left to be combined with `sum`, from the hash `u` on. -/
def pbkdf2_turns (secret : Bytes) : (left : Nat) → (u sum : Bytes) → Bytes
  | 0, _, sum => sum
  | left + 1, u, sum =>
    let next := hmac secret u
    pbkdf2_turns secret left next (Chain.xor sum next)

def pbkdf2_block (secret salt : Bytes) (iterations i : Nat) : Bytes :=
  let first := hmac secret (salt ++ Bytes.be 4 i)
  pbkdf2_turns secret (iterations - 1) first first

def pbkdf2 (secret salt : Bytes) (iterations size : Nat) : Bytes :=
  ((List.range (size / 20 + 1)).flatMap fun i => pbkdf2_block secret salt iterations (i + 1)).take size

theorem length_pbkdf2_turns (secret : Bytes) {left : Nat} {u sum : Bytes} (sized : sum.length = 20) :
    (pbkdf2_turns secret left u sum).length = 20 := by
  induction left generalizing u sum with
  | zero => exact sized
  | succ left ih =>
    apply ih
    rw [Chain.length_xor, sized, length_hmac, Nat.min_self]

theorem length_pbkdf2 (secret salt : Bytes) (iterations size : Nat) :
    (pbkdf2 secret salt iterations size).length = size := by
  have block : ∀ i, (pbkdf2_block secret salt iterations i).length = 20 := by
    intro i
    exact length_pbkdf2_turns secret (length_hmac _ _)
  have blocks : ∀ n, ((List.range n).flatMap fun i =>
      pbkdf2_block secret salt iterations (i + 1)).length = 20 * n := by
    intro n
    induction n with
    | zero => rfl
    | succ n ih =>
      rw [List.range_succ, List.flatMap_append, List.length_append, ih, List.flatMap_singleton, block]
      rfl
  rw [pbkdf2, List.length_take, blocks]
  omega

end Sha1
