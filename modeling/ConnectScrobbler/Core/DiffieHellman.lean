import ConnectScrobbler.Core.Util.Powm
import ConnectScrobbler.Lib.Bytes
import Mathlib.Data.Nat.Digits.Defs

/-! The keys of `core/src/diffie_hellman.rs`. -/
namespace ConnectScrobbler

def DH_GENERATOR : Nat := 0x2

def DH_PRIME : Nat :=
  0xffffffffffffffffc90fdaa22168c234c4c6628b80dc1cd129024e088a67cc74020bbea63b139b22514a08798e3404ddef9519b3cd3a431b302b0a6df25f14374fe1356d6d51c245e485b576625e7ec6f44c42e9a63a3620ffffffffffffffff

/-- `BigUint::to_bytes_be`: no leading zeros, but for the number zero. -/
def to_bytes_be (n : Nat) : Bytes :=
  if n = 0 then [0] else ((Nat.digits 256 n).map UInt8.ofNat).reverse

structure DHLocalKeys where
  private_key : Nat
  public_key : Nat
  deriving DecidableEq, Repr

namespace DHLocalKeys

/-- The keys that 95 random bytes make. -/
def random (key_data : Bytes) : DHLocalKeys :=
  let private_key := Bytes.read_be key_data
  { private_key, public_key := powm DH_GENERATOR private_key DH_PRIME }

def public_key_bytes (keys : DHLocalKeys) : Bytes :=
  to_bytes_be keys.public_key

def shared_secret (keys : DHLocalKeys) (remote_key : Bytes) : Bytes :=
  to_bytes_be (powm (Bytes.read_be remote_key) keys.private_key DH_PRIME)

end DHLocalKeys

theorem read_be_eq_ofDigits (bytes : Bytes) :
    Bytes.read_be bytes = Nat.ofDigits 256 (bytes.reverse.map UInt8.toNat) := by
  induction bytes using List.reverseRecOn with
  | nil => rfl
  | append_singleton bytes byte ih =>
    rw [Bytes.read_be_snoc, List.reverse_append, List.reverse_singleton, List.singleton_append,
      List.map_cons, Nat.ofDigits_cons, ih]
    omega

/-- `BigUint::from_bytes_be` takes back what `to_bytes_be` gives. -/
theorem read_be_to_bytes_be (n : Nat) : Bytes.read_be (to_bytes_be n) = n := by
  by_cases zero : n = 0
  · rw [zero]
    rfl
  · have digits : ((Nat.digits 256 n).map UInt8.ofNat).map UInt8.toNat = Nat.digits 256 n := by
      rw [List.map_map]
      refine (List.map_congr_left fun digit member => ?_).trans (List.map_id _)
      have small : digit < 256 := Nat.digits_lt_base (by decide) member
      exact UInt8.toNat_ofNat_of_lt' small
    rw [read_be_eq_ofDigits, to_bytes_be, if_neg zero, List.reverse_reverse, digits]
    exact Nat.ofDigits_digits 256 n

namespace DHLocalKeys

theorem shared_secret_random (key_data remote : Bytes) :
    (random key_data).shared_secret (random remote).public_key_bytes =
      to_bytes_be (DH_GENERATOR ^ (Bytes.read_be remote * Bytes.read_be key_data) % DH_PRIME) := by
  have wide : 2 ≤ DH_PRIME := by decide
  simp only [shared_secret, public_key_bytes, random, read_be_to_bytes_be, powm_eq wide]
  rw [← Nat.pow_mod, pow_mul]

/-- Whatever the private keys, both sides come to the same secret. -/
theorem shared_secrets_agree (key_data remote : Bytes) :
    (random key_data).shared_secret (random remote).public_key_bytes =
      (random remote).shared_secret (random key_data).public_key_bytes := by
  rw [shared_secret_random, shared_secret_random, mul_comm]

end DHLocalKeys

end ConnectScrobbler
