import ConnectScrobbler.Lib.Bytes
import Mathlib.Data.BitVec

/-! SHA-1, and HMAC with it. -/
namespace Sha1

structure State where
  a : BitVec 32
  b : BitVec 32
  c : BitVec 32
  d : BitVec 32
  e : BitVec 32
  deriving DecidableEq, Repr

namespace State

def init : State := ⟨0x67452301, 0xefcdab89, 0x98badcfe, 0x10325476, 0xc3d2e1f0⟩

def add (s t : State) : State := ⟨s.a + t.a, s.b + t.b, s.c + t.c, s.d + t.d, s.e + t.e⟩

def digest (s : State) : Bytes :=
  [s.a, s.b, s.c, s.d, s.e].flatMap fun w => Bytes.be 4 w.toNat

end State

def mix (t : Nat) (b c d : BitVec 32) : BitVec 32 :=
  if t < 20 then (b &&& c ||| ~~~b &&& d) + 0x5a827999
  else if t < 40 then (b ^^^ c ^^^ d) + 0x6ed9eba1
  else if t < 60 then (b &&& c ||| b &&& d ||| c &&& d) + 0x8f1bbcdc
  else (b ^^^ c ^^^ d) + 0xca62c1d6

def round (s : State) (t : Nat) (w : BitVec 32) : State :=
  ⟨s.a.rotateLeft 5 + mix t s.b s.c s.d + s.e + w, s.a, s.b.rotateLeft 30, s.c, s.d⟩

/-- The rounds from `t` on; the last sixteen words of the schedule are kept, the
oldest first. -/
def rounds : (left t : Nat) → List (BitVec 32) → State → State
  | 0, _, _, s => s
  | left + 1, t, w, s =>
    let next := (w.getD 13 0 ^^^ w.getD 8 0 ^^^ w.getD 2 0 ^^^ w.getD 0 0).rotateLeft 1
    rounds left (t + 1) (w.drop 1 ++ [next]) (round s t (w.getD 0 0))

def pieces (size : Nat) : (left : Nat) → Bytes → List Bytes
  | 0, _ => []
  | left + 1, data => data.take size :: pieces size left (data.drop size)

def block (s : State) (data : Bytes) : State :=
  let words := (pieces 4 16 data).map fun word => BitVec.ofNat 32 (Bytes.read_be word)
  s.add (rounds 80 0 words s)

def pad (data : Bytes) : Bytes :=
  data ++ 0x80 :: List.replicate ((119 - data.length % 64) % 64) 0 ++ Bytes.be 8 (8 * data.length)

def sha1 (data : Bytes) : Bytes :=
  let padded := pad data
  ((pieces 64 (padded.length / 64) padded).foldl block .init).digest

def hmac (key data : Bytes) : Bytes :=
  let key := if key.length > 64 then sha1 key else key
  let key := key ++ List.replicate (64 - key.length) 0
  sha1 (key.map (· ^^^ 0x5c) ++ sha1 (key.map (· ^^^ 0x36) ++ data))

theorem length_sha1 (data : Bytes) : (sha1 data).length = 20 := by
  simp [sha1, State.digest]

theorem length_hmac (key data : Bytes) : (hmac key data).length = 20 :=
  length_sha1 _

end Sha1
