import ConnectScrobbler.Core.Util.Int128
import ConnectScrobbler.Lib.Bytes

/-! The Spotify id, which wraps the 128-bit number. -/
namespace ConnectScrobbler

/-- The bytes of a string. -/
def as_bytes (s : String) : Bytes := s.toList.flatMap String.utf8EncodeChar

structure SpotifyId where
  number : U128
  deriving DecidableEq, Repr

def BASE62_DIGITS : Bytes :=
  as_bytes "0123456789abcdefghijklmnopqrstuvwxyzABCDEFGHIJKLMNOPQRSTUVWXYZ"

def BASE16_DIGITS : Bytes := as_bytes "0123456789abcdef"

/-- The body of the loops of `from_base16` and `from_base62`. -/
def SpotifyId.push_digit (build : Build) (digits : Bytes) (base : UInt8) (n : U128) (c : UInt8) :
    Option U128 := do
  let d ← digits.idxOf? c
  let n ← n.mul build (.of_u8 base)
  n.add build (.of_u8 (UInt8.ofNat d))

/-- `from_base16` and `from_base62` but for the digits and the base; a string that is not ASCII is
a failed assertion. -/
def SpotifyId.from_base (build : Build) (digits : Bytes) (base : UInt8) (id : String) :
    Option SpotifyId :=
  let data := as_bytes id
  if data.all (· < 128) then do
    let n ← data.foldlM (push_digit build digits base) .zero
    return ⟨n⟩
  else none

def SpotifyId.from_base16 (build : Build) (id : String) : Option SpotifyId :=
  from_base build BASE16_DIGITS 16 id

def SpotifyId.from_base62 (build : Build) (id : String) : Option SpotifyId :=
  from_base build BASE62_DIGITS 62 id

/-- `SpotifyId::from_raw`; other than 16 bytes are a failed assertion. -/
def SpotifyId.from_raw (data : Bytes) : Option SpotifyId :=
  if data.length = 16 then
    let high := BitVec.ofNat 64 (Bytes.read_be (data.take 8))
    let low := BitVec.ofNat 64 (Bytes.read_be (data.drop 8))
    some ⟨.from_parts high low⟩
  else none

/-- Digits are ASCII: every byte is a character. -/
def SpotifyId.to_base16 (id : SpotifyId) : String :=
  let (high, low) := id.number.parts
  let digit (word : BitVec 64) (i : Nat) := BASE16_DIGITS.getD (word >>> (4 * i) &&& 0xF).toNat 0
  let data := List.replicate 32 0
  let data := (List.range 16).foldl (fun data i => data.set (31 - i) (digit low i)) data
  let data := (List.range 16).foldl (fun data i => data.set (15 - i) (digit high i)) data
  String.ofList (data.map fun byte => Char.ofNat byte.toNat)

def SpotifyId.to_raw (id : SpotifyId) : Bytes :=
  let (high, low) := id.number.parts
  Bytes.be 8 high.toNat ++ Bytes.be 8 low.toNat

theorem SpotifyId.from_raw_returns (data : Bytes) : from_raw data ≠ none ↔ data.length = 16 := by
  unfold from_raw
  split <;> simp [*]

end ConnectScrobbler
