import ConnectScrobbler.Core.Util.SpotifyId
import ConnectScrobbler.Lib.Chain

/-! Credentials, and how they are taken out of the blob that another device sends. -/
namespace ConnectScrobbler

inductive AuthenticationType where
  | AUTHENTICATION_USER_PASS
  | AUTHENTICATION_STORED_SPOTIFY_CREDENTIALS
  | AUTHENTICATION_STORED_FACEBOOK_CREDENTIALS
  | AUTHENTICATION_SPOTIFY_TOKEN
  | AUTHENTICATION_FACEBOOK_TOKEN
  deriving DecidableEq, Repr

structure Credentials where
  username : String
  auth_type : AuthenticationType
  auth_data : Bytes
  deriving DecidableEq, Repr

namespace AuthenticationType

def value : AuthenticationType → Nat
  | AUTHENTICATION_USER_PASS => 0
  | AUTHENTICATION_STORED_SPOTIFY_CREDENTIALS => 1
  | AUTHENTICATION_STORED_FACEBOOK_CREDENTIALS => 2
  | AUTHENTICATION_SPOTIFY_TOKEN => 3
  | AUTHENTICATION_FACEBOOK_TOKEN => 4

def from_i32 : Int → Option AuthenticationType
  | 0 => some AUTHENTICATION_USER_PASS
  | 1 => some AUTHENTICATION_STORED_SPOTIFY_CREDENTIALS
  | 2 => some AUTHENTICATION_STORED_FACEBOOK_CREDENTIALS
  | 3 => some AUTHENTICATION_SPOTIFY_TOKEN
  | 4 => some AUTHENTICATION_FACEBOOK_TOKEN
  | _ => none

end AuthenticationType

/-- What is used of other crates: `pbkdf2` is the one over HMAC-SHA1, `ecb_decrypt` the one
with AES-192 and no padding, and nothing is a failure. -/
structure Crypto where
  sha1 : Bytes → Bytes
  pbkdf2 : (secret salt : Bytes) → (iterations size : Nat) → Bytes
  ecb_decrypt : (key data : Bytes) → Option Bytes
  base64_decode : String → Option Bytes

namespace Credentials

open Bytes (drain_to)

def read_u8 (stream : Bytes) : Option (UInt8 × Bytes) := do
  let (data, stream) ← drain_to 1 stream
  let byte ← data[0]?
  some (byte, stream)

def read_int (stream : Bytes) : Option (UInt32 × Bytes) := do
  let (lo, stream) ← read_u8 stream
  let lo : UInt32 := lo.toUInt32
  if lo &&& 0x80 = 0 then some (lo, stream)
  else
    let (hi, stream) ← read_u8 stream
    let hi : UInt32 := hi.toUInt32
    some ((lo &&& (0x7f : UInt32)) ||| (hi <<< 7), stream)

def read_bytes (stream : Bytes) : Option (Bytes × Bytes) := do
  let (length, stream) ← read_int stream
  drain_to length.toNat stream

def blob_key (crypto : Crypto) (username device_id : String) : Bytes :=
  let secret := crypto.sha1 (as_bytes device_id)
  let data := crypto.pbkdf2 secret (as_bytes username) 0x100 20
  crypto.sha1 data ++ Bytes.be 4 20

def unchain_at (l : Nat) (data : Bytes) (i : Nat) : Option Bytes := do
  let byte ← data[l - i - 1]?
  let earlier ← data[l - i - 0x11]?
  some (data.set (l - i - 1) (byte ^^^ earlier))

/-- With less than a block there is no `l - 0x10` to count to, and then nothing at its end. -/
def decrypt_blob (crypto : Crypto) (key encrypted_blob : Bytes) : Option Bytes := do
  let data ← crypto.ecb_decrypt key encrypted_blob
  let l := encrypted_blob.length
  if l < 0x10 then none
  else (List.range (l - 0x10)).foldlM (unchain_at l) data

def with_blob (crypto : Crypto) (username encrypted_blob device_id : String) : Option Credentials := do
  let encrypted_blob ← crypto.base64_decode encrypted_blob
  let blob ← decrypt_blob crypto (blob_key crypto username device_id) encrypted_blob
  let (_, cursor) ← read_u8 blob
  let (_, cursor) ← read_bytes cursor
  let (_, cursor) ← read_u8 cursor
  let (auth_type, cursor) ← read_int cursor
  let auth_type ← AuthenticationType.from_i32 auth_type.toInt32.toInt
  let (_, cursor) ← read_u8 cursor
  let (auth_data, _) ← read_bytes cursor
  some { username := username, auth_type := auth_type, auth_data := auth_data }

end Credentials

end ConnectScrobbler
