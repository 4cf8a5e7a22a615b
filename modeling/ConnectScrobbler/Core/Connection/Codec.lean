import ConnectScrobbler.Lib.Cipher
import ConnectScrobbler.Lib.Overflow

/-! The packet codec of `core/src/connection/codec.rs`. The Shannon cipher is a
parameter; no value is a panic. -/
namespace ConnectScrobbler

open Bytes (be read_be drain_to)

def HEADER_SIZE : Nat := 3
def MAC_SIZE : Nat := 4

inductive DecodeState where
  | Header
  | Payload (cmd : UInt8) (size : Nat)
  deriving DecidableEq, Repr

structure APCodec (S : Type) where
  encode_nonce : BitVec 32
  encode_cipher : S
  decode_nonce : BitVec 32
  decode_cipher : S
  decode_state : DecodeState

/-- `io::Error`, here only that of a MAC which is not accepted. -/
structure MacError where
  deriving DecidableEq, Repr

namespace APCodec

variable {S : Type}

def new (shannon : Cipher S) (send_key recv_key : Bytes) : APCodec S :=
  { encode_nonce := 0
    encode_cipher := shannon.new send_key
    decode_nonce := 0
    decode_cipher := shannon.new recv_key
    decode_state := .Header }

def encode (build : Build) (shannon : Cipher S) (item : UInt8 × Bytes) (buf : Bytes)
    (codec : APCodec S) : Option (Bytes × APCodec S) := do
  let (cmd, payload) := item
  let offset := buf.length
  let buf := buf ++ [cmd]
  -- the length is cast to `u16`
  let buf := buf ++ be 2 (BitVec.ofNat 16 payload.length).toNat
  let buf := buf ++ payload
  let cipher := shannon.nonce codec.encode_nonce codec.encode_cipher
  let encode_nonce ← build.add codec.encode_nonce 1
  let (encrypted, cipher) := shannon.encrypt (buf.drop offset) cipher
  let buf := buf.take offset ++ encrypted
  let (mac, cipher) := shannon.finish MAC_SIZE cipher
  return (buf ++ mac, { codec with encode_nonce, encode_cipher := cipher })

/-- The first half of `decode`: take a header off the buffer if one is due and there. -/
def decode_header (build : Build) (shannon : Cipher S) (buf : Bytes) (codec : APCodec S) :
    Option (APCodec S × Bytes) :=
  match codec.decode_state with
  | .Header =>
    if buf.length ≥ HEADER_SIZE then do
      let (header, buf) ← drain_to HEADER_SIZE buf
      let cipher := shannon.nonce codec.decode_nonce codec.decode_cipher
      let decode_nonce ← build.add codec.decode_nonce 1
      let (header, cipher) := shannon.decrypt header cipher
      let cmd ← header.head?
      let size := read_be (header.drop 1)
      return ({ codec with
        decode_nonce, decode_cipher := cipher, decode_state := .Payload cmd size }, buf)
    else return (codec, buf)
  | .Payload _ _ => return (codec, buf)

/-- The second half: take the payload and its MAC off, if they are due and there. -/
def decode_payload (shannon : Cipher S) (buf : Bytes) (codec : APCodec S) :
    Option (Except MacError (Option (UInt8 × Bytes)) × APCodec S × Bytes) :=
  match codec.decode_state with
  | .Payload cmd size =>
    if buf.length ≥ size + MAC_SIZE then do
      let (payload, buf) ← drain_to (size + MAC_SIZE) buf
      let (decrypted, cipher) := shannon.decrypt (payload.take size) codec.decode_cipher
      let payload := decrypted ++ payload.drop size
      let mac := payload.drop size
      let payload := payload.take size
      let (accepted, cipher) := shannon.check_mac mac cipher
      let codec := { codec with decode_cipher := cipher, decode_state := .Header }
      return (if accepted then .ok (some (cmd, payload)) else .error {}, codec, buf)
    else return (.ok none, codec, buf)
  | .Header => return (.ok none, codec, buf)

def decode (build : Build) (shannon : Cipher S) (buf : Bytes) (codec : APCodec S) :
    Option (Except MacError (Option (UInt8 × Bytes)) × APCodec S × Bytes) := do
  let (codec, buf) ← codec.decode_header build shannon buf
  codec.decode_payload shannon buf

def encode_all (build : Build) (shannon : Cipher S) (items : List (UInt8 × Bytes))
    (out : Bytes × APCodec S) : Option (Bytes × APCodec S) :=
  items.foldlM (fun (buf, codec) item => codec.encode build shannon item buf) out

end APCodec

end ConnectScrobbler
