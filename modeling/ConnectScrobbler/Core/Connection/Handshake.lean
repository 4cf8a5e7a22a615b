import ConnectScrobbler.Core.Connection.Codec
import ConnectScrobbler.Core.DiffieHellman
import ConnectScrobbler.Lib.Mac
import ConnectScrobbler.Lib.Transfer

/-! The handshake of `core/src/connection/handshake.rs`. Parameters are the futures of
tokio, the messages of protobuf, HMAC-SHA1 and Shannon. What is parsed and what
the keys are computed from is logged. -/
namespace ConnectScrobbler

open Bytes (be read_be)

def PRODUCT_PARTNER : Nat := 0x3
def PLATFORM_LINUX_X86 : Nat := 0x2
def CRYPTO_SUITE_SHANNON : Nat := 0x0

/-- The fields of `ClientHello` that are set, those of its parts among them. -/
structure ClientHello where
  product : Nat
  platform : Nat
  version : Nat
  cryptosuites_supported : List Nat
  gc : Bytes
  server_keys_known : Nat
  client_nonce : Bytes
  padding : Bytes
  deriving DecidableEq, Repr

/-- The field of `APResponseMessage` that is read; it is deep inside, and may be missing. -/
structure APResponseMessage where
  gs : Option Bytes
  deriving DecidableEq, Repr

def APResponseMessage.get_gs (message : APResponseMessage) : Bytes := message.gs.getD []

structure ClientResponsePlaintext where
  hmac : Bytes
  deriving DecidableEq, Repr

structure Message (M : Type) where
  compute_size : M → BitVec 32
  write_to_vec : M → Bytes

/-- `protocol::keyexchange`. -/
structure KeyExchange where
  client_hello : Message ClientHello
  client_response : Message ClientResponsePlaintext
  parse_ap_response : Bytes → Option APResponseMessage

inductive HandshakeEffect where
  | parse (data : Bytes)
  | compute_keys (shared_secret packets : Bytes)
  deriving DecidableEq, Repr

variable {T W R E H S : Type}

def client_hello (build : Build) (tokio : Transfers T W R E) (messages : KeyExchange)
    (client_nonce : Bytes) (connection : T) (gc : Bytes) : Option W := do
  let packet : ClientHello :=
    { product := PRODUCT_PARTNER
      platform := PLATFORM_LINUX_X86
      version := 0x10800000000
      cryptosuites_supported := [CRYPTO_SUITE_SHANNON]
      gc
      server_keys_known := 1
      client_nonce
      padding := [0x1e] }
  let buffer := [0, 4]
  let size ← build.add (2 + 4) (messages.client_hello.compute_size packet)
  let buffer := buffer ++ be 4 size.toNat
  let buffer := buffer ++ messages.client_hello.write_to_vec packet
  return tokio.write_all connection buffer

def client_response (build : Build) (tokio : Transfers T W R E) (messages : KeyExchange)
    (connection : T) (challenge : Bytes) : Option W := do
  let packet : ClientResponsePlaintext := { hmac := challenge }
  let buffer := []
  let size ← build.add 4 (messages.client_response.compute_size packet)
  let buffer := buffer ++ be 4 size.toNat
  let buffer := buffer ++ messages.client_response.write_to_vec packet
  return tokio.write_all connection buffer

/-- `Vec::resize` with zeros; a capacity of more than `isize::MAX` bytes is a panic. -/
def resize (len : Nat) (acc : Bytes) : Option Bytes :=
  if len < 2 ^ 63 then some (acc.take len ++ List.replicate (len - acc.length) 0) else none

def read_into_accumulator (build : Build) (tokio : Transfers T W R E) (connection : T)
    (size : BitVec 64) (acc : Bytes) : Option R := do
  let offset : BitVec 64 := BitVec.ofNat 64 acc.length
  let len ← build.add offset size
  let acc ← resize len.toNat acc
  let window := Window.new acc
  let window ← window.set_start offset.toNat
  return tokio.read_exact connection window

inductive RecvPacket (R : Type) where
  | Header (read : R)
  | Body (read : R)

def recv_packet (build : Build) (tokio : Transfers T W R E) (connection : T) (acc : Bytes) :
    Option (RecvPacket R) := do
  let read ← read_into_accumulator build tokio connection 4 acc
  return .Header read

namespace RecvPacket

/-- The loop of `poll` from the state `Body` on. -/
def poll_body (tokio : Transfers T W R E) (messages : KeyExchange) (read : R) :
    Call HandshakeEffect (Poll (T × APResponseMessage × Bytes) E × RecvPacket R) :=
  match tokio.poll_read read with
  | (.ok .notReady, read) => return (.ok .notReady, .Body read)
  | (.error err, read) => return (.error err, .Body read)
  | (.ok (.ready (connection, data)), read) => do
    Call.emit (.parse data.as_ref)
    let message ← Call.unwrap (messages.parse_ap_response data.as_ref)
    let acc := data.into_inner
    return (.ok (.ready (connection, message, acc)), .Body read)

def poll_header (build : Build) (tokio : Transfers T W R E) (messages : KeyExchange) (read : R) :
    Call HandshakeEffect (Poll (T × APResponseMessage × Bytes) E × RecvPacket R) :=
  match tokio.poll_read read with
  | (.ok .notReady, read) => return (.ok .notReady, .Header read)
  | (.error err, read) => return (.error err, .Header read)
  | (.ok (.ready (connection, header)), _) => do
    let size : BitVec 64 := BitVec.ofNat 64 (read_be (header.as_ref.take 4))
    let acc := header.into_inner
    let left ← Call.unwrap (build.sub size 4)
    let read ← Call.unwrap (read_into_accumulator build tokio connection left acc)
    poll_body tokio messages read

def poll (build : Build) (tokio : Transfers T W R E) (messages : KeyExchange) :
    RecvPacket R → Call HandshakeEffect (Poll (T × APResponseMessage × Bytes) E × RecvPacket R)
  | .Header read => poll_header build tokio messages read
  | .Body read => poll_body tokio messages read

end RecvPacket

/-- A slice; one that is out of bounds is a panic. -/
def slice (start stop : Nat) (data : Bytes) : Option Bytes :=
  if start ≤ stop ∧ stop ≤ data.length then some ((data.take stop).drop start) else none

def compute_keys (mac : Mac H) (shared_secret packets : Bytes) : Option (Bytes × Bytes × Bytes) := do
  let start := mac.new shared_secret
  let (data, _) := [1, 2, 3, 4, 5].foldl
    (fun (data, state) (i : UInt8) =>
      let state := mac.input packets state
      let state := mac.input [i] state
      let (code, state) := mac.result state
      (data ++ code, mac.reset state))
    (([] : Bytes), start)
  let key ← slice 0 0x14 data
  let state := mac.input packets (mac.new key)
  let send_key ← slice 0x14 0x34 data
  let recv_key ← slice 0x34 0x54 data
  return ((mac.result state).1, send_key, recv_key)

inductive HandshakeState (W R S : Type) where
  | ClientHello (write : W)
  | APResponse (read : RecvPacket R)
  | ClientResponse (codec : Option (APCodec S)) (write : W)

structure Handshake (W R S : Type) where
  keys : DHLocalKeys
  state : HandshakeState W R S

/-- A new handshake, with the random bytes of its keys and of its nonce. -/
def handshake (build : Build) (tokio : Transfers T W R E) (messages : KeyExchange)
    (key_data client_nonce : Bytes) (connection : T) : Option (Handshake W R S) := do
  let local_keys := DHLocalKeys.random key_data
  let client_hello ←
    client_hello build tokio messages client_nonce connection local_keys.public_key_bytes
  return { keys := local_keys, state := .ClientHello client_hello }

namespace Handshake

/-- The loop of `poll` from the state `ClientResponse` on. The framed transport is the
connection with its codec. -/
def poll_client_response (tokio : Transfers T W R E) (keys : DHLocalKeys)
    (codec : Option (APCodec S)) (write : W) :
    Call HandshakeEffect (Poll (T × APCodec S) E × Handshake W R S) :=
  match tokio.poll_write write with
  | (.ok .notReady, write) => return (.ok .notReady, ⟨keys, .ClientResponse codec write⟩)
  | (.error err, write) => return (.error err, ⟨keys, .ClientResponse codec write⟩)
  | (.ok (.ready (connection, _)), write) => do
    let codec ← Call.unwrap codec
    return (.ok (.ready (connection, codec)), ⟨keys, .ClientResponse none write⟩)

def poll_ap_response (build : Build) (tokio : Transfers T W R E) (messages : KeyExchange)
    (mac : Mac H) (shannon : Cipher S) (keys : DHLocalKeys) (read : RecvPacket R) :
    Call HandshakeEffect (Poll (T × APCodec S) E × Handshake W R S) := do
  match ← read.poll build tokio messages with
  | (.ok .notReady, read) => return (.ok .notReady, ⟨keys, .APResponse read⟩)
  | (.error err, read) => return (.error err, ⟨keys, .APResponse read⟩)
  | (.ok (.ready (connection, message, accumulator)), _) => do
    let remote_key := message.get_gs
    let shared_secret := keys.shared_secret remote_key
    Call.emit (.compute_keys shared_secret accumulator)
    let (challenge, send_key, recv_key) ← Call.unwrap (compute_keys mac shared_secret accumulator)
    let codec := APCodec.new shannon send_key recv_key
    let write ← Call.unwrap (client_response build tokio messages connection challenge)
    poll_client_response tokio keys (some codec) write

def poll_client_hello (build : Build) (tokio : Transfers T W R E) (messages : KeyExchange)
    (mac : Mac H) (shannon : Cipher S) (keys : DHLocalKeys) (write : W) :
    Call HandshakeEffect (Poll (T × APCodec S) E × Handshake W R S) :=
  match tokio.poll_write write with
  | (.ok .notReady, write) => return (.ok .notReady, ⟨keys, .ClientHello write⟩)
  | (.error err, write) => return (.error err, ⟨keys, .ClientHello write⟩)
  | (.ok (.ready (connection, accumulator)), _) => do
    let read ← Call.unwrap (recv_packet build tokio connection accumulator)
    poll_ap_response build tokio messages mac shannon keys read

def poll (build : Build) (tokio : Transfers T W R E) (messages : KeyExchange) (mac : Mac H)
    (shannon : Cipher S) (h : Handshake W R S) :
    Call HandshakeEffect (Poll (T × APCodec S) E × Handshake W R S) :=
  match h.state with
  | .ClientHello write => poll_client_hello build tokio messages mac shannon h.keys write
  | .APResponse read => poll_ap_response build tokio messages mac shannon h.keys read
  | .ClientResponse codec write => poll_client_response tokio h.keys codec write

end Handshake

end ConnectScrobbler
