import ConnectScrobbler.Core.Connection.Codec
import ConnectScrobbler.Core.Mercury.Reassembly
import ConnectScrobbler.Lib.Shannon

/-! The 16-bit length fields of both encoders, `core/src/mercury/types.rs` and
`core/src/connection/codec.rs`: what is sent when a length does not fit. -/
namespace ConnectScrobbler

open Bytes (be read_be)
open Mercury (Packet)

namespace MercuryRequest

@[simp] theorem write_as_u16 (n : Nat) : write_u16 (as_u16 n) = be 2 n := by
  rw [write_u16, as_u16, BitVec.toNat_ofNat]
  exact Bytes.be_mod 2 n

/-- What a request would say if its length fields had room for it: its header is a part of its own. -/
def packet (protobuf : Protobuf) (req : MercuryRequest) (seq : Bytes) : Packet :=
  ⟨seq, 1, protobuf.write_header req.header :: req.payload⟩

end MercuryRequest

/-- The computed size of a header is what is written of it. -/
def Protobuf.Sized (protobuf : Protobuf) : Prop :=
  ∀ header, protobuf.compute_size header = (protobuf.write_header header).length

namespace MercuryRequest

variable {build : Build} {protobuf : Protobuf} {req : MercuryRequest} {seq data : Bytes}

theorem payload_loop (payload : List Bytes) (packet : Bytes) :
    payload.foldl (fun packet p => packet ++ be 2 p.length ++ p) packet =
      packet ++ payload.flatMap fun p => be 2 p.length ++ p := by
  induction payload generalizing packet with
  | nil => simp only [List.foldl_nil, List.flatMap_nil, List.append_nil]
  | cons p payload ih =>
    rw [List.foldl_cons, ih, List.flatMap_cons]
    simp only [List.append_assoc]

/-- A build that does not stop at the part count writes every length in its lowest 16 bits. -/
theorem encode_eq (build : Build) (sized : protobuf.Sized) (req : MercuryRequest) (seq : Bytes) :
    req.encode build protobuf seq =
      (build.add 1 (as_u16 req.payload.length)).map fun _ => (req.packet protobuf seq).encode := by
  rw [encode]
  cases counted : build.add 1 (as_u16 req.payload.length) with
  | none => rfl
  | some count =>
    have sum : write_u16 count = be 2 (req.payload.length + 1) := by
      obtain ⟨rfl, _⟩ := Build.add_returns counted
      rw [write_u16, as_u16, BitVec.toNat_add, BitVec.toNat_ofNat]
      have lowest : ((1 : BitVec 16).toNat + req.payload.length % 2 ^ 16) % 2 ^ 16 =
          (req.payload.length + 1) % 256 ^ 2 := by
        have one : (1 : BitVec 16).toNat = 1 := rfl
        omega
      rw [lowest, Bytes.be_mod]
    simp only [Option.bind_eq_bind, Option.bind_some, Option.map_some, write_as_u16, payload_loop, sum,
      sized req.header]
    simp only [Packet.encode, packet, List.flatMap_cons, List.length_cons, List.append_assoc]
    rfl

theorem encode_fails (build : Build) (sized : protobuf.Sized) (req : MercuryRequest) (seq : Bytes) :
    req.encode build protobuf seq = none ↔
      build = .debug ∧ req.payload.length % 2 ^ 16 = 2 ^ 16 - 1 := by
  have one : (1 : BitVec 16).toNat = 1 := rfl
  have count : (as_u16 req.payload.length).toNat = req.payload.length % 2 ^ 16 :=
    BitVec.toNat_ofNat ..
  rw [encode_eq build sized, Option.map_eq_none_iff, Build.add, one, count]
  constructor
  · intro stops
    split at stops
    · rename_i wraps
      exact ⟨wraps.1, by omega⟩
    · cases stops
  · rintro ⟨rfl, last⟩
    exact if_pos ⟨rfl, by omega⟩

end MercuryRequest

namespace Mercury.Packet

theorem read_be_two {data front rest : Bytes}
    (drained : Bytes.drain_to 2 data = some (front, rest)) : read_be front < 2 ^ 16 := by
  have limit := Bytes.read_be_lt front
  rw [Bytes.length_of_drain_to drained] at limit
  exact limit

theorem parse_part_fits {data part rest : Bytes} (parsed : parse_part data = some (part, rest)) :
    part.length < 2 ^ 16 := by
  obtain ⟨⟨size, data'⟩, first, drained⟩ := Option.bind_eq_some_iff.mp parsed
  rw [Bytes.length_of_drain_to drained]
  exact read_be_two first

theorem read_chunks_fit {left : Nat} {data : Bytes} {chunks : List Bytes}
    (parsed : read_chunks left data = some chunks) :
    chunks.length = left ∧ ∀ chunk ∈ chunks, chunk.length < 2 ^ 16 := by
  induction left generalizing data chunks with
  | zero =>
    cases parsed
    simp
  | succ left ih =>
    obtain ⟨⟨chunk, rest⟩, first, others⟩ := Option.bind_eq_some_iff.mp parsed
    obtain ⟨later, read, done⟩ := Option.bind_eq_some_iff.mp others
    cases done
    obtain ⟨length, fit⟩ := ih read
    constructor
    · simp [length]
    · intro other member
      cases member with
      | head => exact parse_part_fits first
      | tail _ member => exact fit other member

/-- Whatever is parsed has lengths that fit their fields. -/
theorem parse_fits {data : Bytes} {p : Packet} (parsed : parse data = some p) : p.Fits := by
  obtain ⟨⟨seq, flags, count, rest⟩, opened, parsed⟩ := Option.bind_eq_some_iff.mp parsed
  obtain ⟨chunks, read, done⟩ := Option.bind_eq_some_iff.mp parsed
  cases done
  obtain ⟨⟨seq_len, data1⟩, length, opened⟩ := Option.bind_eq_some_iff.mp opened
  obtain ⟨⟨seq', data2⟩, drained, opened⟩ := Option.bind_eq_some_iff.mp opened
  obtain ⟨⟨flag, data3⟩, _, opened⟩ := Option.bind_eq_some_iff.mp opened
  obtain ⟨⟨counted, data4⟩, counts, done⟩ := Option.bind_eq_some_iff.mp opened
  cases done
  obtain ⟨total, fit⟩ := read_chunks_fit read
  refine ⟨?_, ?_, fit⟩
  · rw [Bytes.length_of_drain_to drained]
    exact read_be_two length
  · rw [total]
    exact read_be_two counts

theorem parse_encode_iff {p : Packet} : parse p.encode = some p ↔ p.Fits := by
  constructor
  · exact parse_fits
  · intro fits
    have back := parse_encode fits []
    rwa [List.append_nil] at back

end Mercury.Packet

namespace APCodec

variable {S : Type}

/-- `encode` on the buffer and the codec in place, with whether it returns: the nonce may
stop it when the packet is already in the buffer. -/
def encode_in_place (build : Build) (shannon : Cipher S) (item : UInt8 × Bytes) (buf : Bytes)
    (codec : APCodec S) : Bool × Bytes × APCodec S :=
  let (cmd, payload) := item
  let offset := buf.length
  let buf := buf ++ [cmd]
  let buf := buf ++ be 2 (BitVec.ofNat 16 payload.length).toNat
  let buf := buf ++ payload
  let codec := { codec with encode_cipher := shannon.nonce codec.encode_nonce codec.encode_cipher }
  match build.add codec.encode_nonce 1 with
  | none => (false, buf, codec)
  | some encode_nonce =>
    let (encrypted, cipher) := shannon.encrypt (buf.drop offset) codec.encode_cipher
    let buf := buf.take offset ++ encrypted
    let (mac, cipher) := shannon.finish MAC_SIZE cipher
    (true, buf ++ mac, { codec with encode_nonce, encode_cipher := cipher })

theorem encode_eq_in_place (build : Build) (shannon : Cipher S) (item : UInt8 × Bytes) (buf : Bytes)
    (codec : APCodec S) : codec.encode build shannon item buf =
      let (returned, left) := codec.encode_in_place build shannon item buf
      if returned then some left else none := by
  obtain ⟨cmd, payload⟩ := item
  cases added : build.add codec.encode_nonce 1 with
  | none =>
    simp only [encode, encode_in_place, added]
    rfl
  | some encode_nonce =>
    simp only [encode, encode_in_place, added]
    rfl

/-- An item that is refused before anything is done for it. -/
def Refuses (build : Build) (shannon : Cipher S) (item : UInt8 × Bytes) (buf : Bytes)
    (codec : APCodec S) : Prop :=
  let (returned, left, after) := codec.encode_in_place build shannon item buf
  returned = false ∧ left = buf ∧ after.encode_nonce = codec.encode_nonce

/-- No item is: the header and the payload are in the buffer before anything can fail. -/
theorem not_refuses (build : Build) (shannon : Cipher S) (item : UInt8 × Bytes) (buf : Bytes)
    (codec : APCodec S) : ¬ codec.Refuses build shannon item buf := by
  obtain ⟨cmd, payload⟩ := item
  cases added : build.add codec.encode_nonce 1 with
  | none =>
    simp only [Refuses, encode_in_place, added]
    rintro ⟨_, left, _⟩
    have length := congrArg List.length left
    simp only [List.length_append, List.length_singleton] at length
    omega
  | some encode_nonce =>
    simp only [Refuses, encode_in_place, added]
    rintro ⟨returned, _⟩
    cases returned

end APCodec

/-- Lengths that do not fit are refused just where there are none, but for the part count
at which a debug build stops. What a request is encoded to reads back as that
request if all its lengths fit, and as something else otherwise. -/
theorem unfit_lengths_refused_iff (build : Build) {protobuf : Protobuf} (sized : protobuf.Sized)
    {S : Type} (shannon : Cipher S) :
    (∀ (req : MercuryRequest) (seq : Bytes),
      ((¬ (req.packet protobuf seq).Fits → req.encode build protobuf seq = none) ↔
        (req.packet protobuf seq).Fits ∨
          build = .debug ∧ req.payload.length % 2 ^ 16 = 2 ^ 16 - 1) ∧
      ∀ data, req.encode build protobuf seq = some data →
        (Packet.parse data = some (req.packet protobuf seq) ↔ (req.packet protobuf seq).Fits)) ∧
    ∀ (item : UInt8 × Bytes) (buf : Bytes) (codec : APCodec S),
      (¬ item.2.length < 2 ^ 16 → codec.Refuses build shannon item buf) ↔ item.2.length < 2 ^ 16 := by
  constructor
  · intro req seq
    constructor
    · rw [MercuryRequest.encode_fails build sized]
      exact or_iff_not_imp_left.symm
    · intro data encoded
      rw [MercuryRequest.encode_eq build sized] at encoded
      obtain ⟨_, _, rfl⟩ := Option.map_eq_some_iff.mp encoded
      exact Packet.parse_encode_iff
  · intro item buf codec
    constructor
    · intro refused
      by_contra long
      exact codec.not_refuses build shannon item buf (refused long)
    · intro fits long
      exact absurd fits long

theorem messages_sized : Mercury.messages.Sized := fun _ => rfl

def send_one : MercuryRequest := ⟨.SEND, "u", none, [[1]]⟩

theorem send_one_reads_back : ∃ data, send_one.encode .debug Mercury.messages (be 8 0) = some data ∧
    Packet.parse data = some (send_one.packet Mercury.messages (be 8 0)) := by
  obtain ⟨data, encoded⟩ : ∃ data, send_one.encode .debug Mercury.messages (be 8 0) = some data :=
    ⟨_, rfl⟩
  obtain ⟨requests, _⟩ := unfit_lengths_refused_iff .debug messages_sized Shannon.cipher
  refine ⟨data, encoded, ((requests send_one (be 8 0)).2 data encoded).mpr ?_⟩
  exact ⟨by decide, by decide, by decide⟩

/-- One byte more than a length field can say. -/
def send_long : MercuryRequest := ⟨.SEND, "u", none, [List.replicate (2 ^ 16) 0]⟩

theorem send_long_not_refused :
    ¬ (¬ (send_long.packet Mercury.messages (be 8 0)).Fits →
      send_long.encode .release Mercury.messages (be 8 0) = none) := by
  intro refused
  have unfit : ¬ (send_long.packet Mercury.messages (be 8 0)).Fits := by
    intro fits
    have short := fits.2.2 (List.replicate (2 ^ 16) 0) (.tail _ (.head _))
    rw [List.length_replicate] at short
    exact absurd short (Nat.lt_irrefl _)
  obtain ⟨debug, _⟩ := (MercuryRequest.encode_fails .release messages_sized _ _).mp (refused unfit)
  cases debug

end ConnectScrobbler
