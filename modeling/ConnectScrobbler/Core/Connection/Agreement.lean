import ConnectScrobbler.Core.Connection.Stream
import ConnectScrobbler.Core.Connection.Transcript

/-! The handshake with an access point as in `docs/connection.md`: both sides come to the same keys,
each to send with what the other one receives with, and from then on they understand each other. -/
namespace ConnectScrobbler

open APCodec (encode_all read)
open Bytes (read_be drain_to bytes_field varint_field)
open Future (Resolves)
open Input (arrivals)

variable {T W R E H S : Type} {build : Build} {tokio : Transfers T W R E} {messages : KeyExchange}
  {mac : Mac H} {shannon : Cipher S} {sent incoming : T → Bytes} {hmac : Bytes → Bytes → Bytes}

/-- The random bytes of its keys, the message that it responds with, and how it parses a client's. -/
structure AccessPoint where
  key_data : Bytes
  ap_response : Bytes → Bytes
  parse_client_hello : Bytes → Option Bytes
  parse_client_response : Bytes → Option Bytes

namespace AccessPoint

def keys (ap : AccessPoint) : DHLocalKeys := .random ap.key_data

/-- The message, with the key of the access point. -/
def message (ap : AccessPoint) : Bytes := ap.ap_response ap.keys.public_key_bytes

def response (ap : AccessPoint) : Bytes := plain_packet [] ap.message

/-- What the access point makes of the bytes of a client: its codec, once the challenge is solved, and
the bytes that are left for it. The first of the two keys is the client's to send with. -/
def accept (hmac : Bytes → Bytes → Bytes) (shannon : Cipher S) (received : Bytes)
    (ap : AccessPoint) : Option (APCodec S × Bytes) := do
  let (hello, received) ← drain_to (read_be ((received.drop 2).take 4)) received
  let gc ← ap.parse_client_hello (hello.drop 6)
  let (challenge, recv_key, send_key) :=
    documented_keys hmac (ap.keys.shared_secret gc) (hello ++ ap.response)
  let (answer, received) ← drain_to (read_be (received.take 4)) received
  let solved ← ap.parse_client_response (answer.drop 4)
  if solved = challenge then some (.new shannon send_key recv_key, received) else none

/-- Both read what the other one writes, and the response keeps to protobuf's limit. -/
structure Understands (messages : KeyExchange) (gc client_nonce : Bytes) (ap : AccessPoint) : Prop where
  hello : ap.parse_client_hello
    (messages.client_hello.write_to_vec (hello_message gc client_nonce)) = some gc
  response : messages.parse_ap_response ap.message = some ⟨some ap.keys.public_key_bytes⟩
  answer : ∀ challenge, challenge.length = 20 → ap.parse_client_response
    (messages.client_response.write_to_vec ⟨challenge⟩) = some challenge
  limit : ap.message.length < 2 ^ 31

end AccessPoint

/-! A packet announces its own length, behind its header. -/

theorem announced_plain (header message more : Bytes)
    (small : header.length + 4 + message.length < 2 ^ 32) :
    read_be (((plain_packet header message ++ more).drop header.length).take 4) =
      (plain_packet header message).length := by
  have length : (plain_packet header message).length = header.length + 4 + message.length := by
    simp only [plain_packet, List.length_append, Bytes.length_be]
  rw [length, plain_packet, List.append_assoc, List.append_assoc, List.drop_left,
    List.take_left' (Bytes.length_be 4 _), Bytes.read_be_be_of_lt]
  exact small

theorem body_plain (header message : Bytes) :
    (plain_packet header message).drop (header.length + 4) = message := by
  rw [plain_packet, List.drop_left']
  simp only [List.length_append, Bytes.length_be]

/-- What one codec encodes, the other decodes, in whatever pieces it arrives. -/
def Understood (build : Build) (shannon : Cipher S) (encoder decoder : APCodec S) : Prop :=
  ∀ items : List (UInt8 × Bytes), items.length < 2 ^ 32 → (∀ item ∈ items, item.2.length < 2 ^ 16) →
    ∃ bytes encoder', encode_all build shannon items ([], encoder) = some (bytes, encoder') ∧
      ∀ inputs, arrivals inputs = bytes → ∃ yielded rest state,
        Call.run (read build shannon).step (decoder, []) inputs = ⟨yielded, some state⟩ ∧
        items = yielded ++ rest ∧ ∀ calls, rest.length ≤ calls → ∃ last,
          Call.run (read build shannon).step (decoder, []) (inputs ++ List.replicate calls .decode) =
            ⟨items, some last⟩

theorem understood_mirrored (build : Build) (lawful : shannon.Lawful) (key other peer : Bytes) :
    Understood build shannon (.new shannon key other) (.new shannon peer key) := by
  intro items few fits
  have start : (APCodec.new shannon key other).encode_nonce.toNat + items.length < 2 ^ 32 := by
    rw [APCodec.new]
    simpa using few
  obtain ⟨encoder, encoded, _⟩ := APCodec.encode_all_eq build [] start
  refine ⟨_, encoder, encoded, fun inputs all => ?_⟩
  have follows := APCodec.read_follows build key lawful few
  have expects : APCodec.Expects shannon key items.length (.new shannon peer key)
      ([] ++ (arrivals inputs ++ [])) items := by
    rw [all, List.append_nil, List.nil_append]
    exact .header rfl .new .new fits (Nat.zero_add _)
  obtain ⟨yielded, rest, decoder, buf, ran, whole, expects⟩ := follows.run expects
  refine ⟨yielded, rest, (decoder, buf), ran, whole, fun calls enough => ?_⟩
  rw [List.append_nil] at expects
  obtain ⟨decoder', buf', drained, _⟩ := follows.drain expects enough
  exact ⟨(decoder', buf'), by rw [Call.run_append, ran, Call.bind_some, drained, whole]⟩

namespace AccessPoint

variable {ap : AccessPoint} {gc client_nonce : Bytes}

/-- A client that has solved the challenge is accepted, and the bytes behind its answer are left. -/
theorem accepts (shannon : Cipher S) (understands : ap.Understands messages gc client_nonce)
    (hello_sized : messages.client_hello.Sized (hello_message gc client_nonce))
    {challenge recv_key send_key : Bytes} (size : challenge.length = 20)
    (response_sized : messages.client_response.Sized ⟨challenge⟩)
    (documented : documented_keys hmac (ap.keys.shared_secret gc)
      (plain_packet [0, 4] (messages.client_hello.write_to_vec (hello_message gc client_nonce)) ++
        ap.response) = (challenge, recv_key, send_key)) (more : Bytes) :
    ap.accept hmac shannon
      (plain_packet [0, 4] (messages.client_hello.write_to_vec (hello_message gc client_nonce)) ++
        plain_packet [] (messages.client_response.write_to_vec ⟨challenge⟩) ++ more) =
      some (.new shannon send_key recv_key, more) := by
  have written := understands.hello
  have solved := understands.answer challenge size
  have hello_limit := hello_sized.limit
  have answer_limit := response_sized.limit
  generalize messages.client_hello.write_to_vec (hello_message gc client_nonce) = hello at *
  generalize messages.client_response.write_to_vec ⟨challenge⟩ = answer at *
  have first : drain_to (plain_packet [0, 4] hello).length
      (plain_packet [0, 4] hello ++ (plain_packet [] answer ++ more)) =
      some (plain_packet [0, 4] hello, plain_packet [] answer ++ more) := Bytes.drain_to_append rfl _
  have second : drain_to (plain_packet [] answer).length (plain_packet [] answer ++ more) =
      some (plain_packet [] answer, more) := Bytes.drain_to_append rfl _
  have hello_length :
      read_be (((plain_packet [0, 4] hello ++ (plain_packet [] answer ++ more)).drop 2).take 4) =
        (plain_packet [0, 4] hello).length :=
    announced_plain [0, 4] hello _ (show 2 + 4 + hello.length < 2 ^ 32 by omega)
  have answer_length : read_be ((plain_packet [] answer ++ more).take 4) =
      (plain_packet [] answer).length :=
    announced_plain [] answer _ (show 0 + 4 + answer.length < 2 ^ 32 by omega)
  have hello_body : (plain_packet [0, 4] hello).drop 6 = hello := body_plain [0, 4] hello
  have answer_body : (plain_packet [] answer).drop 4 = answer := body_plain [] answer
  simp only [accept, List.append_assoc, hello_length, first, hello_body, written, documented,
    answer_length, second, answer_body, solved, Option.bind_eq_bind, Option.bind_some, if_true]

end AccessPoint

/-- Whatever the pace at which the bytes of the handshake are sent and arrive, the client comes to two
keys, and the access point, from what the client has sent, to the same two the other way around. What is
behind the response is left to be decoded, what is sent behind the handshake is left to the access
point, and what either side encodes from then on, the other decodes. -/
theorem keys_agreed {hmac : Bytes → Bytes → Bytes} (delivers : tokio.Delivers sent incoming)
    (computes : mac.Computes hmac 20) (lawful : shannon.Lawful) {key_data client_nonce : Bytes}
    (hello_sized : messages.client_hello.Sized
      (hello_message (DHLocalKeys.random key_data).public_key_bytes client_nonce))
    (response_sized : ∀ challenge, challenge.length = 20 → messages.client_response.Sized ⟨challenge⟩)
    {ap : AccessPoint}
    (understands : ap.Understands messages (DHLocalKeys.random key_data).public_key_bytes client_nonce)
    {connection : T} {rest : Bytes} (arrives : incoming connection = ap.response ++ rest) :
    ∃ (start : Handshake W R S) (log : List HandshakeEffect) (connection' : T)
      (said send_key recv_key : Bytes),
      handshake build tokio messages key_data client_nonce connection = some start ∧
      Resolves (Handshake.poll build tokio messages mac shannon) start log
        (connection', .new shannon send_key recv_key) ∧
      sent connection' = sent connection ++ said ∧ incoming connection' = rest ∧
      (∀ more, ap.accept hmac shannon (said ++ more) = some (.new shannon recv_key send_key, more)) ∧
      Understood build shannon (.new shannon send_key recv_key) (.new shannon recv_key send_key) ∧
      Understood build shannon (.new shannon recv_key send_key) (.new shannon send_key recv_key) := by
  let keys := DHLocalKeys.random key_data
  let hello := plain_packet [0, 4]
    (messages.client_hello.write_to_vec (hello_message keys.public_key_bytes client_nonce))
  have secret : keys.shared_secret ap.keys.public_key_bytes =
      ap.keys.shared_secret keys.public_key_bytes := by
    rw [AccessPoint.keys, DHLocalKeys.shared_secret_random, DHLocalKeys.shared_secret_random, mul_comm]
  obtain ⟨challenge, send_key, recv_key, documented⟩ : ∃ challenge send_key recv_key,
      documented_keys hmac (keys.shared_secret ap.keys.public_key_bytes) (hello ++ ap.response) =
        (challenge, send_key, recv_key) := ⟨_, _, _, rfl⟩
  have size : challenge.length = 20 := by
    cases documented
    exact computes.length ..
  have limit := understands.limit
  have whole : ap.response.length = 4 + ap.message.length := by
    simp [AccessPoint.response, plain_packet]
  have announced : read_be (ap.response.take 4) = ap.response.length := by
    have announced := announced_plain [] ap.message [] (show 0 + 4 + ap.message.length < 2 ^ 32 by omega)
    rwa [List.append_nil] at announced
  have hello_small : hello.length + 2 ^ 32 < 2 ^ 63 := by
    have hello_limit : (messages.client_hello.write_to_vec
      (hello_message keys.public_key_bytes client_nonce)).length < 2 ^ 31 := hello_sized.limit
    simp only [hello, plain_packet, List.length_append, Bytes.length_be, List.length_cons,
      List.length_nil]
    omega
  obtain ⟨own, tail⟩ := @RecvPacket.whole_packet ap.response rest (by omega) announced
  have body : ap.response.drop 4 = ap.message := body_plain [] ap.message
  obtain ⟨connection1, written, sent1, incoming1⟩ := delivers.writes HandshakeEffect connection hello
  obtain ⟨read, connection2, reading, received, sent2, incoming2⟩ :=
    RecvPacket.receives build delivers hello_small (by rw [own]; omega)
      (by rw [own, List.length_append]; omega)
      (by rw [tail, body]; exact understands.response) (incoming1.trans arrives)
  rw [own, List.take_left] at received
  rw [own, List.drop_left] at incoming2
  obtain ⟨connection3, keyed, sent3, incoming3⟩ := ap_response_resolves computes shannon
    delivers response_sized keys received documented
  let wrap (write : W) : Handshake W R S := ⟨keys, .ClientHello write⟩
  refine ⟨wrap (tokio.write_all connection hello), _, connection3,
    hello ++ plain_packet [] (messages.client_response.write_to_vec ⟨challenge⟩), send_key, recv_key,
    ?_, Future.chain_silent wrap written ?_ ?_ keyed, ?_, ?_, ?_,
    understood_mirrored build lawful send_key recv_key recv_key,
    understood_mirrored build lawful recv_key send_key send_key⟩
  · rw [handshake]
    exact Option.bind_eq_some_iff.mpr ⟨_, client_hello_eq hello_sized _, rfl⟩
  · intro f f' waiting
    simp only [wrap, Handshake.poll, Handshake.poll_client_hello, waiting]
    rfl
  · intro f f' ready
    simp only [wrap, Handshake.poll, Handshake.poll_client_hello, ready, Call.unwrap_eq,
      reading, Call.bind_some, List.nil_append]
  · rw [sent3, sent2, sent1, List.append_assoc]
  · rw [incoming3, incoming2]
  · rw [secret] at documented
    exact AccessPoint.accepts shannon understands hello_sized size (response_sized challenge size) documented

/-! An access point whose private key is two, at the other end of a slow socket. -/

def write_ap_response (gs : Bytes) : Bytes :=
  bytes_field 0xa (bytes_field 0xa (bytes_field 0xa
      (bytes_field 0xa gs ++ varint_field 0x14 0 ++ bytes_field 0x1e [])) ++
    bytes_field 0x14 [] ++ bytes_field 0x1e [] ++ bytes_field 0x28 [] ++ bytes_field 0x32 [])

def key_four : AccessPoint where
  key_data := List.replicate 94 0 ++ [2]
  ap_response := write_ap_response
  parse_client_hello data :=
    if data = write_client_hello (hello_message [8] [1, 2]) then some [8] else none
  parse_client_response data :=
    let hmac := (data.drop 6).take 20
    if data = write_client_response ⟨hmac⟩ then some hmac else none

def four_messages : KeyExchange :=
  { small_messages with
    parse_ap_response data := if data = write_ap_response [4] then some ⟨some [4]⟩ else none }

set_option maxRecDepth 2000 in
theorem public_four : key_four.keys.public_key_bytes = [4] := by
  have private_key : read_be key_four.key_data = 2 := by decide
  simp [AccessPoint.keys, DHLocalKeys.random, DHLocalKeys.public_key_bytes, private_key, powm, powm_loop,
    DH_GENERATOR, DH_PRIME, to_bytes_be]

theorem key_four_understands : key_four.Understands four_messages [8] [1, 2] where
  hello := by decide
  response := by
    rw [AccessPoint.message, public_four]
    simp only [four_messages, key_four, if_true]
  answer challenge size := by
    have written : ((write_client_response ⟨challenge⟩).drop 6).take 20 = challenge := by
      simp [write_client_response, bytes_field, Bytes.varint, size]
    simp only [key_four, four_messages, small_messages, written, if_true]
  limit := by
    rw [AccessPoint.message, public_four]
    decide

theorem keys_agreed_four : ∃ start log connection' said send_key recv_key,
    handshake .debug Socket.transfers four_messages private_three [1, 2]
      ⟨[], key_four.response ++ [9], [some 4, none, some 0, some 90, none, some 1, none]⟩ = some start ∧
    Resolves (Handshake.poll .debug Socket.transfers four_messages (Mac.buffered Sha1.hmac)
      Shannon.cipher) start log (connection', .new Shannon.cipher send_key recv_key) ∧
    connection'.sent = said ∧ ∀ more, key_four.accept Sha1.hmac Shannon.cipher (said ++ more) =
      some (.new Shannon.cipher recv_key send_key, more) := by
  have hello_sized : four_messages.client_hello.Sized
      (hello_message (DHLocalKeys.random private_three).public_key_bytes [1, 2]) := by
    rw [public_eight]
    exact ⟨by decide, by decide⟩
  have understands : key_four.Understands four_messages
      (DHLocalKeys.random private_three).public_key_bytes [1, 2] := by
    rw [public_eight]
    exact key_four_understands
  obtain ⟨start, log, connection', said, send_key, recv_key, begun, resolves, sent, _, accepts, _⟩ :=
    @keys_agreed Socket _ _ _ (Bytes × Bytes) Shannon .debug Socket.transfers four_messages _
      Shannon.cipher _ _ _ Socket.delivers (Mac.buffered_computes Sha1.length_hmac) Shannon.lawful
      private_three [1, 2] hello_sized (fun _ => client_response_sized) key_four understands
      ⟨[], key_four.response ++ [9], [some 4, none, some 0, some 90, none, some 1, none]⟩ [9] rfl
  exact ⟨start, log, connection', said, send_key, recv_key, begun, resolves, sent, accepts⟩

end ConnectScrobbler
