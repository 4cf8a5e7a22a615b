import ConnectScrobbler.Core.Connection.Receive
import ConnectScrobbler.Lib.Sha1
import ConnectScrobbler.Lib.Shannon

/-! What the handshake sends, what it computes its keys from, and which keys these
are, beside `docs/connection.md`. -/
namespace ConnectScrobbler

open Bytes (be read_be varint bytes_field)
open Future (Resolves silent)

def key_material (hmac : Bytes → Bytes → Bytes) (shared packets : Bytes) : Bytes :=
  [1, 2, 3, 4, 5].flatMap fun i => hmac shared (packets ++ [i])

/-- The challenge and the two keys of the documentation, from both packets. The first
argument of `hmac` is its key. -/
def documented_keys (hmac : Bytes → Bytes → Bytes) (shared packets : Bytes) :
    Bytes × Bytes × Bytes :=
  let data := key_material hmac shared packets
  (hmac (data.take 20) packets, (data.drop 20).take 32, (data.drop 52).take 32)

/-- What is written has the computed size, and keeps to protobuf's limit of two gigabytes. -/
structure Message.Sized {M : Type} (message : Message M) (m : M) : Prop where
  sizes : (message.compute_size m).toNat = (message.write_to_vec m).length
  limit : (message.write_to_vec m).length < 2 ^ 31

variable {T W R E H S : Type} {build : Build} {tokio : Transfers T W R E} {messages : KeyExchange}
  {mac : Mac H} {shannon : Cipher S} {sent incoming : T → Bytes}

section Keys

variable {hmac : Bytes → Bytes → Bytes}

theorem compute_keys_loop (computes : mac.Computes hmac 20) (key packets : Bytes) (is : List UInt8)
    (data : Bytes) {state : H} (holds : mac.Holds key [] state) :
    ∃ state', mac.Holds key [] state' ∧ is.foldl
      (fun (data, state) (i : UInt8) =>
        let state := mac.input packets state
        let state := mac.input [i] state
        let (code, state) := mac.result state
        (data ++ code, mac.reset state))
      (data, state) = (data ++ is.flatMap (fun i => hmac key (packets ++ [i])), state') := by
  induction is generalizing data state with
  | nil => exact ⟨state, holds, by simp⟩
  | cons i is ih =>
    have given := (holds.input packets).input [i]
    obtain ⟨state', holds', rest⟩ := ih (data ++ hmac key (packets ++ [i])) given.reset
    refine ⟨state', holds', ?_⟩
    rw [List.foldl_cons, List.flatMap_cons, ← List.append_assoc, ← rest]
    simp only [computes.results key _ _ given, List.nil_append]

theorem length_key_material (computes : mac.Computes hmac 20) (shared packets : Bytes) :
    (key_material hmac shared packets).length = 100 := by
  simp [key_material, computes.length]

/-- `compute_keys` does what the documentation says. -/
theorem compute_keys_documented (computes : mac.Computes hmac 20) (shared packets : Bytes) :
    compute_keys mac shared packets = some (documented_keys hmac shared packets) := by
  obtain ⟨_, _, loop⟩ := compute_keys_loop computes shared packets [1, 2, 3, 4, 5] [] .new
  have length := length_key_material computes shared packets
  have first : slice 0 0x14 (key_material hmac shared packets) =
      some ((key_material hmac shared packets).take 20) := by
    rw [slice, if_pos (by omega), List.drop_zero]
  have second : slice 0x14 0x34 (key_material hmac shared packets) =
      some (((key_material hmac shared packets).drop 20).take 32) := by
    rw [slice, if_pos (by omega), List.drop_take]
  have third : slice 0x34 0x54 (key_material hmac shared packets) =
      some (((key_material hmac shared packets).drop 52).take 32) := by
    rw [slice, if_pos (by omega), List.drop_take]
  have code := computes.results ((key_material hmac shared packets).take 20) _ _
    (.input packets .new)
  rw [compute_keys, loop, List.nil_append]
  change (do
    let key ← slice 0 0x14 (key_material hmac shared packets)
    let send_key ← slice 0x14 0x34 (key_material hmac shared packets)
    let recv_key ← slice 0x34 0x54 (key_material hmac shared packets)
    some ((mac.result (mac.input packets (mac.new key))).1, send_key, recv_key)) = _
  rw [first, second, third]
  simp only [Option.bind_eq_bind, Option.bind_some, code]
  rfl

end Keys

def hello_message (gc client_nonce : Bytes) : ClientHello :=
  { product := PRODUCT_PARTNER
    platform := PLATFORM_LINUX_X86
    version := 0x10800000000
    cryptosuites_supported := [CRYPTO_SUITE_SHANNON]
    gc
    server_keys_known := 1
    client_nonce
    padding := [0x1e] }

theorem written_packet (build : Build) {M : Type} {message : Message M} {m : M}
    (sized : message.Sized m) (header : Bytes) (short : header.length < 2 ^ 30) :
    ∃ size, build.add (BitVec.ofNat 32 (header.length + 4)) (message.compute_size m) = some size ∧
      header ++ be 4 size.toNat ++ message.write_to_vec m =
        plain_packet header (message.write_to_vec m) := by
  have size := sized.sizes
  have limit := sized.limit
  have own : (BitVec.ofNat 32 (header.length + 4)).toNat = header.length + 4 := by
    rw [BitVec.toNat_ofNat, Nat.mod_eq_of_lt (by omega)]
  refine ⟨_, Build.add_fits build (by rw [own, size]; omega), ?_⟩
  rw [BitVec.toNat_add, own, size, Nat.mod_eq_of_lt (by omega), plain_packet]

theorem client_hello_eq {gc client_nonce : Bytes}
    (sized : messages.client_hello.Sized (hello_message gc client_nonce)) (connection : T) :
    client_hello build tokio messages client_nonce connection gc = some (tokio.write_all connection
      (plain_packet [0, 4] (messages.client_hello.write_to_vec (hello_message gc client_nonce)))) := by
  obtain ⟨size, added, written⟩ := written_packet build sized [0, 4] (by decide)
  rw [← written]
  exact Option.bind_eq_some_iff.mpr ⟨size, added, rfl⟩

theorem client_response_eq {challenge : Bytes} (sized : messages.client_response.Sized ⟨challenge⟩)
    (connection : T) :
    client_response build tokio messages connection challenge = some (tokio.write_all connection
      (plain_packet [] (messages.client_response.write_to_vec ⟨challenge⟩))) := by
  obtain ⟨size, added, written⟩ := written_packet build sized [] (by decide)
  rw [← written]
  exact Option.bind_eq_some_iff.mpr ⟨size, added, rfl⟩

theorem client_response_resolves (build : Build) (messages : KeyExchange) (mac : Mac H)
    (shannon : Cipher S) (delivers : tokio.Delivers sent incoming) (keys : DHLocalKeys)
    (codec : APCodec S) (connection : T) (buffer : Bytes) : ∃ connection',
    Resolves (Handshake.poll build tokio messages mac shannon)
      (⟨keys, .ClientResponse (some codec) (tokio.write_all connection buffer)⟩ : Handshake W R S)
      [] (connection', codec) ∧
    sent connection' = sent connection ++ buffer ∧ incoming connection' = incoming connection := by
  obtain ⟨connection', written, sent', incoming'⟩ :=
    delivers.writes HandshakeEffect connection buffer
  let wrap (write : W) : Handshake W R S := ⟨keys, .ClientResponse (some codec) write⟩
  refine ⟨connection', Future.finish_silent wrap written ?_ ?_, sent', incoming'⟩
  · intro f f' waiting
    simp only [wrap, Handshake.poll, Handshake.poll_client_response, waiting]
    rfl
  · intro f f' ready
    simp only [wrap, Handshake.poll, Handshake.poll_client_response, ready]
    exact ⟨_, rfl⟩

theorem ap_response_resolves {hmac : Bytes → Bytes → Bytes} (computes : mac.Computes hmac 20)
    (shannon : Cipher S) (delivers : tokio.Delivers sent incoming)
    (sized : ∀ challenge, challenge.length = 20 → messages.client_response.Sized ⟨challenge⟩)
    (keys : DHLocalKeys) {read : RecvPacket R} {connection : T} {message : APResponseMessage}
    {packets challenge send_key recv_key : Bytes} {log : List HandshakeEffect}
    (received : Resolves (RecvPacket.poll build tokio messages) read log
      (connection, message, packets))
    (documented : documented_keys hmac (keys.shared_secret message.get_gs) packets =
      (challenge, send_key, recv_key)) : ∃ connection',
    Resolves (Handshake.poll build tokio messages mac shannon)
      (⟨keys, .APResponse read⟩ : Handshake W R S)
      (log ++ [.compute_keys (keys.shared_secret message.get_gs) packets])
      (connection', .new shannon send_key recv_key) ∧
    sent connection' = sent connection ++
      plain_packet [] (messages.client_response.write_to_vec ⟨challenge⟩) ∧
    incoming connection' = incoming connection := by
  obtain ⟨connection', answered, sent', incoming'⟩ :=
    client_response_resolves build messages mac shannon delivers keys
      (.new shannon send_key recv_key) connection
      (plain_packet [] (messages.client_response.write_to_vec ⟨challenge⟩))
  have size : challenge.length = 20 := by
    cases documented
    exact computes.length ..
  let wrap (read : RecvPacket R) : Handshake W R S := ⟨keys, .APResponse read⟩
  have keyed := received.chain wrap [.compute_keys (keys.shared_secret message.get_gs) packets]
    ?_ ?_ answered
  · rw [List.append_nil] at keyed
    exact ⟨connection', keyed, sent', incoming'⟩
  · intro f f' log waiting
    simp only [wrap, Handshake.poll, Handshake.poll_ap_response, waiting, Call.bind_some]
    simp
  · intro f f' log ready
    have made := compute_keys_documented computes (keys.shared_secret message.get_gs) packets
    rw [documented] at made
    simp only [wrap, Handshake.poll, Handshake.poll_ap_response, ready, Call.bind_some, Call.emit_eq,
      Call.unwrap_eq, made, client_response_eq (sized challenge size), List.nil_append, List.append_assoc]

/-- The handshake, whatever the pace at which its bytes are sent and arrive: the keys
are computed from the hello as it was sent and the response as it arrived, the
message is parsed from the response's body, and the keys are the documented ones. -/
theorem handshake_transcript {hmac : Bytes → Bytes → Bytes}
    (delivers : tokio.Delivers sent incoming) (computes : mac.Computes hmac 20)
    {key_data client_nonce : Bytes} (hello_sized : messages.client_hello.Sized
      (hello_message (DHLocalKeys.random key_data).public_key_bytes client_nonce))
    (response_sized : ∀ challenge, challenge.length = 20 →
      messages.client_response.Sized ⟨challenge⟩) {connection : T} {response rest : Bytes}
    {message : APResponseMessage} (whole : 4 ≤ response.length)
    (announced : read_be (response.take 4) = response.length)
    (parses : messages.parse_ap_response (response.drop 4) = some message)
    (arrives : incoming connection = response ++ rest) :
    let keys := DHLocalKeys.random key_data
    let hello := plain_packet [0, 4]
      (messages.client_hello.write_to_vec (hello_message keys.public_key_bytes client_nonce))
    let shared := keys.shared_secret message.get_gs
    let (challenge, send_key, recv_key) := documented_keys hmac shared (hello ++ response)
    read_be ((hello.drop 2).take 4) = hello.length ∧
    ∃ (start : Handshake W R S) (connection' : T),
      handshake build tokio messages key_data client_nonce connection = some start ∧
      Resolves (Handshake.poll build tokio messages mac shannon) start
        [.parse (response.drop 4), .compute_keys shared (hello ++ response)]
        (connection', .new shannon send_key recv_key) ∧
      sent connection' = sent connection ++ hello ++
        plain_packet [] (messages.client_response.write_to_vec ⟨challenge⟩) ∧
      incoming connection' = rest := by
  intro keys hello shared
  have limit : (messages.client_hello.write_to_vec
      (hello_message keys.public_key_bytes client_nonce)).length < 2 ^ 31 := hello_sized.limit
  have hello_length : hello.length = 6 + (messages.client_hello.write_to_vec
      (hello_message keys.public_key_bytes client_nonce)).length := by
    simp only [hello, plain_packet, List.length_append, Bytes.length_be, List.length_cons,
      List.length_nil]
  generalize documented : documented_keys hmac shared (hello ++ response) = made
  obtain ⟨challenge, send_key, recv_key⟩ := made
  obtain ⟨connection1, written, sent1, incoming1⟩ :=
    delivers.writes HandshakeEffect connection hello
  obtain ⟨own, tail⟩ := @RecvPacket.whole_packet response rest whole announced
  have small : hello.length + 2 ^ 32 < 2 ^ 63 := by omega
  obtain ⟨read, connection2, reading, received, sent2, incoming2⟩ :=
    RecvPacket.receives build delivers small (by rw [own]; exact whole)
      (by rw [own, List.length_append]; omega) (by rw [tail]; exact parses)
      (incoming1.trans arrives)
  rw [own, tail, List.take_left] at received
  rw [own, List.drop_left] at incoming2
  obtain ⟨connection3, keyed, sent3, incoming3⟩ := ap_response_resolves computes shannon
    delivers response_sized keys received documented
  let wrap (write : W) : Handshake W R S := ⟨keys, .ClientHello write⟩
  refine ⟨?_, wrap (tokio.write_all connection hello), connection3, ?_, ?_, ?_, ?_⟩
  · show read_be ((be 4 _ ++ _).take 4) = _
    rw [List.take_left' (Bytes.length_be 4 _), Bytes.read_be_be_of_lt, hello_length]
    · rfl
    · show 2 + 4 + _ < 256 ^ 4
      omega
  · rw [handshake]
    exact Option.bind_eq_some_iff.mpr ⟨_, client_hello_eq hello_sized _, rfl⟩
  · refine Future.chain_silent wrap written ?_ ?_ keyed
    · intro f f' waiting
      simp only [wrap, Handshake.poll, Handshake.poll_client_hello, waiting]
      rfl
    · intro f f' ready
      simp only [wrap, Handshake.poll, Handshake.poll_client_hello, ready, Call.unwrap_eq,
        reading, Call.bind_some, List.nil_append]
  · rw [sent3, sent2, sent1]
  · rw [incoming3, incoming2]

/-! A small handshake over a slow socket, with HMAC-SHA1 and Shannon. -/

def private_three : Bytes := List.replicate 94 0 ++ [3]

set_option maxRecDepth 2000 in
theorem public_eight : (DHLocalKeys.random private_three).public_key_bytes = [8] := by
  have private_key : Bytes.read_be private_three = 3 := by decide
  simp [DHLocalKeys.random, DHLocalKeys.public_key_bytes, private_key, powm, powm_loop, DH_GENERATOR,
    DH_PRIME, to_bytes_be]

theorem client_response_sized {challenge : Bytes} (size : challenge.length = 20) :
    small_messages.client_response.Sized ⟨challenge⟩ := by
  have length : (write_client_response ⟨challenge⟩).length = 32 := by
    simp [write_client_response, bytes_field, varint, size]
  constructor
  · show (BitVec.ofNat 32 (write_client_response ⟨challenge⟩).length).toNat = _
    rw [length]
    exact length.symm
  · show (write_client_response ⟨challenge⟩).length < _
    rw [length]
    decide

theorem slow_handshake_transcript :
    let hello := plain_packet [0, 4] (write_client_hello (hello_message [8] [1, 2]))
    let shared := (DHLocalKeys.random private_three).shared_secret [5]
    let packets := hello ++ plain_packet [] challenge_five
    let keys := documented_keys Sha1.hmac shared packets
    ∃ start connection',
      handshake .debug Socket.transfers small_messages private_three [1, 2] slow_socket =
        some start ∧
      Resolves (Handshake.poll .debug Socket.transfers small_messages (Mac.buffered Sha1.hmac)
        Shannon.cipher) start [.parse challenge_five, .compute_keys shared packets]
        (connection', .new Shannon.cipher keys.2.1 keys.2.2) ∧
      connection'.sent = hello ++ plain_packet [] (write_client_response ⟨keys.1⟩) := by
  have hello_sized : small_messages.client_hello.Sized
      (hello_message (DHLocalKeys.random private_three).public_key_bytes [1, 2]) := by
    rw [public_eight]
    exact ⟨by decide, by decide⟩
  have transcript := @handshake_transcript Socket _ _ _ (Bytes × Bytes) Shannon .debug
    Socket.transfers small_messages _ Shannon.cipher _ _ _ Socket.delivers
    (Mac.buffered_computes Sha1.length_hmac) private_three [1, 2] hello_sized
    (fun _ => client_response_sized) slow_socket (plain_packet [] challenge_five) [9] ⟨some [5]⟩
    (by decide) (by decide) (by decide) rfl
  simp only [public_eight] at transcript
  obtain ⟨_, start, connection', begun, resolves, sent, _⟩ := transcript
  exact ⟨start, connection', begun, resolves, sent⟩

end ConnectScrobbler
