import ConnectScrobbler.Core.Connection.Handshake

/-! Receiving the first packet of the peer, before anything is known of it. -/
namespace ConnectScrobbler

open Bytes (be read_be varint_field bytes_field)
open Future (Awaits Panics Resolves silent)

variable {T W R E : Type} {build : Build} {tokio : Transfers T W R E} {messages : KeyExchange}
  {sent incoming : T → Bytes} {acc : Bytes}

/-- An accumulator with room for the bytes to come, and the window on that room. -/
def room (acc : Bytes) (size : Nat) : Window :=
  ⟨acc ++ List.replicate size 0, acc.length, acc.length + size⟩

@[simp] theorem len_room (size : Nat) : (room acc size).len = size :=
  Nat.add_sub_cancel_left ..

theorem start_room (size : Nat) : (room acc size).start ≤ (room acc size).end_ :=
  Nat.le_add_right ..

theorem end_room (size : Nat) : (room acc size).end_ ≤ (room acc size).inner.length := by
  simp [room]

theorem into_inner_room (acc data : Bytes) :
    ((room acc data.length).put 0 data).into_inner = acc ++ data := by
  simp [room, Window.put, Window.into_inner]

theorem as_ref_room (acc data : Bytes) : ((room acc data.length).put 0 data).as_ref = data := by
  have inner := into_inner_room acc data
  rw [Window.into_inner] at inner
  rw [Window.as_ref, inner]
  show ((acc ++ data).take (acc.length + data.length)).drop acc.length = data
  rw [← List.length_append, List.take_length, List.drop_left]

theorem toNat_length {acc : Bytes} (small : acc.length < 2 ^ 64) :
    (BitVec.ofNat 64 acc.length).toNat = acc.length := by
  rw [BitVec.toNat_ofNat, Nat.mod_eq_of_lt small]

theorem read_into_accumulator_eq (build : Build) (tokio : Transfers T W R E) (connection : T)
    {size : BitVec 64} (small : acc.length + size.toNat < 2 ^ 63) :
    read_into_accumulator build tokio connection size acc =
      some (tokio.read_exact connection (room acc size.toNat)) := by
  have offset : (BitVec.ofNat 64 acc.length).toNat = acc.length := toNat_length (by omega)
  have total : (BitVec.ofNat 64 acc.length + size).toNat = acc.length + size.toNat := by
    rw [BitVec.toNat_add, offset, Nat.mod_eq_of_lt (by omega)]
  have resized : resize (acc.length + size.toNat) acc = some (room acc size.toNat).inner := by
    rw [resize, if_pos small, List.take_of_length_le (Nat.le_add_right ..), Nat.add_sub_cancel_left]
    rfl
  have windowed : (Window.new (room acc size.toNat).inner).set_start acc.length =
      some (room acc size.toNat) := by
    simp [room, Window.new, Window.set_start]
  rw [read_into_accumulator, Build.add_fits build (by rw [offset]; omega)]
  simp only [Option.bind_eq_bind, Option.bind_some, total, offset, resized, windowed]
  rfl

/-- A packet before encryption: a header, the length of the whole packet, the message. -/
def plain_packet (header message : Bytes) : Bytes :=
  header ++ be 4 (header.length + 4 + message.length) ++ message

/-- The length that a packet announces is its own, with the four bytes that say it. -/
def announced_length (packet : Bytes) : Nat := read_be (packet.take 4)

theorem announced_lt (packet : Bytes) : announced_length packet < 2 ^ 32 := by
  have limit := Bytes.read_be_lt (packet.take 4)
  have short : (packet.take 4).length ≤ 4 := by simp
  calc announced_length packet < 256 ^ (packet.take 4).length := limit
    _ ≤ 256 ^ 4 := Nat.pow_le_pow_right (by decide) short

theorem toNat_announced (packet : Bytes) :
    (BitVec.ofNat 64 (announced_length packet)).toNat = announced_length packet := by
  have small := announced_lt packet
  rw [BitVec.toNat_ofNat, Nat.mod_eq_of_lt (by omega)]

theorem toNat_four : (4 : BitVec 64).toNat = 4 := rfl

theorem rest_length (build : Build) {packet : Bytes} (counted : 4 ≤ announced_length packet) :
    ∃ left, build.sub (BitVec.ofNat 64 (announced_length packet)) 4 = some left ∧
      left.toNat = announced_length packet - 4 := by
  have size := toNat_announced packet
  refine ⟨_, Build.sub_fits build (by rw [size, toNat_four]; exact counted), ?_⟩
  rw [BitVec.toNat_sub_of_le (by rw [BitVec.le_def, size, toNat_four]; exact counted), size,
    toNat_four]

/-- A length that does not even count its own four bytes: a debug build stops at the
subtraction, a release build wraps around twice, cuts the accumulator short and
stops at the start of the window, which is now out of bounds. -/
theorem short_length_panics (build : Build) (tokio : Transfers T W R E) (connection : T)
    {packet : Bytes} (small : acc.length < 2 ^ 63) (header : 4 ≤ acc.length)
    (short : announced_length packet < 4) :
    (build.sub (BitVec.ofNat 64 (announced_length packet)) 4).bind
      (fun left => read_into_accumulator build tokio connection left acc) = none := by
  have size := toNat_announced packet
  have offset : (BitVec.ofNat 64 acc.length).toNat = acc.length := toNat_length (by omega)
  cases build with
  | debug =>
    have stops : Build.sub .debug (BitVec.ofNat 64 (announced_length packet)) 4 = none :=
      if_pos ⟨rfl, by rw [size, toNat_four]; exact short⟩
    rw [stops, Option.bind_none]
  | release =>
    have total : (BitVec.ofNat 64 acc.length + (BitVec.ofNat 64 (announced_length packet) - 4)).toNat =
        acc.length + announced_length packet - 4 := by
      rw [BitVec.toNat_add, BitVec.toNat_sub, offset, size, toNat_four]
      omega
    have cut : resize (acc.length + announced_length packet - 4) acc =
        some (acc.take (acc.length + announced_length packet - 4)) := by
      have none : acc.length + announced_length packet - 4 - acc.length = 0 := by omega
      rw [resize, if_pos (by omega), none, List.replicate_zero, List.append_nil]
    have outside : (Window.new (acc.take (acc.length + announced_length packet - 4))).set_start acc.length =
        none := by
      apply if_neg
      simp only [Window.new, List.length_take]
      omega
    simp only [Build.sub, Build.add, read_into_accumulator, reduceCtorEq, false_and, if_false,
      Option.bind_some, Option.bind_eq_bind, total, cut, offset, outside, Option.bind_none]

namespace RecvPacket

theorem header_awaits : Awaits tokio.poll_read (poll build tokio messages) .Header := by
  constructor
  · intro f f' waiting
    simp only [poll, poll_header, waiting]
    rfl
  · intro f f' e failed
    simp only [poll, poll_header, failed]
    rfl

theorem body_awaits : Awaits tokio.poll_read (poll build tokio messages) .Body := by
  constructor
  · intro f f' waiting
    simp only [poll, poll_body, waiting]
    rfl
  · intro f f' e failed
    simp only [poll, poll_body, failed]
    rfl

theorem recv_packet_eq (build : Build) (tokio : Transfers T W R E) (connection : T)
    (small : acc.length + 2 ^ 32 < 2 ^ 63) :
    recv_packet build tokio connection acc =
      some (.Header (tokio.read_exact connection (room acc 4))) := by
  rw [recv_packet, read_into_accumulator_eq build tokio connection (by rw [toNat_four]; omega)]
  rfl

section Read

variable {connection : T} {read read' : R} {packet : Bytes}

/-- What the loop does in state `Header` once the four bytes of the length are there. -/
theorem poll_header_read (build : Build) (messages : KeyExchange) (whole : 4 ≤ packet.length)
    (ready : tokio.poll_read read =
      (.ok (.ready (connection, (room acc 4).put 0 (packet.take 4))), read')) :
    poll build tokio messages (.Header read) =
      Call.unwrap ((build.sub (BitVec.ofNat 64 (announced_length packet)) 4).bind
        (fun left => read_into_accumulator build tokio connection left (acc ++ packet.take 4))) >>=
      fun read => poll build tokio messages (.Body read) := by
  have length : (packet.take 4).length = 4 := by simp [whole]
  have seen := as_ref_room acc (packet.take 4)
  have inner := into_inner_room acc (packet.take 4)
  rw [length] at seen inner
  simp only [poll, poll_header, ready, seen, inner, List.take_take, Nat.min_self]
  cases difference : build.sub (BitVec.ofNat 64 (announced_length packet)) 4 <;>
    simp [announced_length] at difference <;> simp [difference]

theorem header_goes_on (build : Build) (messages : KeyExchange) (small : acc.length + 2 ^ 32 < 2 ^ 63)
    (whole : 4 ≤ packet.length) (counted : 4 ≤ announced_length packet)
    (ready : tokio.poll_read read =
      (.ok (.ready (connection, (room acc 4).put 0 (packet.take 4))), read')) :
    poll build tokio messages (.Header read) = poll build tokio messages (.Body
      (tokio.read_exact connection (room (acc ++ packet.take 4) (announced_length packet - 4)))) := by
  obtain ⟨left, subtracted, difference⟩ := rest_length build counted
  have bound := announced_lt packet
  have fits : (acc ++ packet.take 4).length + left.toNat < 2 ^ 63 := by
    rw [List.length_append, List.length_take, difference]
    omega
  rw [poll_header_read build messages whole ready, subtracted, Option.bind_some,
    read_into_accumulator_eq build tokio connection fits, difference]
  simp

theorem header_panics (build : Build) (messages : KeyExchange) (small : acc.length + 2 ^ 32 < 2 ^ 63)
    (whole : 4 ≤ packet.length) (short : announced_length packet < 4)
    (ready : tokio.poll_read read =
      (.ok (.ready (connection, (room acc 4).put 0 (packet.take 4))), read')) :
    Panics (poll build tokio messages) (.Header read) := by
  have length : (acc ++ packet.take 4).length = acc.length + 4 := by simp [whole]
  apply Panics.now
  rw [poll_header_read build messages whole ready, short_length_panics build tokio connection
    (by omega) (by omega) short]
  simp

theorem poll_body_read (build : Build) (messages : KeyExchange) {data : Bytes}
    (ready : tokio.poll_read read =
      (.ok (.ready (connection, (room acc data.length).put 0 data)), read')) :
    poll build tokio messages (.Body read) = ⟨[.parse data],
      (messages.parse_ap_response data).map
        fun message => (.ok (.ready (connection, message, acc ++ data)), .Body read')⟩ := by
  simp only [poll, poll_body, ready, as_ref_room, into_inner_room]
  cases messages.parse_ap_response data <;> simp

end Read

section Peer

variable {connection t : T} {w : Window} {size : Nat} {bytes : Bytes}

theorem room_filled (O : Type) (delivers : tokio.Delivers sent incoming) (acc : Bytes)
    (enough : size ≤ (incoming connection).length) : ∃ t,
    Resolves (silent (O := O) tokio.poll_read) (tokio.read_exact connection (room acc size)) []
      (t, (room acc size).put 0 ((incoming connection).take size)) ∧
      sent t = sent connection ∧ incoming t = (incoming connection).drop size := by
  have reads := delivers.reads O connection (room acc size) (start_room size) (end_room size)
  rw [len_room] at reads
  exact reads enough

theorem room_seen {O : Type} (fills : tokio.Fills incoming)
    (resolves : Resolves (silent (O := O) tokio.poll_read)
      (tokio.read_exact connection (room acc size)) [] (t, w)) :
    size ≤ (incoming connection).length ∧
      w = (room acc size).put 0 ((incoming connection).take size) ∧
      incoming t = (incoming connection).drop size := by
  have seen := fills O connection (room acc size) t w (start_room size) (end_room size) resolves
  rwa [len_room] at seen

/-- The body of a packet, for the length that it announces. -/
def body (packet : Bytes) : Bytes := (packet.take (announced_length packet)).drop 4

theorem length_body (there : announced_length bytes ≤ bytes.length) :
    (body bytes).length = announced_length bytes - 4 := by
  simp [body, there]

theorem body_eq (bytes : Bytes) : body bytes = (bytes.drop 4).take (announced_length bytes - 4) :=
  List.drop_take ..

theorem whole_packet {response rest : Bytes} (whole : 4 ≤ response.length)
    (own : read_be (response.take 4) = response.length) :
    announced_length (response ++ rest) = response.length ∧
      body (response ++ rest) = response.drop 4 := by
  have announced : announced_length (response ++ rest) = response.length := by
    rw [announced_length, List.take_append_of_le_length whole, own]
  refine ⟨announced, ?_⟩
  rw [body, announced, List.take_left]

theorem header_append_body (counted : 4 ≤ announced_length bytes) :
    bytes.take 4 ++ body bytes = bytes.take (announced_length bytes) := by
  have header : bytes.take 4 = (bytes.take (announced_length bytes)).take 4 := by
    rw [List.take_take, Nat.min_eq_left counted]
  rw [header, body, List.take_append_drop]

theorem body_filled (O : Type) (delivers : tokio.Delivers sent incoming) (acc : Bytes)
    (counted : 4 ≤ announced_length bytes) (there : announced_length bytes ≤ bytes.length)
    (left : incoming connection = bytes.drop 4) : ∃ t,
    Resolves (silent (O := O) tokio.poll_read)
      (tokio.read_exact connection (room acc (announced_length bytes - 4))) []
      (t, (room acc (body bytes).length).put 0 (body bytes)) ∧
      sent t = sent connection ∧ incoming t = bytes.drop (announced_length bytes) := by
  have enough : announced_length bytes - 4 ≤ (incoming connection).length := by
    rw [left, List.length_drop]
    omega
  obtain ⟨t, resolves, still, rest⟩ := room_filled O delivers acc enough
  rw [left, ← body_eq, ← length_body there] at resolves
  rw [left, List.drop_drop, Nat.add_sub_cancel' counted] at rest
  rw [length_body there] at resolves ⊢
  exact ⟨t, resolves, still, rest⟩

theorem body_seen {O : Type} (fills : tokio.Fills incoming) (counted : 4 ≤ announced_length bytes)
    (whole : 4 ≤ bytes.length) (left : incoming connection = bytes.drop 4)
    (resolves : Resolves (silent (O := O) tokio.poll_read)
      (tokio.read_exact connection (room acc (announced_length bytes - 4))) [] (t, w)) :
    announced_length bytes ≤ bytes.length ∧ w = (room acc (body bytes).length).put 0 (body bytes) ∧
      incoming t = bytes.drop (announced_length bytes) := by
  obtain ⟨enough, filled, rest⟩ := room_seen fills resolves
  rw [left, List.length_drop] at enough
  have there : announced_length bytes ≤ bytes.length := by omega
  rw [left, ← body_eq, ← length_body there] at filled
  rw [left, List.drop_drop, Nat.add_sub_cancel' counted] at rest
  exact ⟨there, filled, rest⟩

end Peer

section Receive

variable {connection : T} {bytes : Bytes} {message : APResponseMessage}

theorem body_resolves (build : Build) (messages : KeyExchange) {read : R} {t : T}
    (resolves : Resolves (silent (O := HandshakeEffect) tokio.poll_read) read []
      (t, (room acc (body bytes).length).put 0 (body bytes)))
    (parses : messages.parse_ap_response (body bytes) = some message) :
    Resolves (poll build tokio messages) (.Body read) [.parse (body bytes)]
      (t, message, acc ++ body bytes) := by
  apply Future.finish_silent RecvPacket.Body resolves body_awaits.waits
  intro f f' ready
  refine ⟨.Body f', ?_⟩
  rw [poll_body_read build messages ready, parses]
  rfl

/-- Receiving a packet whose length field is right: its body is parsed, and the
accumulator gets all of it. -/
theorem receives (build : Build) (delivers : tokio.Delivers sent incoming)
    (small : acc.length + 2 ^ 32 < 2 ^ 63) (counted : 4 ≤ announced_length bytes)
    (there : announced_length bytes ≤ bytes.length)
    (parses : messages.parse_ap_response (body bytes) = some message)
    (arrives : incoming connection = bytes) :
    ∃ start t, recv_packet build tokio connection acc = some start ∧
      Resolves (poll build tokio messages) start [.parse (body bytes)]
        (t, message, acc ++ bytes.take (announced_length bytes)) ∧
      sent t = sent connection ∧ incoming t = bytes.drop (announced_length bytes) := by
  subst arrives
  have whole := Nat.le_trans counted there
  obtain ⟨t1, header, still1, left⟩ := room_filled HandshakeEffect delivers acc whole
  obtain ⟨t2, rest, still2, done⟩ :=
    body_filled HandshakeEffect delivers (acc ++ (incoming connection).take 4) counted there left
  have finished := body_resolves build messages rest parses
  rw [List.append_assoc, header_append_body counted] at finished
  refine ⟨_, t2, recv_packet_eq build tokio connection (by omega), ?_, still2.trans still1, done⟩
  apply Future.chain_silent RecvPacket.Header header header_awaits.waits _ finished
  intro f f' ready
  exact header_goes_on build messages small whole counted ready

end Receive

/-- What the peer sends, once there, announces a length that counts its own four bytes
and, once there as far as announced, has a body that parses. -/
def Answerable (messages : KeyExchange) (bytes : Bytes) : Prop :=
  4 ≤ bytes.length → 4 ≤ announced_length bytes ∧
    (announced_length bytes ≤ bytes.length → messages.parse_ap_response (body bytes) ≠ none)

/-- No poll of a packet to receive panics, and one that returns a message has taken the
announced bytes, no more and no less, and parsed the message from them. -/
structure Safe (build : Build) (tokio : Transfers T W R E) (messages : KeyExchange)
    (incoming : T → Bytes) (connection : T) (acc : Bytes) (start : RecvPacket R) : Prop where
  never_panics : ¬ Panics (poll build tokio messages) start
  consumes : ∀ log t message acc',
    Resolves (poll build tokio messages) start log (t, message, acc') →
    announced_length (incoming connection) ≤ (incoming connection).length ∧
      incoming t = (incoming connection).drop (announced_length (incoming connection)) ∧
      acc' = acc ++ (incoming connection).take (announced_length (incoming connection)) ∧
      messages.parse_ap_response (body (incoming connection)) = some message

variable {connection : T}

theorem Answerable.never_panics (build : Build) (fills : tokio.Fills incoming)
    (small : acc.length + 2 ^ 32 < 2 ^ 63) (answerable : Answerable messages (incoming connection)) :
    ¬ Panics (poll build tokio messages) (.Header (tokio.read_exact connection (room acc 4))) := by
  intro panics
  obtain ⟨⟨t1, w1⟩, g1, g1', ready1, read1, panics⟩ := header_awaits.panicked panics
  obtain ⟨whole, rfl, left⟩ := room_seen fills read1
  obtain ⟨counted, parses⟩ := answerable whole
  have later := panics.congr (header_goes_on build messages small whole counted ready1).symm
  obtain ⟨⟨t2, w2⟩, g2, g2', ready2, read2, panics⟩ := body_awaits.panicked later
  obtain ⟨there, rfl, done⟩ := body_seen fills counted whole left read2
  have last := poll_body_read build messages ready2
  obtain ⟨message, parsed⟩ := Option.ne_none_iff_exists'.mp (parses there)
  rw [parsed] at last
  cases panics with
  | now panicked =>
    rw [last] at panicked
    cases panicked
  | waits polled _ =>
    rw [last] at polled
    cases polled

theorem Answerable.consumes (build : Build) (fills : tokio.Fills incoming)
    (small : acc.length + 2 ^ 32 < 2 ^ 63) (answerable : Answerable messages (incoming connection))
    {log : List HandshakeEffect} {t : T} {message : APResponseMessage} {acc' : Bytes}
    (resolved : Resolves (poll build tokio messages)
      (.Header (tokio.read_exact connection (room acc 4))) log (t, message, acc')) :
    announced_length (incoming connection) ≤ (incoming connection).length ∧
      incoming t = (incoming connection).drop (announced_length (incoming connection)) ∧
      acc' = acc ++ (incoming connection).take (announced_length (incoming connection)) ∧
      messages.parse_ap_response (body (incoming connection)) = some message := by
  obtain ⟨⟨t1, w1⟩, g1, g1', ready1, read1, resolved⟩ := header_awaits.resolved resolved
  obtain ⟨whole, rfl, left⟩ := room_seen fills read1
  obtain ⟨counted, parses⟩ := answerable whole
  have later := resolved.congr (header_goes_on build messages small whole counted ready1).symm
  obtain ⟨⟨t2, w2⟩, g2, g2', ready2, read2, resolved⟩ := body_awaits.resolved later
  obtain ⟨there, rfl, done⟩ := body_seen fills counted whole left read2
  have last := poll_body_read build messages ready2
  obtain ⟨parsed_message, parsed⟩ := Option.ne_none_iff_exists'.mp (parses there)
  rw [parsed, List.append_assoc, header_append_body counted] at last
  obtain ⟨polled⟩ | ⟨polled, _⟩ := resolved <;> rw [last] at polled <;> cases polled
  exact ⟨there, done, rfl, parsed⟩

theorem Safe.answerable (delivers : tokio.Delivers sent incoming) (small : acc.length + 2 ^ 32 < 2 ^ 63)
    (never_panics : ¬ Panics (poll build tokio messages)
      (.Header (tokio.read_exact connection (room acc 4)))) :
    Answerable messages (incoming connection) := by
  intro whole
  obtain ⟨t1, header, _, left⟩ := room_filled HandshakeEffect delivers acc whole
  have counted : 4 ≤ announced_length (incoming connection) := by
    by_contra short
    apply never_panics (header_awaits.panics header _)
    intro f f' ready
    exact header_panics build messages small whole (by omega) ready
  refine ⟨counted, fun there unparsed => never_panics (header_awaits.panics header ?_)⟩
  intro f f' ready
  apply Panics.congr (header_goes_on build messages small whole counted ready)
  obtain ⟨t2, rest, _, _⟩ :=
    body_filled HandshakeEffect delivers (acc ++ (incoming connection).take 4) counted there left
  apply body_awaits.panics rest
  intro f f' ready
  apply Panics.now
  rw [poll_body_read build messages ready, unparsed]
  rfl

/-- Receiving the first packet is safe just where that packet can be answered. -/
theorem safe_iff_answerable (build : Build) (messages : KeyExchange)
    (delivers : tokio.Delivers sent incoming) (fills : tokio.Fills incoming) (connection : T)
    (small : acc.length + 2 ^ 32 < 2 ^ 63) : ∃ start, recv_packet build tokio connection acc = some start ∧
      (Safe build tokio messages incoming connection acc start ↔
        Answerable messages (incoming connection)) := by
  refine ⟨_, recv_packet_eq build tokio connection (by omega), ?_⟩
  constructor
  · intro safe
    exact Safe.answerable delivers small safe.never_panics
  · intro answerable
    constructor
    · exact answerable.never_panics build fills small
    · intro log t message acc' resolved
      exact answerable.consumes build fills small resolved

end RecvPacket

/-! Messages as protobuf writes them, and a slow socket to receive one from. -/

def write_client_hello (hello : ClientHello) : Bytes :=
  bytes_field 0xa (varint_field 0xa hello.product ++ varint_field 0x1e hello.platform ++
    varint_field 0x28 hello.version) ++
  hello.cryptosuites_supported.flatMap (varint_field 0x1e) ++
  bytes_field 0x32 (bytes_field 0xa (bytes_field 0xa hello.gc ++
    varint_field 0x14 hello.server_keys_known)) ++
  bytes_field 0x3c hello.client_nonce ++ bytes_field 0x46 hello.padding

def write_client_response (response : ClientResponsePlaintext) : Bytes :=
  bytes_field 0xa (bytes_field 0xa (bytes_field 0xa response.hmac)) ++ bytes_field 0x14 [] ++
    bytes_field 0x1e []

def challenge_five : Bytes :=
  bytes_field 0xa (bytes_field 0xa (bytes_field 0xa
      (bytes_field 0xa [5] ++ varint_field 0x14 0 ++ bytes_field 0x1e [])) ++
    bytes_field 0x14 [] ++ bytes_field 0x1e [] ++ bytes_field 0x28 [] ++ bytes_field 0x32 [])

def small_messages : KeyExchange where
  client_hello := ⟨fun m => BitVec.ofNat 32 (write_client_hello m).length, write_client_hello⟩
  client_response := ⟨fun m => BitVec.ofNat 32 (write_client_response m).length, write_client_response⟩
  parse_ap_response data := if data = challenge_five then some ⟨some [5]⟩ else none

def slow_socket : Socket :=
  ⟨[], plain_packet [] challenge_five ++ [9], [some 4, none, some 0, some 90, none, some 1, none]⟩

namespace RecvPacket

theorem slow_socket_safe : ∃ start,
    recv_packet .debug Socket.transfers slow_socket [0, 4] = some start ∧
      Safe .debug Socket.transfers small_messages Socket.incoming slow_socket [0, 4] start := by
  obtain ⟨start, started, safe⟩ := safe_iff_answerable .debug small_messages Socket.delivers
    Socket.fills slow_socket (show ([0, 4] : Bytes).length + 2 ^ 32 < 2 ^ 63 by decide)
  refine ⟨start, started, safe.mpr ?_⟩
  show 4 ≤ slow_socket.incoming.length → _
  decide

/-- The announced length does not even count the four bytes that say it. -/
def short_response : Socket := ⟨[], [0, 0, 0, 3], []⟩

theorem short_response_not_safe :
    (∃ start, recv_packet .debug Socket.transfers short_response [0, 4] = some start ∧
      ¬ Safe .debug Socket.transfers small_messages Socket.incoming short_response [0, 4] start) ∧
    ∃ start, recv_packet .release Socket.transfers short_response [0, 4] = some start ∧
      ¬ Safe .release Socket.transfers small_messages Socket.incoming short_response [0, 4] start := by
  constructor
  · refine ⟨_, rfl, fun safe => safe.never_panics (.now ?_)⟩
    decide
  · refine ⟨_, rfl, fun safe => safe.never_panics (.now ?_)⟩
    decide

end RecvPacket

end ConnectScrobbler
