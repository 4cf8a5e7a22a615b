import ConnectScrobbler.Core.Connection.Authenticate
import ConnectScrobbler.Core.Session.Sends

/-! From the login to the last packet: `Session::connect`, once the handshake is done, and the task of
the session over the same transport. The peer has the same codec, with the keys the other way. -/
namespace ConnectScrobbler

open Bytes (bytes_field varint_field)
open APCodec (encode_all encoder incremental read wires)
open Future (Resolves)
open Input (arrivals)
open SessionTask (create step)

variable {S P : Type} {build : Build} {shannon : Cipher S} {sliced : shannon.Sliced} {warns : Bool}
  {protobuf : Protobuf}

namespace Transport

variable {send_key recv_key : Bytes} {upstream : List (Reading UInt8)} {downstream : List Write}
  {transport : Transport S} {theirs sent got : List (UInt8 × Bytes)}

/-- Every packet has taken a number. -/
theorem conversed_numbered {first : Transport S}
    (few : first.codec.encode_nonce.toNat + sent.length < 2 ^ 32)
    (conversed : first.Conversed build sliced sent got transport) :
    transport.codec.encode_nonce.toNat = first.codec.encode_nonce.toNat + sent.length := by
  obtain ⟨codec, encoded, joined⟩ := conversed.writes
  obtain ⟨codec', encoded', numbered⟩ := APCodec.encode_all_eq build (first.sent ++ first.wr) few
  obtain ⟨_, rfl⟩ := Prod.mk.inj (Option.some.inj (encoded.symm.trans encoded'))
  rw [joined]
  exact numbered

/-- What has been decoded of a peer's packets is the first of them, and none of the others will fail. -/
theorem conversed_got (build : Build) (lawful : shannon.Lawful) (sliced : shannon.Sliced)
    (few : theirs.length < 2 ^ 32) (fits : ∀ item ∈ theirs, item.2.length < 2 ^ 16) {future : Bytes}
    (arrives : upstream.flatMap Reading.bytes ++ future = wires shannon 0 (shannon.new recv_key) theirs)
    (conversed : (framed (.new shannon send_key recv_key) upstream downstream).Conversed build sliced
      sent got transport) : ∃ rest,
      let pending := transport.pending build sliced (transport.upstream.flatMap Reading.bytes)
      theirs = got ++ (pending.log ++ rest) ∧ pending.value = some (.ok ()) ∧ (future = [] → rest = []) := by
  obtain ⟨before, whole, reads⟩ := conversed.reads
  have expects : APCodec.Expects shannon recv_key theirs.length (.new shannon send_key recv_key)
      (upstream.flatMap Reading.bytes ++ future) theirs := by
    rw [arrives]
    exact .header rfl .new .new fits (Nat.zero_add _)
  obtain ⟨found, rest, _, _, drained, split, _, all⟩ :=
    APCodec.drain_expects build lawful sliced few expects
  have whole : upstream = before ++ transport.upstream := whole
  have pending := reads (transport.upstream.flatMap Reading.bytes)
  rw [← List.flatMap_append, ← whole] at pending
  have found_all : (framed (.new shannon send_key recv_key) upstream downstream).pending build sliced
      (upstream.flatMap Reading.bytes) = ⟨found, some (.ok ())⟩ := Incremental.finds_eq drained
  obtain ⟨same, ends⟩ := Call.mk.inj (pending.symm.trans found_all)
  refine ⟨rest, ?_, ends, all⟩
  rw [← List.append_assoc, same, split]

/-- A peer decodes the first of the packets that have been encoded. -/
theorem conversed_sent (build : Build) (lawful : shannon.Lawful) (few : sent.length < 2 ^ 32)
    (fits : ∀ item ∈ sent, item.2.length < 2 ^ 16) (peer_key : Bytes)
    (conversed : (framed (.new shannon send_key recv_key) upstream downstream).Conversed build sliced
      sent got transport) {inputs : List (Input UInt8)} (arrived : arrivals inputs = transport.sent) :
    ∃ yielded rest decoder buf, Call.run (read build shannon).step (.new shannon peer_key send_key, [])
        inputs = ⟨yielded, some (decoder, buf)⟩ ∧ sent = yielded ++ rest ∧
      (transport.wr = [] → ∀ calls, rest.length ≤ calls →
        ∃ last, Call.run (read build shannon).step (.new shannon peer_key send_key, [])
          (inputs ++ List.replicate calls .decode) = ⟨sent, some last⟩) := by
  obtain ⟨codec, encoded, _⟩ := conversed.writes
  have start : (APCodec.new shannon send_key recv_key).encode_nonce.toNat + sent.length < 2 ^ 32 := by
    rw [APCodec.new]
    simpa using few
  obtain ⟨_, written, _⟩ := APCodec.encode_all_eq build [] start
  have same : transport.sent ++ transport.wr = wires shannon 0 (shannon.new send_key) sent :=
    (Prod.mk.inj (Option.some.inj (encoded.symm.trans written))).1
  have follows := APCodec.read_follows build send_key lawful few
  have expects : APCodec.Expects shannon send_key sent.length (.new shannon peer_key send_key)
      ([] ++ (arrivals inputs ++ transport.wr)) sent := by
    rw [arrived, same]
    exact .header rfl .new .new fits (Nat.zero_add _)
  obtain ⟨yielded, rest, decoder, buf, ran, split, expects⟩ := follows.run expects
  refine ⟨yielded, rest, decoder, buf, ran, split, fun out calls enough => ?_⟩
  rw [out, List.append_nil] at expects
  obtain ⟨decoder', buf', drained, _⟩ := follows.drain expects enough
  refine ⟨(decoder', buf'), ?_⟩
  rw [Call.run_append, ran, Call.bind_some, drained, split]

end Transport

/-- A login that is answered at once, over a connection that takes everything. What the peer sends after
the welcome comes later. -/
theorem Authenticate.at_once {O : Type} (build : Build) (lawful : shannon.Lawful) (sliced : shannon.Sliced)
    {login : LoginMessages} (send_key recv_key : Bytes) {packet : UInt8 × Bytes}
    {later : List (UInt8 × Bytes)} {credentials : Credentials} (few : (packet :: later).length < 2 ^ 32)
    (fits : packet.2.length < 2 ^ 16) (accepted : welcome login (some packet) = some credentials)
    (item : UInt8 × Bytes) : ∃ (answer more : Reading UInt8) (peer : APCodec S) (transport : Transport S),
      encode_all build shannon (packet :: later) ([], .new shannon recv_key send_key) =
        some ([answer, more].flatMap Reading.bytes ++ [], peer) ∧
      Resolves (polled O build shannon login)
        (.Send (some item) (.framed (.new shannon send_key recv_key) [answer, more] [])) []
        (transport, credentials) ∧
      transport.upstream = [more] ∧ more.ends = .blocked ∧ transport.eof = false ∧
      transport.downstream = [] := by
  let wired := APCodec.wire shannon 0 (shannon.new recv_key) packet
  let answer : Reading UInt8 := ⟨wired.1, .blocked⟩
  let more : Reading UInt8 := ⟨wires shannon 1 wired.2 later, .blocked⟩
  have begins : (APCodec.new shannon recv_key send_key).encode_nonce.toNat + (packet :: later).length <
      2 ^ 32 := by
    rw [APCodec.new]
    simpa using few
  obtain ⟨peer, arrives, _⟩ := @APCodec.encode_all_eq S shannon build _ _ [] begins
  have cut : [answer, more].flatMap Reading.bytes ++ [] = answer.bytes ++ more.bytes := by simp
  let codec : APCodec S := APCodec.new shannon send_key recv_key
  let written := APCodec.wire shannon 0 (shannon.new send_key) item
  let encoded : APCodec S := { codec with encode_nonce := 1, encode_cipher := written.2 }
  have encodes : codec.encode build shannon item [] = some (written.1, encoded) := by
    rw [APCodec.encode_eq, show build.add codec.encode_nonce 1 = some 1 by cases build <;> rfl]
    rfl
  have expects : APCodec.Expects shannon recv_key 1 encoded (answer.bytes ++ []) [packet] :=
    .header rfl .new .new (fun _ member => List.mem_singleton.mp member ▸ fits) rfl
  obtain ⟨found, codec', buf', rest, called, first, _, given⟩ :=
    APCodec.attempt_expects build lawful (by decide) expects
  obtain ⟨found, rfl⟩ := Option.ne_none_iff_exists'.mp (given rfl (List.cons_ne_nil packet []))
  obtain ⟨rfl, _⟩ := List.cons.inj first
  have shorter := (incremental build sliced).consumes called
  have some_bytes : answer.bytes ≠ [] := by
    intro none
    rw [none] at shorter
    exact absurd shorter (Nat.not_lt_zero _)
  have sends : (Transport.framed codec [answer, more] []).sink.start_send (encoder build shannon) item =
      some (.ok .ready, ⟨encoded, written.1, [], []⟩) := by
    show (codec.encode build shannon item []).bind _ = _
    rw [encodes]
    rfl
  let sent : Transport S :=
    { Transport.framed codec [answer, more] [] with codec := encoded, sent := written.1 }
  let received : Transport S := { sent with codec := codec', rd := buf', is_readable := true, upstream := [more] }
  have reads : sent.stream.poll (APCodec.attempt build shannon) =
      some (.ok (.ready (some packet)), received.stream) := by
    show (if answer.bytes = [] then _ else Framed.look _ encoded answer.bytes [more] _) = _
    rw [if_neg some_bytes, Framed.look, called]
    rfl
  have receives : poll_receive build shannon login sent =
      some (.ok (.ready (received, credentials)), .Receive received) := by
    rw [poll_receive, reads]
    show (welcome login (some packet)).bind _ = _
    rw [accepted]
    rfl
  have polls : poll build shannon login (.Send (some item) (.framed codec [answer, more] [])) =
      some (.ok (.ready (received, credentials)), .Receive received) := by
    rw [poll, sends]
    exact receives
  refine ⟨answer, more, peer, received, ?_, .ready (congrArg (Call.mk []) polls), rfl, rfl, rfl, rfl⟩
  rw [cut]
  exact arrives

namespace SessionTask

variable {task : SessionTask S} {transport : Transport S}

/-- A run of the task is a part of the conversation over its transport. -/
theorem run_conversed (act : P → Session → Call SessionEffect Session) (session : Session)
    (given : transport.is_readable = true) {events : List (SessionEvent P)}
    (returned : (Call.run (step build sliced warns protobuf act) (create session transport) events).value =
      some task) : ∃ inputs done,
      (Call.run (step build sliced warns protobuf act) (create session transport) events).log =
        (Call.run (Session.input warns protobuf act) session inputs).log ∧
      Explains build sliced warns protobuf act inputs (create session transport) task ∧
      called inputs = SessionEvent.calls true events ∧
      packets (Call.run (step build sliced warns protobuf act) (create session transport) events).log =
        done ++ (task.buffered.toList ++ task.sender_rx.queue) ∧
      transport.Conversed build sliced done (received inputs) task.transport := by
  have primed := create_primed build sliced session given
  obtain ⟨inputs, log, _, _, goes_on⟩ := run_inputs warns protobuf act primed events
  obtain ⟨explains, calls⟩ := goes_on task returned
  obtain ⟨done, whole, encoded⟩ := (run_sends act (create_sends build session primed) returned).carries
  refine ⟨inputs, done, log, explains, calls, whole, explains.reads, ?_⟩
  rw [APCodec.encode_all_join] at encoded
  obtain ⟨⟨bytes, codec⟩, first, same⟩ := Option.map_eq_some_iff.mp encoded
  obtain ⟨rfl, joined⟩ := Prod.mk.inj same
  exact ⟨codec, first, joined.symm⟩

/-- The packets that a poll dispatches are the next ones of the peer's. -/
theorem view_conversed (lawful : shannon.Lawful) {send_key recv_key future : Bytes}
    {upstream : List (Reading UInt8)} {downstream : List Write} {theirs sent got : List (UInt8 × Bytes)}
    (few : theirs.length < 2 ^ 32) (fits : ∀ item ∈ theirs, item.2.length < 2 ^ 16)
    (arrives : upstream.flatMap Reading.bytes ++ future = wires shannon 0 (shannon.new recv_key) theirs)
    (conversed : (Transport.framed (.new shannon send_key recv_key) upstream downstream).Conversed build
      sliced sent got task.transport) : ∃ rest,
      theirs = got ++ ((task.view build sliced).log ++ rest) ∧
      (future = [] → task.transport.stream.coming.1 = task.transport.upstream.flatMap Reading.bytes →
        rest = []) ∧
      (task.transport.stream.coming.2 ≠ none → (task.view build sliced).value ≠ none) := by
  obtain ⟨rest, split, ends, all⟩ :=
    Transport.conversed_got build lawful sliced few fits arrives conversed
  obtain ⟨more, found⟩ := view_prefix build sliced task
  refine ⟨more ++ rest, by rw [split, ← found, List.append_assoc], fun none come => ?_, fun open_ => ?_⟩
  · have same : (task.view build sliced).log =
        (task.transport.pending build sliced (task.transport.upstream.flatMap Reading.bytes)).log := by
      rw [Transport.pending, ← come]
      rfl
    rw [all none, List.append_nil]
    exact List.append_right_eq_self.mp (found.trans same.symm)
  · obtain ⟨later, whole⟩ := Framed.coming_prefix task.transport.stream
    have whole : task.transport.stream.coming.1 ++ later =
        task.transport.upstream.flatMap Reading.bytes := whole
    rw [Transport.pending, ← whole, ← List.append_assoc] at ends
    exact Framed.outlook_returns.mpr ⟨Incremental.finds_ok.mp (Incremental.finds_front ends), open_⟩

/-- The peer decodes the first of the packets, and all of them once the sender is idle. -/
theorem sender_conversed (lawful : shannon.Lawful) {send_key recv_key : Bytes}
    {upstream : List (Reading UInt8)} {downstream : List Write} {item : UInt8 × Bytes}
    {later done got : List (UInt8 × Bytes)} (few : (item :: later).length < 2 ^ 32)
    (fits : ∀ packet ∈ item :: later, packet.2.length < 2 ^ 16) (peer_key : Bytes)
    (queued : later = done ++ (task.buffered.toList ++ task.sender_rx.queue))
    (conversed : (Transport.framed (.new shannon send_key recv_key) upstream downstream).Conversed build
      sliced ([item] ++ done) got task.transport) {inputs : List (Input UInt8)}
    (arrived : arrivals inputs = task.transport.sent) : ∃ yielded decoder,
      Call.run (read build shannon).step (.new shannon peer_key send_key, []) inputs =
        ⟨yielded, some decoder⟩ ∧ yielded <+: item :: later ∧
      (task.sender.Idle → ∀ calls, (item :: later).length ≤ calls → ∃ last,
        Call.run (read build shannon).step (.new shannon peer_key send_key, [])
          (inputs ++ List.replicate calls .decode) = ⟨item :: later, some last⟩) := by
  have first : [item] ++ done <+: item :: later := by
    rw [queued]
    exact ⟨_, rfl⟩
  obtain ⟨yielded, rest, decoder, buf, ran, split, given⟩ := Transport.conversed_sent build lawful
    (Nat.lt_of_le_of_lt first.length_le few) (fun packet member => fits packet (first.subset member))
    peer_key conversed arrived
  refine ⟨yielded, (decoder, buf), ran, ?_, fun idle calls enough => ?_⟩
  · exact (List.prefix_append yielded rest).trans (split ▸ first)
  · obtain ⟨returned, empty, out⟩ : task.buffered = none ∧ task.sender_rx.queue = [] ∧
      task.transport.wr = [] := idle
    have whole : [item] ++ done = item :: later := by
      rw [queued, returned, empty]
      simp
    have fewer : rest.length ≤ calls := by
      rw [← whole, split, List.length_append] at enough
      omega
    rw [← whole]
    exact given out calls fewer

end SessionTask

/-- From the login on, both sides are given what the other one sends, in order and from the first packet
on. The login resolves only with the credentials of a welcome, which is the first packet of the peer; the
session is dispatched the packets behind it, however they were cut, those that came along with the
welcome among them. A further poll dispatches the next of them, which are all the others when they have
come, and it does not panic while the connection is open and fine and the session does not. The peer
decodes the login and then what has been sent through the session: the first of these packets at any
time, and all of them after a poll while the connection takes everything. -/
theorem session_end_to_end (build : Build) {shannon : Cipher S} (lawful : shannon.Lawful)
    (sliced : shannon.Sliced) (warns : Bool) (protobuf : Protobuf)
    (act : P → Session → Call SessionEffect Session) (login : LoginMessages)
    (send_key recv_key peer_key : Bytes) (credentials : Credentials) (device_id : String)
    (upstream : List (Reading UInt8)) (downstream : List Write) (future : Bytes)
    (theirs : List (UInt8 × Bytes)) (few : theirs.length < 2 ^ 32)
    (fits : ∀ item ∈ theirs, item.2.length < 2 ^ 16) (peer : APCodec S)
    (arrives : encode_all build shannon theirs ([], .new shannon recv_key send_key) =
      some (upstream.flatMap Reading.bytes ++ future, peer))
    (start : Authenticate S)
    (started : authenticate login (.framed (.new shannon send_key recv_key) upstream downstream)
      credentials device_id = some start)
    (log : List SessionEffect) (transport : Transport S) (reusable : Credentials)
    (resolves : Resolves (Authenticate.polled SessionEffect build shannon login) start log
      (transport, reusable))
    (events : List (SessionEvent P)) (task : SessionTask S)
    (returned : (Call.run (step build sliced warns protobuf act) (create .new transport) events).value =
      some task) :
    let handled := Call.run (Session.input warns protobuf act)
    let decoded := Call.run (read build shannon).step (.new shannon peer_key send_key, [])
    let run := Call.run (step build sliced warns protobuf act) (create .new transport) events
    let polled := step build sliced warns protobuf act task .poll
    let coming := task.transport.stream.coming
    ∃ welcome later inputs data, theirs = (0xac, welcome) :: later ∧
      Authenticate.welcome login (some (0xac, welcome)) = some reusable ∧
      login.write_to_bytes (login_packet login credentials device_id) = some data ∧
      run.log = (handled .new inputs).log ∧ (handled .new inputs).value = some task.session ∧
      called inputs = SessionEvent.calls true events ∧ received inputs <+: later ∧
      let ours (log : List SessionEffect) := (0xab, data) :: packets log
      (task.alive = true → ∃ next rest, later = received inputs ++ (next ++ rest) ∧
        (future = [] → coming.1 = task.transport.upstream.flatMap Reading.bytes → rest = []) ∧
        polled.log = (handled task.session (dispatches next)).log ∧
        (∀ task', polled.value = some task' →
          (handled task.session (dispatches next)).value = some task'.session) ∧
        (coming.2 ≠ none → (handled task.session (dispatches next)).value ≠ none →
          .failed ∉ task.transport.downstream → (ours (run.log ++ polled.log)).length < 2 ^ 32 →
          polled.value ≠ none)) ∧
      ((ours run.log).length < 2 ^ 32 → (∀ item ∈ ours run.log, item.2.length < 2 ^ 16) →
        ∀ inputs, arrivals inputs = task.transport.sent → ∃ yielded decoder,
          decoded inputs = ⟨yielded, some decoder⟩ ∧ yielded <+: ours run.log) ∧
      (task.transport.downstream = [] → ∀ task', polled.value = some task' →
        (ours (run.log ++ polled.log)).length < 2 ^ 32 →
        (∀ item ∈ ours (run.log ++ polled.log), item.2.length < 2 ^ 16) →
        ∀ inputs, arrivals inputs = task'.transport.sent →
          ∀ calls, (ours (run.log ++ polled.log)).length ≤ calls → ∃ last,
            decoded (inputs ++ List.replicate calls .decode) = ⟨ours (run.log ++ polled.log), some last⟩) := by
  intro handled decoded run polled coming
  obtain ⟨data, written, sending⟩ := Option.bind_eq_some_iff.mp started
  cases sending
  have begun : Authenticate.Under build sliced (0xab, data)
      (.framed (.new shannon send_key recv_key) upstream downstream) (.Send (some (0xab, data))
        (.framed (.new shannon send_key recv_key) upstream downstream)) := ⟨rfl, .refl _⟩
  have welcomed := Authenticate.resolves_welcomed begun resolves
  obtain ⟨⟨cmd, welcome⟩, exchange, accepted⟩ := welcomed.exchange
  have opened : cmd = 0xac := by
    by_contra other
    rw [Authenticate.welcome, if_neg other] at accepted
    cases accepted
  subst opened
  have sends := SessionTask.run_sends act
    (SessionTask.create_sends build .new (SessionTask.create_primed build sliced .new welcomed.readable))
    returned
  obtain ⟨inputs, done, same, explains, calls, queued, conversed⟩ :=
    SessionTask.run_conversed act .new welcomed.readable returned
  have all := exchange.trans conversed
  have begins : (APCodec.new shannon recv_key send_key).encode_nonce.toNat + theirs.length < 2 ^ 32 := by
    rw [APCodec.new]
    simpa using few
  obtain ⟨_, encoded, _⟩ := APCodec.encode_all_eq build [] begins
  have wired := (Prod.mk.inj (Option.some.inj (arrives.symm.trans encoded))).1
  obtain ⟨rest, split, complete, waits⟩ := SessionTask.view_conversed lawful few fits wired all
  refine ⟨welcome, received inputs ++ ((task.view build sliced).log ++ rest), inputs, data, split, accepted,
    written, same, explains.session, calls, List.prefix_append _ _, fun alive => ?_, ?_, ?_⟩
  · refine ⟨_, rest, rfl, complete, sends.poll_log alive act, fun task' goes_on => ?_, ?_⟩
    · exact (sends.poll_reads alive act goes_on).1
    · intro open_ handles fine fewer
      have numbered : transport.codec.encode_nonce.toNat = 0 + 1 := by
        refine Transport.conversed_numbered ?_ exchange
        exact (by decide : 0 + 1 < 2 ^ 32)
      refine sends.poll_returns act fine ?_ fun _ => ⟨waits open_, handles⟩
      rw [numbered, Nat.zero_add, Nat.add_comm]
      exact fewer
  · intro fewer small sent arrived
    obtain ⟨yielded, decoder, ran, first, _⟩ :=
      SessionTask.sender_conversed lawful fewer small peer_key queued all arrived
    exact ⟨yielded, decoder, ran, first⟩
  · intro quiet task' goes_on fewer small sent arrived
    have idle := (sends.flushed act quiet goes_on).1
    have further := Call.run_snoc_returned returned (SessionEvent.poll)
    obtain ⟨_, done', _, _, _, queued', conversed'⟩ := SessionTask.run_conversed act .new welcomed.readable
      ((congrArg Call.value further).trans goes_on)
    rw [further] at queued'
    obtain ⟨_, _, _, _, given⟩ := SessionTask.sender_conversed lawful fewer small peer_key queued'
      (exchange.trans conversed') arrived
    exact given idle

/-! The messages of a login as protobuf writes them, and a welcome. -/

def write_login (m : ClientResponseEncrypted) : Bytes :=
  bytes_field 0xa (bytes_field 0xa (as_bytes m.username) ++ varint_field 0x14 m.typ.value ++
    bytes_field 0x1e m.auth_data) ++
  bytes_field 0x32 (varint_field 0xa m.cpu_family ++ varint_field 0x3c m.os ++
    bytes_field 0x5a (as_bytes m.system_information_string) ++ bytes_field 0x64 (as_bytes m.device_id)) ++
  bytes_field 0x46 (as_bytes m.version_string)

def welcome_user : Bytes :=
  bytes_field 0xa (as_bytes "user") ++ varint_field 0x14 0 ++ varint_field 0x19 0 ++ varint_field 0x1e 1 ++
    bytes_field 0x28 [7, 8]

def user : Credentials := ⟨"user", .AUTHENTICATION_STORED_SPOTIFY_CREDENTIALS, [7, 8]⟩

def small_login : LoginMessages where
  write_to_bytes m := some (write_login m)
  parse_from_bytes data := if data = welcome_user then some ⟨user.username, user.auth_type, user.auth_data⟩
    else none
  short_sha := "0000000"
  build_id := "aaaaaaaa"

/-- A packet is sent; then one comes that was not there with the welcome, is answered, and the peer is
given all of it. -/
theorem session_end_to_end_user :
    let act (cmd : UInt8) (s : Session) : Call SessionEffect Session := do
      s.send_packet cmd []
      return s
    let step := step .debug Shannon.sliced true Mercury.messages act
    ∃ (transport : Transport Shannon) (task last : SessionTask Shannon) (welcome data : Bytes)
      (inputs : List (SessionInput UInt8)) (peer : APCodec Shannon × Bytes),
      Authenticate.welcome small_login (some (0xac, welcome)) = some user ∧
      small_login.write_to_bytes (login_packet small_login user "device") = some data ∧
      (Call.run step (create .new transport) [.call 0x76]).value = some task ∧
      called inputs = [0x76] ∧ received inputs = [] ∧
      step task .poll = ⟨[.send_packet 0x49 [1, 2, 3, 4]], some last⟩ ∧
      Call.run (read .debug Shannon.cipher).step (.new Shannon.cipher [9] [7], [])
        (.arrive last.transport.sent :: List.replicate 3 .decode) =
          ⟨[(0xab, data), (0x76, []), (0x49, [1, 2, 3, 4])], some peer⟩ := by
  intro act step
  let theirs : List (UInt8 × Bytes) := [(0xac, welcome_user), (0x4, [1, 2, 3, 4])]
  have accepted : Authenticate.welcome small_login (some (0xac, welcome_user)) = some user := by
    simp [Authenticate.welcome, small_login]
  have few : theirs.length < 2 ^ 32 := by decide
  have fits : ∀ item ∈ theirs, item.2.length < 2 ^ 16 := by decide
  obtain ⟨answer, more, peer, transport, arrives, resolves, upstream, blocked, open_, quiet⟩ :=
    Authenticate.at_once (O := SessionEffect) .debug Shannon.lawful Shannon.sliced [7] [1, 2, 3]
      few (fits _ (.head _)) accepted (0xab, write_login (login_packet small_login user "device"))
  obtain ⟨task, ran, alive, session, same⟩ : ∃ task, Call.run step (create .new transport) [.call 0x76] =
      ⟨[.send_packet 0x76 []], some task⟩ ∧ task.alive = true ∧ task.session = .new ∧
      task.transport = transport := ⟨_, rfl, rfl, rfl, rfl⟩
  obtain ⟨welcome, later, inputs, data, split, welcomed, written, logged, _, calls, got, reads, _, writes⟩ :=
    session_end_to_end .debug Shannon.lawful Shannon.sliced true Mercury.messages act small_login [7]
      [1, 2, 3] [9] user "device" [answer, more] [] [] theirs few fits peer arrives _ rfl [] transport user
      resolves [.call 0x76] task (congrArg Call.value ran)
  obtain ⟨_, rfl⟩ := List.cons.inj split
  rw [ran] at logged reads writes
  have silent : received inputs = [] := by
    match inputs, calls, got, logged with
    | [.call _], _, _, _ => rfl
    | .packet cmd data :: inputs, _, got, logged =>
      obtain ⟨same, _⟩ := List.cons_prefix_cons.mp got
      cases same
      have first : some (SessionEffect.send_packet 0x76 []) = some (.send_packet 0x49 [1, 2, 3, 4]) :=
        congrArg List.head? logged
      exact absurd first (by decide)
    | .call p :: .call q :: inputs, calls, _, _ => cases calls
    | .call p :: .packet cmd data :: inputs, _, got, logged =>
      obtain ⟨same, _⟩ := List.cons_prefix_cons.mp got
      cases same
      have second : none = some (SessionEffect.send_packet 0x49 [1, 2, 3, 4]) :=
        congrArg (fun log => log[1]?) logged
      cases second
  obtain ⟨next, rest, split, complete, answers, _, returns⟩ := reads alive
  have coming : task.transport.stream.coming = (more.bytes, some []) := by
    rw [same]
    show (if transport.eof then _ else Framed.taken transport.upstream) = _
    rw [open_, upstream]
    exact Framed.taken_one blocked
  have nothing : rest = [] := complete rfl (by rw [coming, same, upstream]; simp)
  rw [silent, nothing, List.append_nil, List.nil_append] at split
  subst split
  rw [session] at answers returns
  rw [← same] at quiet
  obtain ⟨answered, pong⟩ : ∃ session, Call.run (Session.input true Mercury.messages act) .new
      [.packet 0x4 [1, 2, 3, 4]] = ⟨[.send_packet 0x49 [1, 2, 3, 4]], some session⟩ := ⟨_, rfl⟩
  have ponged : (step task .poll).log = [.send_packet 0x49 [1, 2, 3, 4]] :=
    answers.trans (congrArg Call.log pong)
  rw [ponged] at returns writes
  have three : 3 < 2 ^ 32 := by decide
  have goes_on := returns (by rw [coming]; exact Option.some_ne_none _)
    ((congrArg Call.value pong).trans_ne (Option.some_ne_none answered)) (by rw [quiet]; exact List.not_mem_nil) three
  obtain ⟨last, polled⟩ := Option.ne_none_iff_exists'.mp goes_on
  cases written
  have small : ∀ item ∈ [((0xab : UInt8), write_login (login_packet small_login user "device")), (0x76, []),
      (0x49, [1, 2, 3, 4])], item.2.length < 2 ^ 16 := by decide
  obtain ⟨peer, decoded⟩ := writes quiet last polled three small [.arrive last.transport.sent]
    (List.append_nil _) 3 le_rfl
  refine ⟨transport, task, last, welcome, _, inputs, peer, welcomed, rfl, congrArg Call.value ran, calls,
    silent, ?_, decoded⟩
  rw [← ponged, ← polled]

end ConnectScrobbler
