import ConnectScrobbler.Core.Session.Sends

/-! The task over a connection is the session over packets, and what one more poll of it does. -/
namespace ConnectScrobbler

open APCodec (incremental)
open SessionTask (create step)

variable {S P : Type}

/-- The task over a connection is the session over packets. However the bytes come and whatever the
other tasks do meanwhile, the session is dispatched the packets that one decoder for the whole stream
finds, in their order and from the first on, and called in between. A poll, while there is a session,
dispatches all the packets in the bytes that the connection gives before it would block, takes these
bytes, and waits. It does not panic, unless the connection is closed or broken, one of the packets
cannot be decoded, the session panics on one, or its own packets cannot be written. The transport has
just given the packet of the login. -/
theorem session_task_refines (build : Build) {shannon : Cipher S} (sliced : shannon.Sliced) (warns : Bool)
    (protobuf : Protobuf) (act : P → Session → Call SessionEffect Session) (session : Session)
    (transport : Transport S) (given : transport.is_readable = true) (events : List (SessionEvent P)) :
    let decoded (bytes : Bytes) := (incremental build sliced).drain transport.codec (transport.rd ++ bytes)
    let handled := Call.run (Session.input warns protobuf act)
    let run := Call.run (step build sliced warns protobuf act) (create session transport) events
    (∃ inputs, run.log = (handled session inputs).log ∧
      received inputs <+: (decoded (transport.upstream.flatMap Reading.bytes)).log ∧
      called inputs <+: SessionEvent.calls true events ∧
      ∀ task, run.value = some task →
        (handled session inputs).value = some task.session ∧
        called inputs = SessionEvent.calls true events ∧
        ∃ before, transport.upstream = before ++ task.transport.upstream ∧
          (task.transport.is_readable = false →
            received inputs = (decoded (before.flatMap Reading.bytes)).log)) ∧
    ∀ task, run.value = some task →
      let coming := task.transport.stream.coming
      let found := (incremental build sliced).drain task.transport.codec (task.transport.rd ++ coming.1)
      let dispatched := handled task.session (dispatches found.log)
      let polled := step build sliced warns protobuf act task .poll
      (task.alive = true → polled.log = dispatched.log ∧ ∀ task', polled.value = some task' →
        dispatched.value = some task'.session ∧ coming.2 = some task'.transport.upstream ∧
        task'.transport.is_readable = false) ∧
      (.failed ∉ task.transport.downstream →
        transport.codec.encode_nonce.toNat + (packets (run.log ++ polled.log)).length < 2 ^ 32 →
        (task.alive = true → coming.2 ≠ none ∧ (∃ held, found.value = some (.ok held)) ∧
          dispatched.value ≠ none) → polled.value ≠ none) := by
  intro decoded handled run
  have primed := SessionTask.create_primed build sliced session given
  obtain ⟨inputs, log, reads, heard, goes_on⟩ := SessionTask.run_inputs warns protobuf act primed events
  refine ⟨⟨inputs, log, reads, heard, fun task returned => ?_⟩, fun task returned => ?_⟩
  · obtain ⟨explains, calls⟩ := goes_on task returned
    obtain ⟨before, whole, found⟩ := explains.reads
    refine ⟨explains.session, calls, before, whole, fun settled => ?_⟩
    have all := found []
    rw [List.append_nil, explains.primed.settled settled, List.append_nil] at all
    exact (congrArg Call.log all).symm
  · intro coming found dispatched polled
    have sends := SessionTask.run_sends act (SessionTask.create_sends build session primed) returned
    refine ⟨fun alive => ⟨sends.poll_log alive act, fun task' returned => ?_⟩, fun fine few goes_on => ?_⟩
    · obtain ⟨ran, readable, taken⟩ := sends.poll_reads alive act returned
      exact ⟨ran, taken, readable⟩
    · refine sends.poll_returns act fine few fun alive => ?_
      obtain ⟨open_, decodes, handles⟩ := goes_on alive
      exact ⟨Framed.outlook_returns.mpr ⟨decodes, open_⟩, handles⟩

/-- One packet of the peer comes in two readings; it is answered, after a packet of the other tasks. -/
theorem session_task_refines_ping :
    let act (cmd : UInt8) (s : Session) : Call SessionEffect Session := do
      s.send_packet cmd []
      return s
    let transport : Transport Shannon := { Transport.framed (.new Shannon.cipher [7] [1, 2, 3, 4, 5])
        [⟨[80, 195, 214, 120, 192], .blocked⟩, ⟨[247, 241, 84, 143, 58, 191], .blocked⟩]
        [.takes 3, .blocked] with
      is_readable := true }
    let step := step .debug Shannon.sliced true Mercury.messages act
    ∃ task inputs, Call.run step (create .new transport) [.call 0x76, .poll] =
        ⟨[.send_packet 0x76 [], .send_packet 0x49 [1, 2, 3, 4]], some task⟩ ∧
      received inputs = [(0x4, [1, 2, 3, 4])] ∧ called inputs = [0x76] ∧
      (Call.run (Session.input true Mercury.messages act) .new inputs).value = some task.session ∧
      task.transport.upstream = [] := by
  intro act transport step
  have peer : APCodec.wires Shannon.cipher 0 (Shannon.cipher.new [1, 2, 3, 4, 5]) [(0x4, [1, 2, 3, 4])] =
      [80, 195, 214, 120, 192] ++ [247, 241, 84, 143, 58, 191] := by decide +kernel
  have expects : APCodec.Expects Shannon.cipher [1, 2, 3, 4, 5] 1 transport.codec
      (([80, 195, 214, 120, 192] ++ [247, 241, 84, 143, 58, 191]) ++ []) [(0x4, [1, 2, 3, 4])] := by
    rw [List.append_nil, ← peer]
    exact .header rfl .new .new (by decide) rfl
  obtain ⟨found, rest, codec, buf, drained, whole, _, all⟩ :=
    APCodec.drain_expects .debug Shannon.lawful Shannon.sliced (by decide) expects
  rw [all rfl, List.append_nil] at whole
  subst whole
  obtain ⟨first, ran, alive, session, same⟩ : ∃ first, Call.run step (create .new transport) [.call 0x76] =
      ⟨[.send_packet 0x76 []], some first⟩ ∧ first.alive = true ∧ first.session = .new ∧
      first.transport = transport := ⟨_, rfl, rfl, rfl, rfl⟩
  obtain ⟨_, polls⟩ := session_task_refines .debug Shannon.sliced true Mercury.messages act .new transport rfl
    [.call 0x76]
  obtain ⟨answers, returns⟩ := polls first (congrArg Call.value ran)
  have found : (incremental .debug Shannon.sliced).drain transport.codec
      (transport.rd ++ transport.stream.coming.1) = ⟨[(0x4, [1, 2, 3, 4])], some (.ok (codec, buf))⟩ := drained
  rw [same, session, found] at answers returns
  obtain ⟨answered, pong⟩ : ∃ session, Call.run (Session.input true Mercury.messages act) .new
      [.packet 0x4 [1, 2, 3, 4]] = ⟨[.send_packet 0x49 [1, 2, 3, 4]], some session⟩ := ⟨_, rfl⟩
  obtain ⟨logged, taken⟩ := answers alive
  rw [logged, congrArg Call.log ran] at returns
  have few : (0 : UInt32).toNat +
      (packets ([.send_packet 0x76 []] ++ [.send_packet 0x49 [1, 2, 3, 4]])).length < 2 ^ 32 := by decide
  have goes_on := returns (by decide) few fun _ =>
    ⟨Option.some_ne_none _, ⟨_, rfl⟩, (congrArg Call.value pong).trans_ne (Option.some_ne_none answered)⟩
  obtain ⟨task, polled⟩ := Option.ne_none_iff_exists'.mp goes_on
  obtain ⟨ran', upstream, _⟩ := taken task polled
  refine ⟨task, [.call 0x76, .packet 0x4 [1, 2, 3, 4]], ?_, rfl, rfl, ran', (Option.some.inj upstream).symm⟩
  have whole := Call.run_snoc_returned (congrArg Call.value ran) .poll
  rw [congrArg Call.log ran, polled, logged] at whole
  exact whole

end ConnectScrobbler
