import ConnectScrobbler.Core.Session.Task

/-! What is sent through the session is written to the connection: every packet, once and in order. -/
namespace ConnectScrobbler

open APCodec (incremental encoder)

variable {S P : Type}

theorem packets_append (log later : List SessionEffect) :
    packets (log ++ later) = packets log ++ packets later := List.filterMap_append

namespace SessionTask

variable {build : Build} {shannon : Cipher S} {sliced : shannon.Sliced} {warns : Bool}
  {protobuf : Protobuf} {task task' : SessionTask S} {start : Transport S} {log : List SessionEffect}

theorem queue_eq (taking : task.sender_rx.taking = true) (log : List SessionEffect) :
    task.queue log = { task with
      sender_rx := { task.sender_rx with queue := task.sender_rx.queue ++ packets log } } := by
  have sent (packets : List (UInt8 × Bytes)) (rx : Receiver (UInt8 × Bytes)) (taking : rx.taking = true) :
      packets.foldl (fun rx packet => rx.send packet) rx = { rx with queue := rx.queue ++ packets } := by
    induction packets generalizing rx with
    | nil => simp
    | cons packet packets ih =>
      rw [List.foldl_cons, ih (rx.send packet) ((Receiver.send_taking packet rx).trans taking)]
      simp [Receiver.send, taking]
  rw [queue, sent _ _ taking]

/-- The packets of the log since a transport was as it is at the start: the first of them have been
written or wait in the buffer, the others are queued. A sender that is done has written all of them. -/
structure Sends (build : Build) (sliced : shannon.Sliced) (start : Transport S) (log : List SessionEffect)
    (task : SessionTask S) : Prop where
  carries : task.sender.Carries (encoder build shannon)
    (start.sent ++ start.wr, start.codec.join task.transport.codec) (packets log)
  primed : task.Primed build sliced
  grown : start.sent <+: task.transport.sent
  taking : task.sender_rx.taking = true
  connected : task.sender_rx.connected = task.alive
  listens : task.alive = true → task.receiver_done = false
  finished : task.sender_done = true → task.alive = false ∧ task.sender.Idle

theorem create_sends (build : Build) {sliced : shannon.Sliced} (session : Session)
    (primed : (create session start).Primed build sliced) :
    Sends build sliced start [] (create session start) :=
  ⟨Forward.new_carries _ start.sink, primed, List.prefix_rfl, rfl, rfl, fun _ => rfl, nofun⟩

/-- What has been carried does not depend on how the codec decodes. -/
theorem carries_join {items : List (UInt8 × Bytes)} {codec codec' : APCodec S} {front : Bytes}
    {f : Forward (APCodec S) UInt8 (UInt8 × Bytes)}
    (carries : f.Carries (encoder build shannon) (front, codec.join f.sink.codec) items)
    (joined : codec' = f.sink.codec.join codec') :
    { f with sink := { f.sink with codec := codec' } }.Carries (encoder build shannon)
      (front, codec.join codec') items := by
  obtain ⟨done, whole, encoded⟩ := carries
  refine ⟨done, whole, ?_⟩
  rw [APCodec.encode_all_join] at encoded ⊢
  obtain ⟨⟨buf, codec1⟩, first, same⟩ := Option.map_eq_some_iff.mp encoded
  obtain ⟨bytes, own⟩ := Prod.mk.inj same
  rw [first, Option.map_some, bytes]
  have own : codec1.join codec' = codec' := by rw [joined, ← own]; rfl
  exact congrArg (fun codec => some (_, codec)) own

/-- The session, once it has been called, and what the call has sent. -/
theorem Sends.calls (sends : Sends build sliced start log task) (session : Session)
    (later : List SessionEffect) (alive : task.alive = true) :
    Sends build sliced start (log ++ later) ({ task with session }.queue later) := by
  obtain ⟨⟨done, whole, encoded⟩, primed, grown, taking, connected, listens, finished⟩ := sends
  have queued := @queue_eq S { task with session } taking later
  rw [queued]
  refine ⟨⟨done, ?_, encoded⟩, primed, grown, taking, connected, listens, fun ended => ?_⟩
  · rw [packets_append, whole]
    simp [sender]
  · cases alive.symm.trans (finished ended).1

theorem Sends.reads (sends : Sends build sliced start log task) (alive : task.alive = true)
    (act : P → Session → Call SessionEffect Session)
    (returned : (dispatch_task build sliced warns protobuf task).value = some task') :
    Sends build sliced start (log ++ (dispatch_task build sliced warns protobuf task).log) task' := by
  obtain ⟨explains, _, joined⟩ := dispatch_task_explains act sends.primed returned
  obtain ⟨session, stream, _, _, same⟩ := dispatch_task_returns act sends.primed returned
  have primed := explains.primed
  rw [same] at primed joined ⊢
  have read : Sends build sliced start log { task with transport := task.transport.put_stream stream } := by
    refine ⟨carries_join sends.carries joined, primed, sends.grown, sends.taking, sends.connected,
      sends.listens, sends.finished⟩
  exact read.calls session _ alive

theorem Sends.receives (sends : Sends build sliced start log task)
    (act : P → Session → Call SessionEffect Session)
    (returned : (poll_receiver build sliced warns protobuf task).value = some task') :
    Sends build sliced start (log ++ (poll_receiver build sliced warns protobuf task).log) task' := by
  unfold poll_receiver at returned ⊢
  split
  · rename_i done
    rw [if_pos done] at returned
    cases returned
    rw [Call.pure_eq, List.append_nil]
    exact sends
  · rename_i waiting
    rw [if_neg waiting] at returned
    split
    · rename_i alive
      rw [if_pos alive] at returned
      exact sends.reads alive act returned
    · rename_i dropped
      rw [if_neg dropped] at returned
      cases returned
      rw [Call.pure_eq, List.append_nil]
      exact ⟨sends.carries, sends.primed, sends.grown, sends.taking, sends.connected,
        fun alive => absurd alive dropped, sends.finished⟩

/-- The sender comes to its end only after the session has been dropped. -/
theorem Sends.forwards (sends : Sends build sliced start log task)
    (returned : (poll_sender build shannon task).value = some task') :
    Sends build sliced start log task' := by
  have primed := ((poll_sender_spec build shannon task).2 task' returned).primed sends.primed
  rcases poll_sender_cases returned with ⟨_, rfl⟩ | ⟨result, f, polled, rfl⟩
  · exact sends
  · have joined := (put_sender_undisturbed polled nofun).codec
    obtain ⟨grown, ⟨_, failed⟩ | carried⟩ := sends.carries.poll polled
    · cases failed
    · obtain ⟨taking, connected, ready⟩ := Forward.drive_stream polled
      refine ⟨?_, primed, sends.grown.trans grown, taking.trans sends.taking,
        connected.trans sends.connected, sends.listens, fun ended => ?_⟩
      · have same : start.codec.join f.sink.codec = start.codec.join task.transport.codec := by
          rw [show f.sink.codec = f.sink.codec.join task.transport.codec from joined]
          rfl
        show f.Carries _ (_, start.codec.join f.sink.codec) _
        rw [same]
        exact carried
      · have ended := of_decide_eq_true ended
        subst ended
        exact ⟨sends.connected ▸ ready rfl sends.taking, Forward.drive_idle polled⟩

theorem Sends.goes_on (sends : Sends build sliced start log task)
    (act : P → Session → Call SessionEffect Session) (event : SessionEvent P)
    (returned : (step build sliced warns protobuf act task event).value = some task') :
    Sends build sliced start (log ++ (step build sliced warns protobuf act task event).log) task' := by
  cases event with
  | poll =>
    by_cases done : task.receiver_done ∧ task.sender_done
    · have same : step build sliced warns protobuf act task .poll = pure task := if_pos done
      rw [same] at returned ⊢
      cases returned
      rw [Call.pure_eq, List.append_nil]
      exact sends
    · have turns : step build sliced warns protobuf act task .poll =
          (poll_receiver build sliced warns protobuf task >>= poll_sender build shannon) := if_neg done
      rw [turns] at returned ⊢
      obtain ⟨second, polled, sent⟩ := Call.bind_returns.mp returned
      rw [Call.bind_log polled, (poll_sender_spec build shannon second).1, List.append_nil]
      exact (sends.receives act polled).forwards sent
  | call p =>
    by_cases alive : task.alive = true
    · have calls : step build sliced warns protobuf act task (.call p) =
          (act p task.session).listen >>= fun heard =>
            pure ({ task with session := heard.1 }.queue heard.2) := if_pos alive
      rw [calls] at returned ⊢
      obtain ⟨⟨session, later⟩, listened, done⟩ := Call.bind_returns.mp returned
      obtain ⟨_, same⟩ := Call.listen_returns listened
      cases done
      rw [Call.bind_pure_log]
      subst same
      exact sends.calls session _ alive
    · have same : step build sliced warns protobuf act task (.call p) = pure task := if_neg alive
      rw [same] at returned ⊢
      cases returned
      rw [Call.pure_eq, List.append_nil]
      exact sends
  | drop =>
    cases returned
    rw [show (step build sliced warns protobuf act task .drop).log = [] from rfl, List.append_nil]
    exact ⟨sends.carries, sends.primed, sends.grown, sends.taking, rfl, nofun,
      fun ended => ⟨rfl, (sends.finished ended).2⟩⟩

/-- In every run of the task. -/
theorem run_sends (act : P → Session → Call SessionEffect Session)
    (sends : Sends build sliced start [] task) {events : List (SessionEvent P)}
    (returned : (Call.run (step build sliced warns protobuf act) task events).value = some task') :
    Sends build sliced start (Call.run (step build sliced warns protobuf act) task events).log task' :=
  Call.run_induction (P := fun _ log task => Sends build sliced start log task) sends
    (fun _ _ _ before event _ stepped => before.goes_on act event stepped) returned

/-- What has been carried was encoded by the codec as it was at the start. -/
theorem Sends.encoded (sends : Sends build sliced start log task) : ∃ done codec,
    packets log = done ++ (task.buffered.toList ++ task.sender_rx.queue) ∧
      APCodec.encode_all build shannon done (start.sent ++ start.wr, start.codec) =
        some (task.transport.sent ++ task.transport.wr, codec) := by
  obtain ⟨done, whole, encoded⟩ := sends.carries
  rw [APCodec.encode_all_join] at encoded
  obtain ⟨⟨bytes, codec⟩, first, same⟩ := Option.map_eq_some_iff.mp encoded
  obtain ⟨rfl, _⟩ := Prod.mk.inj same
  exact ⟨done, codec, whole, first⟩

theorem Sends.idle (sends : Sends build sliced start log task) (idle : task.sender.Idle) : ∃ codec,
    APCodec.encode_all build shannon (packets log) (start.sent ++ start.wr, start.codec) =
      some (task.transport.sent, codec) := by
  have encoded := sends.carries.idle idle
  rw [APCodec.encode_all_join] at encoded
  obtain ⟨⟨bytes, codec⟩, first, same⟩ := Option.map_eq_some_iff.mp encoded
  obtain ⟨rfl, _⟩ := Prod.mk.inj same
  exact ⟨codec, first⟩

theorem poll_turns (waiting : ¬ (task.receiver_done ∧ task.sender_done))
    (act : P → Session → Call SessionEffect Session) :
    step build sliced warns protobuf act task .poll =
      (poll_receiver build sliced warns protobuf task >>= poll_sender build shannon) := if_neg waiting

theorem poll_receiver_dropped (build : Build) (sliced : shannon.Sliced) (warns : Bool) (protobuf : Protobuf)
    (dropped : task.alive = false) :
    ∃ second, poll_receiver build sliced warns protobuf task = ⟨[], some second⟩ := by
  unfold poll_receiver
  split
  · exact ⟨task, rfl⟩
  · refine ⟨{ task with receiver_done := true }, ?_⟩
    rw [dropped]
    rfl

/-- The receiver leaves the connection to the sender. -/
theorem poll_receiver_leaves (primed : task.Primed build sliced)
    (act : P → Session → Call SessionEffect Session)
    (returned : (poll_receiver build sliced warns protobuf task).value = some task') :
    task'.transport.downstream = task.transport.downstream ∧ task'.alive = task.alive := by
  unfold poll_receiver at returned
  split at returned
  · cases returned
    exact ⟨rfl, rfl⟩
  · split at returned
    · obtain ⟨_, _, _, _, rfl⟩ := dispatch_task_returns act primed returned
      exact ⟨rfl, rfl⟩
    · cases returned
      exact ⟨rfl, rfl⟩

/-- The receiver of a session that is there has always more to do. -/
theorem Sends.poll_alive (sends : Sends build sliced start log task) (alive : task.alive = true)
    (act : P → Session → Call SessionEffect Session) : step build sliced warns protobuf act task .poll =
      (dispatch_task build sliced warns protobuf task >>= poll_sender build shannon) := by
  have listens := sends.listens alive
  rw [poll_turns (by simp [listens]), poll_receiver, listens, alive]
  rfl

/-- A poll dispatches the packets that are there, and no others. -/
theorem Sends.poll_log (sends : Sends build sliced start log task) (alive : task.alive = true)
    (act : P → Session → Call SessionEffect Session) :
    (step build sliced warns protobuf act task .poll).log =
      (Call.run (Session.input warns protobuf act) task.session
        (dispatches (task.view build sliced).log)).log := by
  rw [sends.poll_alive alive, ← dispatch_task_log act sends.primed]
  cases polled : (dispatch_task build sliced warns protobuf task).value with
  | none => exact Call.bind_log_panic polled _
  | some second => rw [Call.bind_log polled, (poll_sender_spec build shannon second).1, List.append_nil]

/-- A poll that returns has taken all that the connection had to give. -/
theorem Sends.poll_reads (sends : Sends build sliced start log task) (alive : task.alive = true)
    (act : P → Session → Call SessionEffect Session)
    (returned : (step build sliced warns protobuf act task .poll).value = some task') :
    (Call.run (Session.input warns protobuf act) task.session
      (dispatches (task.view build sliced).log)).value = some task'.session ∧
      task'.transport.is_readable = false ∧
      task.transport.stream.coming.2 = some task'.transport.upstream := by
  rw [sends.poll_alive alive] at returned
  obtain ⟨second, polled, sent⟩ := Call.bind_returns.mp returned
  have undisturbed := (poll_sender_spec build shannon second).2 task' sent
  obtain ⟨explains, readable, _⟩ := dispatch_task_explains act sends.primed polled
  obtain ⟨session, stream, waiting, _, rfl⟩ := dispatch_task_returns act sends.primed polled
  refine ⟨?_, undisturbed.is_readable.trans readable, ?_⟩
  · rw [undisturbed.session]
    exact explains.session
  · rw [undisturbed.upstream]
    exact (Framed.outlook_drained waiting).2.1

/-- There is nothing to dispatch for a session that is gone. -/
theorem poll_dropped (dropped : task.alive = false)
    (act : P → Session → Call SessionEffect Session) :
    (step build sliced warns protobuf act task .poll).log = [] := by
  by_cases done : task.receiver_done ∧ task.sender_done
  · have same : step build sliced warns protobuf act task .poll = pure task := if_pos done
    rw [same]
    rfl
  · obtain ⟨second, polled⟩ := poll_receiver_dropped build sliced warns protobuf dropped
    rw [poll_turns done, polled]
    exact (poll_sender_spec build shannon second).1

/-- The sender panics only where writing fails or the packets have run out of numbers. -/
theorem Sends.sender_returns (sends : Sends build sliced start log task)
    (fine : .failed ∉ task.transport.downstream)
    (few : start.codec.encode_nonce.toNat + (packets log).length < 2 ^ 32) :
    (poll_sender build shannon task).value ≠ none := by
  unfold poll_sender
  split
  · exact Option.some_ne_none _
  · have possible : (encoder build shannon).encode_all (packets log)
        (start.sent ++ start.wr, start.codec.join task.transport.codec) ≠ none := by
      have few : (start.codec.join task.transport.codec).encode_nonce.toNat + (packets log).length < 2 ^ 32 := few
      obtain ⟨_, encoded, _⟩ := APCodec.encode_all_eq build (start.sent ++ start.wr) few
      intro refused
      cases encoded.symm.trans refused
    obtain ⟨⟨result, f⟩, polled⟩ := Option.ne_none_iff_exists'.mp (sends.carries.returns possible)
    have sent := Forward.drive_fine fine polled
    rw [polled]
    match result with
    | .error e => exact absurd rfl (sent e)
    | .ok .notReady => exact Option.some_ne_none _
    | .ok (.ready ()) => exact Option.some_ne_none _

/-- A poll returns while the connection stays open and fine, if the session does not panic. -/
theorem Sends.poll_returns (sends : Sends build sliced start log task)
    (act : P → Session → Call SessionEffect Session) (fine : .failed ∉ task.transport.downstream)
    (few : start.codec.encode_nonce.toNat +
      (packets (log ++ (step build sliced warns protobuf act task .poll).log)).length < 2 ^ 32)
    (goes_on : task.alive = true → (task.view build sliced).value ≠ none ∧
      (Call.run (Session.input warns protobuf act) task.session
        (dispatches (task.view build sliced).log)).value ≠ none) :
    (step build sliced warns protobuf act task .poll).value ≠ none := by
  by_cases alive : task.alive = true
  · obtain ⟨waits, handles⟩ := goes_on alive
    have polls := dispatch_task_goes_on act sends.primed waits handles
    obtain ⟨second, polled⟩ := Option.ne_none_iff_exists'.mp polls
    rw [sends.poll_log alive act, ← dispatch_task_log act sends.primed] at few
    have still : second.transport.downstream = task.transport.downstream := by
      obtain ⟨_, _, _, _, rfl⟩ := dispatch_task_returns act sends.primed polled
      rfl
    rw [← still] at fine
    rw [sends.poll_alive alive]
    exact Call.bind_goes_on.mpr ⟨second, polled, (sends.reads alive act polled).sender_returns fine few⟩
  · by_cases done : task.receiver_done ∧ task.sender_done
    · have same : step build sliced warns protobuf act task .poll = pure task := if_pos done
      rw [same]
      exact Option.some_ne_none _
    · have dropped : task.alive = false := Bool.eq_false_iff.mpr alive
      obtain ⟨second, polled⟩ := poll_receiver_dropped build sliced warns protobuf dropped
      have received := sends.receives act (congrArg Call.value polled)
      rw [polled, List.append_nil] at received
      rw [← (poll_receiver_leaves sends.primed act (congrArg Call.value polled)).1] at fine
      rw [poll_dropped dropped, List.append_nil] at few
      rw [poll_turns done, polled]
      exact received.sender_returns fine few

/-- While the connection takes everything, a poll writes everything; after the session has been dropped
that is the end of the sender. -/
theorem Sends.flushed (sends : Sends build sliced start log task)
    (act : P → Session → Call SessionEffect Session) (quiet : task.transport.downstream = [])
    (returned : (step build sliced warns protobuf act task .poll).value = some task') :
    task'.sender.Idle ∧ (task.alive = false → task'.sender_done = true) := by
  by_cases done : task.receiver_done ∧ task.sender_done
  · have same : step build sliced warns protobuf act task .poll = pure task := if_pos done
    rw [same] at returned
    cases returned
    exact ⟨(sends.finished done.2).2, fun _ => done.2⟩
  · rw [poll_turns done] at returned
    obtain ⟨second, polled, sent⟩ := Call.bind_returns.mp returned
    obtain ⟨still, alive⟩ := poll_receiver_leaves sends.primed act polled
    have received := sends.receives act polled
    rcases poll_sender_cases sent with ⟨ended, rfl⟩ | ⟨_, f, polled', rfl⟩
    · exact ⟨(received.finished ended).2, fun _ => ended⟩
    · obtain ⟨idle, ends⟩ := Forward.drive_quiet (still.trans quiet) polled'
      refine ⟨idle, fun dropped => ?_⟩
      have dropped : second.sender_rx.connected = false := by rw [received.connected, alive, dropped]
      cases ends dropped
      rfl

end SessionTask

open SessionTask (create step)

/-- The packets that the session has sent are on the connection as their encodings one after the other,
but for those that still wait in the buffer, with the sender or in the queue, in this order: none is lost,
sent twice or overtaken, however much the connection takes at a time. What has been written stays
written. When the sender is done, the session has been dropped and everything it had sent was written.
A poll while the connection takes everything writes everything; and once the session has been dropped,
polls do not panic while writing does not fail, and such a poll is the end of the sender. -/
theorem session_sends_in_order (build : Build) {shannon : Cipher S} (sliced : shannon.Sliced) (warns : Bool)
    (protobuf : Protobuf) (act : P → Session → Call SessionEffect Session) (session : Session)
    (transport : Transport S) (given : transport.is_readable = true) (events : List (SessionEvent P))
    (task : SessionTask S)
    (returned : (Call.run (step build sliced warns protobuf act) (create session transport) events).value =
      some task) :
    let log := (Call.run (step build sliced warns protobuf act) (create session transport) events).log
    let polled := step build sliced warns protobuf act task .poll
    let encodes (items : List (UInt8 × Bytes)) (bytes : Bytes) := ∃ codec, APCodec.encode_all build shannon
      items (transport.sent ++ transport.wr, transport.codec) = some (bytes, codec)
    (∃ done, packets log = done ++ (task.buffered.toList ++ task.sender_rx.queue) ∧
      encodes done (task.transport.sent ++ task.transport.wr)) ∧
    transport.sent <+: task.transport.sent ∧
    (task.sender_done = true → task.alive = false ∧ encodes (packets log) task.transport.sent) ∧
    (task.transport.downstream = [] → ∀ task', polled.value = some task' →
      encodes (packets (log ++ polled.log)) task'.transport.sent ∧
      (task.alive = false → task'.sender_done = true)) ∧
    (task.alive = false → .failed ∉ task.transport.downstream →
      transport.codec.encode_nonce.toNat + (packets log).length < 2 ^ 32 → polled.value ≠ none) := by
  have sends := SessionTask.run_sends act
    (SessionTask.create_sends build session (SessionTask.create_primed build sliced session given))
    returned
  refine ⟨?_, sends.grown, fun ended => ?_, fun quiet task' polled => ?_, fun dropped fine few => ?_⟩
  · obtain ⟨done, codec, whole, encoded⟩ := sends.encoded
    exact ⟨done, whole, codec, encoded⟩
  · exact ⟨(sends.finished ended).1, sends.idle (sends.finished ended).2⟩
  · obtain ⟨idle, ends⟩ := sends.flushed act quiet polled
    exact ⟨(sends.goes_on act .poll polled).idle idle, ends⟩
  · apply sends.poll_returns act fine
    · rwa [SessionTask.poll_dropped dropped, List.append_nil]
    · exact fun alive => absurd (dropped.symm.trans alive) Bool.false_ne_true

/-- Two packets are sent. The connection takes three bytes and blocks, then it takes the others; when the
session has been dropped, one more poll ends the sender. -/
theorem session_sends_in_order_two :
    let act (cmd : UInt8) (s : Session) : Call SessionEffect Session := do
      s.send_packet cmd [1, 2]
      return s
    let transport : Transport Shannon := { Transport.framed (.new Shannon.cipher [7] [1, 2, 3, 4, 5]) []
      [.takes 2, .blocked, .takes 1000] with is_readable := true }
    let step := step .debug Shannon.sliced true Mercury.messages act
    ∃ one two last codec, (Call.run step (create .new transport) [.call 0x76, .poll]).value = some one ∧
      one.transport.sent.length = 3 ∧ one.transport.wr.length = 6 ∧
      (Call.run step (create .new transport) [.call 0x76, .poll, .call 0x49, .poll, .drop]).value = some two ∧
      (step two .poll).value = some last ∧ last.sender_done = true ∧
      APCodec.encode_all .debug Shannon.cipher [(0x76, [1, 2]), (0x49, [1, 2])] ([], transport.codec) =
        some (last.transport.sent, codec) := by
  intro act transport step
  obtain ⟨one, first, written, waits⟩ : ∃ one, Call.run step (create .new transport) [.call 0x76, .poll] =
      ⟨[.send_packet 0x76 [1, 2]], some one⟩ ∧ one.transport.sent.length = 3 ∧ one.transport.wr.length = 6 :=
    ⟨_, Call.run_cons_returned rfl
      (Call.run_cons_returned ((SessionTask.poll_silent rfl rfl rfl).trans rfl) rfl rfl) rfl, rfl, rfl⟩
  obtain ⟨two, both, gone, quiet⟩ : ∃ two,
      Call.run step (create .new transport) [.call 0x76, .poll, .call 0x49, .poll, .drop] =
        ⟨[.send_packet 0x76 [1, 2], .send_packet 0x49 [1, 2]], some two⟩ ∧ two.alive = false ∧
      two.transport.downstream = [] :=
    ⟨_, Call.run_cons_returned rfl
      (Call.run_cons_returned ((SessionTask.poll_silent rfl rfl rfl).trans rfl)
        (Call.run_cons_returned rfl
          (Call.run_cons_returned ((SessionTask.poll_silent rfl rfl rfl).trans rfl)
            (Call.run_cons_returned rfl rfl rfl) rfl) rfl) rfl) rfl, rfl, rfl⟩
  obtain ⟨_, _, _, ends, returns⟩ := session_sends_in_order .debug Shannon.sliced true Mercury.messages act
    .new transport rfl [.call 0x76, .poll, .call 0x49, .poll, .drop] two (congrArg Call.value both)
  have logged : (Call.run step (create .new transport) [.call 0x76, .poll, .call 0x49, .poll, .drop]).log =
      [.send_packet 0x76 [1, 2], .send_packet 0x49 [1, 2]] := congrArg Call.log both
  rw [logged] at ends returns
  have polls := returns gone (by simp [quiet]) (by decide)
  obtain ⟨last, polled⟩ := Option.ne_none_iff_exists'.mp polls
  obtain ⟨⟨codec, encoded⟩, done⟩ := ends quiet last polled
  rw [SessionTask.poll_dropped gone] at encoded
  exact ⟨one, two, last, codec, congrArg Call.value first, written, waits, congrArg Call.value both, polled,
    done gone, encoded⟩

end ConnectScrobbler
