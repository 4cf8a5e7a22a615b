import ConnectScrobbler.Core.Connection.Transport
import ConnectScrobbler.Core.Mercury.Reassembly
import ConnectScrobbler.Core.Session

/-! The task that `Session::create` makes, `core/src/session.rs`: the receiver dispatches the packets
that the transport reads, the sender forwards to it what has been sent through the session. Meanwhile
the other tasks call the session, until the last of them drops it. -/
namespace ConnectScrobbler

open APCodec (incremental encoder)

/-- The packet that an effect puts into the queue of the sender. -/
def SessionEffect.packet : SessionEffect → Option (UInt8 × Bytes)
  | .send_packet cmd data | .mercury (.send_packet cmd data) => some (cmd, data)
  | _ => none

def packets (log : List SessionEffect) : List (UInt8 × Bytes) := log.filterMap SessionEffect.packet

structure SessionTask (S : Type) where
  session : Session
  alive : Bool
  transport : Transport S
  receiver_done : Bool
  buffered : Option (UInt8 × Bytes)
  sender_rx : Receiver (UInt8 × Bytes)
  sender_done : Bool

inductive SessionEvent (P : Type) where
  | poll
  | call (p : P)
  | drop
  deriving DecidableEq, Repr

namespace SessionTask

variable {S P : Type}

def create (session : Session) (transport : Transport S) : SessionTask S :=
  { session
    alive := true
    transport
    receiver_done := false
    buffered := none
    sender_rx := .new
    sender_done := false }

/-- What the log has sent waits for the sender. -/
def queue (log : List SessionEffect) (task : SessionTask S) : SessionTask S :=
  { task with sender_rx := (packets log).foldl (fun rx packet => rx.send packet) task.sender_rx }

def sender (task : SessionTask S) : Forward (APCodec S) UInt8 (UInt8 × Bytes) :=
  ⟨task.buffered, task.sender_rx, task.transport.sink⟩

def put_sender (f : Forward (APCodec S) UInt8 (UInt8 × Bytes)) (task : SessionTask S) : SessionTask S :=
  { task with buffered := f.buffered, sender_rx := f.stream, transport := task.transport.put_sink f.sink }

section Step

variable (build : Build) {shannon : Cipher S} (sliced : shannon.Sliced) (warns : Bool) (protobuf : Protobuf)

/-- `DispatchTask::poll`, for a session that is still there. -/
def dispatch_task (task : SessionTask S) : Call SessionEffect (SessionTask S) := do
  let ((session, stream), log) ←
    (Framed.each (incremental build sliced)
      (fun session packet => session.dispatch warns protobuf packet.1 packet.2)
      task.session task.transport.stream >>= Framed.surviving).listen
  return { task with session, transport := task.transport.put_stream stream }.queue log

def poll_receiver (task : SessionTask S) : Call SessionEffect (SessionTask S) :=
  if task.receiver_done then return task
  else if task.alive then dispatch_task build sliced warns protobuf task
  else return { task with receiver_done := true }

def poll_sender (shannon : Cipher S) (task : SessionTask S) : Call SessionEffect (SessionTask S) :=
  if task.sender_done then return task
  else do
    let (result, f) ← Call.unwrap (task.sender.poll (encoder build shannon))
    match result with
    | .error _ => Call.panic
    | .ok .notReady => return task.put_sender f
    | .ok (.ready ()) => return { task.put_sender f with sender_done := true }

/-- The joined tasks; once both are done, they are not polled again. -/
def poll (task : SessionTask S) : Call SessionEffect (SessionTask S) :=
  if task.receiver_done ∧ task.sender_done then return task
  else do
    let task ← poll_receiver build sliced warns protobuf task
    poll_sender build shannon task

def step (act : P → Session → Call SessionEffect Session) (task : SessionTask S) :
    SessionEvent P → Call SessionEffect (SessionTask S)
  | .poll => poll build sliced warns protobuf task
  | .call p =>
    if task.alive then do
      let (session, log) ← (act p task.session).listen
      return { task with session }.queue log
    else return task
  | .drop => return { task with alive := false, sender_rx := task.sender_rx.drop_sender }

end Step

end SessionTask

/-! The session that is dispatched packets and called in turn, whatever the bytes were. -/

inductive SessionInput (P : Type) where
  | packet (cmd : UInt8) (data : Bytes)
  | call (p : P)
  deriving DecidableEq, Repr

variable {S P : Type}

def Session.input (warns : Bool) (protobuf : Protobuf) (act : P → Session → Call SessionEffect Session)
    (s : Session) : SessionInput P → Call SessionEffect Session
  | .packet cmd data => s.dispatch warns protobuf cmd data
  | .call p => act p s

/-- The packets among the inputs. -/
def received : List (SessionInput P) → List (UInt8 × Bytes)
  | [] => []
  | .packet cmd data :: inputs => (cmd, data) :: received inputs
  | .call _ :: inputs => received inputs

/-- The calls among the inputs. -/
def called : List (SessionInput P) → List P
  | [] => []
  | .packet _ _ :: inputs => called inputs
  | .call p :: inputs => p :: called inputs

/-- The calls while there is a session. -/
def SessionEvent.calls : Bool → List (SessionEvent P) → List P
  | _, [] => []
  | alive, .poll :: events => calls alive events
  | alive, .call p :: events => (if alive then [p] else []) ++ calls alive events
  | _, .drop :: events => calls false events

def dispatches (found : List (UInt8 × Bytes)) : List (SessionInput P) :=
  found.map fun packet => .packet packet.1 packet.2

theorem received_append (one other : List (SessionInput P)) :
    received (one ++ other) = received one ++ received other := by
  induction one with
  | nil => rfl
  | cons input one ih => cases input <;> simp [received, ih]

theorem called_append (one other : List (SessionInput P)) :
    called (one ++ other) = called one ++ called other := by
  induction one with
  | nil => rfl
  | cons input one ih => cases input <;> simp [called, ih]

theorem received_dispatches (found : List (UInt8 × Bytes)) :
    received (dispatches found : List (SessionInput P)) = found ∧
      called (dispatches found : List (SessionInput P)) = [] := by
  induction found with
  | nil => exact ⟨rfl, rfl⟩
  | cons packet found ih => exact ⟨congrArg (packet :: ·) ih.1, ih.2⟩

theorem run_dispatches (warns : Bool) (protobuf : Protobuf)
    (act : P → Session → Call SessionEffect Session) (s : Session) (found : List (UInt8 × Bytes)) :
    Call.run (fun s packet => s.dispatch warns protobuf packet.1 packet.2) s found =
      Call.run (Session.input warns protobuf act) s (dispatches found) := by
  induction found generalizing s with
  | nil => rfl
  | cons packet found ih =>
    apply Call.bind_congr
    intro s' _
    exact ih s'

namespace SessionTask

variable {build : Build} {shannon : Cipher S} {sliced : shannon.Sliced} {warns : Bool}
  {protobuf : Protobuf} {task task' : SessionTask S}

def Primed (build : Build) (sliced : shannon.Sliced) (task : SessionTask S) : Prop :=
  task.transport.stream.Primed (incremental build sliced)

/-- One task has become another by these inputs: the packets among them are what the decoder has found
in the bytes that have come in between. -/
structure Explains (build : Build) (sliced : shannon.Sliced) (warns : Bool) (protobuf : Protobuf)
    (act : P → Session → Call SessionEffect Session) (inputs : List (SessionInput P))
    (task task' : SessionTask S) : Prop where
  session : (Call.run (Session.input warns protobuf act) task.session inputs).value = some task'.session
  primed : task'.Primed build sliced
  reads : ∃ before, task.transport.upstream = before ++ task'.transport.upstream ∧
    ∀ more, task.transport.pending build sliced (before.flatMap Reading.bytes ++ more) =
      ⟨received inputs ++ (task'.transport.pending build sliced more).log,
        (task'.transport.pending build sliced more).value⟩

theorem Explains.trans {act : P → Session → Call SessionEffect Session} {one other : List (SessionInput P)}
    {first second third : SessionTask S}
    (to_second : Explains build sliced warns protobuf act one first second)
    (to_third : Explains build sliced warns protobuf act other second third) :
    Explains build sliced warns protobuf act (one ++ other) first third := by
  obtain ⟨before, whole, reads⟩ := to_second.reads
  obtain ⟨later, rest, goes_on⟩ := to_third.reads
  refine ⟨?_, to_third.primed, before ++ later, by rw [whole, rest, List.append_assoc], fun more => ?_⟩
  · rw [Call.run_append]
    exact Call.bind_returns.mpr ⟨_, to_second.session, to_third.session⟩
  · rw [List.flatMap_append, List.append_assoc, reads, goes_on, received_append, List.append_assoc]

/-- What the receiver is going to dispatch, and the transport that then waits. -/
def view (build : Build) (sliced : shannon.Sliced) (task : SessionTask S) :
    Call (UInt8 × Bytes) (Framed (APCodec S) UInt8) :=
  Framed.outlook (incremental build sliced) task.transport.codec task.transport.rd
    task.transport.stream.coming

theorem dispatch_task_log (act : P → Session → Call SessionEffect Session)
    (primed : task.Primed build sliced) : (dispatch_task build sliced warns protobuf task).log =
      (Call.run (Session.input warns protobuf act) task.session
        (dispatches (task.view build sliced).log)).log := by
  rw [← run_dispatches, view, ← Framed.handled_log]
  have polled := Framed.each_outlook (incremental build sliced)
    (fun s packet => Session.dispatch warns protobuf packet.1 packet.2 s) task.session
    task.transport.stream primed
  exact (Call.bind_pure_log _ _).trans (congrArg Call.log polled)

/-- What reading leaves of the task. -/
theorem dispatch_task_returns (act : P → Session → Call SessionEffect Session)
    (primed : task.Primed build sliced)
    (returned : (dispatch_task build sliced warns protobuf task).value = some task') :
    ∃ session stream, (task.view build sliced).value = some stream ∧
      (Call.run (Session.input warns protobuf act) task.session
        (dispatches (task.view build sliced).log)).value = some session ∧
      task' = { task with session, transport := task.transport.put_stream stream }.queue
        (dispatch_task build sliced warns protobuf task).log := by
  have polled := Framed.each_outlook (incremental build sliced)
    (fun s packet => Session.dispatch warns protobuf packet.1 packet.2 s) task.session
    task.transport.stream primed
  obtain ⟨⟨⟨session, stream⟩, log⟩, listened, done⟩ := Call.bind_returns.mp returned
  obtain ⟨surviving, same⟩ := Call.listen_returns listened
  rw [polled] at surviving
  obtain ⟨ran, waiting⟩ := Framed.handled_returns surviving
  have logged : (dispatch_task build sliced warns protobuf task).log = log :=
    (Call.bind_pure_log _ _).trans same.symm
  cases done
  refine ⟨session, stream, waiting, ?_, ?_⟩
  · rw [← run_dispatches]
    exact ran
  · rw [logged]

theorem dispatch_task_goes_on (act : P → Session → Call SessionEffect Session)
    (primed : task.Primed build sliced) (waits : (task.view build sliced).value ≠ none)
    (handles : (Call.run (Session.input warns protobuf act) task.session
      (dispatches (task.view build sliced).log)).value ≠ none) :
    (dispatch_task build sliced warns protobuf task).value ≠ none := by
  have polled := Framed.each_outlook (incremental build sliced)
    (fun s packet => Session.dispatch warns protobuf packet.1 packet.2 s) task.session
    task.transport.stream primed
  obtain ⟨stream, waiting⟩ := Option.ne_none_iff_exists'.mp waits
  rw [← run_dispatches] at handles
  obtain ⟨session, ran⟩ := Option.ne_none_iff_exists'.mp handles
  have handled : (Framed.handled (fun s packet => Session.dispatch warns protobuf packet.1 packet.2 s)
      task.session (task.view build sliced)).value = some (session, stream) :=
    Call.bind_returns.mpr ⟨session, ran, by rw [waiting]; rfl⟩
  obtain ⟨log, same⟩ := Call.eq_of_returned handled
  have polled := polled.trans same
  rw [dispatch_task, polled]
  exact Option.some_ne_none _

/-- When nothing has come, a poll is one of the sender. -/
theorem poll_silent {f : Framed (APCodec S) UInt8} (alive : task.alive = true)
    (listens : task.receiver_done = false)
    (waits : task.transport.stream.poll (APCodec.attempt build shannon) = some (.ok .notReady, f)) :
    poll build sliced warns protobuf task =
      poll_sender build shannon { task with transport := task.transport.put_stream f } := by
  have looked := Framed.each_waits (d := incremental build sliced) waits
    (fun s packet => Session.dispatch warns protobuf packet.1 packet.2 s) task.session
  have received : poll_receiver build sliced warns protobuf task =
      pure { task with transport := task.transport.put_stream f } := by
    rw [poll_receiver, if_neg (by simp [listens]), if_pos alive, dispatch_task, looked]
    rfl
  rw [poll, if_neg (by simp [listens]), received]
  rfl

/-- The receiver dispatches what has been read up to now, and leaves the encoding half of the codec. -/
theorem dispatch_task_explains (act : P → Session → Call SessionEffect Session)
    (primed : task.Primed build sliced)
    (returned : (dispatch_task build sliced warns protobuf task).value = some task') :
    Explains build sliced warns protobuf act (dispatches (task.view build sliced).log) task task' ∧
      task'.transport.is_readable = false ∧
      task'.transport.codec = task.transport.codec.join task'.transport.codec := by
  obtain ⟨session, stream, waiting, ran, rfl⟩ := dispatch_task_returns act primed returned
  obtain ⟨drained, blocked, readable, primed'⟩ := Framed.outlook_drained waiting
  obtain ⟨before, whole, bytes⟩ := Framed.coming_blocked blocked
  refine ⟨⟨ran, primed', before, whole, fun more => ?_⟩, readable, ?_⟩
  · rw [(received_dispatches _).1, Transport.pending, ← bytes, ← List.append_assoc]
    exact Incremental.finds_more (Incremental.drain_more drained more)
  · have joined := Incremental.drain_map (incremental build sliced)
      (fun codec buf => APCodec.attempt_join build shannon buf task.transport.codec codec)
      task.transport.codec (task.transport.rd ++ task.transport.stream.coming.1)
    rw [APCodec.join_self, drained] at joined
    have kept := Except.ok.inj (Option.some.inj (congrArg Call.value joined))
    exact (Prod.mk.inj kept).1

theorem view_prefix (build : Build) (sliced : shannon.Sliced) (task : SessionTask S) :
    (task.view build sliced).log <+:
      (task.transport.pending build sliced (task.transport.upstream.flatMap Reading.bytes)).log := by
  obtain ⟨later, whole⟩ := Framed.coming_prefix task.transport.stream
  rw [Transport.pending, show task.transport.upstream.flatMap Reading.bytes =
    task.transport.stream.coming.1 ++ later from whole.symm, ← List.append_assoc]
  exact Incremental.drain_prefix _ _ _ later

/-- Sending changes nothing about what is going to be read. -/
structure Undisturbed (task task' : SessionTask S) : Prop where
  session : task'.session = task.session
  alive : task'.alive = task.alive
  codec : task'.transport.codec = task'.transport.codec.join task.transport.codec
  rd : task'.transport.rd = task.transport.rd
  is_readable : task'.transport.is_readable = task.transport.is_readable
  eof : task'.transport.eof = task.transport.eof
  upstream : task'.transport.upstream = task.transport.upstream

theorem Undisturbed.pending (undisturbed : Undisturbed task task') (build : Build)
    (sliced : shannon.Sliced) (more : Bytes) :
    task'.transport.pending build sliced more = task.transport.pending build sliced more := by
  rw [Transport.pending, undisturbed.codec, undisturbed.rd]
  exact Transport.pending_join build sliced task.transport task'.transport.codec more

theorem Undisturbed.primed (undisturbed : Undisturbed task task') (primed : task.Primed build sliced) :
    task'.Primed build sliced := by
  refine primed.imp (fun readable => undisturbed.is_readable.trans readable) ?_
  rintro ⟨open_, waits⟩
  refine ⟨undisturbed.eof.trans open_, ?_⟩
  show APCodec.attempt build shannon task'.transport.codec task'.transport.rd =
    some (.ok none, task'.transport.codec, task'.transport.rd)
  have waits : APCodec.attempt build shannon task.transport.codec task.transport.rd =
    some (.ok none, task.transport.codec, task.transport.rd) := waits
  rw [undisturbed.rd, undisturbed.codec, APCodec.attempt_join, waits]
  rfl

/-- Whatever has been encoded, it is decoded as before. -/
theorem put_sender_undisturbed {f : Forward (APCodec S) UInt8 (UInt8 × Bytes)}
    {result : Poll Unit WriteError}
    (polled : task.sender.poll (encoder build shannon) = some (result, f))
    (fine : ∀ e, result ≠ .error e) : Undisturbed task (task.put_sender f) := by
  have own : task.sender.Carries (encoder build shannon)
      (task.transport.sent ++ task.transport.wr, task.transport.codec)
      (task.buffered.toList ++ task.sender_rx.queue) := ⟨[], rfl, rfl⟩
  obtain ⟨_, ⟨e, failed⟩ | ⟨done, _, encoded⟩⟩ := own.poll polled
  · exact absurd failed (fine e)
  · refine ⟨rfl, rfl, ?_, rfl, rfl, rfl, rfl⟩
    rw [← APCodec.join_self task.transport.codec, APCodec.encode_all_join] at encoded
    obtain ⟨_, _, same⟩ := Option.map_eq_some_iff.mp encoded
    obtain ⟨_, joined⟩ := Prod.mk.inj same
    show f.sink.codec = f.sink.codec.join task.transport.codec
    rw [← joined]
    rfl

theorem poll_sender_cases (returned : (poll_sender build shannon task).value = some task') :
    task.sender_done = true ∧ task' = task ∨
    ∃ result f, task.sender.poll (encoder build shannon) = some (.ok result, f) ∧
      task' = { task.put_sender f with sender_done := decide (result = .ready ()) } := by
  unfold poll_sender at returned
  split at returned
  · rename_i done
    cases returned
    exact .inl ⟨done, rfl⟩
  · rename_i waiting
    obtain ⟨⟨result, f⟩, polled, returned⟩ := Call.bind_returns.mp returned
    match result, returned with
    | .ok .notReady, rfl =>
      refine .inr ⟨_, f, polled, ?_⟩
      simp [put_sender, Bool.eq_false_iff.mpr waiting]
    | .ok (.ready ()), rfl => exact .inr ⟨_, f, polled, rfl⟩

theorem poll_sender_spec (build : Build) (shannon : Cipher S) (task : SessionTask S) :
    (poll_sender build shannon task).log = [] ∧
      ∀ task', (poll_sender build shannon task).value = some task' → Undisturbed task task' := by
  constructor
  · unfold poll_sender
    split
    · rfl
    · cases task.sender.poll (encoder build shannon) with
      | none => rfl
      | some polled =>
        obtain ⟨result, f⟩ := polled
        match result with
        | .error _ => rfl
        | .ok .notReady => rfl
        | .ok (.ready ()) => rfl
  · intro task' returned
    rcases poll_sender_cases returned with ⟨_, rfl⟩ | ⟨result, f, polled, rfl⟩
    · exact ⟨rfl, rfl, rfl, rfl, rfl, rfl, rfl⟩
    · obtain ⟨session, alive, codec, rd, is_readable, eof, upstream⟩ :=
        put_sender_undisturbed polled nofun
      exact ⟨session, alive, codec, rd, is_readable, eof, upstream⟩

theorem Explains.refl {act : P → Session → Call SessionEffect Session} (primed : task.Primed build sliced) :
    Explains build sliced warns protobuf act [] task task :=
  ⟨rfl, primed, [], rfl, fun _ => rfl⟩

theorem Explains.undisturbed {act : P → Session → Call SessionEffect Session}
    {inputs : List (SessionInput P)} {second : SessionTask S}
    (explains : Explains build sliced warns protobuf act inputs task second)
    (rest : Undisturbed second task') : Explains build sliced warns protobuf act inputs task task' := by
  obtain ⟨before, whole, reads⟩ := explains.reads
  refine ⟨by rw [rest.session]; exact explains.session, rest.primed explains.primed, before,
    by rw [rest.upstream, whole], fun more => ?_⟩
  rw [reads, rest.pending]

/-- The inputs that a step amounts to. -/
structure Step (build : Build) (sliced : shannon.Sliced) (warns : Bool) (protobuf : Protobuf)
    (act : P → Session → Call SessionEffect Session) (task : SessionTask S) (event : SessionEvent P)
    (inputs : List (SessionInput P)) : Prop where
  log : (step build sliced warns protobuf act task event).log =
    (Call.run (Session.input warns protobuf act) task.session inputs).log
  received : received inputs <+:
    (task.transport.pending build sliced (task.transport.upstream.flatMap Reading.bytes)).log
  called : called inputs = SessionEvent.calls task.alive [event]
  explains : ∀ task', (step build sliced warns protobuf act task event).value = some task' →
    Explains build sliced warns protobuf act inputs task task' ∧
      ∀ events, SessionEvent.calls task.alive (event :: events) =
        SessionEvent.calls task.alive [event] ++ SessionEvent.calls task'.alive events

theorem poll_receiver_alive (act : P → Session → Call SessionEffect Session)
    (primed : task.Primed build sliced) : ∃ found,
      (poll_receiver build sliced warns protobuf task).log =
        (Call.run (Session.input warns protobuf act) task.session (dispatches found)).log ∧
      found <+: (task.transport.pending build sliced (task.transport.upstream.flatMap Reading.bytes)).log ∧
      ∀ task', (poll_receiver build sliced warns protobuf task).value = some task' →
        Explains build sliced warns protobuf act (dispatches found) task task' ∧
          task'.alive = task.alive := by
  unfold poll_receiver
  split
  · refine ⟨[], rfl, List.nil_prefix, fun task' returned => ?_⟩
    cases returned
    exact ⟨.refl primed, rfl⟩
  · split
    · refine ⟨_, dispatch_task_log act primed, view_prefix build sliced task, fun task' returned => ?_⟩
      refine ⟨(dispatch_task_explains act primed returned).1, ?_⟩
      obtain ⟨_, _, _, _, rfl⟩ := dispatch_task_returns act primed returned
      rfl
    · refine ⟨[], rfl, List.nil_prefix, fun task' returned => ?_⟩
      cases returned
      exact ⟨⟨rfl, primed, [], rfl, fun _ => rfl⟩, rfl⟩

theorem calls_first (alive : Bool) (event : SessionEvent P) (events : List (SessionEvent P)) :
    SessionEvent.calls alive [event] <+: SessionEvent.calls alive (event :: events) := by
  cases event with
  | poll => exact List.nil_prefix
  | call p => exact (List.prefix_append_right_inj _).mpr List.nil_prefix
  | drop => exact List.nil_prefix

theorem poll_inputs (act : P → Session → Call SessionEffect Session) (primed : task.Primed build sliced) :
    ∃ found, Step build sliced warns protobuf act task .poll (dispatches found) := by
  by_cases done : task.receiver_done ∧ task.sender_done
  · have same : step build sliced warns protobuf act task .poll = pure task := if_pos done
    refine ⟨[], ⟨by rw [same]; rfl, List.nil_prefix, rfl, fun task' returned => ?_⟩⟩
    rw [same] at returned
    cases returned
    exact ⟨.refl primed, fun _ => rfl⟩
  · have turns : step build sliced warns protobuf act task .poll =
        (poll_receiver build sliced warns protobuf task >>= poll_sender build shannon) := if_neg done
    obtain ⟨found, log, reads, explains⟩ := poll_receiver_alive act primed
    refine ⟨found, ⟨?_, ?_, (received_dispatches found).2, fun task' returned => ?_⟩⟩
    · rw [turns, ← log]
      cases polled : (poll_receiver build sliced warns protobuf task).value with
      | none => exact Call.bind_log_panic polled _
      | some second => rw [Call.bind_log polled, (poll_sender_spec build shannon second).1, List.append_nil]
    · rw [(received_dispatches found).1]
      exact reads
    · rw [turns] at returned
      obtain ⟨second, polled, sent⟩ := Call.bind_returns.mp returned
      have undisturbed := (poll_sender_spec build shannon second).2 task' sent
      obtain ⟨explains, alive⟩ := explains second polled
      exact ⟨explains.undisturbed undisturbed, fun events => by rw [undisturbed.alive, alive]; rfl⟩

theorem call_inputs (act : P → Session → Call SessionEffect Session) (primed : task.Primed build sliced)
    (p : P) : ∃ inputs, Step build sliced warns protobuf act task (.call p) inputs := by
  by_cases alive : task.alive = true
  · have calls : step build sliced warns protobuf act task (.call p) =
        (act p task.session).listen >>= fun heard =>
          pure ({ task with session := heard.1 }.queue heard.2) := if_pos alive
    refine ⟨[.call p], ⟨?_, List.nil_prefix, by rw [alive]; rfl, fun task' returned => ?_⟩⟩
    · rw [calls]
      refine (Call.bind_pure_log _ _).trans ?_
      exact (Call.bind_pure_log (act p task.session) id).symm
    · rw [calls] at returned
      obtain ⟨⟨session, log⟩, listened, done⟩ := Call.bind_returns.mp returned
      obtain ⟨acted, _⟩ := Call.listen_returns listened
      cases done
      refine ⟨⟨?_, primed, [], rfl, fun _ => rfl⟩, fun events => by rw [alive]; rfl⟩
      exact Call.bind_returns.mpr ⟨session, acted, rfl⟩
  · have same : step build sliced warns protobuf act task (.call p) = pure task := if_neg alive
    have dead : task.alive = false := Bool.eq_false_iff.mpr alive
    refine ⟨[], ⟨by rw [same]; rfl, List.nil_prefix, by rw [dead]; rfl, fun task' returned => ?_⟩⟩
    rw [same] at returned
    cases returned
    exact ⟨.refl primed, fun events => by rw [dead]; rfl⟩

theorem step_inputs (act : P → Session → Call SessionEffect Session) (primed : task.Primed build sliced)
    (event : SessionEvent P) : ∃ inputs, Step build sliced warns protobuf act task event inputs := by
  cases event with
  | poll =>
    obtain ⟨found, first⟩ := poll_inputs act primed
    exact ⟨_, first⟩
  | call p => exact call_inputs act primed p
  | drop =>
    refine ⟨[], ⟨rfl, List.nil_prefix, rfl, fun task' returned => ?_⟩⟩
    cases returned
    exact ⟨⟨rfl, primed, [], rfl, fun _ => rfl⟩, fun _ => rfl⟩

theorem run_inputs (warns : Bool) (protobuf : Protobuf)
    (act : P → Session → Call SessionEffect Session) (primed : task.Primed build sliced)
    (events : List (SessionEvent P)) : ∃ inputs,
      (Call.run (step build sliced warns protobuf act) task events).log =
        (Call.run (Session.input warns protobuf act) task.session inputs).log ∧
      received inputs <+:
        (task.transport.pending build sliced (task.transport.upstream.flatMap Reading.bytes)).log ∧
      called inputs <+: SessionEvent.calls task.alive events ∧
      ∀ task', (Call.run (step build sliced warns protobuf act) task events).value = some task' →
        Explains build sliced warns protobuf act inputs task task' ∧
          called inputs = SessionEvent.calls task.alive events := by
  induction events generalizing task with
  | nil =>
    refine ⟨[], rfl, List.nil_prefix, List.nil_prefix, fun task' returned => ?_⟩
    cases returned
    exact ⟨.refl primed, rfl⟩
  | cons event events ih =>
    obtain ⟨inputs, first⟩ : ∃ inputs, Step build sliced warns protobuf act task event inputs :=
      step_inputs act primed event
    cases stepped : (step build sliced warns protobuf act task event).value with
    | none =>
      refine ⟨inputs, ?_, first.received, ?_, fun task' returned => ?_⟩
      · rw [Call.run, Call.bind_log_panic stepped, first.log]
      · rw [first.called]
        exact calls_first task.alive event events
      · obtain ⟨_, stepped', _⟩ := Call.bind_returns.mp returned
        cases stepped.symm.trans stepped'
    | some second =>
      obtain ⟨explains, calls⟩ := first.explains second stepped
      obtain ⟨later, log, reads, heard, goes_on⟩ := ih explains.primed
      refine ⟨inputs ++ later, ?_, ?_, ?_, fun task' returned => ?_⟩
      · rw [Call.run, Call.bind_log stepped, first.log, Call.run_append, Call.bind_log explains.session, log]
      · obtain ⟨before, whole, found⟩ := explains.reads
        rw [whole, List.flatMap_append, found, received_append]
        exact (List.prefix_append_right_inj _).mpr reads
      · rw [called_append, first.called, calls events]
        exact (List.prefix_append_right_inj _).mpr heard
      · obtain ⟨_, stepped', ran⟩ := Call.bind_returns.mp returned
        cases stepped.symm.trans stepped'
        obtain ⟨rest, same⟩ := goes_on task' ran
        exact ⟨explains.trans rest, by rw [called_append, first.called, calls events, same]⟩

/-- What waits for more has no packet left. -/
theorem Primed.settled (primed : task.Primed build sliced) (settled : task.transport.is_readable = false) :
    (task.transport.pending build sliced []).log = [] := by
  rcases primed with readable | ⟨_, waits⟩
  · cases readable.symm.trans settled
  · rw [Transport.pending, List.append_nil]
    exact congrArg Call.log (Incremental.drain_waits waits)

theorem create_primed (build : Build) (sliced : shannon.Sliced) (session : Session) {transport : Transport S}
    (given : transport.is_readable = true) : (create session transport).Primed build sliced :=
  .inl given

end SessionTask

end ConnectScrobbler
