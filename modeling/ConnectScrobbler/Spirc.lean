import ConnectScrobbler.Core.Mercury.Sender
import ConnectScrobbler.Lib.Mpsc
import ConnectScrobbler.Scrobbler
import ConnectScrobbler.Spirc.Types

/-! The device of `src/spirc.rs`: it says hello, answers the hellos of others, tells the
scrobbler what they play and says goodbye. The sink that carries its frames may hold
them back: what it hands on is the outside's, as are the clock and Last.fm's answers. -/
namespace ConnectScrobbler

open Mercury (MercuryManager MercurySender SenderEffect)

inductive SpircCommand where
  | Shutdown
  deriving DecidableEq, Repr

/-- What a device does to the outside, and what it handles. -/
inductive SpircEffect where
  | mercury (e : Mercury.Effect)
  | sender (e : SenderEffect)
  | scrobbler (e : Effect)
  | start_send (frame : Frame)
  | handle_frame (frame : Frame)
  | handle_command (cmd : SpircCommand)
  | scrobbler_error
  | returned (result : Async Unit)
  deriving DecidableEq, Repr

/-- What the program is built with. -/
structure Platform where
  build : Build
  protobuf : Protobuf
  format : FrameFormat

/-- The outside while a frame is sent: the clock, how many of the frames it then holds the
sink hands on, and whether the session takes packets. -/
structure SendEnv where
  now_ms : Int
  handed : Nat
  connected : Bool

/-- The boxed sink: the `MercurySender` and the frames that are on their way to it. -/
structure FrameSink where
  held : List Frame
  sender : MercurySender
  deriving DecidableEq, Repr

namespace FrameSink

def hand_on (p : Platform) (connected : Bool) :
    List Frame → MercuryManager → MercurySender → Call SpircEffect (MercurySender × MercuryManager)
  | [], m, sender => return (sender, m)
  | frame :: frames, m, sender => do
    let item := p.format.write_to_bytes frame
    let (sender, m) ← (sender.start_send p.build p.protobuf connected item m).within .sender
    hand_on p connected frames m sender

def start_send (p : Platform) (env : SendEnv) (frame : Frame) (m : MercuryManager) (s : FrameSink) :
    Call SpircEffect (FrameSink × MercuryManager) := do
  Call.emit (.start_send frame)
  let held := s.held ++ [frame]
  let (sender, m) ← hand_on p env.connected (held.take env.handed) m s.sender
  return (⟨held.drop env.handed, sender⟩, m)

def poll_complete (p : Platform) (connected : Bool) (m : MercuryManager) (s : FrameSink) :
    Call SpircEffect (Poll Unit MercuryError × FrameSink × MercuryManager) := do
  let (sender, m) ← hand_on p connected s.held m s.sender
  let (result, sender) ← (sender.poll_complete m).within .sender
  return (result, ⟨[], sender⟩, m)

end FrameSink

/-- What a poll of the subscription finds. -/
inductive Arrival where
  | response (response : MercuryResponse)
  | terminated
  | failed
  deriving DecidableEq, Repr

structure SpircTask where
  sequence : SeqGenerator 32
  ident : String
  device : DeviceState
  state : State
  subscription : List Arrival
  sender : FrameSink
  commands : Receiver SpircCommand
  shutdown : Bool
  scrobbler : Scrobbler
  deriving DecidableEq, Repr

/-- The manager is shared with the rest of the session. -/
abbrev Spirc.Step := Call SpircEffect (SpircTask × MercuryManager)

namespace CommandSender

def frame (now_ms : Int) (cmd : MessageType) (seq_nr : BitVec 32) (t : SpircTask) : Frame :=
  { Frame.new with
    version := some 1
    protocol_version := some "2.0.0"
    ident := some t.ident
    seq_nr := some seq_nr
    typ := some cmd
    device_state := some t.device
    state_update_id := some now_ms }

def new (build : Build) (now_ms : Int) (cmd : MessageType) (t : SpircTask) :
    Option (Frame × SpircTask) := do
  let (seq_nr, sequence) ← t.sequence.get build
  return (frame now_ms cmd seq_nr t, { t with sequence })

def recipient (recipient : String) (frame : Frame) : Frame :=
  { frame with recipient := frame.recipient ++ [recipient] }

def send (p : Platform) (env : SendEnv) (frame : Frame) (m : MercuryManager) (t : SpircTask) :
    Spirc.Step := do
  let frame :=
    if frame.state.isNone && t.device.get_is_active then { frame with state := some t.state }
    else frame
  let (sender, m) ← t.sender.start_send p env frame m
  return ({ t with sender }, m)

theorem new_eq (build : Build) (now_ms : Int) (cmd : MessageType) (t : SpircTask) :
    new build now_ms cmd t = (build.add t.sequence.value 1).map
      fun next => (frame now_ms cmd t.sequence.value t, { t with sequence := ⟨next⟩ }) := by
  rw [new, SeqGenerator.get, Seq.next]
  cases build.add t.sequence.value 1 <;> rfl

theorem new_returns {build : Build} {now_ms : Int} {cmd : MessageType} {t : SpircTask}
    {made : Frame × SpircTask} (counted : new build now_ms cmd t = some made) :
    made = (frame now_ms cmd t.sequence.value t,
      { t with sequence := ⟨t.sequence.value + 1⟩ }) := by
  rw [new_eq] at counted
  obtain ⟨next, added, rfl⟩ := Option.map_eq_some_iff.mp counted
  rw [(Build.add_returns added).1]

end CommandSender

/-- The outside during one turn of the loop in `poll`; a scrobbler call starts at a reading of
the clock. -/
structure TurnEnv where
  notify : SendEnv
  update : Env
  updated_at : Instant
  goodbye : SendEnv
  poll : Env
  polled_at : Instant
  connected : Bool

namespace SpircTask

def hello (p : Platform) (env : SendEnv) (m : MercuryManager) (t : SpircTask) : Spirc.Step := do
  let (frame, t) ← Call.unwrap (CommandSender.new p.build env.now_ms .Hello t)
  CommandSender.send p env frame m t

def notify (p : Platform) (env : SendEnv) (recipient : Option String) (m : MercuryManager)
    (t : SpircTask) : Spirc.Step := do
  let (frame, t) ← Call.unwrap (CommandSender.new p.build env.now_ms .Notify t)
  let frame := match recipient with
    | some s => CommandSender.recipient s frame
    | none => frame
  CommandSender.send p env frame m t

def handle_command (p : Platform) (env : SendEnv) (cmd : SpircCommand) (m : MercuryManager)
    (t : SpircTask) : Spirc.Step := do
  Call.emit (.handle_command cmd)
  match cmd with
  | .Shutdown => do
    let (frame, t) ← Call.unwrap (CommandSender.new p.build env.now_ms .Goodbye t)
    let (t, m) ← CommandSender.send p env frame m t
    return ({ t with shutdown := true, commands := t.commands.close }, m)

/-- A peer says which track of its list is playing, and under which id: neither is checked. -/
def handle_frame (p : Platform) (env : TurnEnv) (frame : Frame) (m : MercuryManager)
    (t : SpircTask) : Spirc.Step := do
  Call.emit (.handle_frame frame)
  if frame.get_ident = t.ident ∨ (frame.recipient.length > 0 ∧ t.ident ∉ frame.recipient) then
    return (t, m)
  else
    match frame.get_typ with
    | .Hello => t.notify p env.notify (some frame.get_ident) m
    | .Notify =>
      if !frame.get_device_state.get_is_active then return (t, m)
      else
        let state := frame.get_state
        let playing_index := state.get_playing_track_index
        let tracks := state.track
        if tracks.length > 0 then do
          let playing_track_ref ← Call.unwrap tracks[playing_index.toNat]?
          let playing_track_spotify_id ← Call.unwrap (SpotifyId.from_raw playing_track_ref.get_gid)
          let force_new_track := state.get_position_ms == 0
          let scrobbler ← (t.scrobbler.update_current_track env.update env.updated_at
            playing_track_spotify_id force_new_track).within .scrobbler
          return ({ t with scrobbler }, m)
        else return (t, m)
    | _ => return (t, m)

/-- A response becomes a frame in the closure that the subscription is mapped with. -/
def to_frame (format : FrameFormat) (response : MercuryResponse) : Option Frame := do
  let data ← response.payload.head?
  format.parse_from_bytes data

/-- The three parts of a turn that a shutdown ends; the flag says whether there was progress. -/
def poll_subscription (p : Platform) (env : TurnEnv) (m : MercuryManager) (t : SpircTask) :
    Call SpircEffect (SpircTask × MercuryManager × Bool) :=
  match t.subscription with
  | .response response :: subscription => do
    let frame ← Call.unwrap (to_frame p.format response)
    let (t, m) ← { t with subscription }.handle_frame p env frame m
    return (t, m, true)
  | .terminated :: _ => Call.panic
  | .failed :: _ => Call.panic
  | [] => return (t, m, false)

def poll_commands (p : Platform) (env : TurnEnv) (m : MercuryManager) (t : SpircTask) :
    Call SpircEffect (SpircTask × MercuryManager × Bool) :=
  match t.commands.poll with
  | (.ready (some command), commands) => do
    let (t, m) ← { t with commands }.handle_command p env.goodbye command m
    return (t, m, true)
  | (.ready none, commands) => return ({ t with commands }, m, false)
  | (.notReady, commands) => return ({ t with commands }, m, false)

def poll_scrobbler (env : TurnEnv) (t : SpircTask) : Call SpircEffect (SpircTask × Bool) := do
  let (scrobbler, result) ← (t.scrobbler.poll env.poll env.polled_at).within .scrobbler
  match result with
  | .ok (.ready _) => return ({ t with scrobbler }, true)
  | .ok .notReady => return ({ t with scrobbler }, false)
  | .error _ => do
    Call.emit .scrobbler_error
    return ({ t with scrobbler }, false)

def serve (p : Platform) (env : TurnEnv) (m : MercuryManager) (t : SpircTask) :
    Call SpircEffect (SpircTask × MercuryManager × Bool) :=
  if !t.shutdown then do
    let (t, m, received) ← t.poll_subscription p env m
    let (t, m, commanded) ← t.poll_commands p env m
    let (t, scrobbled) ← t.poll_scrobbler env
    return (t, m, received || commanded || scrobbled)
  else return (t, m, false)

/-- A turn of the loop; without a result there is another one. -/
def turn (p : Platform) (env : TurnEnv) (m : MercuryManager) (t : SpircTask) :
    Call SpircEffect (Option (Async Unit) × SpircTask × MercuryManager) := do
  let (t, m, progress) ← t.serve p env m
  let (poll_sender, sender, m) ← t.sender.poll_complete p env.connected m
  let t := { t with sender }
  match poll_sender with
  | .error _ => Call.panic
  | .ok poll_sender =>
    if t.shutdown && poll_sender == .ready () then return (some (.ready ()), t, m)
    else if !progress then return (some .notReady, t, m)
    else return (none, t, m)

def poll_loop (p : Platform) (env : Nat → TurnEnv) :
    (left : Nat) → MercuryManager → SpircTask →
      Call SpircEffect (Option (Async Unit) × SpircTask × MercuryManager)
  | 0, m, t => return (none, t, m)
  | left + 1, m, t => do
    match ← t.turn p (env left) m with
    | (some result, t, m) => return (some result, t, m)
    | (none, t, m) => poll_loop p env left m t

/-- What is waiting to be handled: each turn but the last takes some of it. -/
def backlog (t : SpircTask) : Nat := t.subscription.length + t.commands.queue.length

def poll (p : Platform) (env : Nat → TurnEnv) (m : MercuryManager) (t : SpircTask) :
    Call SpircEffect (Async Unit × SpircTask × MercuryManager) := do
  let (result, t, m) ← poll_loop p env (t.backlog + 1) m t
  let result := result.getD .notReady
  Call.emit (.returned result)
  return (result, t, m)

end SpircTask

/-- What the session and the configuration say when a device is made. -/
structure Spirc.Setup where
  version_string : String
  config : ConnectConfig
  device_id : String
  username : String
  scrobbler_config : ScrobblerConfig
  deriving DecidableEq, Repr

/-- `connected` is for the subscription, `answer` for the login, `env` for the hello. -/
def Spirc.new (p : Platform) (setup : Spirc.Setup) (connected : Bool)
    (answer : Except ScrobblerError Unit) (env : SendEnv) (m : MercuryManager) : Spirc.Step := do
  let ident := setup.device_id
  let uri := "hm://remote/3/user/" ++ setup.username ++ "/"
  let m ← (m.subscribe p.build p.protobuf connected uri).within .mercury
  let sender := MercurySender.new uri
  let volume := 0xFFFF
  let device := initial_device_state setup.version_string setup.config volume
  let scrobbler ← (Scrobbler.new setup.scrobbler_config answer).within .scrobbler
  let task : SpircTask :=
    { sequence := .new 1
      ident
      device
      state := initial_state
      subscription := []
      sender := ⟨[], sender⟩
      commands := .new
      shutdown := false
      scrobbler }
  task.hello p env m

/-- `Spirc::shutdown`: the command is queued, or lost if the task has stopped taking any. -/
def Spirc.shutdown (t : SpircTask) : SpircTask :=
  { t with commands := t.commands.send .Shutdown }

/-- A device, the manager it shares and whether its task has finished. -/
structure Host where
  task : SpircTask
  mercury : MercuryManager
  finished : Bool

inductive Host.Action where
  | receive (arrival : Arrival)
  | shutdown
  | drop_spirc
  | mercury (action : Mercury.Action)
  | poll (env : Nat → TurnEnv)

namespace Host

/-- A task that has finished is dropped. -/
def step (p : Platform) (h : Host) : Host.Action → Call SpircEffect Host
  | .receive arrival =>
    return { h with task := { h.task with subscription := h.task.subscription ++ [arrival] } }
  | .shutdown => return { h with task := Spirc.shutdown h.task }
  | .drop_spirc =>
    return { h with task := { h.task with commands := h.task.commands.drop_sender } }
  | .mercury action => do
    let mercury ← (h.mercury.step p.build p.protobuf action).within .mercury
    return { h with mercury }
  | .poll env =>
    if h.finished then return h
    else do
      let (result, task, mercury) ← h.task.poll p env h.mercury
      return { task, mercury, finished := result == .ready () }

def start (p : Platform) (setup : Spirc.Setup) (connected : Bool)
    (answer : Except ScrobblerError Unit) (env : SendEnv) (m : MercuryManager) :
    Call SpircEffect Host := do
  let (task, mercury) ← Spirc.new p setup connected answer env m
  return { task, mercury, finished := false }

def run (p : Platform) (setup : Spirc.Setup) (connected : Bool)
    (answer : Except ScrobblerError Unit) (env : SendEnv) (m : MercuryManager)
    (actions : List Host.Action) : Call SpircEffect Host := do
  let h ← start p setup connected answer env m
  Call.run (step p) h actions

end Host

end ConnectScrobbler
