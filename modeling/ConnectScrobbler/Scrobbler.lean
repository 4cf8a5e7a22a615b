import ConnectScrobbler.Core.Util.SpotifyId
import ConnectScrobbler.Lib.Future

/-! The scrobbler of `src/scrobbler.rs`: five future slots around the track that
is playing. Last.fm, the clock and the metadata fetch are the outside; what they
answer during a call is the call's `Env`. Every contact with the outside is
logged. A clock reading is a number of nanoseconds. -/
namespace ConnectScrobbler

abbrev Instant := Nat
abbrev Duration := Nat

def Duration.new (secs nanos : Nat) : Duration := secs * 1000000000 + nanos

structure Scrobble where
  artist : String
  track : String
  album : String
  deriving DecidableEq, Repr

/-- An error of the Last.fm client, known here by its debug text. -/
structure ScrobblerError where
  debug : String
  deriving DecidableEq, Repr

structure ScrobbleError where
  msg : String
  deriving DecidableEq, Repr

structure ScrobblerConfig where
  api_key : String
  api_secret : String
  username : String
  password : String
  deriving DecidableEq, Repr

inductive Slot where
  | auth_future | new_track_future | now_playing_future | meta_fetch_future | scrobble_future
  deriving DecidableEq, Repr

/-- What a call of the scrobbler does to the outside, with the answer it got. -/
inductive Effect where
  | authenticate (username password : String) (answer : Except ScrobblerError Unit)
  | set_new_track (track_id : SpotifyId) (start : Instant)
  | get_track_meta (track_id : SpotifyId)
  | fetched (track_id : SpotifyId) (answer : Except ScrobbleError Scrobble)
  | send_now_playing (track : Scrobble) (answer : Except ScrobblerError Unit)
  | send_scrobble (scrobble : Scrobble) (time : Instant) (answer : Except ScrobblerError Unit)
  | repolled (slot : Slot)
  | polled (result : Poll (Except Unit Unit) Unit)
  deriving DecidableEq, Repr

/-- The outside during one call: how long the call takes, what Last.fm answers,
what the metadata fetch answers when polled and whether the session still takes packets. -/
structure Env where
  busy : Duration
  scrobble : Except ScrobblerError Unit
  now_playing : Except ScrobblerError Unit
  fetch : SpotifyId → Option (Poll Scrobble ScrobbleError)
  connected : Bool

structure Scrobbler where
  config : ScrobblerConfig
  current_track_id : Option SpotifyId
  current_track_start : Option Instant
  current_track_meta : Option Scrobble
  current_track_scrobbled : Bool
  auth_future : BoxFuture Empty Unit ScrobblerError
  new_track_future : BoxFuture Empty Unit Unit
  now_playing_future : BoxFuture Empty Unit ScrobbleError
  meta_fetch_future : BoxFuture SpotifyId Scrobble ScrobbleError
  scrobble_future : Option (BoxFuture Empty Unit ScrobbleError)
  deriving DecidableEq, Repr

namespace Scrobbler

def auth (answer : Except ScrobblerError Unit) (s : Scrobbler) :
    Call Effect (BoxFuture Empty Unit ScrobblerError) := do
  Call.emit (.authenticate s.config.username s.config.password answer)
  match answer with
  | .ok _ => return .result (.ok ())
  | .error err => return .result (.error err)

def start_auth (answer : Except ScrobblerError Unit) (s : Scrobbler) : Call Effect Scrobbler := do
  let auth_future ← s.auth answer
  return { s with auth_future }

/-- `answer` is Last.fm's to the authentication the constructor starts. -/
def new (config : ScrobblerConfig) (answer : Except ScrobblerError Unit) : Call Effect Scrobbler :=
  start_auth answer
    { config
      current_track_id := none
      current_track_start := none
      current_track_meta := none
      current_track_scrobbled := false
      auth_future := .empty
      new_track_future := .empty
      now_playing_future := .empty
      meta_fetch_future := .empty
      scrobble_future := none }

/-- Both Last.fm submissions turn the client's error into a failed future. -/
def submitted : Except ScrobblerError Unit → BoxFuture Empty Unit ScrobbleError
  | .ok _ => .result (.ok ())
  | .error err => .result (.error ⟨err.debug⟩)

def send_now_playing (env : Env) (track : Scrobble) :
    Call Effect (BoxFuture Empty Unit ScrobbleError) := do
  Call.emit (.send_now_playing track env.now_playing)
  return submitted env.now_playing

def send_scrobble (env : Env) (now : Instant) (scrobble : Scrobble) :
    Call Effect (BoxFuture Empty Unit ScrobbleError) := do
  Call.emit (.send_scrobble scrobble now env.scrobble)
  return submitted env.scrobble

def start_scrobble (env : Env) (now : Instant) (s : Scrobbler) : Call Effect Scrobbler :=
  match s.current_track_meta with
  | some scrobble => do
    let future ← send_scrobble env now scrobble
    return { s with scrobble_future := some future }
  | none => return { s with scrobble_future := none }

/-- `now` is the reading that `elapsed` takes. -/
def can_scrobble_track (now : Instant) (s : Scrobbler) : Bool :=
  if s.current_track_scrobbled then false
  else
    match s.scrobble_future with
    | some _ => false
    | none =>
      match s.current_track_start with
      | some start_time =>
        let play_time := now - start_time
        decide (play_time > Duration.new 20 0)
      | none => false

/-- Both `update_current_track` and `poll` submit first what is due. -/
def start_due_scrobble (env : Env) (now : Instant) (s : Scrobbler) : Call Effect Scrobbler :=
  if s.can_scrobble_track now then s.start_scrobble env now else pure s

def set_new_track (now : Instant) (track_id : SpotifyId) (s : Scrobbler) :
    Call Effect (BoxFuture Empty Unit Unit × Scrobbler) := do
  Call.emit (.set_new_track track_id now)
  return (.result (.ok ()),
    { s with
      current_track_id := some track_id
      current_track_start := some now
      current_track_meta := none
      current_track_scrobbled := false })

def new_track_detected (track_id : SpotifyId) (s : Scrobbler) : Bool :=
  match s.current_track_id with
  | none => true
  | some id => decide (id ≠ track_id)

def starts_play (track_id : SpotifyId) (force_new_track : Bool) (s : Scrobbler) : Bool :=
  force_new_track || s.new_track_detected track_id

/-- The clock is read once for `elapsed` and once, later, for the new start. -/
def update_current_track (env : Env) (now : Instant) (track_id : SpotifyId)
    (force_new_track : Bool) (s : Scrobbler) : Call Effect Scrobbler :=
  if s.starts_play track_id force_new_track then do
    let s ← s.start_due_scrobble env now
    let (new_track_future, s) ← s.set_new_track (now + env.busy) track_id
    return { s with new_track_future }
  else return s

/-- The request for the track is sent at once, the answers are awaited. -/
def get_track_meta (env : Env) (track_id : SpotifyId) :
    Call Effect (BoxFuture SpotifyId Scrobble ScrobbleError) := do
  Call.emit (.get_track_meta track_id)
  if env.connected then return .task track_id else Call.panic

/-- A part of `poll`: the scrobbler after it, and a result if `poll` returns there. -/
abbrev Stage := Call Effect (Scrobbler × Option (Poll (Except Unit Unit) Unit))

def poll_auth (s : Scrobbler) : Stage := do
  let (answer, auth_future) ← s.auth_future.poll_result (.repolled .auth_future)
  match answer with
  | .ok (.ready _) => return ({ s with auth_future := .empty }, none)
  | .ok .notReady => return ({ s with auth_future }, none)
  | .error _ => return ({ s with auth_future }, some (.error ()))

def poll_scrobble (env : Env) (now : Instant) (s : Scrobbler) : Stage := do
  let s ← s.start_due_scrobble env now
  match s.scrobble_future with
  | some future => do
    let (answer, future) ← future.poll_result (.repolled .scrobble_future)
    match answer with
    | .ok (.ready _) =>
      return ({ s with scrobble_future := none, current_track_scrobbled := true }, none)
    | .ok .notReady => return ({ s with scrobble_future := some future }, some (.ok .notReady))
    | .error _ => return ({ s with scrobble_future := some future }, some (.error ()))
  | none => return (s, none)

def poll_new_track (env : Env) (s : Scrobbler) : Stage := do
  let (answer, new_track_future) ← s.new_track_future.poll_result (.repolled .new_track_future)
  match answer with
  | .ok (.ready _) => do
    let s := { s with new_track_future := .empty, current_track_scrobbled := false }
    match s.current_track_id with
    | some track_id => do
      let meta_fetch_future ← get_track_meta env track_id
      return ({ s with meta_fetch_future }, none)
    | none => return (s, none)
  | .ok .notReady => return ({ s with new_track_future }, none)
  | .error _ => return ({ s with new_track_future }, some (.error ()))

def poll_meta_fetch (env : Env) (s : Scrobbler) : Stage := do
  let (answer, meta_fetch_future) ←
    s.meta_fetch_future.poll (.repolled .meta_fetch_future) .fetched env.fetch
  match answer with
  | .ok (.ready track) => do
    let now_playing_future ← send_now_playing env track
    return ({ s with
      meta_fetch_future := .empty, now_playing_future, current_track_meta := some track }, none)
  | .ok .notReady => return ({ s with meta_fetch_future }, none)
  | .error _ => return ({ s with meta_fetch_future }, some (.error ()))

def poll_now_playing (s : Scrobbler) : Stage := do
  let (answer, now_playing_future) ←
    s.now_playing_future.poll_result (.repolled .now_playing_future)
  match answer with
  | .ok (.ready _) => return ({ s with now_playing_future := .empty }, none)
  | .ok .notReady => return ({ s with now_playing_future }, none)
  | .error _ => return ({ s with now_playing_future }, some (.error ()))

def proceed (first : Stage) (next : Scrobbler → Stage) : Stage := do
  let (s, returned) ← first
  match returned with
  | none => next s
  | some result => return (s, some result)

/-- The parts in the order of the source; the end of the body is NotReady. -/
def poll (env : Env) (now : Instant) (s : Scrobbler) :
    Call Effect (Scrobbler × Poll (Except Unit Unit) Unit) := do
  let (s, returned) ←
    proceed (s.poll_auth) fun s =>
    proceed (s.poll_scrobble env now) fun s =>
    proceed (s.poll_new_track env) fun s =>
    proceed (s.poll_meta_fetch env) fun s =>
    s.poll_now_playing
  return (s, returned.getD (.ok .notReady))

end Scrobbler

structure Listener where
  scrobbler : Scrobbler
  clock : Instant
  deriving DecidableEq, Repr

/-- Time passes between calls, and during a call as long as its `Env` says. -/
inductive Action where
  | wait (time : Duration)
  | update_current_track (env : Env) (track_id : SpotifyId) (force_new_track : Bool)
  | poll (env : Env)

def Listener.step (w : Listener) : Action → Call Effect Listener
  | .wait time => return { w with clock := w.clock + time }
  | .update_current_track env track_id force_new_track => do
    let scrobbler ← w.scrobbler.update_current_track env w.clock track_id force_new_track
    return ⟨scrobbler, w.clock + env.busy⟩
  | .poll env => do
    let (scrobbler, result) ← w.scrobbler.poll env w.clock
    Call.emit (.polled result)
    return ⟨scrobbler, w.clock + env.busy⟩

def Listener.run (config : ScrobblerConfig) (answer : Except ScrobblerError Unit)
    (clock : Instant) (actions : List Action) : Call Effect Listener := do
  let scrobbler ← Scrobbler.new config answer
  Call.run Listener.step ⟨scrobbler, clock⟩ actions

end ConnectScrobbler
