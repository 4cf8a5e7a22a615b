import ConnectScrobbler.Core.Authentication
import ConnectScrobbler.Core.Session
import ConnectScrobbler.Spirc

/-! The program of `src/main.rs`: it waits for its connection and for interrupts, and then it
polls its device. When the connection is made and when the interrupts come is the outside's. -/
namespace ConnectScrobbler

structure SessionConfig where
  user_agent : String
  device_id : String
  deriving DecidableEq, Repr

/-- A connection that has been made: the session and the user it is for. -/
structure Login where
  username : String
  session : Session

/-- The end of a device that shutdowns are sent to, by the number of its device. -/
structure Spirc where
  device : Nat
  deriving DecidableEq, Repr

/-- What the program is built with and started with. -/
structure Setup where
  version_string : String
  session_config : SessionConfig
  connect_config : ConnectConfig
  credentials : Option Credentials
  scrobbler_config : ScrobblerConfig
  deriving DecidableEq, Repr

inductive MainEffect where
  | connect (config : SessionConfig) (credentials : Credentials)
  | spirc (e : SpircEffect)
  | shutdown (spirc : Spirc)
  | spawn (task : SpircTask)
  deriving DecidableEq, Repr

/-- `connect` is the empty future where there are no credentials. A task is kept with the
manager of its session. -/
structure Main where
  version_string : String
  session_config : SessionConfig
  connect_config : ConnectConfig
  spirc : Option Spirc
  spirc_task : Option Host
  connect : Option Credentials
  scrobbler_config : ScrobblerConfig
  shutdown : Bool
  devices : Nat

namespace Main

/-- The outside during one turn of the loop in `poll`. -/
structure TurnEnv where
  connect : Poll Login Unit
  signal : Poll (Option Unit) Unit
  answer : Except ScrobblerError Unit
  hello : SendEnv
  task : Nat → ConnectScrobbler.TurnEnv

/-- A task that is replaced has lost its spirc and goes on by itself. -/
def spawn : Option Host → Call MainEffect Unit
  | some h => Call.emit (.spawn { h.task with commands := h.task.commands.drop_sender })
  | none => return ()

def credentials (credentials : Credentials) (x : Main) : Call MainEffect Main := do
  Call.emit (.connect x.session_config credentials)
  spawn x.spirc_task
  return { x with connect := some credentials, spirc := none, spirc_task := none }

def new (setup : Setup) : Call MainEffect Main :=
  let task : Main :=
    { version_string := setup.version_string
      session_config := setup.session_config
      connect_config := setup.connect_config
      spirc := none
      spirc_task := none
      connect := none
      scrobbler_config := setup.scrobbler_config
      shutdown := false
      devices := 0 }
  match setup.credentials with
  | some credentials => task.credentials credentials
  | none => return task

/-- The three parts of a turn; the first two say whether there was progress. -/
def poll_connect (p : Platform) (env : TurnEnv) (x : Main) : Call MainEffect (Main × Bool) :=
  match x.connect with
  | none => return (x, false)
  | some _ =>
    match env.connect with
    | .error _ => Call.panic
    | .ok .notReady => return (x, false)
    | .ok (.ready login) => do
      let setup : Spirc.Setup :=
        { version_string := x.version_string
          config := x.connect_config
          device_id := x.session_config.device_id
          username := login.username
          scrobbler_config := x.scrobbler_config }
      let h ← (Host.start p setup login.session.connected env.answer env.hello
        login.session.mercury).within .spirc
      return ({ x with
        connect := none
        spirc := some ⟨x.devices⟩
        spirc_task := some h
        devices := x.devices + 1 }, true)

/-- The task at hand is that of the spirc. -/
def forward (x : Main) : Call MainEffect Main :=
  match x.spirc with
  | some spirc => do
    Call.emit (.shutdown spirc)
    return { x with
      spirc_task := x.spirc_task.map fun h => { h with task := Spirc.shutdown h.task } }
  | none => return x

def poll_signal (env : TurnEnv) (x : Main) : Call MainEffect (Option (Async Unit) × Main × Bool) :=
  match env.signal with
  | .error _ => Call.panic
  | .ok (.ready (some ())) =>
    if !x.shutdown then do
      let x ← x.forward
      return (none, { x with shutdown := true }, true)
    else return (some (.ready ()), x, false)
  | .ok _ => return (none, x, false)

def poll_task (p : Platform) (env : TurnEnv) (x : Main) :
    Call MainEffect (Option (Async Unit) × Main) :=
  match x.spirc_task with
  | none => return (none, x)
  | some h => do
    let h ← (h.step p (.poll env.task)).within .spirc
    let x := { x with spirc_task := some h }
    if h.finished then
      if x.shutdown then return (some (.ready ()), x) else Call.panic
    else return (none, x)

/-- A turn of the loop; without a result there is another one. -/
def turn (p : Platform) (env : TurnEnv) (x : Main) : Call MainEffect (Option (Async Unit) × Main) := do
  let (x, connected) ← x.poll_connect p env
  let (returned, x, signalled) ← x.poll_signal env
  match returned with
  | some result => return (some result, x)
  | none => do
    let (returned, x) ← x.poll_task p env
    match returned with
    | some result => return (some result, x)
    | none =>
      if !(connected || signalled) then return (some .notReady, x)
      else return (none, x)

def poll_loop (p : Platform) (env : Nat → TurnEnv) :
    (left : Nat) → Main → Call MainEffect (Option (Async Unit) × Main)
  | 0, x => return (none, x)
  | left + 1, x => do
    match ← x.turn p (env left) with
    | (some result, x) => return (some result, x)
    | (none, x) => poll_loop p env left x

/-- What there is to come: a connection and an interrupt that does not end the program. -/
def to_come (x : Main) : Nat := x.connect.isSome.toNat + (!x.shutdown).toNat

def poll (p : Platform) (env : Nat → TurnEnv) (x : Main) : Call MainEffect (Async Unit × Main) := do
  let (result, x) ← poll_loop p env (x.to_come + 1) x
  return (result.getD .notReady, x)

end Main

/-- The program, and whether it has come to its end. -/
structure Program where
  main : Main
  finished : Bool

namespace Program

/-- The loop of the program, turn by turn, and what comes for its device in between. -/
inductive Action where
  | receive (arrival : Arrival)
  | mercury (action : Mercury.Action)
  | turn (env : Main.TurnEnv)

/-- Something that comes in for the device, if there is one. -/
def deliver (p : Platform) (action : Host.Action) (x : Program) : Call MainEffect Program :=
  match x.main.spirc_task with
  | none => return x
  | some h => do
    let h ← (h.step p action).within .spirc
    return { x with main := { x.main with spirc_task := some h } }

def step (p : Platform) (x : Program) : Action → Call MainEffect Program
  | .receive arrival => x.deliver p (.receive arrival)
  | .mercury action => x.deliver p (.mercury action)
  | .turn env =>
    if x.finished then return x
    else do
      let (returned, main) ← x.main.turn p env
      return ⟨main, returned == some (.ready ())⟩

def run (p : Platform) (setup : Setup) (actions : List Action) : Call MainEffect Program := do
  let main ← Main.new setup
  Call.run (step p) ⟨main, false⟩ actions

end Program

end ConnectScrobbler
