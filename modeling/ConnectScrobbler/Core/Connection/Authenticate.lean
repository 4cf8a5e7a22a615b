import ConnectScrobbler.Core.Authentication
import ConnectScrobbler.Core.Connection.Transport

/-! The login of `core/src/connection/mod.rs`: one packet is sent, and the first one that comes is the
answer. Parameters are the messages of protobuf and what the build says of itself. -/
namespace ConnectScrobbler

open APCodec (attempt encoder incremental)
open Future (Resolves)

def CPU_UNKNOWN : Nat := 0x0
def OS_UNKNOWN : Nat := 0x0

/-- The fields of `ClientResponseEncrypted` that are set, those of its parts among them. -/
structure ClientResponseEncrypted where
  username : String
  typ : AuthenticationType
  auth_data : Bytes
  cpu_family : Nat
  os : Nat
  system_information_string : String
  device_id : String
  version_string : String
  deriving DecidableEq, Repr

/-- The fields of `APWelcome` that are read. -/
structure APWelcome where
  canonical_username : String
  reusable_auth_credentials_type : AuthenticationType
  reusable_auth_credentials : Bytes
  deriving DecidableEq, Repr

structure LoginMessages where
  write_to_bytes : ClientResponseEncrypted → Option Bytes
  parse_from_bytes : Bytes → Option APWelcome
  short_sha : String
  build_id : String

def version_string (login : LoginMessages) : String := "librespot-" ++ login.short_sha

inductive IoError where
  | read (e : FrameError MacError)
  | write (e : WriteError)
  deriving DecidableEq, Repr

variable {S : Type}

/-- The futures of `authenticate`: the packet is sent, then one is received. -/
inductive Authenticate (S : Type) where
  | Send (item : Option (UInt8 × Bytes)) (transport : Transport S)
  | Receive (transport : Transport S)

def login_packet (login : LoginMessages) (credentials : Credentials) (device_id : String) :
    ClientResponseEncrypted :=
  { username := credentials.username
    typ := credentials.auth_type
    auth_data := credentials.auth_data
    cpu_family := CPU_UNKNOWN
    os := OS_UNKNOWN
    system_information_string := "librespot_" ++ login.short_sha ++ "_" ++ login.build_id
    device_id
    version_string := version_string login }

def authenticate (login : LoginMessages) (transport : Transport S) (credentials : Credentials)
    (device_id : String) : Option (Authenticate S) := do
  let packet := login_packet login credentials device_id
  let cmd := 0xab
  let data ← login.write_to_bytes packet
  return .Send (some (cmd, data)) transport

namespace Authenticate

/-- The credentials in a welcome. Another packet, such as a refusal, is a panic, and so is none. -/
def welcome (login : LoginMessages) : Option (UInt8 × Bytes) → Option Credentials
  | none => none
  | some (cmd, data) =>
    if cmd = 0xac then do
      let welcome_data ← login.parse_from_bytes data
      return { username := welcome_data.canonical_username
               auth_type := welcome_data.reusable_auth_credentials_type
               auth_data := welcome_data.reusable_auth_credentials }
    else none

def poll_receive (build : Build) (shannon : Cipher S) (login : LoginMessages) (transport : Transport S) :
    Option (Poll (Transport S × Credentials) IoError × Authenticate S) := do
  match ← transport.stream.poll (attempt build shannon) with
  | (.ok .notReady, f) => return (.ok .notReady, .Receive (transport.put_stream f))
  | (.error e, f) => return (.error (.read e), .Receive (transport.put_stream f))
  | (.ok (.ready packet), f) =>
    let transport := transport.put_stream f
    let reusable_credentials ← welcome login packet
    return (.ok (.ready (transport, reusable_credentials)), .Receive transport)

/-- The packet is in the buffer; write it out. -/
def poll_complete (build : Build) (shannon : Cipher S) (login : LoginMessages) (transport : Transport S) :
    Option (Poll (Transport S × Credentials) IoError × Authenticate S) :=
  match transport.sink.poll_complete with
  | (.error e, sink) => return (.error (.write e), .Send none (transport.put_sink sink))
  | (.ok .notReady, sink) => return (.ok .notReady, .Send none (transport.put_sink sink))
  | (.ok (.ready ()), sink) => poll_receive build shannon login (transport.put_sink sink)

def poll (build : Build) (shannon : Cipher S) (login : LoginMessages) :
    Authenticate S → Option (Poll (Transport S × Credentials) IoError × Authenticate S)
  | .Send none transport => poll_complete build shannon login transport
  | .Send (some item) transport => do
    match ← transport.sink.start_send (encoder build shannon) item with
    | (.error e, sink) => return (.error (.write e), .Send none (transport.put_sink sink))
    | (.ok (.notReady item), sink) => return (.ok .notReady, .Send (some item) (transport.put_sink sink))
    | (.ok .ready, sink) => poll_complete build shannon login (transport.put_sink sink)
  | .Receive transport => poll_receive build shannon login transport

/-- A future as the calls of this model have it. -/
def polled (O : Type) (build : Build) (shannon : Cipher S) (login : LoginMessages) (f : Authenticate S) :
    Call O (Poll (Transport S × Credentials) IoError × Authenticate S) :=
  Call.unwrap (f.poll build shannon login)

variable {build : Build} {shannon : Cipher S} {sliced : shannon.Sliced} {login : LoginMessages}
  {item : UInt8 × Bytes} {start transport : Transport S} {f f' : Authenticate S}
  {reusable_credentials : Credentials}

/-- How far the login has come since the transport was as it is at the start. -/
def Under (build : Build) (sliced : shannon.Sliced) (item : UInt8 × Bytes) (start : Transport S) :
    Authenticate S → Prop
  | .Send (some packet) transport => packet = item ∧ start.Conversed build sliced [] [] transport
  | .Send none transport => start.Conversed build sliced [item] [] transport
  | .Receive transport => start.Conversed build sliced [item] [] transport ∧ transport.wr = []

/-- The login is done: the packet has been written, and nothing but the welcome was taken. -/
structure Welcomed (build : Build) (sliced : shannon.Sliced) (login : LoginMessages) (item : UInt8 × Bytes)
    (start transport : Transport S) (credentials : Credentials) : Prop where
  exchange : ∃ packet, start.Conversed build sliced [item] [packet] transport ∧
    welcome login (some packet) = some credentials
  written : transport.wr = []
  readable : transport.is_readable = true

/-- What a poll may come to. -/
def Follows (build : Build) (sliced : shannon.Sliced) (login : LoginMessages) (item : UInt8 × Bytes)
    (start : Transport S) : Poll (Transport S × Credentials) IoError × Authenticate S → Prop
  | (.ok .notReady, f) => f.Under build sliced item start
  | (.ok (.ready (transport, credentials)), _) =>
    Welcomed build sliced login item start transport credentials
  | (.error _, _) => True

theorem receive_follows {result : Poll (Transport S × Credentials) IoError}
    (conversed : start.Conversed build sliced [item] [] transport) (written : transport.wr = [])
    (polled : poll_receive build shannon login transport = some (result, f)) :
    Follows build sliced login item start (result, f) := by
  obtain ⟨⟨reading, stream⟩, read, polled⟩ := Option.bind_eq_some_iff.mp polled
  match reading, polled with
  | .ok .notReady, rfl => exact ⟨conversed.trans (.read read), written⟩
  | .error _, rfl => trivial
  | .ok (.ready packet), polled =>
    obtain ⟨credentials, welcomed, polled⟩ := Option.bind_eq_some_iff.mp polled
    cases polled
    cases packet with
    | none => cases welcomed
    | some packet =>
      exact ⟨⟨packet, conversed.trans (.read read), welcomed⟩, written, Framed.poll_readable read⟩

theorem complete_follows {result : Poll (Transport S × Credentials) IoError}
    (conversed : start.Conversed build sliced [item] [] transport)
    (polled : poll_complete build shannon login transport = some (result, f)) :
    Follows build sliced login item start (result, f) := by
  obtain ⟨moved, same, _, out⟩ := FramedSink.write_loop_moves transport.sink.codec transport.sink.sent
    transport.sink.wr transport.sink.downstream
  rw [← FramedSink.poll_complete] at moved same out
  have kept : start.Conversed build sliced [item] [] (transport.put_sink transport.sink.poll_complete.2) :=
    conversed.trans (.write (by rw [moved, same]; rfl))
  unfold poll_complete at polled
  split at polled
  · cases polled
    trivial
  · rename_i flushed
    cases polled
    rw [flushed] at kept
    exact kept
  · rename_i flushed
    rw [flushed] at kept out
    exact receive_follows kept (out rfl) polled

theorem poll_follows {result : Poll (Transport S × Credentials) IoError}
    (under : f.Under build sliced item start) (polled : f.poll build shannon login = some (result, f')) :
    Follows build sliced login item start (result, f') := by
  match f, under, polled with
  | .Receive transport, under, polled => exact receive_follows under.1 under.2 polled
  | .Send none transport, under, polled => exact complete_follows under polled
  | .Send (some packet) transport, ⟨same, conversed⟩, polled =>
    subst same
    have untouched : (encoder build shannon).encode_all [] (transport.sent ++ transport.wr,
      transport.codec) = some (transport.sink.sent ++ transport.sink.wr, transport.sink.codec) := rfl
    obtain ⟨⟨outcome, sink⟩, called, polled⟩ := Option.bind_eq_some_iff.mp polled
    obtain ⟨_, ⟨rfl, encoded⟩ | ⟨rfl, encoded⟩ | ⟨e, rfl⟩⟩ := Forward.start_send_cases untouched called
    · exact complete_follows (conversed.trans (.write encoded)) polled
    · cases Option.some.inj polled
      exact ⟨rfl, conversed.trans (.write encoded)⟩
    · cases Option.some.inj polled
      trivial

/-- However often the login had to be polled. -/
theorem resolves_welcomed {O : Type} {log : List O} (under : f.Under build sliced item start)
    (resolves : Resolves (polled O build shannon login) f log (transport, reusable_credentials)) :
    Welcomed build sliced login item start transport reusable_credentials := by
  generalize result : (transport, reusable_credentials) = answer at resolves
  induction resolves with
  | ready called =>
    subst result
    exact poll_follows under (congrArg Call.value called)
  | waits called _ ih => exact ih (poll_follows under (congrArg Call.value called)) result

end Authenticate

end ConnectScrobbler
