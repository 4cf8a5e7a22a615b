import ConnectScrobbler.Core.Mercury.Types
import ConnectScrobbler.Core.Util.Seq
import ConnectScrobbler.Lib.Future
import Mathlib.Logic.Function.Basic

/-! The request manager of `core/src/mercury/mod.rs`. Channels are numbered in the
order in which they are made. The maps are functions; what is dropped from them
is not forgotten but logged, as are packets, new entries and answers. -/
namespace ConnectScrobbler.Mercury

open Bytes (drain_to read_be)

inductive Effect where
  | insert (seq : Bytes) (callback : Option Nat)
  | send_packet (cmd : UInt8) (data : Bytes)
  | receive (cmd : UInt8) (data : Bytes)
  | complete (callback : Nat) (result : Except MercuryError MercuryResponse)
  | cancel (callback : Nat)
  | send (tx : Nat) (response : MercuryResponse)
  | ignore_seq (seq : Bytes) (cmd : UInt8)
  deriving DecidableEq, Repr

structure MercuryPending where
  parts : List Bytes
  partial_part : Option Bytes
  callback : Option Nat
  deriving DecidableEq, Repr

/-- The future that `subscribe` returns: the request's, mapped. -/
inductive SubscribeFuture where
  | mapped (uri : String)
  | resolved (stream : Option Nat)
  deriving DecidableEq, Repr

/-- The manager: `MercuryManagerInner`, the channels made so far with the stream
receivers that are gone, and the futures of the subscribers. -/
structure MercuryManager where
  sequence : SeqGenerator 64
  pending : Bytes → Option MercuryPending
  subscriptions : List (String × Nat)
  channels : Nat
  oneshots : Nat → Oneshot (Except MercuryError MercuryResponse)
  streams : Nat
  closed : Nat → Bool
  subscribers : Nat → Option SubscribeFuture

namespace MercuryManager

def new : MercuryManager :=
  { sequence := .new 0
    pending := fun _ => none
    subscriptions := []
    channels := 0
    oneshots := fun _ => .waiting
    streams := 0
    closed := fun _ => false
    subscribers := fun _ => none }

def complete (callback : Nat) (result : Except MercuryError MercuryResponse) (m : MercuryManager) :
    Call Effect MercuryManager := do
  Call.emit (.complete callback result)
  return { m with oneshots := Function.update m.oneshots callback (.complete result) }

/-- A sender that is dropped cancels its oneshot. -/
def drop_callback (callback : Option Nat) (m : MercuryManager) : Call Effect MercuryManager :=
  match callback with
  | some callback => do
    Call.emit (.cancel callback)
    return { m with oneshots := Function.update m.oneshots callback .canceled }
  | none => return m

def remove (seq : Bytes) (m : MercuryManager) : MercuryManager :=
  { m with pending := Function.update m.pending seq none }

/-- The entry that was there is dropped. -/
def insert (seq : Bytes) (pending : MercuryPending) (m : MercuryManager) :
    Call Effect MercuryManager := do
  let m ← m.drop_callback ((m.pending seq).bind (·.callback))
  Call.emit (.insert seq pending.callback)
  return { m with pending := Function.update m.pending seq (some pending) }

def next_seq (build : Build) (m : MercuryManager) : Call Effect (Bytes × MercuryManager) := do
  let (value, sequence) ← Call.unwrap (m.sequence.get build)
  return (Bytes.be 8 value.toNat, { m with sequence })

def channel (m : MercuryManager) : Nat × MercuryManager :=
  (m.channels, { m with
    channels := m.channels + 1
    oneshots := Function.update m.oneshots m.channels .waiting })

/-- `Session::send_packet`; it fails when the session has lost its connection. -/
def send_packet (connected : Bool) (cmd : UInt8) (data : Bytes) : Call Effect Unit :=
  if connected then Call.emit (.send_packet cmd data) else Call.panic

def request (build : Build) (protobuf : Protobuf) (connected : Bool) (req : MercuryRequest)
    (m : MercuryManager) : Call Effect (Nat × MercuryManager) := do
  let (tx, m) := m.channel
  let pending := ⟨[], none, some tx⟩
  let (seq, m) ← m.next_seq build
  let m ← m.insert seq pending
  let cmd := req.method.command
  let data ← Call.unwrap (req.encode build protobuf seq)
  send_packet connected cmd data
  return (tx, m)

def subscribe (build : Build) (protobuf : Protobuf) (connected : Bool) (uri : String)
    (m : MercuryManager) : Call Effect MercuryManager := do
  let (rx, m) ← m.request build protobuf connected ⟨.SUB, uri, none, []⟩
  return { m with subscribers := Function.update m.subscribers rx (some (.mapped uri)) }

/-- `MercuryFuture::poll`. -/
def poll (rx : Nat) (m : MercuryManager) : Poll MercuryResponse MercuryError :=
  match (m.oneshots rx).poll with
  | .ok (.ready (.ok value)) => .ok (.ready value)
  | .ok (.ready (.error err)) => .error err
  | .ok .notReady => .ok .notReady
  | .error () => .error {}

def subscribed (protobuf : Protobuf) (uri : String) (tx : Nat) (response : MercuryResponse) :
    Option (List (String × Nat)) :=
  if response.payload.length > 0 then
    response.payload.mapM fun sub => do
      let sub ← protobuf.parse_subscription sub
      return (sub.take_uri, tx)
  else some [(uri, tx)]

/-- The owner polls the future that `subscribe` returned; polling it again after
it has resolved is a panic. -/
def poll_subscriber (protobuf : Protobuf) (rx : Nat) (m : MercuryManager) :
    Call Effect MercuryManager :=
  match m.subscribers rx with
  | none => return m
  | some (.resolved _) => Call.panic
  | some (.mapped uri) =>
    match m.poll rx with
    | .ok .notReady => return m
    | .error _ =>
      return { m with subscribers := Function.update m.subscribers rx (some (.resolved none)) }
    | .ok (.ready response) => do
      let tx := m.streams
      let entries ← Call.unwrap (subscribed protobuf uri tx response)
      return { m with
        streams := tx + 1
        subscriptions := m.subscriptions ++ entries
        subscribers := Function.update m.subscribers rx (some (.resolved (some tx))) }

end MercuryManager

def parse_part (data : Bytes) : Option (Bytes × Bytes) := do
  let (size, data) ← drain_to 2 data
  drain_to (read_be size) data

namespace MercuryPending

/-- One turn of the loop in `dispatch`; `last` is its test i == count - 1. -/
def add_part (flags : UInt8) (last : Bool) (part : Bytes) (pending : MercuryPending) :
    MercuryPending :=
  let part := match pending.partial_part with
    | some carried => carried ++ part
    | none => part
  if last && flags == 2 then { pending with partial_part := some part }
  else { pending with partial_part := none, parts := pending.parts ++ [part] }

/-- The loop, by the turns that are left. -/
def read_parts (flags : UInt8) : (left : Nat) → Bytes → MercuryPending → Option MercuryPending
  | 0, _, pending => some pending
  | left + 1, data, pending => do
    let (part, data) ← parse_part data
    read_parts flags left data (pending.add_part flags (left == 0) part)

def response (protobuf : Protobuf) (pending : MercuryPending) : Option MercuryResponse :=
  match pending.parts with
  | [] => none
  | header_data :: payload => do
    let header ← protobuf.parse_header header_data
    return ⟨header.get_uri, header.get_status_code, payload⟩

end MercuryPending

def starts_with (uri watched : String) : Bool := watched.toList.isPrefixOf uri.toList

namespace MercuryManager

/-- `subscriptions.retain`: send the event to those who watch its URI, and keep
the entries but those whose send failed. -/
def retain (closed : Nat → Bool) (response : MercuryResponse) :
    List (String × Nat) → Call Effect (List (String × Nat))
  | [] => return []
  | (watched, sub) :: rest =>
    if starts_with response.uri watched then
      if closed sub then retain closed response rest
      else do
        Call.emit (.send sub response)
        let rest ← retain closed response rest
        return (watched, sub) :: rest
    else do
      let rest ← retain closed response rest
      return (watched, sub) :: rest

def complete_request (protobuf : Protobuf) (cmd : UInt8) (pending : MercuryPending)
    (m : MercuryManager) : Call Effect MercuryManager := do
  let response ← Call.unwrap (pending.response protobuf)
  if response.status_code ≥ 400 then
    match pending.callback with
    | some cb => m.complete cb (.error {})
    | none => return m
  else if cmd = 0xb5 then do
    let subscriptions ← retain m.closed response m.subscriptions
    { m with subscriptions }.drop_callback pending.callback
  else
    match pending.callback with
    | some cb => m.complete cb (.ok response)
    | none => return m

/-- What `dispatch` holds between taking an entry out of the map and being done with it. -/
structure Held where
  cmd : UInt8
  seq : Bytes
  flags : UInt8
  pending : MercuryPending
  deriving DecidableEq, Repr

/-- The entry that a packet is for; an event that has none gets a new one. -/
def found (cmd : UInt8) (seq : Bytes) (m : MercuryManager) : Option MercuryPending :=
  match m.pending seq with
  | some pending => some pending
  | none => if cmd = 0xb5 then some ⟨[], none, none⟩ else none

/-- The first half of `dispatch`, up to the end of the loop. -/
def receive (cmd : UInt8) (data : Bytes) (m : MercuryManager) :
    Call Effect (MercuryManager × Option Held) := do
  Call.emit (.receive cmd data)
  let (seq_len, data) ← Call.unwrap (drain_to 2 data)
  let (seq, data) ← Call.unwrap (drain_to (read_be seq_len) data)
  let (flags, data) ← Call.unwrap (drain_to 1 data)
  let flags := flags.headD 0
  let (count, data) ← Call.unwrap (drain_to 2 data)
  let count := read_be count
  match m.found cmd seq with
  | some pending => do
    let pending ← Call.unwrap (pending.read_parts flags count data)
    return (m.remove seq, some ⟨cmd, seq, flags, pending⟩)
  | none => do
    Call.emit (.ignore_seq seq cmd)
    return (m.remove seq, none)

def conclude (protobuf : Protobuf) (held : Held) (m : MercuryManager) :
    Call Effect MercuryManager :=
  if held.flags = 0x1 then m.complete_request protobuf held.cmd held.pending
  else m.insert held.seq held.pending

def dispatch (protobuf : Protobuf) (cmd : UInt8) (data : Bytes) (m : MercuryManager) :
    Call Effect MercuryManager := do
  match ← m.receive cmd data with
  | (m, some held) => m.conclude protobuf held
  | (m, none) => return m

end MercuryManager

/-- What happens to the manager, one call at a time. `connected` says whether
the session still takes packets. -/
inductive Action where
  | request (req : MercuryRequest) (connected : Bool)
  | subscribe (uri : String) (connected : Bool)
  | dispatch (cmd : UInt8) (data : Bytes)
  | poll_subscriber (rx : Nat)
  | drop_receiver (stream : Nat)
  deriving DecidableEq, Repr

def MercuryManager.step (build : Build) (protobuf : Protobuf) (m : MercuryManager) :
    Action → Call Effect MercuryManager
  | .request req connected => do
    let (_, m) ← m.request build protobuf connected req
    return m
  | .subscribe uri connected => m.subscribe build protobuf connected uri
  | .dispatch cmd data => m.dispatch protobuf cmd data
  | .poll_subscriber rx => m.poll_subscriber protobuf rx
  | .drop_receiver stream =>
    if stream < m.streams then return { m with closed := Function.update m.closed stream true }
    else return m

def MercuryManager.run (build : Build) (protobuf : Protobuf) (actions : List Action) :
    Call Effect MercuryManager :=
  Call.run (MercuryManager.step build protobuf) .new actions

end ConnectScrobbler.Mercury
