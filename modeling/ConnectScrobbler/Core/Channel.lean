import ConnectScrobbler.Core.Util.Seq
import ConnectScrobbler.Lib.Bytes
import ConnectScrobbler.Lib.Mpsc
import Mathlib.Logic.Function.Basic

/-! The channels of `core/src/channel.rs`. Channels are numbered in the order in which
they are allocated; the manager knows the receiving ends that it has given out. -/
namespace ConnectScrobbler

open Bytes (drain_to read_be)

structure ChannelError where
  deriving DecidableEq, Repr

inductive ChannelState where
  | Header (data : Bytes)
  | Data
  | Closed
  deriving DecidableEq, Repr

structure Channel where
  receiver : Receiver (UInt8 × Bytes)
  state : ChannelState
  deriving DecidableEq, Repr

inductive ChannelEvent where
  | Header (id : UInt8) (data : Bytes)
  | Data (data : Bytes)
  deriving DecidableEq, Repr

inductive ChannelEffect where
  | insert (id : BitVec 16) (channel : Nat) (replaced : Option Nat)
  | queue (channel : Nat) (packet : UInt8 × Bytes)
  deriving DecidableEq, Repr

structure ChannelManager where
  sequence : SeqGenerator 16
  channels : BitVec 16 → Option Nat
  made : Nat
  receivers : Nat → Receiver (UInt8 × Bytes)

namespace ChannelManager

def new : ChannelManager :=
  { sequence := .new 0
    channels := fun _ => none
    made := 0
    receivers := fun _ => .new }

/-- The receiving ends, once the sender that had the id before is dropped. -/
def replace (replaced : Option Nat) (m : ChannelManager) : Nat → Receiver (UInt8 × Bytes) :=
  match replaced with
  | some channel => Function.update m.receivers channel (m.receivers channel).drop_sender
  | none => m.receivers

def allocate (build : Build) (m : ChannelManager) :
    Call ChannelEffect ((BitVec 16 × Nat) × ChannelManager) := do
  let channel := m.made
  let (seq, sequence) ← Call.unwrap (m.sequence.get build)
  let replaced := m.channels seq
  Call.emit (.insert seq channel replaced)
  return ((seq, channel), {
    sequence
    channels := Function.update m.channels seq (some channel)
    made := channel + 1
    receivers := Function.update (m.replace replaced) channel .new })

def send (channel : Nat) (packet : UInt8 × Bytes) (m : ChannelManager) :
    Call ChannelEffect ChannelManager :=
  if (m.receivers channel).taking then do
    Call.emit (.queue channel packet)
    return { m with
      receivers := Function.update m.receivers channel ((m.receivers channel).send packet) }
  else return m

def dispatch (cmd : UInt8) (data : Bytes) (m : ChannelManager) : Call ChannelEffect ChannelManager := do
  let (id, data) ← Call.unwrap (drain_to 2 data)
  let id := BitVec.ofNat 16 (read_be id)
  match m.channels id with
  | some channel => m.send channel (cmd, data)
  | none => return m

/-- The owner of a channel is done with it, or it has come to its end. -/
def close (channel : Nat) (m : ChannelManager) : ChannelManager :=
  { m with receivers := Function.update m.receivers channel (m.receivers channel).close }

end ChannelManager

namespace Channel

def new : Channel := ⟨.new, .Header []⟩

def recv_packet (channel : Channel) : Option (Poll Bytes ChannelError × Channel) :=
  match channel.receiver.poll with
  | (.notReady, receiver) => return (.ok .notReady, { channel with receiver })
  | (.ready t, receiver) => do
    let (cmd, packet) ← t
    if cmd = 0xa then do
      -- the error code is sliced off the packet
      let _ ← drain_to 2 packet
      return (.error {}, { receiver, state := .Closed })
    else return (.ok (.ready packet), { channel with receiver })

/-- The loop of `poll` from the state `Data` on. -/
def poll_data (channel : Channel) : Option (Poll (Option ChannelEvent) ChannelError × Channel) := do
  match ← channel.recv_packet with
  | (.ok .notReady, channel) => return (.ok .notReady, channel)
  | (.error err, channel) => return (.error err, channel)
  | (.ok (.ready data), channel) =>
    if data.length = 0 then
      return (.ok (.ready none), { receiver := channel.receiver.close, state := .Closed })
    else return (.ok (.ready (some (.Data data))), channel)

/-- The state `Header`, with the data that is left or has just been received. -/
def poll_header (data : Bytes) (channel : Channel) :
    Option (Poll (Option ChannelEvent) ChannelError × Channel) := do
  let (length, data) ← drain_to 2 data
  let length := read_be length
  if length = 0 then
    if data.length = 0 then poll_data { channel with state := .Data } else none
  else do
    let (header_id, data) ← drain_to 1 data
    let (header_data, data) ← drain_to (length - 1) data
    return (.ok (.ready (some (.Header (header_id.headD 0) header_data))),
      { channel with state := .Header data })

def poll (channel : Channel) : Option (Poll (Option ChannelEvent) ChannelError × Channel) :=
  match channel.state with
  | .Closed => none
  | .Header data =>
    if data.length = 0 then do
      match ← channel.recv_packet with
      | (.ok .notReady, channel) => return (.ok .notReady, channel)
      | (.error err, channel) => return (.error err, channel)
      | (.ok (.ready data), channel) => channel.poll_header data
    else channel.poll_header data
  | .Data => channel.poll_data

/-- The bytes that are there and not read yet. -/
def weight (channel : Channel) : Nat :=
  (match channel.state with
    | .Header data => data.length
    | .Data | .Closed => 0) +
  (channel.receiver.queue.map fun packet => packet.2.length).sum

end Channel

end ConnectScrobbler
