import ConnectScrobbler.Core.Util.Seq
import ConnectScrobbler.Lib.Bytes
import ConnectScrobbler.Lib.Future
import Mathlib.Logic.Function.Basic

/-! The answers to key requests, `core/src/audio_key.rs`. Oneshots are numbered. -/
namespace ConnectScrobbler

open Bytes (drain_to read_be)

structure AudioKey where
  bytes : Bytes
  length : bytes.length = 16
  deriving DecidableEq, Repr

/-- Slices of different lengths are not copied, that is a panic. -/
def AudioKey.copy_from_slice (data : Bytes) : Option AudioKey :=
  if length : data.length = 16 then some ⟨data, length⟩ else none

structure AudioKeyError where
  deriving DecidableEq, Repr

inductive AudioKeyEffect where
  | complete (sender : Nat) (result : Except AudioKeyError AudioKey)
  | cancel (sender : Nat)
  deriving DecidableEq, Repr

structure AudioKeyManager where
  sequence : SeqGenerator 32
  pending : BitVec 32 → Option Nat
  oneshots : Nat → Oneshot (Except AudioKeyError AudioKey)

namespace AudioKeyManager

def new : AudioKeyManager :=
  { sequence := .new 0
    pending := fun _ => none
    oneshots := fun _ => .waiting }

def remove (seq : BitVec 32) (m : AudioKeyManager) : AudioKeyManager :=
  { m with pending := Function.update m.pending seq none }

def complete (sender : Nat) (result : Except AudioKeyError AudioKey) (m : AudioKeyManager) :
    Call AudioKeyEffect AudioKeyManager := do
  Call.emit (.complete sender result)
  return { m with oneshots := Function.update m.oneshots sender (.complete result) }

def cancel (sender : Nat) (m : AudioKeyManager) : Call AudioKeyEffect AudioKeyManager := do
  Call.emit (.cancel sender)
  return { m with oneshots := Function.update m.oneshots sender .canceled }

/-- `warns` says whether warnings are logged: the one about an error reads its two bytes. -/
def dispatch (warns : Bool) (cmd : UInt8) (data : Bytes) (m : AudioKeyManager) :
    Call AudioKeyEffect AudioKeyManager := do
  let (seq, data) ← Call.unwrap (drain_to 4 data)
  let seq := BitVec.ofNat 32 (read_be seq)
  let sender := m.pending seq
  let m := m.remove seq
  match sender with
  | none => return m
  | some sender =>
    if cmd = 0xd then do
      let key ← Call.unwrap (AudioKey.copy_from_slice data)
      m.complete sender (.ok key)
    else if cmd = 0xe then
      if warns ∧ data.length < 2 then Call.panic else m.complete sender (.error {})
    else m.cancel sender

end AudioKeyManager

end ConnectScrobbler
