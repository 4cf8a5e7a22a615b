import ConnectScrobbler.Core.AudioKey
import ConnectScrobbler.Core.Channel
import ConnectScrobbler.Core.Mercury

/-! The dispatcher of `core/src/session.rs`. Of the session are known its managers, the
country and whether the connection still takes packets. -/
namespace ConnectScrobbler

structure Session where
  mercury : Mercury.MercuryManager
  channel : ChannelManager
  audio_key : AudioKeyManager
  country : String
  connected : Bool

inductive SessionEffect where
  | mercury (e : Mercury.Effect)
  | channel (e : ChannelEffect)
  | audio_key (e : AudioKeyEffect)
  | send_packet (cmd : UInt8) (data : Bytes)
  deriving DecidableEq, Repr

namespace Session

def new : Session :=
  { mercury := .new
    channel := .new
    audio_key := .new
    country := ""
    connected := true }

def send_packet (cmd : UInt8) (data : Bytes) (s : Session) : Call SessionEffect Unit :=
  if s.connected then Call.emit (.send_packet cmd data) else Call.panic

/-- `String::from_utf8`. -/
def from_utf8 (data : Bytes) : Option String := String.fromUTF8? ⟨data.toArray⟩

def dispatch (warns : Bool) (protobuf : Protobuf) (cmd : UInt8) (data : Bytes) (s : Session) :
    Call SessionEffect Session :=
  if cmd = 0x4 then do
    s.send_packet 0x49 data
    return s
  else if cmd = 0x4a then return s
  else if cmd = 0x1b then do
    let country ← Call.unwrap (from_utf8 data)
    return { s with country }
  else if cmd = 0x9 ∨ cmd = 0xa then do
    let channel ← (s.channel.dispatch cmd data).within .channel
    return { s with channel }
  else if cmd = 0xd ∨ cmd = 0xe then do
    let audio_key ← (s.audio_key.dispatch warns cmd data).within .audio_key
    return { s with audio_key }
  else if 0xb2 ≤ cmd ∧ cmd ≤ 0xb6 then do
    let mercury ← (s.mercury.dispatch protobuf cmd data).within .mercury
    return { s with mercury }
  else return s

end Session

end ConnectScrobbler
