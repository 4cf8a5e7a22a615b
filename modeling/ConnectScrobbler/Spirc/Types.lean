import ConnectScrobbler.Lib.Bytes

/-! The messages of `protocol/proto/spirc.proto`, by the fields that are used, and what this
device says of itself. A field that is absent is read as its default. -/
namespace ConnectScrobbler

open Bytes (varint_field bytes_field)

inductive MessageType where
  | Hello | Goodbye | Probe | Notify | Load | Play | Pause | PlayPause | Seek | Prev | Next | Volume
  | Shuffle | Repeat | VolumeDown | VolumeUp | Replace | Logout | Action | Rename | UpdateMetadata
  deriving DecidableEq, Repr

inductive PlayStatus where
  | Stop | Play | Pause | Loading
  deriving DecidableEq, Repr

inductive CapabilityType where
  | SupportedContexts | CanBePlayer | RestrictToLocal | DeviceType | GaiaEqConnectId
  | SupportsLogout | IsObservable | VolumeSteps | SupportedTypes | CommandAcks | SupportsRename | Hidden
  deriving DecidableEq, Repr

structure Capability where
  typ : Option CapabilityType
  intValue : List Int
  stringValue : List String
  deriving DecidableEq, Repr

structure DeviceState where
  sw_version : Option String
  is_active : Option Bool
  can_play : Option Bool
  volume : Option (BitVec 32)
  name : Option String
  capabilities : List Capability
  deriving DecidableEq, Repr

namespace DeviceState

def new : DeviceState := ⟨none, none, none, none, none, []⟩
def get_is_active (d : DeviceState) : Bool := d.is_active.getD false

end DeviceState

structure TrackRef where
  gid : Option Bytes
  deriving DecidableEq, Repr

def TrackRef.get_gid (t : TrackRef) : Bytes := t.gid.getD []

structure State where
  position_ms : Option (BitVec 32)
  status : Option PlayStatus
  position_measured_at : Option (BitVec 64)
  shuffle : Option Bool
  «repeat» : Option Bool
  playing_track_index : Option (BitVec 32)
  track : List TrackRef
  deriving DecidableEq, Repr

namespace State

def new : State := ⟨none, none, none, none, none, none, []⟩
def get_position_ms (s : State) : BitVec 32 := s.position_ms.getD 0
def get_playing_track_index (s : State) : BitVec 32 := s.playing_track_index.getD 0

end State

structure Frame where
  version : Option (BitVec 32)
  ident : Option String
  protocol_version : Option String
  seq_nr : Option (BitVec 32)
  typ : Option MessageType
  device_state : Option DeviceState
  state : Option State
  state_update_id : Option Int
  recipient : List String
  deriving DecidableEq, Repr

namespace Frame

def new : Frame := ⟨none, none, none, none, none, none, none, none, []⟩
def get_ident (f : Frame) : String := f.ident.getD ""
def get_seq_nr (f : Frame) : BitVec 32 := f.seq_nr.getD 0
def get_typ (f : Frame) : MessageType := f.typ.getD .Hello
def get_device_state (f : Frame) : DeviceState := f.device_state.getD .new
def get_state (f : Frame) : State := f.state.getD .new

end Frame

/-! What the generated code writes: the fields that are set, in the order of their numbers. -/

def MessageType.value : MessageType → Nat
  | Hello => 0x1
  | Goodbye => 0x2
  | Probe => 0x3
  | Notify => 0xa
  | Load => 0x14
  | Play => 0x15
  | Pause => 0x16
  | PlayPause => 0x17
  | Seek => 0x18
  | Prev => 0x19
  | Next => 0x1a
  | Volume => 0x1b
  | Shuffle => 0x1c
  | Repeat => 0x1d
  | VolumeDown => 0x1f
  | VolumeUp => 0x20
  | Replace => 0x21
  | Logout => 0x22
  | Action => 0x23
  | Rename => 0x24
  | UpdateMetadata => 0x80

def PlayStatus.value : PlayStatus → Nat
  | Stop => 0x0
  | Play => 0x1
  | Pause => 0x2
  | Loading => 0x3

def CapabilityType.value : CapabilityType → Nat
  | SupportedContexts => 0x1
  | CanBePlayer => 0x2
  | RestrictToLocal => 0x3
  | DeviceType => 0x4
  | GaiaEqConnectId => 0x5
  | SupportsLogout => 0x6
  | IsObservable => 0x7
  | VolumeSteps => 0x8
  | SupportedTypes => 0x9
  | CommandAcks => 0xa
  | SupportsRename => 0xb
  | Hidden => 0xc

def optional {α : Type} (field : Nat → α → Bytes) (number : Nat) : Option α → Bytes
  | some a => field number a
  | none => []

def string_field (number : Nat) (s : String) : Bytes :=
  bytes_field number (s.toList.flatMap String.utf8EncodeChar)
def bool_field (number : Nat) (b : Bool) : Bytes := varint_field number b.toNat
def int_field (number : Nat) (n : Int) : Bytes := varint_field number (BitVec.ofInt 64 n).toNat
def bits_field {w : Nat} (number : Nat) (n : BitVec w) : Bytes := varint_field number n.toNat

def Capability.write_to_bytes (c : Capability) : Bytes :=
  optional varint_field 0x1 (c.typ.map (·.value)) ++ c.intValue.flatMap (int_field 0x2) ++
    c.stringValue.flatMap (string_field 0x3)

def DeviceState.write_to_bytes (d : DeviceState) : Bytes :=
  optional string_field 0x1 d.sw_version ++ optional bool_field 0xa d.is_active ++
    optional bool_field 0xb d.can_play ++ optional bits_field 0xc d.volume ++
    optional string_field 0xd d.name ++
    d.capabilities.flatMap (bytes_field 0x11 ·.write_to_bytes)

def TrackRef.write_to_bytes (t : TrackRef) : Bytes := optional bytes_field 0x1 t.gid

def State.write_to_bytes (s : State) : Bytes :=
  optional bits_field 0x4 s.position_ms ++ optional varint_field 0x5 (s.status.map (·.value)) ++
    optional bits_field 0x7 s.position_measured_at ++ optional bool_field 0xd s.shuffle ++
    optional bool_field 0xe s.repeat ++ optional bits_field 0x1a s.playing_track_index ++
    s.track.flatMap (bytes_field 0x1b ·.write_to_bytes)

def Frame.write_to_bytes (f : Frame) : Bytes :=
  optional bits_field 0x1 f.version ++ optional string_field 0x2 f.ident ++
    optional string_field 0x3 f.protocol_version ++ optional bits_field 0x4 f.seq_nr ++
    optional varint_field 0x5 (f.typ.map (·.value)) ++
    optional bytes_field 0x7 (f.device_state.map (·.write_to_bytes)) ++
    optional bytes_field 0xc (f.state.map (·.write_to_bytes)) ++
    optional int_field 0x11 f.state_update_id ++ f.recipient.flatMap (string_field 0x12)

/-- Writing and parsing frames; no frame is a parse error. -/
structure FrameFormat where
  write_to_bytes : Frame → Bytes
  parse_from_bytes : Bytes → Option Frame

inductive DeviceType where
  | Unknown | Computer | Tablet | Smartphone | Speaker | TV | AVR | STB | AudioDongle
  deriving DecidableEq, Repr

def DeviceType.as_i64 : DeviceType → Int
  | Unknown => 0
  | Computer => 1
  | Tablet => 2
  | Smartphone => 3
  | Speaker => 4
  | TV => 5
  | AVR => 6
  | STB => 7
  | AudioDongle => 8

structure ConnectConfig where
  name : String
  device_type : DeviceType
  deriving DecidableEq, Repr

def initial_state : State :=
  { State.new with
    «repeat» := some false
    shuffle := some false
    status := some .Stop
    position_ms := some 0
    position_measured_at := some 0 }

def initial_device_state (version_string : String) (config : ConnectConfig) (volume : BitVec 16) :
    DeviceState :=
  { sw_version := some version_string
    is_active := some false
    can_play := some true
    volume := some (volume.setWidth 32)
    name := some config.name
    capabilities :=
      [⟨some .CanBePlayer, [1], []⟩,
        ⟨some .DeviceType, [config.device_type.as_i64], []⟩,
        ⟨some .GaiaEqConnectId, [1], []⟩,
        ⟨some .SupportsLogout, [0], []⟩,
        ⟨some .IsObservable, [1], []⟩,
        ⟨some .VolumeSteps, [64], []⟩,
        ⟨some .SupportedContexts, [], ["album", "playlist", "search", "inbox", "toplist", "starred",
          "publishedstarred", "track"]⟩,
        ⟨some .SupportedTypes, [], ["audio/local", "audio/track", "local", "track"]⟩] }

end ConnectScrobbler
