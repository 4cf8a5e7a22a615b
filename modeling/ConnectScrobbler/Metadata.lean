import ConnectScrobbler.Core.Mercury.Types
import ConnectScrobbler.Core.Util.SpotifyId
import ConnectScrobbler.Core.Util.StrChunks

/-! The metadata of tracks, artists and albums, `metadata/src/lib.rs`. No value is a panic. -/
namespace ConnectScrobbler

/-! The protobuf messages, by the fields that are read. -/
namespace Protocol

/-- `AudioFile_Format`. -/
inductive FileFormat where
  | OGG_VORBIS_96 | OGG_VORBIS_160 | OGG_VORBIS_320
  | MP3_256 | MP3_320 | MP3_160 | MP3_96 | MP3_160_ENC
  | OTHER2 | OTHER3 | AAC_160 | AAC_320 | OTHER4 | OTHER5
  deriving DecidableEq, Repr

/-- A track, an artist or an album inside another message; only its id is read. -/
structure Nested where
  gid : Option Bytes
  deriving DecidableEq, Repr

structure AudioFile where
  file_id : Option Bytes
  format : Option FileFormat
  deriving DecidableEq, Repr

structure Restriction where
  countries_allowed : Option String
  countries_forbidden : Option String
  catalogue_str : List String
  deriving DecidableEq, Repr

structure TopTracks where
  country : Option String
  track : List Nested
  deriving DecidableEq, Repr

structure Image where
  file_id : Option Bytes
  deriving DecidableEq, Repr

structure ImageGroup where
  image : List Image
  deriving DecidableEq, Repr

structure Disc where
  track : List Nested
  deriving DecidableEq, Repr

structure Track where
  gid : Option Bytes
  name : Option String
  album : Option Nested
  artist : List Nested
  restriction : List Restriction
  file : List AudioFile
  alternative : List Nested
  deriving DecidableEq, Repr

structure Artist where
  gid : Option Bytes
  name : Option String
  top_track : List TopTracks
  deriving DecidableEq, Repr

structure Album where
  gid : Option Bytes
  name : Option String
  artist : List Nested
  disc : List Disc
  cover_group : Option ImageGroup
  deriving DecidableEq, Repr

def Nested.has_gid (msg : Nested) : Bool := msg.gid.isSome
def Nested.get_gid (msg : Nested) : Bytes := msg.gid.getD []

def AudioFile.has_file_id (msg : AudioFile) : Bool := msg.file_id.isSome
def AudioFile.get_file_id (msg : AudioFile) : Bytes := msg.file_id.getD []
def AudioFile.get_format (msg : AudioFile) : FileFormat := msg.format.getD .OGG_VORBIS_96

def Restriction.has_countries_allowed (msg : Restriction) : Bool := msg.countries_allowed.isSome
def Restriction.get_countries_allowed (msg : Restriction) : String := msg.countries_allowed.getD ""
def Restriction.has_countries_forbidden (msg : Restriction) : Bool := msg.countries_forbidden.isSome
def Restriction.get_countries_forbidden (msg : Restriction) : String :=
  msg.countries_forbidden.getD ""

def TopTracks.has_country (msg : TopTracks) : Bool := msg.country.isSome
def TopTracks.get_country (msg : TopTracks) : String := msg.country.getD ""

def Image.has_file_id (msg : Image) : Bool := msg.file_id.isSome
def Image.get_file_id (msg : Image) : Bytes := msg.file_id.getD []

def Track.get_gid (msg : Track) : Bytes := msg.gid.getD []
def Track.get_name (msg : Track) : String := msg.name.getD ""
def Track.get_album (msg : Track) : Nested := msg.album.getD ⟨none⟩

def Artist.get_gid (msg : Artist) : Bytes := msg.gid.getD []
def Artist.get_name (msg : Artist) : String := msg.name.getD ""

def Album.get_gid (msg : Album) : Bytes := msg.gid.getD []
def Album.get_name (msg : Album) : String := msg.name.getD ""
def Album.get_cover_group (msg : Album) : ImageGroup := msg.cover_group.getD ⟨[]⟩

/-- Parsing the messages; no message is a parse error. -/
structure Messages where
  parse_track : Bytes → Option Track
  parse_artist : Bytes → Option Artist
  parse_album : Bytes → Option Album

end Protocol

/-- `[u8; 20]`. -/
structure FileId where
  bytes : Bytes
  length : bytes.length = 20
  deriving DecidableEq

/-- `clone_from_slice` into 20 bytes; a slice of another length is a panic. -/
def FileId.clone_from_slice (src : Bytes) : Option FileId :=
  if length : src.length = 20 then some ⟨src, length⟩ else none

namespace LinearMap

variable {κ ν : Type} [DecidableEq κ]

/-- The value of a key that is there is replaced. -/
def insert (map : List (κ × ν)) (entry : κ × ν) : List (κ × ν) :=
  if map.any fun old => old.1 = entry.1 then
    map.map fun old => if old.1 = entry.1 then entry else old
  else map ++ [entry]

def collect (entries : List (κ × ν)) : List (κ × ν) := entries.foldl insert []

end LinearMap

def countrylist_contains (list country : String) : Option Bool :=
  StrChunks.any (fun cc => cc = country.toList) 2 (list.toList.length + 1) list.toList

/-- What the loop of `parse_restrictions` collects. -/
structure Restricted where
  forbidden : String
  has_forbidden : Bool
  allowed : String
  has_allowed : Bool
  deriving DecidableEq, Repr

def Restricted.add (s : Restricted) (r : Protocol.Restriction) : Restricted :=
  let s := if r.has_countries_forbidden then
    { s with forbidden := s.forbidden ++ r.get_countries_forbidden, has_forbidden := true } else s
  if r.has_countries_allowed then
    { s with allowed := s.allowed ++ r.get_countries_allowed, has_allowed := true } else s

def Restricted.collect (restrictions : List Protocol.Restriction) (catalogue : String) : Restricted :=
  (restrictions.filter fun r => r.catalogue_str.contains catalogue).foldl add ⟨"", false, "", false⟩

/-- The second and the third test of `parse_restrictions` are only made if those before hold. -/
def Restricted.available (s : Restricted) (country : String) : Option Bool :=
  if s.has_forbidden || s.has_allowed then do
    let free ← if s.has_forbidden then
      (countrylist_contains s.forbidden country).map (!·) else some true
    if free then
      if s.has_allowed then countrylist_contains s.allowed country else return true
    else return false
  else some false

def parse_restrictions (restrictions : List Protocol.Restriction) (country catalogue : String) :
    Option Bool :=
  (Restricted.collect restrictions catalogue).available country

/-- The ids of those messages that have one. -/
def ids (msgs : List Protocol.Nested) : Option (List SpotifyId) :=
  (msgs.filter (·.has_gid)).mapM fun msg => SpotifyId.from_raw msg.get_gid

structure Track where
  id : SpotifyId
  name : String
  album : SpotifyId
  artists : List SpotifyId
  files : List (Protocol.FileFormat × FileId)
  alternatives : List SpotifyId
  available : Bool
  deriving DecidableEq

structure Album where
  id : SpotifyId
  name : String
  artists : List SpotifyId
  tracks : List SpotifyId
  covers : List FileId
  deriving DecidableEq

structure Artist where
  id : SpotifyId
  name : String
  top_tracks : List SpotifyId
  deriving DecidableEq

def Track.parse (msg : Protocol.Track) (country : String) : Option Track := do
  let artists ← ids msg.artist
  let files ← (msg.file.filter (·.has_file_id)).mapM fun file => do
    let dst ← FileId.clone_from_slice file.get_file_id
    return (file.get_format, dst)
  let id ← SpotifyId.from_raw msg.get_gid
  let album ← SpotifyId.from_raw msg.get_album.get_gid
  let alternatives ← msg.alternative.mapM fun alt => SpotifyId.from_raw alt.get_gid
  let available ← parse_restrictions msg.restriction country "premium"
  return {
    id, name := msg.get_name, album, artists
    files := LinearMap.collect files, alternatives, available }

def Album.parse (msg : Protocol.Album) : Option Album := do
  let artists ← ids msg.artist
  let tracks ← ids (msg.disc.flatMap (·.track))
  let covers ← (msg.get_cover_group.image.filter (·.has_file_id)).mapM fun image =>
    FileId.clone_from_slice image.get_file_id
  let id ← SpotifyId.from_raw msg.get_gid
  return { id, name := msg.get_name, artists, tracks, covers }

/-- The first top tracks that are for every country or for this one. -/
def find_top_tracks (country : String) : List Protocol.TopTracks → Option (Option Protocol.TopTracks)
  | [] => some none
  | tt :: rest =>
    if !tt.has_country then some (some tt)
    else do
      if ← countrylist_contains tt.get_country country then return some tt
      else find_top_tracks country rest

def Artist.parse (msg : Protocol.Artist) (country : String) : Option Artist := do
  let top_tracks ← match ← find_top_tracks country msg.top_track with
    | some tracks => ids tracks.track
    | none => some []
  let id ← SpotifyId.from_raw msg.get_gid
  return { id, name := msg.get_name, top_tracks }

/-- The trait, of which each type is an instance. -/
structure Metadata (M α : Type) where
  base_url : String
  parse_from_bytes : Bytes → Option M
  parse : M → (country : String) → Option α

namespace Metadata

def track (messages : Protocol.Messages) : Metadata Protocol.Track Track :=
  ⟨"hm://metadata/3/track", messages.parse_track, Track.parse⟩

def album (messages : Protocol.Messages) : Metadata Protocol.Album Album :=
  ⟨"hm://metadata/3/album", messages.parse_album, fun msg _ => Album.parse msg⟩

def artist (messages : Protocol.Messages) : Metadata Protocol.Artist Artist :=
  ⟨"hm://metadata/3/artist", messages.parse_artist, Artist.parse⟩

variable {M α : Type}

/-- What `get` requests. -/
def uri (metadata : Metadata M α) (id : SpotifyId) : String :=
  metadata.base_url ++ "/" ++ id.to_base16

/-- What `get` makes of the response. -/
def received (metadata : Metadata M α) (response : MercuryResponse) (country : String) : Option α := do
  let data ← response.payload.head?
  let msg ← metadata.parse_from_bytes data
  metadata.parse msg country

end Metadata

end ConnectScrobbler
