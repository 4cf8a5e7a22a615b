import ConnectScrobbler.Core.Mercury.Served
import ConnectScrobbler.Core.Util.SpotifyId.Codec
import ConnectScrobbler.Scrobbler.Lookup

/-! The lookups of `get_track_meta`, `src/scrobbler.rs`, any number of them over the one request manager
of the session, with a server that answers their requests at its own pace. -/
namespace ConnectScrobbler

open Bytes (be)
open Mercury (MercuryManager MercuryServer answer ok_header)

/-- The future of `get_track_meta`, with the request that it waits for. -/
inductive MetaFetch where
  | track (rx : Nat)
  | artist (rx : Nat) (track_name : String) (track_meta : Track)
  | album (rx : Nat) (track_name artist_name : String)
  | resolved (result : Except ScrobbleError Scrobble)
  deriving DecidableEq

namespace MetaFetch

abbrev Polled := Call Mercury.Effect (MetaFetch × MercuryManager)

section Poll

variable (build : Build) (protobuf : Protobuf) (messages : Protocol.Messages) (country : String)

/-- One link of the chain: what comes next is polled at once. -/
def and_then {M α : Type} (metadata : Metadata M α) (rx : Nat) (waiting : MetaFetch) (m : MercuryManager)
    (next : α → Polled) : Polled :=
  match MercuryFuture.poll (m.oneshots rx) with
  | .ok .notReady => return (waiting, m)
  | .ok (.ready response) => do
    let a ← Call.unwrap (metadata.received response country)
    next a
  | .error err => return (.resolved (.error ⟨err.debug⟩), m)

def poll_album (rx : Nat) (track_name artist_name : String) (m : MercuryManager) : Polled :=
  and_then country (Metadata.album messages) rx (.album rx track_name artist_name) m fun album =>
    return (.resolved (.ok ⟨artist_name, track_name, album.name⟩), m)

def poll_artist (rx : Nat) (track_name : String) (track_meta : Track) (m : MercuryManager) : Polled :=
  and_then country (Metadata.artist messages) rx (.artist rx track_name track_meta) m fun artist => do
    let (rx, m) ← m.get build protobuf true ((Metadata.album messages).uri track_meta.album)
    poll_album messages country rx track_name artist.name m

def poll_track (rx : Nat) (m : MercuryManager) : Polled :=
  and_then country (Metadata.track messages) rx (.track rx) m fun track => do
    let artist ← Call.unwrap track.artists.head?
    let (rx, m) ← m.get build protobuf true ((Metadata.artist messages).uri artist)
    poll_artist build protobuf messages country rx track.name track m

/-- Polling a chain that has resolved is a panic. -/
def poll (m : MercuryManager) : MetaFetch → Polled
  | .track rx => poll_track build protobuf messages country rx m
  | .artist rx track_name track_meta =>
    poll_artist build protobuf messages country rx track_name track_meta m
  | .album rx track_name artist_name => poll_album messages country rx track_name artist_name m
  | .resolved _ => Call.panic

def get_track_meta (track_id : SpotifyId) (m : MercuryManager) : Polled := do
  let (rx, m) ← m.get build protobuf true ((Metadata.track messages).uri track_id)
  return (.track rx, m)

end Poll

def rx : MetaFetch → Option Nat
  | .track rx | .artist rx _ _ | .album rx _ _ => some rx
  | .resolved _ => none

/-- How many requests are still to be made at most. -/
def left : MetaFetch → Nat
  | .track _ => 2
  | .artist _ _ _ => 1
  | .album _ _ _ | .resolved _ => 0

end MetaFetch

/-- The packets that have been sent. -/
def Mercury.Effect.sent (log : List Mercury.Effect) : List (UInt8 × Bytes) :=
  log.filterMap fun
    | .send_packet cmd data => some (cmd, data)
    | _ => none

/-- The manager with the lookups, the packets that have been sent to the server, the lookup that has sent
each of them, and how many packets of each response have come back. -/
structure Fetches where
  manager : MercuryManager
  fetches : List MetaFetch
  sent : List (UInt8 × Bytes)
  senders : List Nat
  said : Nat → Nat

/-- A lookup begins, its owner polls it, or the next packet comes of the response to a request. -/
inductive FetchTurn where
  | fetch (track_id : SpotifyId)
  | poll (k : Nat)
  | packet (i : Nat)
  deriving DecidableEq

namespace Fetches

def start : Fetches := ⟨.new, [], [], [], fun _ => 0⟩

/-- A call for one lookup leaves this log. -/
def after_call (world : Fetches) (k : Nat) (fetches : List MetaFetch) (manager : MercuryManager)
    (log : List Mercury.Effect) : Fetches :=
  { world with
    manager, fetches
    sent := world.sent ++ Mercury.Effect.sent log
    senders := world.senders ++ (Mercury.Effect.sent log).map fun _ => k }

section Step

variable (build : Build) {protobuf : Protobuf} (server : MercuryServer protobuf) (messages : Protocol.Messages)
  (country : String)

/-- The data of the next packet of the response to this request. -/
def next_packet (i : Nat) (world : Fetches) : Option Bytes := do
  let request ← world.sent[i]?
  let (seq, uri) ← server.asked request.2
  server.packet seq uri (world.said i)

/-- An owner does not poll a lookup again that has resolved, which would be a panic. -/
def step (world : Fetches) : FetchTurn → Call Mercury.Effect Fetches
  | .fetch track_id => do
    let ((fetch, manager), log) ←
      (MetaFetch.get_track_meta build protobuf messages track_id world.manager).listen
    return world.after_call world.fetches.length (world.fetches ++ [fetch]) manager log
  | .poll k =>
    match world.fetches[k]? with
    | none | some (.resolved _) => return world
    | some fetch => do
      let ((fetch, manager), log) ← (fetch.poll build protobuf messages country world.manager).listen
      return world.after_call k (world.fetches.set k fetch) manager log
  | .packet i =>
    match world.next_packet server i with
    | none => return world
    | some data => do
      let manager ← world.manager.dispatch protobuf 0xb2 data
      return { world with manager, said := Function.update world.said i (world.said i + 1) }

def run (turns : List FetchTurn) : Call Mercury.Effect Fetches :=
  Call.run (step build server messages country) .start turns

end Step

end Fetches

/-- The tracks that are looked up. -/
def fetched : List FetchTurn → List SpotifyId
  | [] => []
  | .fetch track_id :: turns => track_id :: fetched turns
  | .poll _ :: turns | .packet _ :: turns => fetched turns

namespace Mercury.MercuryServer

variable {protobuf : Protobuf} (messages : Protocol.Messages) (country : String) (track_id : SpotifyId)
  (server : MercuryServer protobuf)

/-- The track as a lookup reads it. -/
def read_track : Option Track :=
  match answer (server.respond ((Metadata.track messages).uri track_id)) with
  | .ok response => (Metadata.track messages).received response country
  | .error _ => none

/-- What a lookup meets that has the server for itself. -/
def world : World where
  messages
  taken _ := true
  response
    | .track => some (server.respond ((Metadata.track messages).uri track_id))
    | .artist => ((server.read_track messages country track_id).bind (·.artists.head?)).map fun artist =>
      server.respond ((Metadata.artist messages).uri artist)
    | .album => (server.read_track messages country track_id).map fun track =>
      server.respond ((Metadata.album messages).uri track.album)
  country _ := country

/-- The requests of a lookup are read, and its answers are sound. -/
structure Serves : Prop where
  sound : (server.world messages country track_id).Sound
  track : server.Reads ((Metadata.track messages).uri track_id)
  artist : ∀ track artist, server.read_track messages country track_id = some track →
    track.artists.head? = some artist → server.Reads ((Metadata.artist messages).uri artist)
  album : ∀ track, server.read_track messages country track_id = some track →
    server.Reads ((Metadata.album messages).uri track.album)

end Mercury.MercuryServer

/-! One poll of a lookup. -/
namespace MetaFetch

variable {build : Build} {protobuf : Protobuf} {server : MercuryServer protobuf}
  {messages : Protocol.Messages} {country : String} {track_id : SpotifyId} {uris : List String}
  {said : Nat → Nat} {m : MercuryManager} {result : Except ScrobbleError Scrobble}

/-- The lookup has come to this result, or waits for a request on the way to it. -/
inductive Comes (server : MercuryServer protobuf) (messages : Protocol.Messages) (country : String)
    (track_id : SpotifyId) (uris : List String) (result : Except ScrobbleError Scrobble) : MetaFetch → Prop
  | track {rx : Nat} (asked : uris[rx]? = some ((Metadata.track messages).uri track_id))
      (ends : (Lookup.track_outcome (server.world messages country track_id)).value = some result) :
      Comes server messages country track_id uris result (.track rx)
  | artist {rx : Nat} {track_name : String} {track : Track} {artist : SpotifyId}
      (read : server.read_track messages country track_id = some track)
      (first : track.artists.head? = some artist)
      (asked : uris[rx]? = some ((Metadata.artist messages).uri artist))
      (ends : (Lookup.artist_outcome (server.world messages country track_id) track_name track).value =
        some result) : Comes server messages country track_id uris result (.artist rx track_name track)
  | album {rx : Nat} {track_name artist_name : String} {track : Track}
      (read : server.read_track messages country track_id = some track)
      (asked : uris[rx]? = some ((Metadata.album messages).uri track.album))
      (ends : (Lookup.album_outcome (server.world messages country track_id) track_name artist_name).value =
        some result) : Comes server messages country track_id uris result (.album rx track_name artist_name)
  | resolved : Comes server messages country track_id uris result (.resolved result)

theorem Comes.more {fetch : MetaFetch} (comes : Comes server messages country track_id uris result fetch)
    (more : List String) : Comes server messages country track_id (uris ++ more) result fetch := by
  have kept {rx : Nat} {uri : String} (asked : uris[rx]? = some uri) : (uris ++ more)[rx]? = some uri := by
    rw [List.getElem?_append_left (List.getElem?_eq_some_iff.mp asked).1, asked]
  cases comes with
  | track asked ends => exact .track (kept asked) ends
  | artist read first asked ends => exact .artist read first (kept asked) ends
  | album read asked ends => exact .album read (kept asked) ends
  | resolved => exact .resolved

/-- The response to this request has not come whole. -/
def Unanswered (server : MercuryServer protobuf) (uris : List String) (said : Nat → Nat) (rx : Nat) : Prop :=
  ∃ uri, uris[rx]? = some uri ∧ said rx < (server.cut uri).length

/-- What a call for one lookup leaves: its requests are asked for, and it waits for the last of them. -/
structure Leaves (build : Build) (server : MercuryServer protobuf) (messages : Protocol.Messages)
    (country : String) (track_id : SpotifyId) (uris : List String) (said : Nat → Nat)
    (result : Except ScrobbleError Scrobble) (left : Nat) (more : List String) (log : List Mercury.Effect)
    (fetch : MetaFetch) (m : MercuryManager) : Prop where
  serving : m.Serving build server (uris ++ more) said
  asks : (Mercury.Effect.sent log).map (fun packet => server.asked packet.2) =
    more.mapIdx fun j uri => some (be 8 (j + uris.length), uri)
  comes : fetch.Comes server messages country track_id (uris ++ more) result
  waits : ∀ rx, fetch.rx = some rx → Unanswered server (uris ++ more) said rx
  fewer : more.length + fetch.left ≤ left

def Goes_on (build : Build) (server : MercuryServer protobuf) (messages : Protocol.Messages)
    (country : String) (track_id : SpotifyId) (uris : List String) (said : Nat → Nat)
    (result : Except ScrobbleError Scrobble) (left : Nat) (polled : Polled) : Prop :=
  ∃ log fetch m more, polled = ⟨log, some (fetch, m)⟩ ∧
    Leaves build server messages country track_id uris said result left more log fetch m

theorem poll_unanswered (serving : m.Serving build server uris said) {rx : Nat}
    (open_ : Unanswered server uris said rx) : m.poll rx = .ok .notReady := by
  obtain ⟨uri, asked, short⟩ := open_
  rw [MercuryManager.poll, (serving.waits rx uri asked short).1]
  rfl

theorem poll_answered (serving : m.Serving build server uris said) {rx : Nat} {uri : String}
    (asked : uris[rx]? = some uri) (whole : ¬ Unanswered server uris said rx) :
    m.poll rx = (answer (server.respond uri)).map .ready := by
  have full : (server.cut uri).length ≤ said rx := by
    by_contra short
    exact whole ⟨uri, asked, Nat.lt_of_not_le short⟩
  rw [MercuryManager.poll, serving.answered rx uri asked full]
  cases answer (server.respond uri) <;> rfl

/-- It waits on, and nothing else happens. -/
theorem goes_on_waiting (serving : m.Serving build server uris said) {fetch : MetaFetch}
    (comes : fetch.Comes server messages country track_id uris result)
    (waits : ∀ rx, fetch.rx = some rx → Unanswered server uris said rx) :
    Goes_on build server messages country track_id uris said result fetch.left ⟨[], some (fetch, m)⟩ := by
  refine ⟨[], fetch, m, [], rfl, ?_⟩
  rw [← List.append_nil uris] at serving comes
  constructor
  · exact serving
  · rfl
  · exact comes
  · rwa [List.append_nil]
  · exact Nat.le_of_eq (Nat.zero_add _)

theorem goes_on_resolved (serving : m.Serving build server uris said) (left : Nat) :
    Goes_on build server messages country track_id uris said result left
      ⟨[], some (.resolved result, m)⟩ := by
  have come : (MetaFetch.resolved result).Comes server messages country track_id uris result := .resolved
  obtain ⟨log, fetch, m', more, returned, leaves⟩ := goes_on_waiting serving come nofun
  have fewer : more.length + fetch.left ≤ 0 := leaves.fewer
  exact ⟨log, fetch, m', more, returned, { leaves with fewer := by omega }⟩

/-- The next request is made, and waits. -/
theorem goes_on_request (sized : protobuf.Sized) (serving : m.Serving build server uris said)
    (few : uris.length + 1 < 2 ^ 64) {uri : String} (reads : server.Reads uri) {left : Nat}
    {waiting : MetaFetch} (next : Nat → MercuryManager → Polled)
    (waits : ∀ m : MercuryManager, m.poll uris.length = .ok .notReady →
      next uris.length m = ⟨[], some (waiting, m)⟩) (named : waiting.rx = some uris.length)
    (comes : waiting.Comes server messages country track_id (uris ++ [uri]) result)
    (fewer : waiting.left + 1 ≤ left) :
    Goes_on build server messages country track_id uris said result left
      (m.get build protobuf true uri >>= fun (rx, m) => next rx m) := by
  obtain ⟨m', data, requested, serving', asked⟩ := serving.get sized few uri
  have open_ : Unanswered server (uris ++ [uri]) said uris.length := by
    refine ⟨uri, List.getElem?_concat_length, ?_⟩
    rw [serving.unsaid uris.length (Nat.le_refl _)]
    exact server.cut_nonempty uri
  have waited := waits m' (poll_unanswered serving' open_)
  refine ⟨[.insert (be 8 uris.length) (some uris.length), .send_packet 0xb2 data], waiting, m', [uri], ?_, ?_⟩
  · simp only [requested, Call.bind_some, waited]
    rfl
  · constructor
    · exact serving'
    · simp [Mercury.Effect.sent, asked reads]
    · exact comes
    · intro rx same
      cases named.symm.trans same
      exact open_
    · simpa [Nat.add_comm] using fewer

/-- A link of the chain, whether the response has come whole or not. -/
theorem goes_on_link {M α : Type} {metadata : Metadata M α} {asked : Asked} {next : α → Polled}
    {after : α → Lookup.Ended} (serving : m.Serving build server uris said) {rx : Nat} {uri : String}
    (there : uris[rx]? = some uri)
    (sent : (server.world messages country track_id).response asked = some (server.respond uri))
    {waiting : MetaFetch} (named : waiting.rx = some rx)
    (comes : waiting.Comes server messages country track_id uris result)
    (ends : (Lookup.proceed ((server.world messages country track_id).settled metadata asked) after).value =
      some result)
    (goes_on : ∀ response a, answer (server.respond uri) = .ok response →
      metadata.received response country = some a → (after a).value = some result →
      Goes_on build server messages country track_id uris said result waiting.left (next a)) :
    Goes_on build server messages country track_id uris said result waiting.left
      (and_then country metadata rx waiting m next) := by
  by_cases open_ : Unanswered server uris said rx
  · rw [and_then, MercuryFuture.poll_oneshot, poll_unanswered serving open_]
    apply goes_on_waiting serving comes
    intro other same
    cases named.symm.trans same
    exact open_
  · rw [and_then, MercuryFuture.poll_oneshot, poll_answered serving there open_]
    rw [World.settled, sent] at ends
    cases answered : answer (server.respond uri) with
    | error err =>
      simp only [answered] at ends
      cases ends
      exact goes_on_resolved serving _
    | ok response =>
      simp only [answered] at ends
      obtain ⟨a, received, ends⟩ : ∃ a, metadata.received response country = some a ∧
          (after a).value = some result := by
        cases received : metadata.received response country with
        | none =>
          have country_ : (server.world messages country track_id).country asked = country := rfl
          rw [country_, received] at ends
          cases ends
        | some a =>
          have country_ : (server.world messages country track_id).country asked = country := rfl
          rw [country_, received] at ends
          exact ⟨a, rfl, ends⟩
      have goes := goes_on response a answered received ends
      simpa [Except.map, received] using goes

theorem poll_album_goes_on (serving : m.Serving build server uris said) {rx : Nat}
    {track_name artist_name : String}
    (comes : (album rx track_name artist_name).Comes server messages country track_id uris result) :
    Goes_on build server messages country track_id uris said result 0
      (poll_album messages country rx track_name artist_name m) := by
  cases comes with
  | album read asked ends =>
    apply goes_on_link serving asked (by simp [MercuryServer.world, read]) rfl (.album read asked ends) ends
    intro response album _ _ told
    cases told
    exact goes_on_resolved serving 0

theorem poll_artist_goes_on (sized : protobuf.Sized) (serves : server.Serves messages country track_id)
    (serving : m.Serving build server uris said) (few : uris.length + 1 < 2 ^ 64) {rx : Nat}
    {track_name : String} {track_meta : Track}
    (comes : (artist rx track_name track_meta).Comes server messages country track_id uris result) :
    Goes_on build server messages country track_id uris said result 1
      (poll_artist build protobuf messages country rx track_name track_meta m) := by
  cases comes with
  | artist read first asked ends =>
    apply goes_on_link serving asked (by simp [MercuryServer.world, read, first]) rfl
      (.artist read first asked ends) ends
    intro response artist _ _ told
    have waits : ∀ m : MercuryManager, m.poll uris.length = .ok .notReady →
        poll_album messages country uris.length track_name artist.name m =
          ⟨[], some (.album uris.length track_name artist.name, m)⟩ := by
      intro m waits
      rw [poll_album, and_then, MercuryFuture.poll_oneshot, waits]
      rfl
    exact goes_on_request sized serving few (serves.album _ read)
      (fun rx m => poll_album messages country rx track_name artist.name m) waits rfl
      (.album read List.getElem?_concat_length told) (Nat.le_refl _)

theorem poll_track_goes_on (sized : protobuf.Sized) (serves : server.Serves messages country track_id)
    (serving : m.Serving build server uris said) (few : uris.length + 1 < 2 ^ 64) {rx : Nat}
    (comes : (MetaFetch.track rx).Comes server messages country track_id uris result) :
    Goes_on build server messages country track_id uris said result 2
      (poll_track build protobuf messages country rx m) := by
  cases comes with
  | track asked ends =>
    apply goes_on_link serving asked rfl rfl (.track asked ends) ends
    intro response track answered received told
    have read : server.read_track messages country track_id = some track := by
      rw [MercuryServer.read_track, answered]
      exact received
    obtain ⟨artist, first, told⟩ := Call.bind_returns.mp told
    have first : track.artists.head? = some artist := first
    have waits : ∀ m : MercuryManager, m.poll uris.length = .ok .notReady →
        poll_artist build protobuf messages country uris.length track.name track m =
          ⟨[], some (.artist uris.length track.name track, m)⟩ := by
      intro m waits
      rw [poll_artist, and_then, MercuryFuture.poll_oneshot, waits]
      rfl
    have goes : Goes_on build server messages country track_id uris said result 2 _ :=
      goes_on_request sized serving few (serves.artist _ _ read first)
        (fun rx m => poll_artist build protobuf messages country rx track.name track m) waits rfl
        (.artist read first List.getElem?_concat_length told) (Nat.le_refl _)
    rw [first]
    exact goes

/-- A poll of a lookup that has not resolved. -/
theorem poll_goes_on (sized : protobuf.Sized) (serves : server.Serves messages country track_id)
    (serving : m.Serving build server uris said) {fetch : MetaFetch}
    (comes : fetch.Comes server messages country track_id uris result) (waits : fetch.rx ≠ none)
    (few : 0 < fetch.left → uris.length + 1 < 2 ^ 64) :
    Goes_on build server messages country track_id uris said result fetch.left
      (fetch.poll build protobuf messages country m) := by
  cases fetch with
  | track rx => exact poll_track_goes_on sized serves serving (few Nat.two_pos) comes
  | artist rx track_name track_meta => exact poll_artist_goes_on sized serves serving (few Nat.one_pos) comes
  | album rx track_name artist_name => exact poll_album_goes_on serving comes
  | resolved result => exact absurd rfl waits

/-- A lookup that begins. -/
theorem get_track_meta_goes_on (sized : protobuf.Sized) (serves : server.Serves messages country track_id)
    (serving : m.Serving build server uris said) (few : uris.length + 1 < 2 ^ 64)
    (ends : (Lookup.track_outcome (server.world messages country track_id)).value = some result) :
    Goes_on build server messages country track_id uris said result 3
      (get_track_meta build protobuf messages track_id m) := by
  exact goes_on_request sized serving few serves.track (fun rx m => return (.track rx, m))
    (fun _ _ => rfl) rfl (.track List.getElem?_concat_length ends) (Nat.le_refl _)

/-- Sound answers come to a result. -/
theorem comes_to (serves : server.Serves messages country track_id) :
    ∃ result, (Lookup.track_outcome (server.world messages country track_id)).value = some result := by
  have returns := (World.track_returns (server.world messages country track_id) track_id).mpr serves.sound
  obtain ⟨result, returned⟩ := Option.ne_none_iff_exists'.mp returns
  exact ⟨result, returned⟩

end MetaFetch

/-! The lookups together. -/

theorem sum_map_set {α : Type} (f : α → Nat) {l : List α} {k : Nat} {a : α} (there : l[k]? = some a) (b : α) :
    ((l.set k b).map f).sum + f a = (l.map f).sum + f b := by
  induction l generalizing k with
  | nil => cases there
  | cons c l ih =>
    cases k with
    | zero =>
      cases there
      simp only [List.set_cons_zero, List.map_cons, List.sum_cons]
      omega
    | succ k =>
      have rest := ih there
      simp only [List.set_cons_succ, List.map_cons, List.sum_cons]
      omega

namespace Fetches

variable {build : Build} {protobuf : Protobuf} {server : MercuryServer protobuf}
  {messages : Protocol.Messages} {country : String} {ids : List SpotifyId} {uris : List String}
  {world : Fetches}

/-- The server is asked for these URIs, and every lookup is on its way to what it comes to alone. -/
structure Serves (build : Build) (server : MercuryServer protobuf) (messages : Protocol.Messages)
    (country : String) (ids : List SpotifyId) (uris : List String) (world : Fetches) : Prop where
  serving : world.manager.Serving build server uris world.said
  asks : world.sent.map (fun packet => server.asked packet.2) = uris.mapIdx fun i uri => some (be 8 i, uri)
  length : world.fetches.length = ids.length
  comes : ∀ (k : Nat) (id : SpotifyId), ids[k]? = some id →
    ∃ (fetch : MetaFetch) (result : Except ScrobbleError Scrobble), world.fetches[k]? = some fetch ∧
      (Lookup.track_outcome (server.world messages country id)).value = some result ∧
      fetch.Comes server messages country id uris result
  fewer : uris.length + (world.fetches.map MetaFetch.left).sum ≤ 3 * world.fetches.length
  senders : world.senders.length = world.sent.length
  began : ∀ k ∈ world.senders, k < world.fetches.length
  each : ∀ (k : Nat) (fetch : MetaFetch), world.fetches[k]? = some fetch →
    world.senders.count k + fetch.left ≤ 3

theorem Serves.start (build : Build) (server : MercuryServer protobuf) (messages : Protocol.Messages)
    (country : String) : Fetches.start.Serves build server messages country [] [] :=
  ⟨.start build server, rfl, rfl, nofun, Nat.le_refl _, rfl, nofun, nofun⟩

theorem Serves.next_packet (serves : world.Serves build server messages country ids uris) (i : Nat) :
    world.next_packet server i = (uris[i]?).bind fun uri => server.packet (be 8 i) uri (world.said i) := by
  have asked := congrArg (·[i]?) serves.asks
  simp only [List.getElem?_map, List.getElem?_mapIdx] at asked
  rw [Fetches.next_packet]
  cases sent : world.sent[i]? with
  | none =>
    rw [sent] at asked
    have none := Option.map_eq_none_iff.mp asked.symm
    rw [none]
    rfl
  | some request =>
    rw [sent] at asked
    obtain ⟨uri, there, read⟩ := Option.map_eq_some_iff.mp asked.symm
    rw [there]
    simp only [Option.bind_eq_bind, Option.bind_some, ← read]

/-- The response to this request has still to come, in whole or in part. -/
theorem Serves.to_come (serves : world.Serves build server messages country ids uris) {rx : Nat}
    (open_ : MetaFetch.Unanswered server uris world.said rx) : world.next_packet server rx ≠ none := by
  obtain ⟨uri, there, short⟩ := open_
  rw [serves.next_packet, there, Option.bind_some, MercuryServer.packet, List.getElem?_eq_getElem short]
  exact nofun

theorem Serves.asks_more (serves : world.Serves build server messages country ids uris) {id : SpotifyId}
    {result : Except ScrobbleError Scrobble} {left : Nat} {more : List String} {log : List Mercury.Effect}
    {fetch : MetaFetch} {m : MercuryManager}
    (leaves : MetaFetch.Leaves build server messages country id uris world.said result left more log fetch m) :
    (world.sent ++ Mercury.Effect.sent log).map (fun packet => server.asked packet.2) =
      (uris ++ more).mapIdx fun i uri => some (be 8 i, uri) := by
  rw [List.map_append, serves.asks, leaves.asks, List.mapIdx_append]

theorem Serves.senders_more (serves : world.Serves build server messages country ids uris) (k : Nat)
    (fetches : List MetaFetch) (m : MercuryManager) (log : List Mercury.Effect) :
    (world.after_call k fetches m log).senders.length = (world.after_call k fetches m log).sent.length := by
  simp [after_call, serves.senders]

/-- The packets of a call are all of the one lookup. -/
theorem count_after_call (world : Fetches) (k j : Nat) (fetches : List MetaFetch) (m : MercuryManager)
    (log : List Mercury.Effect) : (world.after_call k fetches m log).senders.count j =
      world.senders.count j + if j = k then (Mercury.Effect.sent log).length else 0 := by
  rw [after_call, List.count_append, List.map_const']
  by_cases own : j = k
  · subst own
    rw [List.count_replicate_self, if_pos rfl]
  · rw [List.count_replicate, if_neg own, if_neg (by simpa using fun same => own same.symm)]

theorem sent_length {id : SpotifyId} {said : Nat → Nat} {result : Except ScrobbleError Scrobble} {left : Nat}
    {more : List String} {log : List Mercury.Effect} {fetch : MetaFetch} {m : MercuryManager}
    (leaves : MetaFetch.Leaves build server messages country id uris said result left more log fetch m) :
    (Mercury.Effect.sent log).length = more.length := by
  simpa using congrArg List.length leaves.asks

/-- A lookup that begins. -/
theorem Serves.fetch (sized : protobuf.Sized) (serves : world.Serves build server messages country ids uris)
    {id : SpotifyId} (sound : server.Serves messages country id) (few : 3 * (ids.length + 1) < 2 ^ 64) :
    ∃ world' more, (world.step build server messages country (.fetch id)).value = some world' ∧
      world'.Serves build server messages country (ids ++ [id]) (uris ++ more) := by
  obtain ⟨result, ends⟩ := MetaFetch.comes_to sound
  have fewer := serves.fewer
  have length := serves.length
  obtain ⟨log, fetch, m, more, begun, leaves⟩ :=
    MetaFetch.get_track_meta_goes_on sized sound serves.serving (by omega) ends
  refine ⟨world.after_call world.fetches.length (world.fetches ++ [fetch]) m log, more, ?_, ?_⟩
  · simp [step, Call.listen, begun]
  · constructor
    · exact leaves.serving
    · exact serves.asks_more leaves
    · simp [after_call, length]
    · intro k other there
      rcases Nat.lt_trichotomy k ids.length with below | rfl | above
      · rw [List.getElem?_append_left below] at there
        obtain ⟨earlier, result, found, ends, comes⟩ := serves.comes k other there
        refine ⟨earlier, result, ?_, ends, comes.more more⟩
        exact (List.getElem?_append_left (by omega)).trans found
      · rw [List.getElem?_concat_length] at there
        cases there
        refine ⟨fetch, result, ?_, ends, leaves.comes⟩
        rw [← length]
        exact List.getElem?_concat_length
      · rw [List.getElem?_eq_none (by simp; omega)] at there
        cases there
    · have one := leaves.fewer
      simp only [after_call, List.length_append, List.map_append, List.sum_append, List.map_singleton,
        List.sum_singleton, List.length_singleton]
      omega
    · exact serves.senders_more _ _ _ _
    · intro k member
      rw [after_call, List.length_append, List.length_singleton]
      rcases List.mem_append.mp member with earlier | new
      · exact Nat.lt_succ_of_lt (serves.began k earlier)
      · obtain ⟨_, _, rfl⟩ := List.mem_map.mp new
        exact Nat.lt_succ_self _
    · intro k other held
      rw [count_after_call, sent_length leaves]
      rcases Nat.lt_trichotomy k world.fetches.length with below | rfl | above
      · rw [if_neg (by omega), Nat.add_zero]
        exact serves.each k other ((List.getElem?_append_left below).symm.trans held)
      · cases List.getElem?_concat_length.symm.trans held
        have unsent : world.senders.count world.fetches.length = 0 :=
          List.count_eq_zero.mpr fun member => Nat.lt_irrefl _ (serves.began _ member)
        have one := leaves.fewer
        rw [if_pos rfl, unsent]
        omega
      · rw [after_call, List.getElem?_eq_none (by simp; omega)] at held
        cases held

/-- One lookup goes on, the others are as they were. -/
theorem Serves.changed (serves : world.Serves build server messages country ids uris) {k : Nat}
    {id : SpotifyId} (asked : ids[k]? = some id) {fetch fetch' : MetaFetch} (found : world.fetches[k]? = some fetch)
    {result : Except ScrobbleError Scrobble} {more : List String} {log : List Mercury.Effect}
    {m : MercuryManager} (ends : (Lookup.track_outcome (server.world messages country id)).value = some result)
    (leaves : MetaFetch.Leaves build server messages country id uris world.said result fetch.left more log
      fetch' m) :
    Serves build server messages country ids (uris ++ more)
      (world.after_call k (world.fetches.set k fetch') m log) := by
  have below : k < world.fetches.length := (List.getElem?_eq_some_iff.mp found).1
  constructor
  · exact leaves.serving
  · exact serves.asks_more leaves
  · exact List.length_set.trans serves.length
  · intro j other held
    by_cases own : k = j
    · subst own
      cases asked.symm.trans held
      exact ⟨fetch', result, List.getElem?_set_self below, ends, leaves.comes⟩
    · obtain ⟨earlier, result, found, ends, comes⟩ := serves.comes j other held
      exact ⟨earlier, result, (List.getElem?_set_ne own).trans found, ends, comes.more more⟩
  · have part := sum_map_set MetaFetch.left found fetch'
    have fewer := serves.fewer
    have one := leaves.fewer
    simp only [after_call, List.length_append, List.length_set]
    omega
  · exact serves.senders_more _ _ _ _
  · intro j member
    rw [after_call, List.length_set]
    rcases List.mem_append.mp member with earlier | new
    · exact serves.began j earlier
    · obtain ⟨_, _, rfl⟩ := List.mem_map.mp new
      exact below
  · intro j other held
    rw [count_after_call, sent_length leaves]
    by_cases own : j = k
    · subst own
      cases (List.getElem?_set_self below).symm.trans held
      have before := serves.each j fetch found
      have one := leaves.fewer
      rw [if_pos rfl]
      omega
    · rw [if_neg own, Nat.add_zero]
      exact serves.each j other ((List.getElem?_set_ne (Ne.symm own)).symm.trans held)

theorem step_poll {k : Nat} {fetch : MetaFetch} (found : world.fetches[k]? = some fetch)
    (waits : fetch.rx ≠ none) : world.step build server messages country (.poll k) = do
      let ((fetch, manager), log) ← (fetch.poll build protobuf messages country world.manager).listen
      return world.after_call k (world.fetches.set k fetch) manager log := by
  cases fetch with
  | resolved => exact absurd rfl waits
  | track | artist | album => rw [step, found]

/-- A lookup is polled that waits: then it has resolved, or its response has still to come. -/
theorem Serves.poll (sized : protobuf.Sized) (serves : world.Serves build server messages country ids uris)
    (sound : ∀ id ∈ ids, server.Serves messages country id) (few : 3 * ids.length < 2 ^ 64) {k : Nat}
    {fetch : MetaFetch} (found : world.fetches[k]? = some fetch) (waits : fetch.rx ≠ none) :
    ∃ world' more, (world.step build server messages country (.poll k)).value = some world' ∧
      world'.Serves build server messages country ids (uris ++ more) ∧
      ∀ fetch rx, world'.fetches[k]? = some fetch → fetch.rx = some rx →
        MetaFetch.Unanswered server (uris ++ more) world'.said rx := by
  have there : k < world.fetches.length := (List.getElem?_eq_some_iff.mp found).1
  have below : k < ids.length := serves.length ▸ there
  have asked : ids[k]? = some ids[k] := List.getElem?_eq_getElem below
  obtain ⟨_, result, same, ends, comes⟩ := serves.comes k ids[k] asked
  cases found.symm.trans same
  have room : 0 < fetch.left → uris.length + 1 < 2 ^ 64 := by
    intro some_left
    have part := sum_map_set MetaFetch.left found (.resolved result)
    have none_left : (MetaFetch.resolved result).left = 0 := rfl
    have fewer := serves.fewer
    have length := serves.length
    omega
  obtain ⟨log, fetch', m, more, polled, leaves⟩ := MetaFetch.poll_goes_on sized
    (sound _ (List.getElem_mem below)) serves.serving comes waits room
  refine ⟨_, more, ?_, serves.changed asked found ends leaves, ?_⟩
  · rw [step_poll found waits, polled]
    rfl
  · intro last rx held named
    cases (List.getElem?_set_self there).symm.trans held
    exact leaves.waits rx named

/-- A packet of a response comes, if there is one to come. -/
theorem Serves.packet (serves : world.Serves build server messages country ids uris) (i : Nat) :
    ∃ world', (world.step build server messages country (.packet i)).value = some world' ∧
      world'.Serves build server messages country ids uris := by
  cases next : world.next_packet server i with
  | none => exact ⟨world, by simp [step, next], serves⟩
  | some data =>
    have found := next
    rw [serves.next_packet] at found
    obtain ⟨uri, there, said⟩ := Option.bind_eq_some_iff.mp found
    obtain ⟨m, dispatched, serving⟩ := serves.serving.packet there said
    refine ⟨{ world with manager := m, said := Function.update world.said i (world.said i + 1) }, ?_, ?_⟩
    · rw [step, next]
      exact Call.bind_returns.mpr ⟨m, dispatched, rfl⟩
    · exact { serves with serving }

theorem fetched_append (turns more : List FetchTurn) :
    fetched (turns ++ more) = fetched turns ++ fetched more := by
  induction turns with
  | nil => rfl
  | cons turn turns ih => cases turn <;> simp [fetched, ih]

/-- What any turn leaves. -/
theorem Serves.turn (sized : protobuf.Sized) (serves : world.Serves build server messages country ids uris)
    (turn : FetchTurn) (sound : ∀ id ∈ ids ++ fetched [turn], server.Serves messages country id)
    (few : 3 * (ids ++ fetched [turn]).length < 2 ^ 64) :
    ∃ world' more, (world.step build server messages country turn).value = some world' ∧
      world'.Serves build server messages country (ids ++ fetched [turn]) (uris ++ more) ∧
      ∀ k, turn = .poll k → ∀ fetch rx, world'.fetches[k]? = some fetch → fetch.rx = some rx →
        MetaFetch.Unanswered server (uris ++ more) world'.said rx := by
  cases turn with
  | fetch id =>
    have few : 3 * (ids.length + 1) < 2 ^ 64 := by simpa [fetched] using few
    obtain ⟨world', more, returned, serves'⟩ := serves.fetch sized (sound id (by simp [fetched])) few
    exact ⟨world', more, returned, serves', nofun⟩
  | packet i =>
    obtain ⟨world', returned, serves'⟩ := serves.packet i
    refine ⟨world', [], returned, ?_, nofun⟩
    simpa [fetched] using serves'
  | poll k =>
    simp only [fetched, List.append_nil] at sound few ⊢
    by_cases waiting : ∃ fetch, world.fetches[k]? = some fetch ∧ fetch.rx ≠ none
    · obtain ⟨fetch, found, waits⟩ := waiting
      obtain ⟨world', more, returned, serves', open_⟩ := serves.poll sized sound few found waits
      exact ⟨world', more, returned, serves', fun _ same => by cases same; exact open_⟩
    · refine ⟨world, [], ?_, by rwa [List.append_nil], ?_⟩
      · cases found : world.fetches[k]? with
        | none => simp [step, found]
        | some fetch =>
          cases fetch with
          | resolved => simp [step, found]
          | track | artist | album => exact absurd ⟨_, found, nofun⟩ waiting
      · intro _ same fetch rx found named
        cases same
        exact absurd ⟨fetch, found, by rw [named]; exact nofun⟩ waiting

theorem run_serves (build : Build) (sized : protobuf.Sized) (server : MercuryServer protobuf)
    (messages : Protocol.Messages) (country : String) (turns : List FetchTurn)
    (sound : ∀ id ∈ fetched turns, server.Serves messages country id)
    (few : 3 * (fetched turns).length < 2 ^ 64) :
    ∃ world uris, (run build server messages country turns).value = some world ∧
      world.Serves build server messages country (fetched turns) uris ∧
      ∀ before k, turns = before ++ [.poll k] → ∀ fetch rx, world.fetches[k]? = some fetch →
        fetch.rx = some rx → MetaFetch.Unanswered server uris world.said rx := by
  induction turns using List.reverseRecOn with
  | nil => exact ⟨.start, [], rfl, .start build server messages country, by simp⟩
  | append_singleton turns turn ih =>
    rw [fetched_append] at sound few ⊢
    have fewer : 3 * (fetched turns).length < 2 ^ 64 := by
      rw [List.length_append] at few
      omega
    obtain ⟨world, uris, ran, serves, _⟩ :=
      ih (fun id member => sound id (List.mem_append_left _ member)) fewer
    obtain ⟨world', more, returned, serves', waits⟩ := serves.turn sized turn sound few
    refine ⟨world', uris ++ more, ?_, serves', ?_⟩
    · rw [run, Call.run_snoc]
      exact Call.bind_returns.mpr ⟨world, ran, returned⟩
    · intro before k same
      obtain ⟨_, one⟩ := List.append_inj' same rfl
      exact waits k (List.singleton_inj.mp one)

/-- What a resolved lookup has come to is what it comes to alone. -/
theorem resolved_alone {id : SpotifyId} {result : Except ScrobbleError Scrobble}
    (ends : (Lookup.track_outcome (server.world messages country id)).value = some result) :
    ∃ requested, (server.world messages country id).get_track_meta id [fun _ => true] =
        ⟨requested, some (some result)⟩ ∧
      ∀ scrobble, result = .ok scrobble → (server.world messages country id).Tells id requested scrobble := by
  have outcome := World.get_track_meta_outcome (server.world messages country id) id []
  have returned : ((Metadata.track messages).get true id >>= fun _ =>
      Lookup.track_outcome (server.world messages country id)).value = some result :=
    Call.bind_returns.mpr ⟨(), rfl, ends⟩
  obtain ⟨requested, ended⟩ := Call.eq_of_returned returned
  refine ⟨requested, ?_, ?_⟩
  · have same : ((Metadata.track (server.world messages country id).messages).get
        ((server.world messages country id).taken .track) id >>= fun _ =>
          Lookup.track_outcome (server.world messages country id)) = ⟨requested, some result⟩ := ended
    rw [List.nil_append] at outcome
    rw [outcome, same]
    simp
  · rintro scrobble rfl
    exact World.track_tells ended

end Fetches

open Fetches in
/-- Any number of lookups share the request manager, and are polled whenever their owners like until they
have resolved, while the responses come in packets of any size and in any order. Where the server's answers
are sound none of it panics, and no lookup makes more than three requests. It resolves only to what it comes
to alone with the same server, where that is a scrobble to one of its own track, and when it has just been
polled it has resolved or a packet is still to come. -/
theorem lookups_served (build : Build) {protobuf : Protobuf} (sized : protobuf.Sized)
    (server : MercuryServer protobuf) (messages : Protocol.Messages) (country : String)
    (turns : List FetchTurn) (few : 3 * (fetched turns).length < 2 ^ 64)
    (serves : ∀ id ∈ fetched turns, server.Serves messages country id) :
    ∃ world, (run build server messages country turns).value = some world ∧
      world.sent.length ≤ 3 * (fetched turns).length ∧ world.senders.length = world.sent.length ∧
      ∀ k id, (fetched turns)[k]? = some id → world.senders.count k ≤ 3 ∧
        ∃ fetch, world.fetches[k]? = some fetch ∧
        (∀ result, fetch = .resolved result → ∃ requested,
          (server.world messages country id).get_track_meta id [fun _ => true] =
            ⟨requested, some (some result)⟩ ∧
          ∀ scrobble, result = .ok scrobble →
            (server.world messages country id).Tells id requested scrobble) ∧
        ∀ before, turns = before ++ [.poll k] → ∀ rx, fetch.rx = some rx →
          world.next_packet server rx ≠ none := by
  obtain ⟨world, uris, ran, served, waits⟩ := run_serves build sized server messages country turns serves few
  refine ⟨world, ran, ?_, served.senders, ?_⟩
  · have sent := congrArg List.length served.asks
    rw [List.length_map, List.length_mapIdx] at sent
    have fewer := served.fewer
    have length := served.length
    omega
  · intro k id there
    obtain ⟨fetch, result, found, ends, comes⟩ := served.comes k id there
    have few := served.each k fetch found
    refine ⟨by omega, fetch, found, ?_, ?_⟩
    · rintro _ rfl
      cases comes
      exact resolved_alone ends
    · intro before same rx named
      exact served.to_come (waits before k same fetch rx found named)

/-! A server that has one song, whichever track it is asked for. -/

def read_header : Bytes → Option String
  | 0x0a :: n :: rest => some (String.ofList ((rest.take n.toNat).map fun byte => Char.ofNat byte.toNat))
  | _ => none

theorem get_header (uri : String) :
    Mercury.messages.write_header (MercuryRequest.header ⟨.GET, uri, none, []⟩) =
      0x0a :: UInt8.ofNat uri.length ::
        ((uri.toList.map fun c => UInt8.ofNat c.toNat) ++ [0x1a, 3, 71, 69, 84]) := by
  simp [Mercury.messages, MercuryRequest.header, Mercury.string_field, MercuryMethod.to_string, Header.new,
    String.length_toList]
  rfl

theorem read_get_header {uri : String} (ascii : ∀ c ∈ uri.toList, c.toNat < 128) (short : uri.length < 256) :
    read_header (Mercury.messages.write_header (MercuryRequest.header ⟨.GET, uri, none, []⟩)) = some uri := by
  let bytes := uri.toList.map fun c => UInt8.ofNat c.toNat
  have size : (UInt8.ofNat uri.length).toNat = bytes.length := by
    rw [List.length_map, String.length_toList, UInt8.toNat_ofNat']
    exact Nat.mod_eq_of_lt short
  have back : bytes.map (fun byte => Char.ofNat byte.toNat) = uri.toList := by
    calc bytes.map (fun byte => Char.ofNat byte.toNat) = uri.toList.map id := by
          rw [List.map_map]
          apply List.map_congr_left
          intro c member
          have small := ascii c member
          rw [Function.comp_apply, UInt8.toNat_ofNat', Nat.mod_eq_of_lt (by omega), Char.ofNat_toNat, id]
      _ = uri.toList := List.map_id _
  rw [get_header, read_header, size, List.take_left, back, String.ofList_toList]

theorem metadata_ascii {M α : Type} (metadata : Metadata M α) (id : SpotifyId)
    (base : (metadata.base_url.toList.all fun c => c.toNat < 128) = true) :
    ∀ c ∈ (metadata.uri id).toList, c.toNat < 128 := by
  intro c member
  rw [Metadata.uri, String.toList_append, String.toList_append, List.append_assoc] at member
  rcases List.mem_append.mp member with member | member
  · exact of_decide_eq_true (List.all_eq_true.mp base c member)
  · rcases List.mem_append.mp member with slash | member
    · cases List.mem_singleton.mp slash
      decide
    · exact id.to_base16_writes.ascii c member

theorem metadata_length {M α : Type} (metadata : Metadata M α) (id : SpotifyId) :
    (metadata.uri id).length = metadata.base_url.length + 33 := by
  have digits : id.to_base16.length = 32 := by
    rw [SpotifyId.to_base16_eq, ← String.length_toList, Radix.spell, String.toList_ofList, List.length_map,
      Digits.length_write]
  rw [Metadata.uri, String.length_append, String.length_append, digits]
  rfl

def song_payload (uri : String) : List Bytes :=
  if "hm://metadata/3/track".toList.isPrefixOf uri.toList then [[1], [0]]
  else if "hm://metadata/3/artist".toList.isPrefixOf uri.toList then [[2]]
  else [[3]]

theorem track_payload (messages : Protocol.Messages) (id : SpotifyId) :
    song_payload ((Metadata.track messages).uri id) = [[1], [0]] := by
  simp only [song_payload, Metadata.uri, Metadata.track, String.toList_append, List.append_assoc]
  rfl

theorem artist_payload (messages : Protocol.Messages) (id : SpotifyId) :
    song_payload ((Metadata.artist messages).uri id) = [[2]] := by
  simp only [song_payload, Metadata.uri, Metadata.artist, String.toList_append, List.append_assoc]
  rfl

theorem album_payload (messages : Protocol.Messages) (id : SpotifyId) :
    song_payload ((Metadata.album messages).uri id) = [[3]] := by
  simp only [song_payload, Metadata.uri, Metadata.album, String.toList_append, List.append_assoc]
  rfl

/-- The header of a response comes in a packet of its own. -/
def song_server : MercuryServer Mercury.messages where
  read_uri := read_header
  respond uri := ⟨"", 200, song_payload uri⟩
  header _ := { Header.new with status_code := some 200 }
  header_data _ := ok_header
  cut uri := [(.whole, [ok_header]), (.final, song_payload uri)]
  parses _ := rfl
  tells _ := ⟨rfl, rfl⟩
  whole uri := by
    have some_part : song_payload uri ≠ [] := by
      unfold song_payload
      split_ifs <;> exact nofun
    exact @Fragmentation.whole _ [ok_header] _ _ nofun (.final some_part)
  fits uri := by
    have small : (song_payload uri).length < 2 ^ 16 ∧ ∀ chunk ∈ song_payload uri, chunk.length < 2 ^ 16 := by
      unfold song_payload
      split_ifs <;> decide
    intro fragment member
    simp at member
    rcases member with rfl | rfl
    · decide
    · exact small

theorem song_world (id : SpotifyId) : song_server.world World.named.messages "GB" id = World.named := by
  have track : song_server.read_track World.named.messages "GB" id =
      Track.parse ⟨some (List.replicate 16 7), some "Atlas", some ⟨some (List.replicate 16 9)⟩,
            [⟨none⟩, ⟨some (List.replicate 16 8)⟩], [⟨some "GB", none, ["premium"]⟩], [], []⟩ "GB" := by
    simp only [MercuryServer.read_track, song_server, track_payload]
    rfl
  have response : (song_server.world World.named.messages "GB" id).response = World.named.response := by
    funext asked
    cases asked with
    | track =>
      simp only [MercuryServer.world, song_server, track_payload]
      rfl
    | artist =>
      simp only [MercuryServer.world, track]
      simp only [song_server, artist_payload]
      rfl
    | album =>
      simp only [MercuryServer.world, track]
      simp only [song_server, album_payload]
      rfl
  calc song_server.world World.named.messages "GB" id =
        { World.named with response := (song_server.world World.named.messages "GB" id).response } := rfl
    _ = World.named := by rw [response]

theorem song_serves (id : SpotifyId) : song_server.Serves World.named.messages "GB" id := by
  have reads {M α : Type} (metadata : Metadata M α) (id : SpotifyId)
      (base : (metadata.base_url.toList.all fun c => c.toNat < 128) = true)
      (short : metadata.base_url.length + 33 < 256) : song_server.Reads (metadata.uri id) := by
    have length := metadata_length metadata id
    have ascii := metadata_ascii metadata id base
    constructor
    · rw [get_header]
      simp only [List.length_cons, List.length_append, List.length_map, String.length_toList, List.length_nil]
      omega
    · exact read_get_header ascii (by omega)
  constructor
  · rw [song_world]
    apply (World.track_returns World.named id).mp
    have returned : ((Metadata.track World.named.messages).get (World.named.taken .track) id >>= fun _ =>
        Lookup.track_outcome World.named).value = some (.ok ⟨"Battles", "Atlas", "Mirrored"⟩) := by
      rfl
    rw [returned]
    exact nofun
  · exact reads _ id (by decide) (by decide)
  · intro _ artist _ _
    exact reads _ artist (by decide) (by decide)
  · intro track _
    exact reads _ track.album (by decide) (by decide)

/-- Two lookups; the responses to the second one come first. -/
def two_lookups : List FetchTurn :=
  [.fetch ⟨.zero⟩, .fetch ⟨.of_u8 1⟩, .packet 1, .poll 0, .packet 1, .poll 1, .packet 2, .packet 0,
    .packet 2, .poll 1, .packet 0, .poll 0, .packet 3, .packet 3, .poll 1]

theorem lookups_served_two : ∃ world,
    (Fetches.run .debug song_server World.named.messages "GB" two_lookups).value = some world ∧
    world.sent.length ≤ 6 ∧ world.senders.count 1 ≤ 3 ∧
    world.fetches[1]? = some (.resolved (.ok ⟨"Battles", "Atlas", "Mirrored"⟩)) ∧
    ∃ requested, (song_server.world World.named.messages "GB" ⟨.of_u8 1⟩).get_track_meta ⟨.of_u8 1⟩
      [fun _ => true] = ⟨requested, some (some (.ok ⟨"Battles", "Atlas", "Mirrored"⟩))⟩ := by
  obtain ⟨world, ran, few, _, lookups⟩ := lookups_served .debug messages_sized song_server
    World.named.messages "GB" two_lookups (by decide) (fun id _ => song_serves id)
  obtain ⟨fewer, fetch, found, resolved, _⟩ := lookups 1 ⟨.of_u8 1⟩ rfl
  have done : ((Fetches.run .debug song_server World.named.messages "GB" two_lookups).value.bind
      (·.fetches[1]?)) = some (.resolved (.ok ⟨"Battles", "Atlas", "Mirrored"⟩)) := by decide +kernel
  rw [ran] at done
  cases found.symm.trans done
  obtain ⟨requested, alone, _⟩ := resolved _ rfl
  exact ⟨world, ran, few, fewer, found, requested, alone⟩

end ConnectScrobbler
