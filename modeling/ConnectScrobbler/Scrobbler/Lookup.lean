import ConnectScrobbler.Core.Mercury.Reassembly
import ConnectScrobbler.Metadata.Sound
import ConnectScrobbler.Scrobbler

/-! The future that `get_track_meta` returns: a chain of three requests, each of
which goes out when the answer to the one before has been read. The URIs that are
requested are logged. -/
namespace ConnectScrobbler

open Mercury (answer)

/-- `MercuryFuture::poll`. -/
def MercuryFuture.poll (rx : Oneshot (Except MercuryError MercuryResponse)) :
    Poll MercuryResponse MercuryError :=
  match rx.poll with
  | .ok (.ready (.ok value)) => .ok (.ready value)
  | .ok (.ready (.error err)) => .error err
  | .ok .notReady => .ok .notReady
  | .error () => .error {}

theorem MercuryFuture.poll_oneshot (m : Mercury.MercuryManager) (rx : Nat) :
    poll (m.oneshots rx) = m.poll rx := rfl

inductive Asked where
  | track | artist | album
  deriving DecidableEq, Repr

/-- What the outside makes of the requests: whether the session takes them, and the
responses. A request without a response is canceled. `country` is the session's
when the answer is read. -/
structure World where
  messages : Protocol.Messages
  taken : Asked → Bool
  response : Asked → Option MercuryResponse
  country : Asked → String

def World.oneshot (w : World) (asked : Asked) (arrived : Bool) :
    Oneshot (Except MercuryError MercuryResponse) :=
  if arrived then
    match w.response asked with
    | some response => .complete (answer response)
    | none => .canceled
  else .waiting

namespace Metadata

variable {M α : Type}

/-- `get`, up to its future. -/
def get (metadata : Metadata M α) (taken : Bool) (id : SpotifyId) : Call String Unit := do
  Call.emit (metadata.uri id)
  if taken then return () else Call.panic

/-- The future of `get`, by the answer that its request has. -/
def poll (metadata : Metadata M α) (country : String)
    (rx : Oneshot (Except MercuryError MercuryResponse)) : Call String (Poll α MercuryError) :=
  match MercuryFuture.poll rx with
  | .ok .notReady => return .ok .notReady
  | .ok (.ready response) => do
    let a ← Call.unwrap (metadata.received response country)
    return .ok (.ready a)
  | .error err => return .error err

end Metadata

/-- `format!("{:?}", err)`. -/
def MercuryError.debug (_ : MercuryError) : String := "MercuryError"

inductive Lookup where
  | track
  | artist (track_name : String) (track_meta : Track)
  | album (track_name artist_name : String)
  | resolved
  deriving DecidableEq

namespace Lookup

abbrev Polled := Call String (Poll Scrobble ScrobbleError × Lookup)

/-- One link of the chain: what comes next is polled at once. -/
def and_then {α : Type} (first : Call String (Poll α MercuryError)) (waiting : Lookup)
    (next : α → Polled) : Polled := do
  match ← first with
  | .ok .notReady => return (.ok .notReady, waiting)
  | .ok (.ready a) => next a
  | .error err => return (.error ⟨err.debug⟩, .resolved)

variable (w : World) (arrived : Asked → Bool)

def poll_album (track_name artist_name : String) : Polled :=
  and_then ((Metadata.album w.messages).poll (w.country .album) (w.oneshot .album (arrived .album)))
    (.album track_name artist_name) fun album =>
      return (.ok (.ready ⟨artist_name, track_name, album.name⟩), .resolved)

def poll_artist (track_name : String) (track_meta : Track) : Polled :=
  and_then ((Metadata.artist w.messages).poll (w.country .artist) (w.oneshot .artist (arrived .artist)))
    (.artist track_name track_meta) fun artist => do
      (Metadata.album w.messages).get (w.taken .album) track_meta.album
      poll_album w arrived track_name artist.name

def poll_track : Polled :=
  and_then ((Metadata.track w.messages).poll (w.country .track) (w.oneshot .track (arrived .track)))
    .track fun track => do
      let artist ← Call.unwrap track.artists.head?
      (Metadata.artist w.messages).get (w.taken .artist) artist
      poll_artist w arrived track.name track

/-- Polling a chain that has resolved is a panic. -/
def poll : Lookup → Polled
  | .track => poll_track w arrived
  | .artist track_name track_meta => poll_artist w arrived track_name track_meta
  | .album track_name artist_name => poll_album w arrived track_name artist_name
  | .resolved => Call.panic

/-- The owner polls until the future resolves; no result: it has not yet. -/
def await : Lookup → (polls : List (Asked → Bool)) →
    Call String (Option (Except ScrobbleError Scrobble))
  | _, [] => return none
  | lookup, arrived :: polls => do
    match ← poll w arrived lookup with
    | (.ok .notReady, lookup) => await lookup polls
    | (.ok (.ready scrobble), _) => return some (.ok scrobble)
    | (.error err, _) => return some (.error err)

end Lookup

/-- `get_track_meta`, and its future polled. -/
def World.get_track_meta (w : World) (track_id : SpotifyId) (polls : List (Asked → Bool)) :
    Call String (Option (Except ScrobbleError Scrobble)) := do
  (Metadata.track w.messages).get (w.taken .track) track_id
  Lookup.await w .track polls

/-! How a lookup ends does not depend on when it is polled. -/

/-- What the future of a request comes to. -/
def World.settled {M α : Type} (w : World) (metadata : Metadata M α) (asked : Asked) :
    Option (Except MercuryError α) :=
  match w.response asked with
  | none => some (.error {})
  | some response =>
    match answer response with
    | .error err => some (.error err)
    | .ok response => (metadata.received response (w.country asked)).map .ok

namespace Lookup

abbrev Ended := Call String (Except ScrobbleError Scrobble)

def proceed {α : Type} (first : Option (Except MercuryError α)) (next : α → Ended) : Ended := do
  match ← Call.unwrap first with
  | .ok a => next a
  | .error err => return .error ⟨err.debug⟩

section Outcome

variable (w : World)

def album_outcome (track_name artist_name : String) : Ended :=
  proceed (w.settled (Metadata.album w.messages) .album) fun album =>
    return .ok ⟨artist_name, track_name, album.name⟩

def artist_outcome (track_name : String) (track_meta : Track) : Ended :=
  proceed (w.settled (Metadata.artist w.messages) .artist) fun artist => do
    (Metadata.album w.messages).get (w.taken .album) track_meta.album
    album_outcome w track_name artist.name

def track_outcome : Ended :=
  proceed (w.settled (Metadata.track w.messages) .track) fun track => do
    let artist ← Call.unwrap track.artists.head?
    (Metadata.artist w.messages).get (w.taken .artist) artist
    artist_outcome w track.name track

def outcome : Lookup → Ended
  | .track => track_outcome w
  | .artist track_name track_meta => artist_outcome w track_name track_meta
  | .album track_name artist_name => album_outcome w track_name artist_name
  | .resolved => Call.panic

/-- A poll, and what is left after it. -/
def finish : Poll Scrobble ScrobbleError × Lookup → Ended
  | (.ok .notReady, lookup) => outcome w lookup
  | (.ok (.ready scrobble), _) => return .ok scrobble
  | (.error err, _) => return .error err

end Outcome

variable {w : World} {M α : Type} {metadata : Metadata M α} {asked : Asked} {waiting : Lookup}
  {next : α → Polled} {after : α → Ended}

theorem poll_waiting : metadata.poll (w.country asked) (w.oneshot asked false) =
    ⟨[], some (.ok .notReady)⟩ := rfl

/-- The future of a request whose answer is there. -/
theorem poll_settled : metadata.poll (w.country asked) (w.oneshot asked true) =
    ⟨[], (w.settled metadata asked).map fun result => result.map .ready⟩ := by
  unfold World.oneshot World.settled
  cases w.response asked with
  | none => rfl
  | some response =>
    cases answered : answer response with
    | error err =>
      simp only [if_true, answered]
      rfl
    | ok value =>
      simp only [if_true, answered, Metadata.poll, MercuryFuture.poll, Oneshot.poll]
      cases metadata.received value (w.country asked) <;> rfl

theorem and_then_finish (arrived : Bool)
    (waits : outcome w waiting = proceed (w.settled metadata asked) after)
    (goes_on : ∀ a, next a >>= finish w = after a) :
    and_then (metadata.poll (w.country asked) (w.oneshot asked arrived)) waiting next >>= finish w =
      proceed (w.settled metadata asked) after := by
  cases arrived with
  | false =>
    rw [poll_waiting, ← waits]
    rfl
  | true =>
    rw [poll_settled, and_then, proceed]
    cases w.settled metadata asked with
    | none => rfl
    | some result =>
      cases result with
      | error err => rfl
      | ok a => exact goes_on a

/-- A poll does not change how the lookup ends. -/
theorem poll_finish (arrived : Asked → Bool) (lookup : Lookup) :
    poll w arrived lookup >>= finish w = outcome w lookup := by
  have album : ∀ track_name artist_name,
      poll_album w arrived track_name artist_name >>= finish w =
        album_outcome w track_name artist_name := by
    intro track_name artist_name
    apply and_then_finish _ rfl
    intro album
    rfl
  have artist : ∀ track_name track_meta,
      poll_artist w arrived track_name track_meta >>= finish w =
        artist_outcome w track_name track_meta := by
    intro track_name track_meta
    apply and_then_finish _ rfl
    intro artist
    rw [Call.bind_assoc]
    apply Call.bind_congr
    intro _ _
    exact album track_name artist.name
  cases lookup with
  | track =>
    apply and_then_finish _ rfl
    intro track
    rw [Call.bind_assoc]
    apply Call.bind_congr
    intro id _
    rw [Call.bind_assoc]
    apply Call.bind_congr
    intro _ _
    exact artist track.name track
  | artist track_name track_meta => exact artist track_name track_meta
  | album track_name artist_name => exact album track_name artist_name
  | resolved => rfl

/-- Nothing is left to wait for. -/
def Ready (polled : Polled) : Prop := ∀ lookup, polled.value ≠ some (.ok .notReady, lookup)

theorem and_then_ready (goes_on : ∀ a, Ready (next a)) :
    Ready (and_then (metadata.poll (w.country asked) (w.oneshot asked true)) waiting next) := by
  intro lookup
  rw [poll_settled, and_then]
  cases w.settled metadata asked with
  | none => simp
  | some result =>
    cases result with
    | error err => simp [Except.map]
    | ok a => exact goes_on a lookup

theorem bind_ready {α : Type} {x : Call String α} {f : α → Polled} (goes_on : ∀ a, Ready (f a)) :
    Ready (x >>= f) := by
  intro lookup returned
  obtain ⟨a, _, later⟩ := Call.bind_returns.mp returned
  exact goes_on a lookup later

theorem poll_ready (lookup : Lookup) : Ready (poll w (fun _ => true) lookup) := by
  have album : ∀ track_name artist_name,
      Ready (poll_album w (fun _ => true) track_name artist_name) := by
    intro track_name artist_name
    apply and_then_ready
    intro album lookup
    simp
  have artist : ∀ track_name track_meta,
      Ready (poll_artist w (fun _ => true) track_name track_meta) := by
    intro track_name track_meta
    apply and_then_ready
    intro artist
    exact bind_ready fun _ => album track_name artist.name
  cases lookup with
  | track =>
    apply and_then_ready
    intro track
    exact bind_ready fun id => bind_ready fun _ => artist track.name track
  | artist track_name track_meta => exact artist track_name track_meta
  | album track_name artist_name => exact album track_name artist_name
  | resolved => simp [Ready, poll]

/-- However often the lookup is polled before the answers are there, it ends in its outcome. -/
theorem await_outcome (lookup : Lookup) (polls : List (Asked → Bool)) :
    await w lookup (polls ++ [fun _ => true]) = outcome w lookup >>= fun result => return some result := by
  induction polls generalizing lookup with
  | nil =>
    rw [← poll_finish fun _ => true, Call.bind_assoc]
    apply Call.bind_congr
    rintro ⟨polled, left⟩ returned
    match polled with
    | .ok .notReady => exact absurd returned (poll_ready lookup left)
    | .ok (.ready scrobble) => rfl
    | .error err => rfl
  | cons arrived polls ih =>
    rw [← poll_finish arrived, Call.bind_assoc]
    apply Call.bind_congr
    rintro ⟨polled, left⟩ _
    match polled with
    | .ok .notReady => exact ih left
    | .ok (.ready scrobble) => rfl
    | .error err => rfl

end Lookup

/-! Which responses a lookup survives, and what a scrobble is made of. -/
namespace World

variable {M α : Type}

/-- The message in a response that is no error. -/
def Sent (w : World) (asked : Asked) (parse : Bytes → Option M) (msg : M) : Prop :=
  ∃ response, w.response asked = some response ∧ response.status_code < 400 ∧
    response.payload.head?.bind parse = some msg

/-- The request is taken, and a response that is no error has such a message. -/
structure Served (w : World) (asked : Asked) (parse : Bytes → Option M) (holds : M → Prop) : Prop where
  taken : w.taken asked = true
  message : ∀ response, w.response asked = some response → response.status_code < 400 →
    ∃ msg, response.payload.head?.bind parse = some msg ∧ holds msg

def Sound (w : World) : Prop :=
  w.Served .track w.messages.parse_track fun track =>
    track.Sound (w.country .track) ∧ (∃ artist ∈ track.artist, artist.has_gid = true) ∧
    w.Served .artist w.messages.parse_artist fun artist =>
      artist.Sound (w.country .artist) ∧
      w.Served .album w.messages.parse_album Protocol.Album.Sound

/-- The names are those of the track, of its first artist that has an id and of its
album, which are what is requested. -/
def Tells (w : World) (track_id : SpotifyId) (requested : List String) (scrobble : Scrobble) : Prop :=
  ∃ track artist album first artist_id album_id,
    w.Sent .track w.messages.parse_track track ∧
    w.Sent .artist w.messages.parse_artist artist ∧
    w.Sent .album w.messages.parse_album album ∧
    track.artist.find? (·.has_gid) = some first ∧
    SpotifyId.from_raw first.get_gid = some artist_id ∧
    SpotifyId.from_raw track.get_album.get_gid = some album_id ∧
    requested = [(Metadata.track w.messages).uri track_id, (Metadata.artist w.messages).uri artist_id,
      (Metadata.album w.messages).uri album_id] ∧
    scrobble = ⟨artist.get_name, track.get_name, album.get_name⟩

/-- However the lookup is polled, once the answers are there it has resolved, without a
panic, to an error or to a scrobble made of what they say. -/
def Clean (w : World) (track_id : SpotifyId) : Prop :=
  ∀ polls, ∃ requested result,
    w.get_track_meta track_id (polls ++ [fun _ => true]) = ⟨requested, some (some result)⟩ ∧
    ∀ scrobble, result = .ok scrobble → w.Tells track_id requested scrobble

variable {w : World} {metadata : Metadata M α} {asked : Asked} {id : SpotifyId}
  {after : α → Lookup.Ended} {requested : List String} {scrobble : Scrobble}

theorem received_eq (response : MercuryResponse) (country : String) :
    metadata.received response country =
      (response.payload.head?.bind metadata.parse_from_bytes).bind fun msg =>
        metadata.parse msg country := by
  unfold Metadata.received
  cases response.payload.head? <;> rfl

theorem settled_canceled (canceled : w.response asked = none) :
    w.settled metadata asked = some (.error {}) := by
  rw [settled, canceled]

theorem settled_refused {response : MercuryResponse} (sent : w.response asked = some response)
    (refused : ¬ response.status_code < 400) : w.settled metadata asked = some (.error {}) := by
  have large : response.status_code ≥ 400 := Int.not_lt.mp refused
  simp only [settled, sent, answer, if_pos large]

theorem settled_served {response : MercuryResponse} (sent : w.response asked = some response)
    (served : response.status_code < 400) : w.settled metadata asked =
      ((response.payload.head?.bind metadata.parse_from_bytes).bind fun msg =>
        metadata.parse msg (w.country asked)).map .ok := by
  have small : ¬ response.status_code ≥ 400 := Int.not_le.mpr served
  simp only [settled, sent, answer, if_neg small, received_eq]

theorem settled_ok {a : α} (settled : w.settled metadata asked = some (.ok a)) :
    ∃ msg, w.Sent asked metadata.parse_from_bytes msg ∧
      metadata.parse msg (w.country asked) = some a := by
  cases sent : w.response asked with
  | none =>
    rw [settled_canceled sent] at settled
    cases settled
  | some response =>
    by_cases served : response.status_code < 400
    · rw [settled_served sent served] at settled
      obtain ⟨b, received, same⟩ := Option.map_eq_some_iff.mp settled
      cases same
      obtain ⟨msg, parsed, read⟩ := Option.bind_eq_some_iff.mp received
      exact ⟨msg, ⟨response, sent, served, parsed⟩, read⟩
    · rw [settled_refused sent served] at settled
      cases settled

/-- One link of the chain returns exactly if it is served. -/
theorem get_returns {holds : M → Prop}
    (goes_on : ∀ msg, metadata.parse msg (w.country asked) ≠ none ∧
      (∀ a, metadata.parse msg (w.country asked) = some a → (after a).value ≠ none) ↔ holds msg) :
    (metadata.get (w.taken asked) id >>= fun _ =>
      Lookup.proceed (w.settled metadata asked) after).value ≠ none ↔
        w.Served asked metadata.parse_from_bytes holds := by
  cases taken : w.taken asked with
  | false =>
    refine iff_of_false (by simp [Metadata.get]) ?_
    intro served
    cases taken.symm.trans served.taken
  | true =>
    have same : w.Served asked metadata.parse_from_bytes holds ↔
        ∀ response, w.response asked = some response → response.status_code < 400 →
          ∃ msg, response.payload.head?.bind metadata.parse_from_bytes = some msg ∧ holds msg :=
      ⟨fun served => served.message, fun message => ⟨taken, message⟩⟩
    have started : (metadata.get true id >>= fun _ =>
        Lookup.proceed (w.settled metadata asked) after).value =
          (Lookup.proceed (w.settled metadata asked) after).value := rfl
    rw [same, started, Lookup.proceed]
    cases sent : w.response asked with
    | none =>
      rw [settled_canceled sent]
      simp
    | some response =>
      by_cases served : response.status_code < 400
      · rw [settled_served sent served]
        simp only [Option.some.injEq, forall_eq', served, true_implies]
        cases response.payload.head?.bind metadata.parse_from_bytes with
        | none => simp
        | some msg =>
          simp only [Option.bind_some, Option.some.injEq, exists_eq_left', ← goes_on msg]
          cases metadata.parse msg (w.country asked) with
          | none => simp
          | some a => simp
      · rw [settled_refused sent served]
        simp [served]

theorem album_returns (w : World) (id : SpotifyId) (track_name artist_name : String) :
    ((Metadata.album w.messages).get (w.taken .album) id >>= fun _ =>
      Lookup.album_outcome w track_name artist_name).value ≠ none ↔
        w.Served .album w.messages.parse_album Protocol.Album.Sound := by
  apply get_returns
  intro msg
  rw [← Album.parse_returns msg]
  refine and_iff_left ?_
  intro album _
  simp

theorem artist_returns (w : World) (id : SpotifyId) (track_name : String) (track_meta : Track) :
    ((Metadata.artist w.messages).get (w.taken .artist) id >>= fun _ =>
      Lookup.artist_outcome w track_name track_meta).value ≠ none ↔
        w.Served .artist w.messages.parse_artist fun artist =>
          artist.Sound (w.country .artist) ∧
          w.Served .album w.messages.parse_album Protocol.Album.Sound := by
  apply get_returns
  intro msg
  rw [← Artist.parse_returns msg]
  constructor
  · rintro ⟨parses, goes_on⟩
    obtain ⟨artist, parsed⟩ := Option.ne_none_iff_exists'.mp parses
    exact ⟨parses, (album_returns w _ track_name artist.name).mp (goes_on artist parsed)⟩
  · rintro ⟨parses, served⟩
    exact ⟨parses, fun artist _ => (album_returns w _ track_name artist.name).mpr served⟩

/-- The artist that is asked for is there exactly if some artist has an id. -/
theorem first_artist {msg : Protocol.Track} {country : String} {track : Track}
    (parsed : Track.parse msg country = some track) :
    track.artists.head? ≠ none ↔ ∃ artist ∈ msg.artist, artist.has_gid = true := by
  obtain ⟨by_artist, _, _⟩ := Track.parse_eq parsed
  have sound := ((Track.parse_returns msg country).mp (by rw [parsed]; simp)).artist
  rw [ids_head by_artist]
  constructor
  · intro there
    obtain ⟨id, found⟩ := Option.ne_none_iff_exists'.mp there
    obtain ⟨first, found, _⟩ := Option.bind_eq_some_iff.mp found
    exact ⟨first, List.mem_of_find?_eq_some found, List.find?_some found⟩
  · rintro ⟨artist, member, has⟩
    have found : (msg.artist.find? (·.has_gid)).isSome := List.find?_isSome.mpr ⟨artist, member, has⟩
    obtain ⟨first, found⟩ := Option.isSome_iff_exists.mp found
    rw [found, Option.bind_some, SpotifyId.from_raw_returns]
    exact sound first (List.mem_of_find?_eq_some found) (List.find?_some found)

theorem track_returns (w : World) (track_id : SpotifyId) :
    ((Metadata.track w.messages).get (w.taken .track) track_id >>= fun _ =>
      Lookup.track_outcome w).value ≠ none ↔ w.Sound := by
  apply get_returns
  intro msg
  rw [← Track.parse_returns msg]
  constructor
  · rintro ⟨parses, goes_on⟩
    obtain ⟨track, parsed⟩ := Option.ne_none_iff_exists'.mp parses
    obtain ⟨id, head, returns⟩ := Call.bind_goes_on.mp (goes_on track parsed)
    have first : track.artists.head? ≠ none := Option.ne_none_iff_exists'.mpr ⟨id, head⟩
    exact ⟨parses, (first_artist parsed).mp first, (artist_returns w id _ track).mp returns⟩
  · rintro ⟨parses, with_id, served⟩
    refine ⟨parses, ?_⟩
    intro track parsed
    obtain ⟨id, head⟩ := Option.ne_none_iff_exists'.mp ((first_artist parsed).mpr with_id)
    exact Call.bind_goes_on.mpr ⟨id, head, (artist_returns w id _ track).mpr served⟩

theorem proceed_ok {first : Option (Except MercuryError α)}
    (ended : Lookup.proceed first after = ⟨requested, some (.ok scrobble)⟩) :
    ∃ a, first = some (.ok a) ∧ after a = ⟨requested, some (.ok scrobble)⟩ := by
  match first with
  | none => cases ended
  | some (.error err) => cases ended
  | some (.ok a) => exact ⟨a, rfl, ended⟩

theorem get_ok {taken : Bool} {f : Unit → Lookup.Ended} {result : Except ScrobbleError Scrobble}
    (ended : metadata.get taken id >>= f = ⟨requested, some result⟩) :
    ∃ later, requested = metadata.uri id :: later ∧ f () = ⟨later, some result⟩ := by
  cases taken with
  | false => cases ended
  | true =>
    obtain ⟨returned, log⟩ : (f ()).value = some result ∧ metadata.uri id :: (f ()).log = requested :=
      ⟨congrArg Call.value ended, congrArg Call.log ended⟩
    exact ⟨(f ()).log, log.symm, by rw [← returned]⟩

theorem track_tells {track_id : SpotifyId}
    (ended : (Metadata.track w.messages).get (w.taken .track) track_id >>= (fun _ =>
      Lookup.track_outcome w) = ⟨requested, some (.ok scrobble)⟩) :
    w.Tells track_id requested scrobble := by
  obtain ⟨later, first_asked, by_track⟩ := get_ok ended
  obtain ⟨track, settled, by_head⟩ := proceed_ok by_track
  obtain ⟨track_msg, track_sent, track_parsed⟩ := settled_ok settled
  obtain ⟨artists, album_id, track_name⟩ := Track.parse_eq track_parsed
  cases head : track.artists.head? with
  | none =>
    rw [head] at by_head
    cases by_head
  | some artist_id =>
    rw [head] at by_head
    obtain ⟨first, found, artist_raw⟩ := Option.bind_eq_some_iff.mp ((ids_head artists).symm.trans head)
    obtain ⟨last, then_asked, by_artist⟩ := get_ok by_head
    obtain ⟨artist, settled, by_name⟩ := proceed_ok by_artist
    obtain ⟨artist_msg, artist_sent, artist_parsed⟩ := settled_ok settled
    obtain ⟨none, last_asked, by_album⟩ := get_ok by_name
    obtain ⟨album, settled, told⟩ := proceed_ok by_album
    obtain ⟨album_msg, album_sent, album_parsed⟩ := settled_ok settled
    cases told
    refine ⟨track_msg, artist_msg, album_msg, first, artist_id, track.album, track_sent, artist_sent,
      album_sent, found, artist_raw, album_id, ?_, ?_⟩
    · rw [first_asked, then_asked, last_asked]
    · rw [track_name, Artist.parse_name artist_parsed, Album.parse_name album_parsed]

theorem get_track_meta_outcome (w : World) (track_id : SpotifyId) (polls : List (Asked → Bool)) :
    w.get_track_meta track_id (polls ++ [fun _ => true]) =
      ((Metadata.track w.messages).get (w.taken .track) track_id >>= fun _ =>
        Lookup.track_outcome w) >>= fun result => return some result := by
  rw [Call.bind_assoc]
  apply Call.bind_congr
  intro _ _
  exact Lookup.await_outcome .track polls

/-- A lookup ends cleanly exactly if every response on its way is served. -/
theorem clean_iff_sound (w : World) (track_id : SpotifyId) : w.Clean track_id ↔ w.Sound := by
  rw [← track_returns w track_id]
  constructor
  · intro clean
    obtain ⟨requested, result, ended, _⟩ := clean []
    rw [get_track_meta_outcome] at ended
    obtain ⟨first, returned, _⟩ := Call.bind_returns.mp (congrArg Call.value ended)
    rw [returned]
    simp
  · intro returns polls
    obtain ⟨result, returned⟩ := Option.ne_none_iff_exists'.mp returns
    obtain ⟨requested, ended⟩ := Call.eq_of_returned returned
    refine ⟨requested, result, ?_, ?_⟩
    · rw [get_track_meta_outcome, ended]
      simp
    · rintro scrobble rfl
      exact track_tells ended

/-! Successful responses whose messages have no fields. -/

def bare : World where
  messages :=
    { parse_track := fun data => if data = [] then some ⟨none, none, none, [], [], [], []⟩ else none
      parse_artist := fun data => if data = [] then some ⟨none, none, []⟩ else none
      parse_album := fun data => if data = [] then some ⟨none, none, [], [], none⟩ else none }
  taken _ := true
  response _ := some ⟨"", 200, [[]]⟩
  country _ := "GB"

theorem bare_panics : ¬ bare.Clean ⟨.zero⟩ := by
  intro clean
  obtain ⟨requested, result, ended, _⟩ := clean []
  have panics : (bare.get_track_meta ⟨.zero⟩ [fun _ => true]).value = none := rfl
  rw [List.nil_append] at ended
  rw [ended] at panics
  cases panics

/-- An artist without an id is skipped, as here the first of two. -/
def named : World where
  messages :=
    { parse_track := fun data =>
        if data = [1] then
          some ⟨some (List.replicate 16 7), some "Atlas", some ⟨some (List.replicate 16 9)⟩,
            [⟨none⟩, ⟨some (List.replicate 16 8)⟩], [⟨some "GB", none, ["premium"]⟩], [], []⟩
        else none
      parse_artist := fun data =>
        if data = [2] then some ⟨some (List.replicate 16 8), some "Battles", []⟩ else none
      parse_album := fun data =>
        if data = [3] then some ⟨some (List.replicate 16 9), some "Mirrored", [], [], none⟩ else none }
  taken _ := true
  response
    | .track => some ⟨"", 200, [[1], [0]]⟩
    | .artist => some ⟨"", 200, [[2]]⟩
    | .album => some ⟨"", 200, [[3]]⟩
  country _ := "GB"

example : (named.get_track_meta ⟨.zero⟩ [fun _ => false, fun _ => true]).value =
    some (some (.ok ⟨"Battles", "Atlas", "Mirrored"⟩)) := by
  decide

end World

end ConnectScrobbler
