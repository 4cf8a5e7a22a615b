import ConnectScrobbler.Metadata

/-! Which messages are parsed without a panic. -/
namespace ConnectScrobbler

section Returns

variable {α β : Type}

theorem bind_returns {x : Option α} {f : α → Option β} {rest : Prop}
    (later : ∀ a, x = some a → (f a ≠ none ↔ rest)) : (x >>= f) ≠ none ↔ x ≠ none ∧ rest := by
  cases x with
  | none => simp
  | some a =>
    rw [Option.bind_eq_bind, Option.bind_some, later a rfl]
    simp

theorem map_returns (x : Option α) (f : α → β) :
    (x >>= fun a => pure (f a)) ≠ none ↔ x ≠ none := by
  cases x <;> simp

theorem mapM_returns (f : α → Option β) (xs : List α) :
    xs.mapM f ≠ none ↔ ∀ x ∈ xs, f x ≠ none := by
  induction xs with
  | nil => simp
  | cons x xs ih =>
    rw [List.mapM_cons, List.forall_mem_cons, ← ih]
    apply bind_returns
    intro y _
    exact map_returns _ _

theorem filter_mapM_returns (p : α → Bool) (f : α → Option β) (xs : List α) :
    (xs.filter p).mapM f ≠ none ↔ ∀ x ∈ xs, p x = true → f x ≠ none := by
  rw [mapM_returns]
  simp only [List.mem_filter, and_imp]

end Returns

theorem FileId.clone_from_slice_returns (src : Bytes) :
    clone_from_slice src ≠ none ↔ src.length = 20 := by
  unfold clone_from_slice
  split <;> simp [*]

theorem ids_returns (msgs : List Protocol.Nested) :
    ids msgs ≠ none ↔ ∀ msg ∈ msgs, msg.has_gid = true → msg.get_gid.length = 16 := by
  simp only [ids, filter_mapM_returns, SpotifyId.from_raw_returns]

/-- A list of countries is read to its end, or to the country that is looked for. -/
def Readable (list country : String) : Prop :=
  StrChunks.Cuts (fun cc => cc = country.toList) 2 list.toList

theorem countrylist_contains_returns (list country : String) :
    countrylist_contains list country ≠ none ↔ Readable list country :=
  StrChunks.any_returns (by decide) (Nat.lt_succ_self _)

/-- The countries that are allowed are only read if this one is not forbidden. -/
structure Restricted.Readable (s : Restricted) (country : String) : Prop where
  forbidden : s.has_forbidden = true → ConnectScrobbler.Readable s.forbidden country
  allowed : s.has_allowed = true →
    (s.has_forbidden = true → countrylist_contains s.forbidden country = some false) →
    ConnectScrobbler.Readable s.allowed country

theorem Restricted.available_returns (s : Restricted) (country : String) :
    s.available country ≠ none ↔ s.Readable country := by
  have same : s.Readable country ↔
      (s.has_forbidden = true → countrylist_contains s.forbidden country ≠ none) ∧
      (s.has_allowed = true →
        (s.has_forbidden = true → countrylist_contains s.forbidden country = some false) →
        countrylist_contains s.allowed country ≠ none) := by
    simp only [countrylist_contains_returns]
    exact ⟨fun h => ⟨h.forbidden, h.allowed⟩, fun h => ⟨h.1, h.2⟩⟩
  rw [same, available]
  generalize countrylist_contains s.forbidden country = forbidden
  generalize countrylist_contains s.allowed country = allowed
  cases s.has_forbidden <;> cases s.has_allowed
  · simp
  · simp
  · cases forbidden with
    | none => simp
    | some listed => cases listed <;> simp
  · cases forbidden with
    | none => simp
    | some listed => cases listed <;> simp

namespace Protocol

structure Track.Sound (msg : Track) (country : String) : Prop where
  gid : msg.get_gid.length = 16
  album : msg.get_album.get_gid.length = 16
  artist : ∀ artist ∈ msg.artist, artist.has_gid = true → artist.get_gid.length = 16
  file : ∀ file ∈ msg.file, file.has_file_id = true → file.get_file_id.length = 20
  alternative : ∀ alt ∈ msg.alternative, alt.get_gid.length = 16
  restriction : (Restricted.collect msg.restriction "premium").Readable country

structure Album.Sound (msg : Album) : Prop where
  gid : msg.get_gid.length = 16
  artist : ∀ artist ∈ msg.artist, artist.has_gid = true → artist.get_gid.length = 16
  track : ∀ disc ∈ msg.disc, ∀ track ∈ disc.track, track.has_gid = true → track.get_gid.length = 16
  cover : ∀ image ∈ msg.get_cover_group.image, image.has_file_id = true →
    image.get_file_id.length = 20

end Protocol

theorem Track.parse_returns (msg : Protocol.Track) (country : String) :
    Track.parse msg country ≠ none ↔ msg.Sound country := by
  unfold parse
  refine (bind_returns fun artists _ => bind_returns fun files _ => bind_returns fun id _ =>
    bind_returns fun album _ => bind_returns fun alternatives _ => map_returns _ _).trans ?_
  have file : ∀ file : Protocol.AudioFile, (do
      let dst ← FileId.clone_from_slice file.get_file_id
      return (file.get_format, dst)) ≠ none ↔ file.get_file_id.length = 20 := by
    intro file
    rw [← FileId.clone_from_slice_returns]
    exact map_returns _ _
  rw [ids_returns, filter_mapM_returns, mapM_returns]
  simp only [file, SpotifyId.from_raw_returns, parse_restrictions, Restricted.available_returns]
  constructor
  · rintro ⟨artist, file, gid, album, alternative, restriction⟩
    exact ⟨gid, album, artist, file, alternative, restriction⟩
  · rintro ⟨gid, album, artist, file, alternative, restriction⟩
    exact ⟨artist, file, gid, album, alternative, restriction⟩

theorem Album.parse_returns (msg : Protocol.Album) : Album.parse msg ≠ none ↔ msg.Sound := by
  unfold parse
  refine (bind_returns fun artists _ => bind_returns fun tracks _ => bind_returns fun covers _ =>
    map_returns _ _).trans ?_
  rw [ids_returns, ids_returns, filter_mapM_returns]
  simp only [FileId.clone_from_slice_returns, SpotifyId.from_raw_returns, List.mem_flatMap]
  constructor
  · rintro ⟨artist, track, cover, gid⟩
    refine ⟨gid, artist, ?_, cover⟩
    intro disc there t member
    exact track t ⟨disc, there, member⟩
  · rintro ⟨gid, artist, track, cover⟩
    refine ⟨artist, ?_, cover, gid⟩
    rintro t ⟨disc, there, member⟩
    exact track disc there t member

/-- The first id is that of the first message that has one. -/
theorem ids_head {msgs : List Protocol.Nested} {found : List SpotifyId} (parsed : ids msgs = some found) :
    found.head? = (msgs.find? (·.has_gid)).bind fun msg => SpotifyId.from_raw msg.get_gid := by
  rw [← List.head?_filter]
  rw [ids] at parsed
  cases with_id : msgs.filter (·.has_gid) with
  | nil =>
    rw [with_id] at parsed
    cases parsed
    rfl
  | cons first rest =>
    rw [with_id, List.mapM_cons] at parsed
    obtain ⟨id, raw, later⟩ := Option.bind_eq_some_iff.mp parsed
    obtain ⟨ids, _, whole⟩ := Option.bind_eq_some_iff.mp later
    cases whole
    exact raw.symm

theorem Track.parse_eq {msg : Protocol.Track} {country : String} {track : Track}
    (parsed : parse msg country = some track) : ids msg.artist = some track.artists ∧
      SpotifyId.from_raw msg.get_album.get_gid = some track.album ∧ track.name = msg.get_name := by
  unfold parse at parsed
  simp only [Option.bind_eq_bind, Option.bind_eq_some_iff] at parsed
  obtain ⟨artists, by_artist, _, _, _, _, album, by_album, _, _, _, _, whole⟩ := parsed
  cases whole
  exact ⟨by_artist, by_album, rfl⟩

theorem Album.parse_name {msg : Protocol.Album} {album : Album} (parsed : parse msg = some album) :
    album.name = msg.get_name := by
  unfold parse at parsed
  simp only [Option.bind_eq_bind, Option.bind_eq_some_iff] at parsed
  obtain ⟨_, _, _, _, _, _, _, _, whole⟩ := parsed
  cases whole
  rfl

namespace Protocol

/-- Top tracks for every country or for this one. -/
def TopTracks.Here (country : String) (tt : TopTracks) : Prop :=
  tt.has_country = true → countrylist_contains tt.get_country country = some true

def TopTracks.Elsewhere (country : String) (tt : TopTracks) : Prop :=
  tt.has_country = true ∧ countrylist_contains tt.get_country country = some false

theorem TopTracks.Elsewhere.not_here {country : String} {tt : TopTracks} (h : tt.Elsewhere country) :
    ¬ tt.Here country := by
  intro here
  cases h.2.symm.trans (here h.1)

theorem TopTracks.cases (country : String) (tt : TopTracks) :
    tt.Here country ∨ tt.Elsewhere country ∨
      tt.has_country = true ∧ countrylist_contains tt.get_country country = none := by
  unfold Here Elsewhere
  cases tt.has_country with
  | false => simp
  | true =>
    cases countrylist_contains tt.get_country country with
    | none => simp
    | some listed => cases listed <;> simp

/-- The search comes to these top tracks: all before are for other countries. -/
def Reached (country : String) (msgs : List TopTracks) (tt : TopTracks) : Prop :=
  ∃ before after, msgs = before ++ tt :: after ∧ ∀ other ∈ before, other.Elsewhere country

theorem reached_nil {country : String} {tt : TopTracks} : ¬ Reached country [] tt := by
  rintro ⟨before, after, whole, _⟩
  cases before <;> cases whole

theorem reached_cons {country : String} {first tt : TopTracks} {rest : List TopTracks} :
    Reached country (first :: rest) tt ↔
      first = tt ∨ first.Elsewhere country ∧ Reached country rest tt := by
  constructor
  · rintro ⟨before, after, whole, others⟩
    cases before with
    | nil => exact .inl (List.cons.inj whole).1
    | cons other before =>
      obtain ⟨rfl, rfl⟩ := List.cons.inj whole
      obtain ⟨elsewhere, later⟩ := List.forall_mem_cons.mp others
      exact .inr ⟨elsewhere, before, after, rfl, later⟩
  · rintro (rfl | ⟨elsewhere, before, after, rfl, others⟩)
    · exact ⟨[], rest, rfl, by simp⟩
    · exact ⟨first :: before, after, rfl, List.forall_mem_cons.mpr ⟨elsewhere, others⟩⟩

/-- The lists of countries that are looked at are read, and those top tracks that are
found have ids of their tracks. -/
structure Artist.Sound (msg : Artist) (country : String) : Prop where
  gid : msg.get_gid.length = 16
  countries : ∀ tt, Reached country msg.top_track tt → tt.has_country = true →
    Readable tt.get_country country
  track : ∀ tt, Reached country msg.top_track tt → tt.Here country →
    ∀ track ∈ tt.track, track.has_gid = true → track.get_gid.length = 16

end Protocol

section Search

open Protocol (TopTracks Reached reached_nil reached_cons)

variable {country : String} {first tt : TopTracks} {rest : List TopTracks}

theorem find_top_tracks_here (here : first.Here country) :
    find_top_tracks country (first :: rest) = some (some first) := by
  rw [find_top_tracks]
  unfold TopTracks.Here at here
  cases everywhere : first.has_country with
  | false => rfl
  | true => simp [here everywhere]

theorem find_top_tracks_elsewhere (elsewhere : first.Elsewhere country) :
    find_top_tracks country (first :: rest) = find_top_tracks country rest := by
  rw [find_top_tracks, elsewhere.1, elsewhere.2]
  rfl

theorem find_top_tracks_unreadable (has : first.has_country = true)
    (panics : countrylist_contains first.get_country country = none) :
    find_top_tracks country (first :: rest) = none := by
  rw [find_top_tracks, has, panics]
  rfl

theorem find_top_tracks_returns (country : String) (msgs : List TopTracks) :
    find_top_tracks country msgs ≠ none ↔
      ∀ tt, Reached country msgs tt → tt.has_country = true → Readable tt.get_country country := by
  induction msgs with
  | nil => exact iff_of_true (by simp [find_top_tracks]) fun tt reached => absurd reached reached_nil
  | cons first rest ih =>
    have read := countrylist_contains_returns first.get_country country
    simp only [reached_cons]
    rcases first.cases country with here | elsewhere | ⟨has, panics⟩
    · rw [find_top_tracks_here here]
      refine iff_of_true (by simp) ?_
      rintro tt (rfl | ⟨elsewhere, _⟩) has
      · exact read.mp (by rw [here has]; simp)
      · exact absurd here elsewhere.not_here
    · rw [find_top_tracks_elsewhere elsewhere, ih]
      constructor
      · rintro later tt (rfl | ⟨_, reached⟩) has
        · exact read.mp (by rw [elsewhere.2]; simp)
        · exact later tt reached has
      · intro all tt reached has
        exact all tt (.inr ⟨elsewhere, reached⟩) has
    · rw [find_top_tracks_unreadable has panics]
      refine iff_of_false (by simp) ?_
      intro readable
      exact read.mpr (readable first (.inl rfl) has) panics

theorem find_top_tracks_found {msgs : List TopTracks} :
    find_top_tracks country msgs = some (some tt) ↔ Reached country msgs tt ∧ tt.Here country := by
  induction msgs with
  | nil => exact iff_of_false (by simp [find_top_tracks]) fun found => reached_nil found.1
  | cons first rest ih =>
    rw [reached_cons]
    rcases first.cases country with here | elsewhere | ⟨has, panics⟩
    · rw [find_top_tracks_here here]
      constructor
      · rintro ⟨⟩
        exact ⟨.inl rfl, here⟩
      · rintro ⟨rfl | ⟨elsewhere, _⟩, _⟩
        · rfl
        · exact absurd here elsewhere.not_here
    · rw [find_top_tracks_elsewhere elsewhere, ih]
      constructor
      · rintro ⟨reached, here⟩
        exact ⟨.inr ⟨elsewhere, reached⟩, here⟩
      · rintro ⟨rfl | ⟨_, reached⟩, here⟩
        · exact absurd here elsewhere.not_here
        · exact ⟨reached, here⟩
    · rw [find_top_tracks_unreadable has panics]
      refine iff_of_false (by simp) ?_
      rintro ⟨rfl | ⟨elsewhere, _⟩, here⟩
      · cases panics.symm.trans (here has)
      · cases panics.symm.trans elsewhere.2

end Search

theorem Artist.parse_returns (msg : Protocol.Artist) (country : String) :
    Artist.parse msg country ≠ none ↔ msg.Sound country := by
  have tracks : ∀ found, find_top_tracks country msg.top_track = some found →
      (ids ((found.map (·.track)).getD []) ≠ none ↔
        ∀ tt, Protocol.Reached country msg.top_track tt → tt.Here country →
          ∀ track ∈ tt.track, track.has_gid = true → track.get_gid.length = 16) := by
    intro found same
    rw [ids_returns]
    cases found with
    | none =>
      refine iff_of_true (by simp) ?_
      intro tt reached here
      cases same.symm.trans (find_top_tracks_found.mpr ⟨reached, here⟩)
    | some first =>
      constructor
      · intro sound tt reached here
        cases same.symm.trans (find_top_tracks_found.mpr ⟨reached, here⟩)
        exact sound
      · intro sound
        obtain ⟨reached, here⟩ := find_top_tracks_found.mp same
        exact sound first reached here
  unfold parse
  refine (@bind_returns _ _ (find_top_tracks country msg.top_track) _
    ((∀ tt, Protocol.Reached country msg.top_track tt → tt.Here country →
      ∀ track ∈ tt.track, track.has_gid = true → track.get_gid.length = 16) ∧
    msg.get_gid.length = 16) ?_).trans ?_
  · intro found same
    rw [← tracks found same, ← SpotifyId.from_raw_returns]
    cases found <;> exact bind_returns fun ids _ => map_returns _ _
  · rw [find_top_tracks_returns]
    constructor
    · rintro ⟨countries, track, gid⟩
      exact ⟨gid, countries, track⟩
    · rintro ⟨gid, countries, track⟩
      exact ⟨countries, track, gid⟩

theorem Artist.parse_name {msg : Protocol.Artist} {country : String} {artist : Artist}
    (parsed : parse msg country = some artist) : artist.name = msg.get_name := by
  unfold parse at parsed
  obtain ⟨found, _, later⟩ := Option.bind_eq_some_iff.mp parsed
  cases found with
  | none =>
    obtain ⟨_, _, with_id⟩ := Option.bind_eq_some_iff.mp later
    obtain ⟨_, _, whole⟩ := Option.bind_eq_some_iff.mp with_id
    cases whole
    rfl
  | some tracks =>
    obtain ⟨_, _, with_id⟩ := Option.bind_eq_some_iff.mp later
    obtain ⟨_, _, whole⟩ := Option.bind_eq_some_iff.mp with_id
    cases whole
    rfl

end ConnectScrobbler
