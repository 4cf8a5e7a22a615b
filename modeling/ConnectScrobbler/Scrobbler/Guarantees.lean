import ConnectScrobbler.Scrobbler.Simulation

/-! What the simulation gives for every run: a play is submitted at most once and
late enough, no qualifying play is lost, and what is sent is about the track
that is current when it is sent. -/
namespace ConnectScrobbler

open Scrobbler (Agrees)

theorem run_accepted (config : ScrobblerConfig) (answer : Except ScrobblerError Unit)
    (clock : Instant) (actions : List Action) :
    ∃ p, Call.observe Play.allow none (Listener.run config answer clock actions).log = some p := by
  obtain ⟨p, accepted, _⟩ := Listener.run_follows config answer clock actions
  exact ⟨p, accepted⟩

/-! A listener that hears a track for twenty-one seconds and then another one. -/

def song : Scrobble := ⟨"artist", "track", "album"⟩
def account : ScrobblerConfig := ⟨"key", "secret", "user", "password"⟩
def answering : Env := ⟨0, .ok (), .ok (), fun _ => some (.ok (.ready song)), true⟩
def first_track : SpotifyId := ⟨.from_parts 0 1⟩
def second_track : SpotifyId := ⟨.from_parts 0 2⟩
def first_play : List Action :=
  [.update_current_track answering first_track false, .poll answering]

/-- In every run, up to its first panic, a play is submitted at most once, and
more than twenty seconds after it began. -/
theorem submitted_once_and_late (config : ScrobblerConfig) (answer : Except ScrobblerError Unit)
    (clock : Instant) (actions : List Action) {log after span : List Effect}
    {track : SpotifyId} {start : Instant}
    (cut : (Listener.run config answer clock actions).log = log ++ after)
    (play : LatestPlay log track start span) :
    span.countP Effect.submits ≤ 1 ∧
    ∀ scrobble time answer, .send_scrobble scrobble time answer ∈ span →
      start + Duration.new 20 0 < time := by
  obtain ⟨last, accepted⟩ := run_accepted config answer clock actions
  rw [cut] at accepted
  obtain ⟨p, _, _, rfl, explains⟩ := play.explained accepted
  refine ⟨?_, fun scrobble time answer member => (explains.submission scrobble time answer member).2⟩
  rw [explains.counted]
  split <;> omega

def first_span : List Effect :=
  [.get_track_meta first_track, .fetched first_track (.ok song), .send_now_playing song (.ok ()),
    .polled (.ok .notReady), .send_scrobble song (Duration.new 21 0) (.ok ())]

theorem first_play_submitted_once : first_span.countP Effect.submits ≤ 1 ∧
    ∀ scrobble time answer, .send_scrobble scrobble time answer ∈ first_span →
      0 + Duration.new 20 0 < time :=
  @submitted_once_and_late account (.ok ()) 0
    (first_play ++ [.wait (Duration.new 21 0),
      .update_current_track answering second_track false]) _
    [.set_new_track second_track 21000000000] first_span first_track 0 rfl
    ⟨[.authenticate "user" "password" (.ok ())], rfl, by decide⟩

theorem Scrobbler.start_due_scrobble_returns (env : Env) (now : Instant) (s : Scrobbler) :
    ∃ t, (s.start_due_scrobble env now).value = some t := by
  rcases start_due_scrobble_cases env now s with ⟨same, _⟩ | ⟨_, _, _, sent⟩
  · exact ⟨s, by rw [same]⟩
  · exact ⟨_, by rw [sent]⟩

/-- The four fields of the track that is playing, as a new play has them. -/
structure Scrobbler.Plays (track_id : SpotifyId) (start : Instant) (s : Scrobbler) : Prop where
  id : s.current_track_id = some track_id
  start : s.current_track_start = some start
  metadata : s.current_track_meta = none
  scrobbled : s.current_track_scrobbled = false

/-- An update returns: it begins a new play or does nothing at all. -/
theorem Scrobbler.update_current_track_cases (env : Env) (now : Instant) (track_id : SpotifyId)
    (force_new_track : Bool) (s : Scrobbler) :
    (s.starts_play track_id force_new_track = true ∧ ∃ t,
      (s.update_current_track env now track_id force_new_track).value = some t ∧
        t.Plays track_id (now + env.busy)) ∨
    (s.starts_play track_id force_new_track = false ∧
      s.update_current_track env now track_id force_new_track = ⟨[], some s⟩) := by
  cases starts : s.starts_play track_id force_new_track with
  | true =>
    obtain ⟨due, submitted⟩ := start_due_scrobble_returns env now s
    have updated : (s.update_current_track env now track_id force_new_track).value =
        some { due with
          current_track_id := some track_id
          current_track_start := some (now + env.busy)
          current_track_meta := none
          current_track_scrobbled := false
          new_track_future := .result (.ok ()) } := by
      rw [update_current_track, if_pos starts]
      exact Call.bind_returns.mpr ⟨due, submitted, rfl⟩
    exact .inl ⟨rfl, _, updated, ⟨rfl, rfl, rfl, rfl⟩⟩
  | false =>
    right
    rw [update_current_track, starts]
    exact ⟨rfl, rfl⟩

theorem Scrobbler.Agrees.due_submitted (env : Env) {now start : Instant} {s : Scrobbler}
    {p : Option Play} {scrobble : Scrobble} (h : s.Agrees p) (known : s.current_track_meta = some scrobble)
    (begun : s.current_track_start = some start) (late : start + Duration.new 20 0 < now)
    (unfailed : s.scrobble_future ≠ some .resolved) :
    Call.Follows Play.allow p (s.start_due_scrobble env now) fun _ p' =>
      ∃ q, p' = some q ∧ q.submitted = true ∧ q.start = start ∧ q.metadata = some scrobble := by
  obtain ⟨q, rfl⟩ : ∃ q, p = some q := by
    cases p with
    | none => rw [h.start] at begun; cases begun
    | some q => exact ⟨q, rfl⟩
  have same : q.start = start := Option.some.inj (h.start.symm.trans begun)
  have metadata : q.metadata = some scrobble := h.metadata.symm.trans known
  refine Call.follows_weaken (start_due_scrobble_follows h) fun s' p' post => ?_
  rcases post with ⟨_, rfl, refused⟩ | ⟨q', hq, _, rfl, _⟩
  · refine ⟨q, rfl, ?_, same, metadata⟩
    -- refused although it is late: the flag is set, since no future can be left over
    have free : s.scrobble_future = none := by
      cases held : s.scrobble_future with
      | none => rfl
      | some f =>
        rcases h.scrobble_future f held with rfl | ⟨_, ready⟩
        · exact absurd held unfailed
        · rw [h.settled known] at ready
          cases ready
    have flag : s.current_track_scrobbled = true := by
      rcases refused with refused | unknown
      · cases set : s.current_track_scrobbled with
        | true => rfl
        | false =>
          rw [can_scrobble_track_iff.mpr ⟨set, free, start, begun, late⟩] at refused
          cases refused
      · rw [known] at unknown
        cases unknown
    rcases h.scrobbled flag with ready | ⟨r, hr, submitted⟩
    · rw [h.settled known] at ready
      cases ready
    · cases hr
      exact submitted
  · cases hq
    exact ⟨_, rfl, rfl, same, metadata⟩

theorem Play.metadata_kept {span : List Effect} {p q : Play} {scrobble : Scrobble}
    (accepted : Call.observe Play.allow (some p) span = some (some q))
    (same_play : ∀ e ∈ span, e.begins_play = false) (known : p.metadata = some scrobble) :
    q.metadata = some scrobble := by
  induction span generalizing p with
  | nil => cases accepted; exact known
  | cons e span ih =>
    obtain ⟨next, taken, rest⟩ := Option.bind_eq_some_iff.mp accepted
    obtain ⟨r, rfl⟩ := allow_some taken
    have later : ∀ e ∈ span, e.begins_play = false := fun x hx => same_play x (.tail _ hx)
    rcases Play.allow_cases taken with ⟨_, _, rfl, _⟩ | ⟨p', same, _, step⟩
    · cases same_play _ (.head _)
    · cases same
      rcases step with ⟨rfl, _⟩ | ⟨_, _, unknown, _⟩ | ⟨_, _, _, _, _, _, _, rfl⟩
      · exact ih rest later known
      · rw [known] at unknown
        cases unknown
      · exact ih rest later known

theorem Listener.update_log {w : Listener} (env : Env) {track_id : SpotifyId}
    {force_new_track : Bool} (starts : w.scrobbler.starts_play track_id force_new_track = true)
    {s : Scrobbler} (due : (w.scrobbler.start_due_scrobble env w.clock).value = some s) :
    ∃ w', w.step (.update_current_track env track_id force_new_track) =
      ⟨(w.scrobbler.start_due_scrobble env w.clock).log ++
        [.set_new_track track_id (w.clock + env.busy)], some w'⟩ := by
  simp only [step, Scrobbler.update_current_track, if_pos starts]
  generalize w.scrobbler.start_due_scrobble env w.clock = call at due ⊢
  obtain ⟨log, value⟩ := call
  cases due
  exact ⟨_, by simp [Scrobbler.set_new_track]; rfl⟩

/-- In every state a run reaches, the metadata held is what the fetch for the
current track gave; and what is submitted or announced is what the fetch for the
track then current gave, during that same play. -/
theorem metadata_is_current (config : ScrobblerConfig) (answer : Except ScrobblerError Unit)
    (clock : Instant) (actions : List Action) :
    (∀ w scrobble, (Listener.run config answer clock actions).value = some w →
      w.scrobbler.current_track_meta = some scrobble →
      ∃ id, w.scrobbler.current_track_id = some id ∧
        .fetched id (.ok scrobble) ∈ (Listener.run config answer clock actions).log) ∧
    ∀ before e after scrobble, (Listener.run config answer clock actions).log = before ++ e :: after →
      e.sends scrobble = true → ∃ id start span, LatestPlay before id start span ∧
        .fetched id (.ok scrobble) ∈ span := by
  constructor
  · intro w scrobble reached held
    obtain ⟨p, accepted, agrees, _⟩ := Listener.reached_agrees reached
    obtain ⟨q, rfl, known⟩ : ∃ q, p = some q ∧ q.metadata = some scrobble :=
      Option.bind_eq_some_iff.mp (agrees.metadata.symm.trans held)
    obtain ⟨span, ⟨begun, equal, _⟩, explains⟩ := Play.explained accepted
    refine ⟨q.track, agrees.track, ?_⟩
    rw [equal]
    exact List.mem_append_right _ (.tail _ (explains.metadata scrobble known))
  · intro before e after scrobble cut sends
    obtain ⟨last, accepted⟩ := run_accepted config answer clock actions
    rw [cut] at accepted
    obtain ⟨p, next, reached, taken, _⟩ := Call.observe_at accepted
    obtain ⟨q, rfl, known⟩ := Play.sends_known taken sends
    obtain ⟨span, play, explains⟩ := Play.explained reached
    exact ⟨q.track, q.start, span, play, explains.metadata scrobble known⟩

theorem first_play_current :
    ∃ id, some first_track = some id ∧
      .fetched id (.ok song) ∈ (Listener.run account (.ok ()) 0 first_play).log :=
  (metadata_is_current account (.ok ()) 0 first_play).1 _ song rfl rfl

/-- No qualifying play is lost. Metadata was stored for the play in some state of
the run, the play still goes on, and twenty seconds are over when an update
starts the next play: by the end of that call the play has been submitted. -/
theorem qualifying_play_submitted (config : ScrobblerConfig) (answer : Except ScrobblerError Unit)
    (clock : Instant) {earlier later : List Action} {v w : Listener} {scrobble : Scrobble}
    {start : Instant} (env : Env) {track_id : SpotifyId} {force_new_track : Bool}
    (stored_at : (Listener.run config answer clock earlier).value = some v)
    (stored : v.scrobbler.current_track_meta = some scrobble)
    (reached : (Call.run Listener.step v later).value = some w)
    (same_play : ∀ e ∈ (Call.run Listener.step v later).log, e.begins_play = false)
    (no_error : .polled (.error ()) ∉ (Listener.run config answer clock (earlier ++ later)).log)
    (begun : w.scrobbler.current_track_start = some start)
    (late : start + Duration.new 20 0 < w.clock)
    (starts : w.scrobbler.starts_play track_id force_new_track = true) :
    ∃ w' first log span track time sent,
      w.step (.update_current_track env track_id force_new_track) =
        ⟨first ++ [.set_new_track track_id (w.clock + env.busy)], some w'⟩ ∧
      log = (Listener.run config answer clock (earlier ++ later)).log ++ first ∧
      LatestPlay log track start span ∧ .send_scrobble scrobble time sent ∈ span := by
  have full : Listener.run config answer clock (earlier ++ later) =
      ⟨(Listener.run config answer clock earlier).log ++ (Call.run Listener.step v later).log,
        some w⟩ := by
    rw [Listener.run_append, ← reached]
    generalize Listener.run config answer clock earlier = call at stored_at ⊢
    obtain ⟨log, value⟩ := call
    cases stored_at
    rfl
  -- the play that holds the metadata at `v` is the one that goes on at `w`
  obtain ⟨pv, accepted_v, agrees_v, _⟩ := Listener.reached_agrees stored_at
  have reached_w : (Listener.run config answer clock (earlier ++ later)).value = some w := by
    rw [full]
  obtain ⟨pw, accepted_w, agrees_w, unfailed⟩ := Listener.reached_agrees reached_w
  obtain ⟨p, rfl, known_v⟩ : ∃ p, pv = some p ∧ p.metadata = some scrobble :=
    Option.bind_eq_some_iff.mp (agrees_v.metadata.symm.trans stored)
  have along : Call.observe Play.allow (some p) (Call.run Listener.step v later).log = some pw := by
    rw [full, Call.observe_append, accepted_v] at accepted_w
    exact accepted_w
  obtain ⟨r, rfl⟩ := Play.observe_some along
  have known : w.scrobbler.current_track_meta = some scrobble :=
    agrees_w.metadata.trans (Play.metadata_kept along same_play known_v)
  -- so what is due is submitted in this call, or has been before
  obtain ⟨s, due⟩ := Scrobbler.start_due_scrobble_returns env w.clock w.scrobbler
  obtain ⟨w', call⟩ := Listener.update_log env starts due
  obtain ⟨_, accepted, q, rfl, submitted, same_start, metadata⟩ :=
    (agrees_w.due_submitted env known begun late (unfailed no_error)).returned due
  have observed : Call.observe Play.allow none
      ((Listener.run config answer clock (earlier ++ later)).log ++
        (w.scrobbler.start_due_scrobble env w.clock).log) = some (some q) := by
    rw [Call.observe_append, accepted_w]
    exact accepted
  obtain ⟨span, play, explains⟩ := Play.explained observed
  obtain ⟨e, member, submits⟩ : ∃ e ∈ span, e.submits = true := by
    apply List.countP_pos_iff.mp
    rw [explains.counted, submitted]
    decide
  cases e with
  | send_scrobble sent_scrobble time sent =>
    have same : q.metadata = some sent_scrobble := (explains.submission _ _ _ member).1
    rw [metadata] at same
    cases same
    exact ⟨w', _, _, span, q.track, time, sent, call, rfl, same_start ▸ play, member⟩
  | _ => cases submits

def first_heard : Scrobbler :=
  ⟨account, some first_track, some 0, some song, false, .empty, .empty, .empty, .empty, none⟩

theorem first_play_qualifies :
    ∃ w' first log span track time sent,
      (⟨first_heard, Duration.new 21 0⟩ : Listener).step (.update_current_track answering second_track false) =
        ⟨first ++ [.set_new_track second_track (Duration.new 21 0 + 0)], some w'⟩ ∧
      log = (Listener.run account (.ok ()) 0 (first_play ++ [.wait (Duration.new 21 0)])).log ++
        first ∧
      LatestPlay log track 0 span ∧ .send_scrobble song time sent ∈ span :=
  @qualifying_play_submitted account (.ok ()) 0 first_play [.wait (Duration.new 21 0)]
    ⟨first_heard, 0⟩ ⟨first_heard, Duration.new 21 0⟩ song 0 answering second_track false
    rfl rfl rfl (by decide) (by decide) rfl (by decide) rfl

end ConnectScrobbler
