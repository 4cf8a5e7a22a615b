import ConnectScrobbler.Scrobbler.Play

/-! The scrobbler simulates the play: `Agrees` ties the future slots, the flag
and the current track to the play, and every call keeps it while writing only
effects the play allows. -/
namespace ConnectScrobbler
namespace Scrobbler

open Call (Follows)

/-- The slots next to the play. A finished submission future is left behind only
by a failed one; an unpolled one is left over from the play before, and then the
new track is still to be taken up. That is why the flag it sets does no harm. -/
structure Agrees (s : Scrobbler) (p : Option Play) : Prop where
  track : s.current_track_id = p.map Play.track
  start : s.current_track_start = p.map Play.start
  metadata : s.current_track_meta = p.bind Play.metadata
  new_track : s.new_track_future = .empty ∨
    s.new_track_future = .result (.ok ()) ∧ s.current_track_id ≠ none ∧ s.current_track_meta = none
  meta_fetch : s.meta_fetch_future = .empty ∨ s.meta_fetch_future = .resolved ∨
    ∃ id, s.meta_fetch_future = .task id ∧ (s.new_track_future = .empty →
      s.current_track_id = some id ∧ s.current_track_meta = none)
  scrobble_future : ∀ f, s.scrobble_future = some f → f = .resolved ∨
    (∃ r, f = .result r) ∧ s.new_track_future = .result (.ok ())
  submitted : ∀ q, p = some q → q.submitted = true → s.current_track_meta ≠ none ∧
    (s.current_track_scrobbled = true ∨ s.scrobble_future = some .resolved)
  scrobbled : s.current_track_scrobbled = true → s.new_track_future = .result (.ok ()) ∨
    ∃ q, p = some q ∧ q.submitted = true

theorem Agrees.settled {s : Scrobbler} {p : Option Play} (h : s.Agrees p) {scrobble : Scrobble}
    (known : s.current_track_meta = some scrobble) : s.new_track_future = .empty := by
  rcases h.new_track with empty | ⟨_, _, unknown⟩
  · exact empty
  · rw [known] at unknown
    cases unknown

theorem Agrees.unsubmitted {s : Scrobbler} {q : Play} (h : s.Agrees (some q))
    (flag : s.current_track_scrobbled = false) (free : s.scrobble_future = none) :
    q.submitted = false := by
  cases hq : q.submitted with
  | false => rfl
  | true =>
    rcases (h.submitted q rfl hq).2 with set | resolved
    · rw [flag] at set
      cases set
    · rw [free] at resolved
      cases resolved

theorem can_scrobble_track_iff {now : Instant} {s : Scrobbler} :
    s.can_scrobble_track now = true ↔ s.current_track_scrobbled = false ∧
      s.scrobble_future = none ∧
      ∃ start, s.current_track_start = some start ∧ start + Duration.new 20 0 < now := by
  unfold can_scrobble_track
  cases s.current_track_scrobbled <;> cases s.scrobble_future <;> cases s.current_track_start <;>
    simp
  exact Nat.lt_sub_iff_add_lt'

theorem start_due_scrobble_cases (env : Env) (now : Instant) (s : Scrobbler) :
    (s.start_due_scrobble env now = ⟨[], some s⟩ ∧
      (s.can_scrobble_track now = false ∨ s.current_track_meta = none)) ∨
    ∃ scrobble, s.can_scrobble_track now = true ∧ s.current_track_meta = some scrobble ∧
      s.start_due_scrobble env now = ⟨[.send_scrobble scrobble now env.scrobble],
        some { s with scrobble_future := some (submitted env.scrobble) }⟩ := by
  unfold start_due_scrobble
  cases can : s.can_scrobble_track now with
  | false => exact .inl ⟨rfl, .inl rfl⟩
  | true =>
    obtain ⟨_, free, _⟩ := can_scrobble_track_iff.mp can
    unfold start_scrobble
    cases known : s.current_track_meta with
    | none =>
      have same : { s with current_track_meta := none, scrobble_future := none } = s := by
        rw [← free, ← known]
      exact .inl ⟨congrArg pure same, .inr rfl⟩
    | some scrobble => exact .inr ⟨scrobble, rfl, rfl, rfl⟩

/-- Either nothing is submitted and nothing changes, or the play is, for the first time. -/
theorem start_due_scrobble_follows {env : Env} {now : Instant} {s : Scrobbler} {p : Option Play}
    (h : s.Agrees p) : Follows Play.allow p (s.start_due_scrobble env now) fun s' p' =>
      (s' = s ∧ p' = p ∧ (s.can_scrobble_track now = false ∨ s.current_track_meta = none)) ∨
      ∃ q, p = some q ∧ q.metadata ≠ none ∧ p' = some { q with submitted := true } ∧
        s' = { s with scrobble_future := some (submitted env.scrobble) } := by
  rcases start_due_scrobble_cases env now s with ⟨same, cannot⟩ | ⟨scrobble, can, known, sent⟩
  · rw [same]
    exact Call.follows_pure (.inl ⟨rfl, rfl, cannot⟩)
  · obtain ⟨flag, free, start, started, late⟩ := can_scrobble_track_iff.mp can
    cases p with
    | none =>
      rw [h.start] at started
      cases started
    | some q =>
      have same : q.start = start := Option.some.inj (h.start.symm.trans started)
      have metadata : q.metadata = some scrobble := h.metadata.symm.trans known
      have taken : Play.allow (some q) (.send_scrobble scrobble now env.scrobble) =
          some (some { q with submitted := true }) :=
        if_pos ⟨metadata, h.unsubmitted flag free, same ▸ late⟩
      rw [sent]
      refine ⟨_, Call.observe_singleton taken, ?_⟩
      rintro _ ⟨⟩
      exact .inr ⟨q, rfl, by simp [metadata], rfl, rfl⟩

theorem set_new_track_follows {s : Scrobbler} {p : Option Play} {now : Instant}
    {track_id : SpotifyId}
    (fetch : s.meta_fetch_future = .empty ∨ s.meta_fetch_future = .resolved ∨
      ∃ id, s.meta_fetch_future = .task id)
    (scrobble : ∀ f, s.scrobble_future = some f → f = .resolved ∨ ∃ r, f = .result r) :
    Follows Play.allow p (s.set_new_track now track_id) fun r p' =>
      Agrees { r.2 with new_track_future := r.1 } p' ∧
      r.2.scrobble_future = s.scrobble_future := by
  refine Call.follows_bind (Call.follows_emit rfl (Call.follows_pure ⟨?_, rfl⟩))
  refine ⟨rfl, rfl, rfl, .inr ⟨rfl, nofun, rfl⟩, ?_, ?_, ?_, nofun⟩
  · rcases fetch with empty | resolved | ⟨id, task⟩
    · exact .inl empty
    · exact .inr (.inl resolved)
    · exact .inr (.inr ⟨id, task, nofun⟩)
  · intro f hf
    rcases scrobble f hf with resolved | result
    · exact .inl resolved
    · exact .inr ⟨result, rfl⟩
  · intro q hq submitted
    cases hq
    cases submitted

theorem submitted_result (answer : Except ScrobblerError Unit) :
    ∃ r, Scrobbler.submitted answer = .result r := by
  cases answer <;> exact ⟨_, rfl⟩

theorem update_current_track_follows {env : Env} {now : Instant} {track_id : SpotifyId}
    {force_new_track : Bool} {s : Scrobbler} {p : Option Play} (h : s.Agrees p) :
    Follows Play.allow p (s.update_current_track env now track_id force_new_track) fun t p' =>
      t.Agrees p' ∧ (s.scrobble_future ≠ some .resolved → t.scrobble_future ≠ some .resolved) := by
  cases starts : s.starts_play track_id force_new_track with
  | false =>
    rw [update_current_track, if_neg (by simp [starts])]
    exact Call.follows_pure ⟨h, id⟩
  | true =>
    have fetch : s.meta_fetch_future = .empty ∨ s.meta_fetch_future = .resolved ∨
        ∃ id, s.meta_fetch_future = .task id := by
      rcases h.meta_fetch with empty | resolved | ⟨id, task, _⟩
      · exact .inl empty
      · exact .inr (.inl resolved)
      · exact .inr (.inr ⟨id, task⟩)
    rw [update_current_track, if_pos starts]
    apply Call.follows_bind
    apply Call.follows_weaken (start_due_scrobble_follows h)
    intro s' p' post
    rcases post with ⟨rfl, rfl, _⟩ | ⟨q, rfl, _, rfl, rfl⟩
    · refine Call.follows_bind (Call.follows_weaken (set_new_track_follows fetch fun f hf => ?_)
        fun r p'' begun => Call.follows_pure ⟨begun.1, fun unfailed => begun.2.symm ▸ unfailed⟩)
      rcases h.scrobble_future f hf with resolved | ⟨result, _⟩
      · exact .inl resolved
      · exact .inr result
    · obtain ⟨answer, result⟩ := submitted_result env.scrobble
      refine Call.follows_bind (Call.follows_weaken (set_new_track_follows fetch fun f hf => ?_)
        fun r p'' begun => Call.follows_pure ⟨begun.1, fun _ => ?_⟩)
      · rw [← Option.some.inj hf]
        exact .inr ⟨answer, result⟩
      · rw [begun.2, result]
        nofun

/-! The parts of `poll`, one lemma each. -/

/-- A part of `poll` either goes on, with `next` met, or returns an error. -/
def Parts (next : Scrobbler → Prop) (r : Scrobbler × Option (Poll (Except Unit Unit) Unit))
    (p : Option Play) : Prop :=
  r.1.Agrees p ∧ (r.2 = none ∧ next r.1 ∨ r.2 = some (.error ()))

theorem goes_on {next : Scrobbler → Prop} {s : Scrobbler} {p : Option Play} (h : s.Agrees p)
    (met : next s) : Follows Play.allow p (return (s, none) : Stage) (Parts next) :=
  Call.follows_pure ⟨h, .inl ⟨rfl, met⟩⟩

theorem fails {next : Scrobbler → Prop} {s : Scrobbler} {p : Option Play} (h : s.Agrees p) :
    Follows Play.allow p (return (s, some (.error ())) : Stage) (Parts next) :=
  Call.follows_pure ⟨h, .inr rfl⟩

theorem Agrees.set_auth {s : Scrobbler} {p : Option Play} (h : s.Agrees p)
    (auth_future : BoxFuture Empty Unit ScrobblerError) : Agrees { s with auth_future } p :=
  ⟨h.track, h.start, h.metadata, h.new_track, h.meta_fetch, h.scrobble_future, h.submitted,
    h.scrobbled⟩

theorem Agrees.set_now_playing {s : Scrobbler} {p : Option Play} (h : s.Agrees p)
    (now_playing_future : BoxFuture Empty Unit ScrobbleError) :
    Agrees { s with now_playing_future } p :=
  ⟨h.track, h.start, h.metadata, h.new_track, h.meta_fetch, h.scrobble_future, h.submitted,
    h.scrobbled⟩

theorem poll_auth_follows {s : Scrobbler} {p : Option Play} (h : s.Agrees p) :
    Follows Play.allow p s.poll_auth (Parts fun _ => True) := by
  apply Call.follows_bind
  apply BoxFuture.follows_poll_result
  · intro _
    exact goes_on (h.set_auth _) trivial
  · intro _ _
    exact goes_on (h.set_auth _) trivial
  · intro _ _
    exact fails (h.set_auth _)
  · intro _
    exact ⟨p, Play.allow_repolled p _⟩

/-- The one part that submits: a future left over from the play before sets the
flag for this one, which is taken back when the new track is taken up. -/
theorem poll_scrobble_follows {env : Env} {now : Instant} {s : Scrobbler} {p : Option Play}
    (h : s.Agrees p) :
    Follows Play.allow p (s.poll_scrobble env now) (Parts fun s => s.scrobble_future = none) := by
  apply Call.follows_bind
  apply Call.follows_weaken (start_due_scrobble_follows h)
  intro s' p' post
  rcases post with ⟨rfl, rfl, _⟩ | ⟨q, rfl, known, rfl, rfl⟩
  · cases held : s'.scrobble_future with
    | none => exact goes_on h held
    | some f =>
      apply Call.follows_bind
      apply BoxFuture.follows_poll_result
      · rintro rfl
        rcases h.scrobble_future _ held with impossible | ⟨⟨_, impossible⟩, _⟩ <;> cases impossible
      · rintro _ rfl
        rcases h.scrobble_future _ held with impossible | ⟨_, fresh⟩
        · cases impossible
        · exact goes_on ⟨h.track, h.start, h.metadata, h.new_track, h.meta_fetch, nofun,
            fun q hq submitted => ⟨(h.submitted q hq submitted).1, .inl rfl⟩, fun _ => .inl fresh⟩ rfl
      · rintro _ rfl
        exact fails ⟨h.track, h.start, h.metadata, h.new_track, h.meta_fetch,
          fun _ hf => .inl (Option.some.inj hf).symm,
          fun q hq submitted => ⟨(h.submitted q hq submitted).1, .inr rfl⟩, h.scrobbled⟩
      · intro _
        exact ⟨p', Play.allow_repolled p' _⟩
  · have present : s.current_track_meta ≠ none := by
      rw [h.metadata]
      exact known
    have metadata : s.current_track_meta = (some { q with submitted := true } : Option Play).bind
        Play.metadata := h.metadata
    apply Call.follows_bind
    apply BoxFuture.follows_poll_result
    · intro impossible
      obtain ⟨_, result⟩ := submitted_result env.scrobble
      rw [result] at impossible
      cases impossible
    · intro _ _
      exact goes_on ⟨h.track, h.start, metadata, h.new_track, h.meta_fetch, nofun,
        fun _ _ _ => ⟨present, .inl rfl⟩, fun _ => .inr ⟨_, rfl, rfl⟩⟩ rfl
    · intro _ _
      exact fails ⟨h.track, h.start, metadata, h.new_track, h.meta_fetch,
        fun _ hf => .inl (Option.some.inj hf).symm, fun _ _ _ => ⟨present, .inr rfl⟩,
        fun _ => .inr ⟨_, rfl, rfl⟩⟩
    · intro _
      exact ⟨_, Play.allow_repolled _ _⟩

/-- After this part the fetch in flight, if any, is for the current track. -/
theorem poll_new_track_follows {env : Env} {s : Scrobbler} {p : Option Play} (h : s.Agrees p)
    (free : s.scrobble_future = none) : Follows Play.allow p (s.poll_new_track env)
      (Parts fun s => s.scrobble_future = none ∧ s.new_track_future = .empty) := by
  have no_future : ∀ f, s.scrobble_future = some f → False := by
    intro f held
    rw [free] at held
    cases held
  apply Call.follows_bind
  apply BoxFuture.follows_poll_result
  · intro empty
    refine goes_on ?_ ⟨free, rfl⟩
    rw [← empty]
    exact h
  · intro _ ready
    obtain ⟨playing, unknown⟩ : s.current_track_id ≠ none ∧ s.current_track_meta = none := by
      rcases h.new_track with empty | ⟨_, facts⟩
      · rw [empty] at ready
        cases ready
      · exact facts
    cases p with
    | none => exact absurd h.track playing
    | some q =>
      have unsubmitted : q.submitted = true → False :=
        fun submitted => (h.submitted q rfl submitted).1 unknown
      simp only [h.track, Option.map_some]
      refine Call.follows_bind (Call.follows_bind (Call.follows_emit (if_pos rfl) ?_))
      refine Call.follows_ite (fun _ => ?_) (fun _ => Call.follows_panic)
      refine Call.follows_pure (goes_on ?_ ⟨free, rfl⟩)
      exact ⟨rfl, h.start, h.metadata, .inl rfl,
        .inr (.inr ⟨q.track, rfl, fun _ => ⟨rfl, unknown⟩⟩),
        fun f held => (no_future f held).elim,
        fun r hr submitted => by cases hr; exact (unsubmitted submitted).elim, nofun⟩
  · intro _ impossible
    rcases h.new_track with empty | ⟨ready, _⟩
    · rw [empty] at impossible
      cases impossible
    · rw [ready] at impossible
      cases impossible
  · intro _
    exact ⟨p, Play.allow_repolled p _⟩

/-- Once a new track is taken up, the fetch in flight is this play's. -/
theorem Agrees.fetching {s : Scrobbler} {p : Option Play} (h : s.Agrees p)
    (empty : s.new_track_future = .empty) {key : SpotifyId} (task : s.meta_fetch_future = .task key) :
    ∃ q, p = some q ∧ key = q.track ∧ q.metadata = none ∧ s.current_track_meta = none := by
  rcases h.meta_fetch with e | r | ⟨id, t, current⟩
  · rw [e] at task; cases task
  · rw [r] at task; cases task
  · rw [t] at task
    cases task
    obtain ⟨playing, unknown⟩ := current empty
    cases p with
    | none =>
      rw [h.track] at playing
      cases playing
    | some q =>
      rw [h.track] at playing
      exact ⟨q, rfl, (Option.some.inj playing).symm, h.metadata.symm.trans unknown, unknown⟩

theorem Agrees.set_meta_fetch {s : Scrobbler} {p : Option Play} (h : s.Agrees p)
    {meta_fetch_future : BoxFuture SpotifyId Scrobble ScrobbleError}
    (shape : meta_fetch_future = .empty ∨ meta_fetch_future = .resolved ∨
      meta_fetch_future = s.meta_fetch_future) : Agrees { s with meta_fetch_future } p := by
  refine ⟨h.track, h.start, h.metadata, h.new_track, ?_, h.scrobble_future, h.submitted,
    h.scrobbled⟩
  rcases shape with e | r | rfl
  · exact .inl e
  · exact .inr (.inl r)
  · exact h.meta_fetch

theorem Agrees.fetched {s : Scrobbler} {q : Play} (h : s.Agrees (some q))
    (empty : s.new_track_future = .empty) (unknown : s.current_track_meta = none) (track : Scrobble)
    (now_playing_future : BoxFuture Empty Unit ScrobbleError) :
    Agrees { s with
        meta_fetch_future := .empty, now_playing_future, current_track_meta := some track }
      (some { q with metadata := some track }) := by
  refine ⟨h.track, h.start, rfl, .inl empty, .inl rfl, h.scrobble_future, ?_, ?_⟩
  · intro q' hq submitted
    cases hq
    exact absurd unknown (h.submitted q rfl submitted).1
  · intro flag
    rcases h.scrobbled flag with ready | ⟨r, same, submitted⟩
    · exact .inl ready
    · cases same
      exact .inr ⟨_, rfl, submitted⟩

theorem poll_meta_fetch_follows {env : Env} {s : Scrobbler} {p : Option Play} (h : s.Agrees p)
    (free : s.scrobble_future = none) (empty : s.new_track_future = .empty) :
    Follows Play.allow p (s.poll_meta_fetch env) (Parts fun s => s.scrobble_future = none) := by
  have no_result : ∀ r, s.meta_fetch_future = .result r → False := by
    intro r result
    rcases h.meta_fetch with e | d | ⟨id, t, _⟩
    · rw [e] at result; cases result
    · rw [d] at result; cases result
    · rw [t] at result; cases result
  apply Call.follows_bind
  apply BoxFuture.follows_poll
  · intro _
    exact goes_on (h.set_meta_fetch (.inl rfl)) free
  · intro _ result
    exact (no_result _ result).elim
  · intro _ result
    exact (no_result _ result).elim
  · intro key task _
    exact goes_on (h.set_meta_fetch (.inr (.inr task.symm))) free
  · intro key track task _
    obtain ⟨q, rfl, rfl, unfetched, unknown⟩ := h.fetching empty task
    refine ⟨some { q with metadata := some track }, if_pos ⟨rfl, unfetched⟩, ?_⟩
    exact Call.follows_bind (Call.follows_bind (Call.follows_emit (if_pos rfl)
      (Call.follows_pure (goes_on (h.fetched empty unknown track _) free))))
  · intro key error task _
    obtain ⟨q, rfl, rfl, _, _⟩ := h.fetching empty task
    exact ⟨some q, if_pos rfl, fails (h.set_meta_fetch (.inr (.inl rfl)))⟩
  · intro _
    exact ⟨p, Play.allow_repolled p _⟩

theorem poll_now_playing_follows {s : Scrobbler} {p : Option Play} (h : s.Agrees p)
    (free : s.scrobble_future = none) :
    Follows Play.allow p s.poll_now_playing (Parts fun s => s.scrobble_future = none) := by
  apply Call.follows_bind
  apply BoxFuture.follows_poll_result
  · intro _
    exact goes_on (h.set_now_playing _) free
  · intro _ _
    exact goes_on (h.set_now_playing _) free
  · intro _ _
    exact fails (h.set_now_playing _)
  · intro _
    exact ⟨p, Play.allow_repolled p _⟩

theorem proceed_follows {first : Stage} {next : Scrobbler → Stage} {p : Option Play}
    {P Q : Scrobbler → Prop} (begins : Follows Play.allow p first (Parts P))
    (continues : ∀ s p', s.Agrees p' → P s → Follows Play.allow p' (next s) (Parts Q)) :
    Follows Play.allow p (proceed first next) (Parts Q) := by
  apply Call.follows_bind
  apply Call.follows_weaken begins
  intro r p' post
  obtain ⟨s, returned⟩ := r
  obtain ⟨h, ⟨rfl, met⟩ | rfl⟩ := post
  · exact continues s p' h met
  · exact fails h

/-- Unless `poll` returns an error no submission is left behind. -/
theorem poll_follows {env : Env} {now : Instant} {s : Scrobbler} {p : Option Play}
    (h : s.Agrees p) : Follows Play.allow p (s.poll env now) fun r p' =>
      r.1.Agrees p' ∧ (r.1.scrobble_future = none ∨ r.2 = .error ()) := by
  refine Call.follows_bind (Call.follows_weaken
    (proceed_follows (poll_auth_follows h) fun s p h _ =>
      proceed_follows (poll_scrobble_follows h) fun s p h free =>
      proceed_follows (poll_new_track_follows h free) fun s p h settled =>
      proceed_follows (poll_meta_fetch_follows h settled.1 settled.2) fun s p h free =>
      poll_now_playing_follows h free) fun r p' post => Call.follows_pure ?_)
  obtain ⟨s, returned⟩ := r
  obtain ⟨h, ⟨_, free⟩ | rfl⟩ := post
  · exact ⟨h, .inl free⟩
  · exact ⟨h, .inr rfl⟩

def started (config : ScrobblerConfig) (answer : Except ScrobblerError Unit) : Scrobbler :=
  ⟨config, none, none, none, false, .result answer, .empty, .empty, .empty, none⟩

theorem new_eq (config : ScrobblerConfig) (answer : Except ScrobblerError Unit) :
    Scrobbler.new config answer =
      ⟨[.authenticate config.username config.password answer], some (started config answer)⟩ := by
  cases answer <;> rfl

theorem started_agrees (config : ScrobblerConfig) (answer : Except ScrobblerError Unit) :
    (started config answer).Agrees none :=
  ⟨rfl, rfl, rfl, .inl rfl, .inl rfl, nofun, nofun, nofun⟩

end Scrobbler

theorem Listener.step_follows {w : Listener} {p : Option Play} (h : w.scrobbler.Agrees p)
    (a : Action) : Call.Follows Play.allow p (w.step a) fun w' p' => w'.scrobbler.Agrees p' := by
  cases a with
  | wait time => exact Call.follows_pure h
  | update_current_track env track_id force_new_track =>
    exact Call.follows_bind (Call.follows_weaken (Scrobbler.update_current_track_follows h)
      fun _ _ post => Call.follows_pure post.1)
  | poll env =>
    exact Call.follows_bind (Call.follows_weaken (Scrobbler.poll_follows h)
      fun _ p' post => Call.follows_bind
        (Call.follows_emit (Play.allow_polled p' _) (Call.follows_pure post.1)))

theorem Listener.step_unfailed {w w' : Listener} {p : Option Play} (h : w.scrobbler.Agrees p)
    {a : Action} (returned : (w.step a).value = some w')
    (no_error : .polled (.error ()) ∉ (w.step a).log)
    (unfailed : w.scrobbler.scrobble_future ≠ some .resolved) :
    w'.scrobbler.scrobble_future ≠ some .resolved := by
  cases a with
  | wait time => cases returned; exact unfailed
  | update_current_track env track_id force_new_track =>
    obtain ⟨s, hs, done⟩ := Call.bind_returns.mp returned
    cases done
    obtain ⟨_, _, _, keeps⟩ := (Scrobbler.update_current_track_follows h).returned hs
    exact keeps unfailed
  | poll env =>
    obtain ⟨r, hr, done⟩ := Call.bind_returns.mp returned
    cases done
    obtain ⟨_, _, _, free | failed⟩ := (Scrobbler.poll_follows h).returned hr
    · rw [free]
      nofun
    · refine absurd ?_ no_error
      simp only [step]
      rw [Call.bind_log hr, failed]
      exact List.mem_append_right _ (List.mem_singleton.mpr rfl)

theorem Listener.run_eq (config : ScrobblerConfig) (answer : Except ScrobblerError Unit)
    (clock : Instant) (actions : List Action) :
    Listener.run config answer clock actions =
      ⟨.authenticate config.username config.password answer ::
        (Call.run Listener.step ⟨Scrobbler.started config answer, clock⟩ actions).log,
        (Call.run Listener.step ⟨Scrobbler.started config answer, clock⟩ actions).value⟩ := by
  rw [Listener.run, Scrobbler.new_eq]
  rfl

/-- Every run of the scrobbler is a run of plays, up to its first panic. -/
theorem Listener.run_follows (config : ScrobblerConfig) (answer : Except ScrobblerError Unit)
    (clock : Instant) (actions : List Action) :
    Call.Follows Play.allow none (Listener.run config answer clock actions)
      fun w p => w.scrobbler.Agrees p := by
  rw [Listener.run_eq]
  exact Call.run_follows (fun _ _ h a => Listener.step_follows h a)
    (Scrobbler.started_agrees config answer) actions

theorem Listener.run_append (config : ScrobblerConfig) (answer : Except ScrobblerError Unit)
    (clock : Instant) (earlier later : List Action) :
    Listener.run config answer clock (earlier ++ later) =
      Listener.run config answer clock earlier >>= fun w => Call.run Listener.step w later := by
  simp only [Listener.run, Call.run_append, Call.bind_assoc]

theorem Listener.run_snoc (config : ScrobblerConfig) (answer : Except ScrobblerError Unit)
    (clock : Instant) (actions : List Action) (a : Action) :
    Listener.run config answer clock (actions ++ [a]) =
      Listener.run config answer clock actions >>= fun w => w.step a := by
  simp only [Listener.run, Call.run_snoc, Call.bind_assoc]

/-- A state a run reaches agrees with a play, and has failed no submission unless
some poll returned an error. -/
theorem Listener.reached_agrees {config : ScrobblerConfig} {answer : Except ScrobblerError Unit}
    {clock : Instant} {actions : List Action} {w : Listener}
    (reached : (Listener.run config answer clock actions).value = some w) :
    ∃ p, Call.observe Play.allow none (Listener.run config answer clock actions).log = some p ∧
      w.scrobbler.Agrees p ∧
      (.polled (.error ()) ∉ (Listener.run config answer clock actions).log →
        w.scrobbler.scrobble_future ≠ some .resolved) := by
  obtain ⟨p, accepted, agrees⟩ := (Listener.run_follows config answer clock actions).returned reached
  refine ⟨p, accepted, agrees, fun no_error => ?_⟩
  rw [Listener.run_eq] at reached no_error
  refine (Call.run_induction (P := fun _ log w => (∃ p, w.scrobbler.Agrees p) ∧
    (.polled (.error ()) ∉ log → w.scrobbler.scrobble_future ≠ some .resolved)) ?_ ?_ reached).2
      fun member => no_error (List.mem_cons_of_mem _ member)
  · exact ⟨⟨none, Scrobbler.started_agrees config answer⟩, fun _ => nofun⟩
  · rintro _ log w ⟨⟨p, h⟩, unfailed⟩ a w' returned
    obtain ⟨p', _, h'⟩ := (Listener.step_follows h a).returned returned
    refine ⟨⟨p', h'⟩, fun no_error => ?_⟩
    rw [List.mem_append, not_or] at no_error
    exact Listener.step_unfailed h returned no_error.2 (unfailed no_error.1)

end ConnectScrobbler
