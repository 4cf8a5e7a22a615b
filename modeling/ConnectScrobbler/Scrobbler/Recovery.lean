import ConnectScrobbler.Scrobbler.Guarantees

/-! Polling after an error. A part of `poll` that meets an error returns it and
leaves the future that gave it in its slot, so the next poll polls a future that
has resolved, unless a new play replaces it first. This module says which
failures a run outlives, and that it outlives no others. -/
namespace ConnectScrobbler

open Call (Follows PanicsBy)

/-- What the log tells of failures: whether the login or a submission was
refused, whether a poll has ended since, whether the latest metadata request and
the latest now-playing call failed, and the play that no poll has taken up yet. -/
structure Damage where
  refused : Bool
  returned : Bool
  metadata : Bool
  now_playing : Bool
  begun : Option SpotifyId
  deriving DecidableEq, Repr

def Damage.none : Damage := ⟨false, false, false, false, .none⟩

def Damage.after (d : Damage) : Effect → Damage
  | .authenticate _ _ (.error _) => { d with refused := true }
  | .set_new_track track_id _ => { d with begun := some track_id }
  | .get_track_meta _ => { d with metadata := false, begun := .none }
  | .fetched _ (.error _) => { d with metadata := true }
  | .send_now_playing _ answer => { d with now_playing := !answer.isOk }
  | .send_scrobble _ _ (.error _) => { d with refused := true }
  | .polled _ => { d with returned := d.refused }
  | _ => d

def damage (log : List Effect) : Damage :=
  log.foldl Damage.after .none

def Scrobbler.refused_due (env : Env) (now : Instant) (s : Scrobbler) : Bool :=
  s.can_scrobble_track now && s.current_track_meta.isSome && !env.scrobble.isOk

/-- A poll outlives the damage unless one has ended since the login or a submission
was refused. If it meets such a refusal itself it stops there. If not, a play must
have begun since a failed metadata request, and since a refused now-playing call,
and the request for that play must be answered in this same poll. -/
def Damage.outlived (d : Damage) (env : Env) (w : Listener) : Bool :=
  !d.returned && (d.refused || w.scrobbler.refused_due env w.clock ||
    ((!d.metadata || d.begun.isSome) && (!d.now_playing || d.begun.any fun track_id =>
      !env.connected || decide (env.fetch track_id ≠ some (.ok .notReady)))))

def no_repoll (d : Damage) : Effect → Option Damage
  | .repolled _ => .none
  | e => some (d.after e)

theorem observe_no_repoll {log : List Effect} {d d' : Damage}
    (accepted : Call.observe no_repoll d log = some d') :
    d' = log.foldl Damage.after d ∧ ∀ slot, .repolled slot ∉ log := by
  induction log generalizing d with
  | nil => cases accepted; exact ⟨rfl, nofun⟩
  | cons e log ih =>
    obtain ⟨next, taken, rest⟩ := Option.bind_eq_some_iff.mp accepted
    obtain ⟨reached, none_later⟩ := ih rest
    have kept : (∀ slot, e ≠ .repolled slot) ∧ next = d.after e := by
      cases e with
      | repolled slot => cases taken
      | _ => exact ⟨nofun, (Option.some.inj taken).symm⟩
    refine ⟨by rw [reached, kept.2]; rfl, fun slot member => ?_⟩
    rcases List.mem_cons.mp member with same | member
    · exact kept.1 slot same.symm
    · exact none_later slot member

namespace Scrobbler

/-- The slots hold no trouble that the damage does not account for. An error of
the login or of a submission has left its future resolved only if `spent`. -/
structure Marked (s : Scrobbler) (d : Damage) (spent : Bool) : Prop where
  auth : s.auth_future.Blames d.refused spent
  new_track : s.new_track_future = if d.begun.isSome then .result (.ok ()) else .empty
  track : ∀ track_id, d.begun = some track_id → s.current_track_id = some track_id
  meta_fetch : s.meta_fetch_future.Blames d.metadata d.metadata
  now_playing : s.now_playing_future.Blames d.now_playing d.now_playing
  scrobble : ∀ f, s.scrobble_future = some f → f ≠ .empty ∧ f.Blames d.refused spent

/-- And the damage done to metadata and now playing is there in the slots. -/
structure Kept (s : Scrobbler) (d : Damage) : Prop where
  metadata : d.metadata = true → s.meta_fetch_future = .resolved
  now_playing : d.now_playing = true → s.now_playing_future = .resolved ∧
    (s.meta_fetch_future = .empty ∨ s.meta_fetch_future = .resolved)

def Spent (s : Scrobbler) : Prop :=
  s.auth_future = .resolved ∨ s.auth_future = .empty ∧ s.scrobble_future = some .resolved

def Unsent (s : Scrobbler) : Prop :=
  ∃ e, s.scrobble_future = some (.result (.error e))

structure AtRest (s : Scrobbler) (d : Damage) : Prop where
  marked : s.Marked d d.returned
  kept : s.Kept d
  spent : d.returned = true → s.Spent
  pending : d.refused = true → d.returned = false →
    (∃ e, s.auth_future = .result (.error e)) ∨ s.Unsent

structure Stopped (s : Scrobbler) (d : Damage) : Prop where
  marked : s.Marked d d.refused
  kept : s.Kept d
  spent : d.refused = true → s.Spent

/-- What a part of `poll` leaves: it returns, or it hands on. -/
def Left (hands_on : Scrobbler → Damage → Prop)
    (r : Scrobbler × Option (Poll (Except Unit Unit) Unit)) (d : Damage) : Prop :=
  match r.2 with
  | some _ => r.1.Stopped d
  | none => r.1.Marked d false ∧ hands_on r.1 d

variable {s : Scrobbler} {d : Damage} {spent : Bool} {hands_on : Scrobbler → Damage → Prop}
  {env : Env} {now : Instant}

theorem Marked.weaken {spent' : Bool} (h : s.Marked d spent)
    (since : spent = true → spent' = true) : s.Marked d spent' :=
  ⟨h.auth.weaken id since, h.new_track, h.track, h.meta_fetch, h.now_playing,
    fun f held => ⟨(h.scrobble f held).1, (h.scrobble f held).2.weaken id since⟩⟩

theorem going_on (h : s.Marked d false) (hands : hands_on s d) :
    Follows no_repoll d (return (s, none) : Stage) (Left hands_on) :=
  Call.follows_pure ⟨h, hands⟩

theorem stopping {result : Poll (Except Unit Unit) Unit} (h : s.Stopped d) :
    Follows no_repoll d (return (s, some result) : Stage) (Left hands_on) :=
  Call.follows_pure h

structure Outlived (env : Env) (d : Damage) : Prop where
  metadata : d.metadata = true → d.begun.isSome = true
  now_playing : d.now_playing = true → ∃ track_id, d.begun = some track_id ∧
    (env.connected = true → env.fetch track_id ≠ some (.ok .notReady))

/-- What `poll_scrobble` is handed. -/
structure Authenticated (env : Env) (now : Instant) (s : Scrobbler) (d : Damage) : Prop where
  auth : s.auth_future = .empty
  kept : s.Kept d
  pending : d.refused = true → s.Unsent
  outlived : s.Unsent ∨ s.refused_due env now = true ∨ Outlived env d

structure Unrefused (env : Env) (s : Scrobbler) (d : Damage) : Prop where
  unrefused : d.refused = false
  kept : s.Kept d
  outlived : Outlived env d

/-- What `poll_meta_fetch` is handed: a refused now-playing call is about to be replaced. -/
structure Replacing (env : Env) (s : Scrobbler) (d : Damage) : Prop where
  unrefused : d.refused = false
  metadata : d.metadata = false
  now_playing : d.now_playing = true → s.now_playing_future = .resolved ∧ ∃ track_id,
    s.meta_fetch_future = .task track_id ∧ env.fetch track_id ≠ some (.ok .notReady)

structure Replaced (s : Scrobbler) (d : Damage) : Prop where
  unrefused : d.refused = false
  metadata : d.metadata = false
  now_playing : d.now_playing = true → (∃ e, s.now_playing_future = .result (.error e)) ∧
    s.meta_fetch_future = .empty

structure Unhurt (s : Scrobbler) (d : Damage) : Prop where
  unrefused : d.refused = false
  kept : s.Kept d

theorem poll_auth_marked (h : s.Marked d false) (kept : s.Kept d)
    (pending : d.refused = true → (∃ e, s.auth_future = .result (.error e)) ∨ s.Unsent)
    (outlived : d.refused = true ∨ s.refused_due env now = true ∨ Outlived env d) :
    Follows no_repoll d s.poll_auth (Left (Authenticated env now)) := by
  have hands : (∀ e, s.auth_future ≠ .result (.error e)) →
      Authenticated env now { s with auth_future := .empty } d := by
    intro granted
    have unsent : d.refused = true → s.Unsent := by
      intro refused
      rcases pending refused with ⟨e, held⟩ | unsent
      · exact absurd held (granted e)
      · exact unsent
    exact ⟨rfl, ⟨kept.metadata, kept.now_playing⟩, unsent, outlived.imp_left unsent⟩
  have authenticated : Marked { s with auth_future := .empty } d false :=
    ⟨trivial, h.new_track, h.track, h.meta_fetch, h.now_playing, h.scrobble⟩
  apply Call.follows_bind
  apply BoxFuture.follows_poll_result
  · intro held
    exact going_on authenticated (hands (by rw [held]; nofun))
  · intro _ held
    exact going_on authenticated (hands (by rw [held]; nofun))
  · intro _ held
    have refused := h.auth
    rw [held] at refused
    have later : s.Marked d d.refused := h.weaken nofun
    exact stopping ⟨⟨refused, h.new_track, h.track, h.meta_fetch, h.now_playing, later.scrobble⟩,
      ⟨kept.metadata, kept.now_playing⟩, fun _ => .inl rfl⟩
  · intro held
    have unspent := h.auth
    rw [held] at unspent
    cases unspent

theorem submitted_blames (answer : Except ScrobblerError Unit) {refused spent : Bool}
    (noted : answer.isOk = false → refused = true) :
    (Scrobbler.submitted answer).Blames refused spent := by
  cases answer with
  | ok _ => trivial
  | error _ => exact noted rfl

theorem no_repoll_sent (d : Damage) (scrobble : Scrobble) (time : Instant)
    (answer : Except ScrobblerError Unit) :
    no_repoll d (.send_scrobble scrobble time answer) =
      some { d with refused := d.refused || !answer.isOk } := by
  cases answer with
  | ok _ => exact congrArg some (by simp [Damage.after, Except.isOk, Except.toBool])
  | error _ => exact congrArg some (by simp [Damage.after, Except.isOk, Except.toBool])

theorem Unsent.not_due (unsent : s.Unsent) : s.can_scrobble_track now = false := by
  obtain ⟨e, held⟩ := unsent
  by_contra due
  have free := (can_scrobble_track_iff.mp (by simpa using due)).2.1
  rw [held] at free
  cases free

theorem Marked.sent (h : s.Marked d spent) (answer : Except ScrobblerError Unit) :
    Marked { s with scrobble_future := some (submitted answer) }
      { d with refused := d.refused || !answer.isOk } spent := by
  refine ⟨h.auth.weaken (fun refused => by simp [refused]) id, h.new_track, h.track, h.meta_fetch,
    h.now_playing, ?_⟩
  rintro f ⟨⟩
  obtain ⟨_, result⟩ := submitted_result answer
  exact ⟨by rw [result]; nofun, submitted_blames _ fun refused => by simp [refused]⟩

theorem unsent_submitted {answer : Except ScrobblerError Unit} (refused : answer.isOk = false) :
    Unsent { s with scrobble_future := some (submitted answer) } := by
  cases answer with
  | ok _ => cases refused
  | error err => exact ⟨_, rfl⟩

structure Submitting (env : Env) (s : Scrobbler) (d : Damage) : Prop where
  marked : s.Marked d false
  auth : s.auth_future = .empty
  kept : s.Kept d
  pending : d.refused = true → s.Unsent
  outlived : s.Unsent ∨ Outlived env d

theorem start_due_scrobble_marked (h : s.Marked d false) (given : s.Authenticated env now d) :
    Follows no_repoll d (s.start_due_scrobble env now) (Submitting env) := by
  rcases start_due_scrobble_cases env now s with ⟨same, cannot⟩ | ⟨scrobble, can, known, sent⟩
  · rw [same]
    refine Call.follows_pure ⟨h, given.auth, given.kept, given.pending, ?_⟩
    rcases given.outlived with unsent | due | outlived
    · exact .inl unsent
    · rcases cannot with cannot | unknown
      · simp [refused_due, cannot] at due
      · simp [refused_due, unknown] at due
    · exact .inr outlived
  · have unrefused : d.refused = false := by
      cases refused : d.refused with
      | false => rfl
      | true => rw [(given.pending refused).not_due] at can; cases can
    rw [sent]
    refine ⟨_, Call.observe_singleton (no_repoll_sent ..), ?_⟩
    rintro _ ⟨⟩
    refine ⟨h.sent _, given.auth, ⟨given.kept.metadata, given.kept.now_playing⟩, ?_, ?_⟩
    · intro refused
      rw [unrefused] at refused
      exact unsent_submitted (by simpa using refused)
    · rcases given.outlived with unsent | due | outlived
      · rw [unsent.not_due] at can
        cases can
      · simp only [refused_due, Bool.and_eq_true, Bool.not_eq_true'] at due
        exact .inl (unsent_submitted due.2)
      · exact .inr ⟨outlived.metadata, outlived.now_playing⟩

theorem poll_scrobble_marked (h : s.Marked d false) (given : s.Authenticated env now d) :
    Follows no_repoll d (s.poll_scrobble env now) (Left (Unrefused env)) := by
  apply Call.follows_bind
  apply Call.follows_weaken (start_due_scrobble_marked h given)
  intro s d given
  have unrefused : ¬ s.Unsent → Unrefused env { s with scrobble_future := none } d := by
    intro granted
    refine ⟨?_, ⟨given.kept.metadata, given.kept.now_playing⟩, given.outlived.resolve_left granted⟩
    cases refused : d.refused with
    | false => rfl
    | true => exact absurd (given.pending refused) granted
  cases held : s.scrobble_future with
  | none =>
    have granted : ¬ s.Unsent := by
      rintro ⟨_, unsent⟩
      rw [held] at unsent
      cases unsent
    obtain ⟨refused, kept, outlived⟩ := unrefused granted
    exact going_on given.marked ⟨refused, given.kept, outlived⟩
  | some f =>
    obtain ⟨under_way, blames⟩ := given.marked.scrobble f held
    have h := given.marked
    apply Call.follows_bind
    apply BoxFuture.follows_poll_result
    · intro empty
      exact absurd empty under_way
    · rintro _ rfl
      have granted : ¬ s.Unsent := by
        rintro ⟨_, unsent⟩
        rw [held] at unsent
        cases unsent
      obtain ⟨refused, kept, outlived⟩ := unrefused granted
      exact going_on ⟨h.auth, h.new_track, h.track, h.meta_fetch, h.now_playing, nofun⟩
        ⟨refused, ⟨kept.metadata, kept.now_playing⟩, outlived⟩
    · rintro _ rfl
      refine stopping ⟨⟨h.auth.weaken id nofun, h.new_track, h.track, h.meta_fetch, h.now_playing,
        ?_⟩, ⟨given.kept.metadata, given.kept.now_playing⟩, fun _ => .inr ⟨given.auth, rfl⟩⟩
      rintro f ⟨⟩
      exact ⟨nofun, blames⟩
    · rintro rfl
      cases blames

theorem poll_new_track_marked (h : s.Marked d false) (given : s.Unrefused env d) :
    Follows no_repoll d (s.poll_new_track env) (Left (Replacing env)) := by
  apply Call.follows_bind
  apply BoxFuture.follows_poll_result
  · intro empty
    have none_begun : d.begun = none := by
      have slot := h.new_track
      rw [empty] at slot
      cases begun : d.begun with
      | none => rfl
      | some _ => rw [begun] at slot; cases slot
    refine going_on ⟨h.auth, by rw [none_begun]; rfl, h.track, h.meta_fetch, h.now_playing,
      h.scrobble⟩ ⟨given.unrefused, ?_, fun refused => ?_⟩
    · cases failed : d.metadata with
      | false => rfl
      | true => have begun := given.outlived.metadata failed; rw [none_begun] at begun; cases begun
    · obtain ⟨_, begun, _⟩ := given.outlived.now_playing refused
      rw [none_begun] at begun
      cases begun
  · intro _ ready
    obtain ⟨track_id, begun⟩ : ∃ track_id, d.begun = some track_id := by
      have slot := h.new_track
      rw [ready] at slot
      cases begun : d.begun with
      | none => rw [begun] at slot; cases slot
      | some track_id => exact ⟨track_id, rfl⟩
    have track := h.track _ begun
    simp only [track]
    refine Call.follows_bind (Call.follows_bind (Call.follows_emit rfl ?_))
    refine Call.follows_ite (fun connected => ?_) (fun _ => Call.follows_panic)
    refine Call.follows_pure (going_on ⟨h.auth, rfl, nofun, trivial, h.now_playing, h.scrobble⟩
      ⟨given.unrefused, rfl, fun refused => ?_⟩)
    obtain ⟨_, same, answered⟩ := given.outlived.now_playing refused
    rw [begun] at same
    cases same
    exact ⟨(given.kept.now_playing refused).1, track_id, rfl, answered connected⟩
  · intro _ held
    have slot := h.new_track
    rw [held] at slot
    split at slot <;> cases slot
  · intro held
    have slot := h.new_track
    rw [held] at slot
    split at slot <;> cases slot

theorem poll_meta_fetch_marked (h : s.Marked d false) (given : s.Replacing env d) :
    Follows no_repoll d (s.poll_meta_fetch env) (Left Replaced) := by
  have unanswered : (∀ track_id, s.meta_fetch_future = .task track_id →
      env.fetch track_id = some (.ok .notReady)) → d.now_playing = false := by
    intro waiting
    cases refused : d.now_playing with
    | false => rfl
    | true =>
      obtain ⟨_, track_id, task, answered⟩ := given.now_playing refused
      exact absurd (waiting track_id task) answered
  have announced : ∀ track, Follows no_repoll d (do
      let now_playing_future ← send_now_playing env track
      return ({ s with
        meta_fetch_future := .empty, now_playing_future, current_track_meta := some track }, none) :
        Stage) (Left Replaced) := by
    intro track
    refine Call.follows_bind (Call.follows_bind (Call.follows_emit rfl
      (Call.follows_pure (going_on ⟨h.auth, h.new_track, h.track, trivial, ?_, h.scrobble⟩
        ⟨given.unrefused, given.metadata, fun refused => ⟨?_, rfl⟩⟩))))
    · exact submitted_blames env.now_playing fun refused => by simp [Damage.after, refused]
    · show ∃ e, submitted env.now_playing = .result (.error e)
      cases answer : env.now_playing with
      | ok _ => rw [Damage.after, answer] at refused; cases refused
      | error err => exact ⟨_, rfl⟩
  apply Call.follows_bind
  apply BoxFuture.follows_poll
  · intro empty
    have sound := unanswered fun _ task => by rw [empty] at task; cases task
    exact going_on ⟨h.auth, h.new_track, h.track, trivial, h.now_playing, h.scrobble⟩
      ⟨given.unrefused, given.metadata, fun refused => by rw [sound] at refused; cases refused⟩
  · intro track _
    exact announced track
  · intro _ held
    have failed := h.meta_fetch
    rw [held] at failed
    exact absurd (failed.symm.trans given.metadata) nofun
  · intro track_id task waiting
    have sound := unanswered fun other same => by
      rw [task] at same
      cases same
      exact waiting
    exact going_on ⟨h.auth, h.new_track, h.track, trivial, h.now_playing, h.scrobble⟩
      ⟨given.unrefused, given.metadata, fun refused => by rw [sound] at refused; cases refused⟩
  · intro _ track _ _
    exact ⟨d, rfl, announced track⟩
  · intro _ _ _ _
    have later : s.Marked d d.refused := h.weaken nofun
    refine ⟨{ d with metadata := true }, rfl, stopping ⟨⟨later.auth, h.new_track, h.track, rfl,
      h.now_playing, later.scrobble⟩, ⟨fun _ => rfl, fun refused => ?_⟩, fun refused => ?_⟩⟩
    · exact ⟨(given.now_playing refused).1, .inr rfl⟩
    · rw [given.unrefused] at refused
      cases refused
  · intro held
    have failed := h.meta_fetch
    rw [held] at failed
    exact absurd (failed.symm.trans given.metadata) nofun

theorem poll_now_playing_marked (h : s.Marked d false) (given : s.Replaced d) :
    Follows no_repoll d s.poll_now_playing (Left Unhurt) := by
  have unhurt : (∀ e, s.now_playing_future ≠ .result (.error e)) →
      Unhurt { s with now_playing_future := .empty } d := by
    intro granted
    refine ⟨given.unrefused, fun failed => ?_, fun refused => ?_⟩
    · rw [given.metadata] at failed
      cases failed
    · obtain ⟨⟨e, held⟩, _⟩ := given.now_playing refused
      exact absurd held (granted e)
  apply Call.follows_bind
  apply BoxFuture.follows_poll_result
  · intro held
    exact going_on ⟨h.auth, h.new_track, h.track, h.meta_fetch, trivial, h.scrobble⟩
      (unhurt (by rw [held]; nofun))
  · intro _ held
    exact going_on ⟨h.auth, h.new_track, h.track, h.meta_fetch, trivial, h.scrobble⟩
      (unhurt (by rw [held]; nofun))
  · intro _ held
    have noted := h.now_playing
    rw [held] at noted
    have later : s.Marked d d.refused := h.weaken nofun
    refine stopping ⟨⟨later.auth, h.new_track, h.track, h.meta_fetch, noted, later.scrobble⟩,
      ⟨fun failed => ?_, fun refused => ⟨rfl, .inl (given.now_playing refused).2⟩⟩,
      fun refused => ?_⟩
    · rw [given.metadata] at failed
      cases failed
    · rw [given.unrefused] at refused
      cases refused
  · intro spent
    have noted := h.now_playing
    rw [spent] at noted
    obtain ⟨⟨_, held⟩, _⟩ := given.now_playing noted
    rw [spent] at held
    cases held

theorem proceed_marked {hands_on' : Scrobbler → Damage → Prop} {first : Stage}
    {next : Scrobbler → Stage} (begins : Follows no_repoll d first (Left hands_on))
    (continues : ∀ s d, s.Marked d false → hands_on s d →
      Follows no_repoll d (next s) (Left hands_on')) :
    Follows no_repoll d (proceed first next) (Left hands_on') := by
  apply Call.follows_bind
  apply Call.follows_weaken begins
  rintro ⟨s, returned⟩ d left
  cases returned with
  | none => exact continues s d left.1 left.2
  | some result => exact stopping left

theorem outlived_iff : d.outlived env ⟨s, now⟩ = true ↔ d.returned = false ∧
    (d.refused = true ∨ s.refused_due env now = true ∨ Outlived env d) := by
  have new_play : Outlived env d ↔ (d.metadata = true → d.begun.isSome = true) ∧
      (d.now_playing = true → ∃ track_id, d.begun = some track_id ∧
        (env.connected = true → env.fetch track_id ≠ some (.ok .notReady))) :=
    ⟨fun h => ⟨h.metadata, h.now_playing⟩, fun h => ⟨h.1, h.2⟩⟩
  simp only [new_play, Damage.outlived, Bool.and_eq_true, Bool.not_eq_true', Bool.or_eq_true,
    Option.any_eq_true, decide_eq_true_eq, imp_iff_not_or, Bool.not_eq_true, or_assoc]

/-- A poll that outlives the damage polls nothing that has resolved. -/
theorem poll_marked (h : s.AtRest d) (outlived : d.outlived env ⟨s, now⟩ = true) :
    Follows no_repoll d (s.poll env now) fun r d => r.1.Stopped d := by
  obtain ⟨unspent, outlived⟩ := outlived_iff.mp outlived
  have marked := h.marked
  rw [unspent] at marked
  refine Call.follows_bind (Call.follows_weaken (proceed_marked
    (poll_auth_marked marked h.kept (fun refused => h.pending refused unspent) outlived)
      fun s d h given => proceed_marked (poll_scrobble_marked h given) fun s d h given =>
      proceed_marked (poll_new_track_marked h given) fun s d h given =>
      proceed_marked (poll_meta_fetch_marked h given) fun s d h given =>
      poll_now_playing_marked h given) ?_)
  rintro ⟨s, returned⟩ d left
  cases returned with
  | some _ => exact Call.follows_pure left
  | none =>
    obtain ⟨h, unhurt⟩ := left
    refine Call.follows_pure ⟨h.weaken nofun, unhurt.kept, fun refused => ?_⟩
    rw [unhurt.unrefused] at refused
    cases refused

/-! And a poll that does not outlive the damage does poll a future that has resolved. -/

theorem proceed_first {first : Stage} {next : Scrobbler → Stage} {e : Effect}
    (member : e ∈ first.log) : e ∈ (proceed first next).log :=
  Call.mem_bind_left member

theorem proceed_next {first : Stage} {next : Scrobbler → Stage} {e : Effect}
    (goes_on : first.value = some (s, none)) (member : e ∈ (next s).log) :
    e ∈ (proceed first next).log :=
  Call.mem_bind_right goes_on member

theorem poll_auth_repolls (spent : s.auth_future = .resolved) :
    .repolled .auth_future ∈ s.poll_auth.log := by
  unfold poll_auth
  rw [spent]
  exact .head _

theorem poll_auth_goes_on (granted : s.auth_future.Blames false false) :
    s.poll_auth.value = some ({ s with auth_future := .empty }, none) := by
  unfold poll_auth
  cases held : s.auth_future with
  | empty => rfl
  | result r =>
    cases r with
    | ok _ => rfl
    | error _ => rw [held] at granted; cases granted
  | task key => cases key
  | resolved => rw [held] at granted; cases granted

theorem poll_scrobble_repolls (spent : s.scrobble_future = some .resolved) :
    .repolled .scrobble_future ∈ (s.poll_scrobble env now).log := by
  have unchanged : s.start_due_scrobble env now = ⟨[], some s⟩ := by
    rcases start_due_scrobble_cases env now s with ⟨same, _⟩ | ⟨_, can, _⟩
    · exact same
    · rw [(can_scrobble_track_iff.mp can).2.1] at spent
      cases spent
  unfold poll_scrobble
  simp only [unchanged, Call.bind_some, spent]
  exact .head _

theorem poll_scrobble_goes_on
    (granted : ∀ f, s.scrobble_future = some f → f ≠ .empty ∧ f.Blames false false)
    (sent : s.refused_due env now = false) : ∃ scrobble_future current_track_scrobbled,
      (s.poll_scrobble env now).value =
        some ({ s with scrobble_future, current_track_scrobbled }, none) := by
  unfold poll_scrobble
  rcases start_due_scrobble_cases env now s with ⟨same, _⟩ | ⟨scrobble, can, known, submits⟩
  · simp only [same, Call.bind_some]
    cases held : s.scrobble_future with
    | none => exact ⟨s.scrobble_future, s.current_track_scrobbled, rfl⟩
    | some f =>
      obtain ⟨under_way, granted⟩ := granted f held
      cases f with
      | empty => exact absurd rfl under_way
      | result r =>
        cases r with
        | ok _ => exact ⟨none, true, rfl⟩
        | error _ => cases granted
      | task key => cases key
      | resolved => cases granted
  · simp only [submits, Call.bind_some]
    cases answer : env.scrobble with
    | ok _ => exact ⟨none, true, rfl⟩
    | error _ =>
      simp [refused_due, can, known, answer, Except.isOk, Except.toBool] at sent

theorem poll_meta_fetch_repolls (spent : s.meta_fetch_future = .resolved) :
    .repolled .meta_fetch_future ∈ (s.poll_meta_fetch env).log := by
  unfold poll_meta_fetch
  rw [spent]
  exact .head _

theorem poll_now_playing_repolls (spent : s.now_playing_future = .resolved) :
    .repolled .now_playing_future ∈ s.poll_now_playing.log := by
  unfold poll_now_playing
  rw [spent]
  exact .head _

theorem later_parts_repoll (env : Env)
    (new_track : s.new_track_future = if d.begun.isSome then .result (.ok ()) else .empty)
    (track : ∀ track_id, d.begun = some track_id → s.current_track_id = some track_id)
    (kept : s.Kept d) (lost : ¬ Outlived env d) :
    ∃ slot, .repolled slot ∈ (proceed (s.poll_new_track env) fun s =>
      proceed (s.poll_meta_fetch env) fun s => s.poll_now_playing).log := by
  cases begun : d.begun with
  | none =>
    have slot : s.new_track_future = .empty := by rw [new_track, begun]; rfl
    have unchanged : (s.poll_new_track env).value = some (s, none) := by
      unfold poll_new_track
      rw [slot]
      exact congrArg (fun s => some (s, none)) (by rw [← slot])
    have refetched : s.meta_fetch_future = .resolved → ∃ slot, .repolled slot ∈
        (proceed (s.poll_new_track env) fun s =>
          proceed (s.poll_meta_fetch env) fun s => s.poll_now_playing).log := fun spent =>
      ⟨_, proceed_next unchanged (proceed_first (poll_meta_fetch_repolls spent))⟩
    cases failed : d.metadata with
    | true => exact refetched (kept.metadata failed)
    | false =>
      cases refused : d.now_playing with
      | false =>
        refine absurd ⟨fun failed' => ?_, fun refused' => ?_⟩ lost
        · rw [failed] at failed'; cases failed'
        · rw [refused] at refused'; cases refused'
      | true =>
        obtain ⟨spent, empty | resolved⟩ := kept.now_playing refused
        · have idle : (s.poll_meta_fetch env).value = some (s, none) := by
            unfold poll_meta_fetch
            rw [empty]
            exact congrArg (fun s => some (s, none)) (by rw [← empty])
          exact ⟨_, proceed_next unchanged (proceed_next idle (poll_now_playing_repolls spent))⟩
        · exact refetched resolved
  | some track_id =>
    have unanswered : d.now_playing = true ∧ env.connected = true ∧
        env.fetch track_id = some (.ok .notReady) := by
      by_contra answered
      exact lost ⟨fun _ => by rw [begun]; rfl, fun refused => ⟨track_id, begun,
        fun connected waiting => answered ⟨refused, connected, waiting⟩⟩⟩
    obtain ⟨refused, connected, waiting⟩ := unanswered
    have slot : s.new_track_future = .result (.ok ()) := by rw [new_track, begun]; rfl
    have requested : (s.poll_new_track env).value = some ({ s with
        new_track_future := .empty, current_track_scrobbled := false
        meta_fetch_future := .task track_id }, none) := by
      unfold poll_new_track
      rw [slot]
      simp [BoxFuture.poll_result, BoxFuture.poll, track track_id begun, get_track_meta, connected]
    have idle : ∀ {t : Scrobbler}, t.meta_fetch_future = .task track_id →
        (t.poll_meta_fetch env).value = some (t, none) := by
      intro t task
      unfold poll_meta_fetch
      rw [task]
      simp [BoxFuture.poll, waiting, ← task]
    exact ⟨_, proceed_next requested (proceed_next (idle rfl)
      (poll_now_playing_repolls (kept.now_playing refused).1))⟩

theorem poll_repolls (h : s.AtRest d) (lost : d.outlived env ⟨s, now⟩ = false) :
    ∃ slot, .repolled slot ∈ (s.poll env now).log := by
  have not_outlived := outlived_iff.not.mp (by rw [lost]; nofun)
  cases returned : d.returned with
  | true =>
    rcases h.spent returned with auth | ⟨auth, scrobble⟩
    · exact ⟨_, Call.mem_bind_left (proceed_first (poll_auth_repolls auth))⟩
    · have granted := poll_auth_goes_on (s := s) (by rw [auth]; trivial)
      exact ⟨_, Call.mem_bind_left (proceed_next granted
        (proceed_first (poll_scrobble_repolls scrobble)))⟩
  | false =>
    obtain ⟨refused, not_due, lost⟩ : d.refused = false ∧ s.refused_due env now = false ∧
        ¬ Outlived env d := by
      simpa [returned] using not_outlived
    have marked := h.marked
    rw [returned] at marked
    have auth := marked.auth
    have scrobble := marked.scrobble
    rw [refused] at auth scrobble
    obtain ⟨scrobble_future, flag, goes_on⟩ :=
      poll_scrobble_goes_on (s := { s with auth_future := .empty }) scrobble not_due
    obtain ⟨slot, repolled⟩ := later_parts_repoll env (s := { s with
      auth_future := .empty, scrobble_future, current_track_scrobbled := flag })
      marked.new_track marked.track ⟨h.kept.metadata, h.kept.now_playing⟩ lost
    exact ⟨slot, Call.mem_bind_left (proceed_next (poll_auth_goes_on auth)
      (proceed_next goes_on repolled))⟩

/-! Between polls. -/

theorem Stopped.at_rest (h : s.Stopped d) : s.AtRest { d with returned := d.refused } := by
  obtain ⟨auth, new_track, track, meta_fetch, now_playing, scrobble⟩ := h.marked
  refine ⟨⟨auth, new_track, track, meta_fetch, now_playing, scrobble⟩,
    ⟨h.kept.metadata, h.kept.now_playing⟩, h.spent, fun refused unspent => ?_⟩
  cases refused.symm.trans unspent

theorem start_due_scrobble_at_rest (env : Env) (now : Instant) (h : s.AtRest d) :
    Follows no_repoll d (s.start_due_scrobble env now) AtRest := by
  rcases start_due_scrobble_cases env now s with ⟨same, _⟩ | ⟨scrobble, can, _, sent⟩
  · rw [same]
    exact Call.follows_pure h
  · rw [sent]
    refine ⟨_, Call.observe_singleton (no_repoll_sent ..), ?_⟩
    rintro _ ⟨⟩
    refine ⟨h.marked.sent _, ⟨h.kept.metadata, h.kept.now_playing⟩, fun returned => ?_,
      fun refused unspent => ?_⟩
    · rcases h.spent returned with auth | ⟨_, held⟩
      · exact .inl auth
      · rw [(can_scrobble_track_iff.mp can).2.1] at held
        cases held
    · cases before : d.refused with
      | false => exact .inr (unsent_submitted (by simpa [before] using refused))
      | true =>
        rcases h.pending before unspent with auth | unsent
        · exact .inl auth
        · rw [unsent.not_due] at can
          cases can

theorem update_current_track_at_rest (env : Env) (now : Instant) (track_id : SpotifyId)
    (force_new_track : Bool) (h : s.AtRest d) :
    Follows no_repoll d (s.update_current_track env now track_id force_new_track) AtRest := by
  refine Call.follows_ite (fun _ => ?_) (fun _ => Call.follows_pure h)
  apply Call.follows_bind
  apply Call.follows_weaken (start_due_scrobble_at_rest env now h)
  intro s d h
  obtain ⟨auth, _, _, meta_fetch, now_playing, scrobble⟩ := h.marked
  refine Call.follows_bind (Call.follows_bind (Call.follows_emit rfl (Call.follows_pure
    (Call.follows_pure ⟨⟨auth, rfl, ?_, meta_fetch, now_playing, scrobble⟩,
      ⟨h.kept.metadata, h.kept.now_playing⟩, h.spent, h.pending⟩))))
  rintro other ⟨⟩
  rfl

theorem started_at_rest (config : ScrobblerConfig) (answer : Except ScrobblerError Unit) :
    (started config answer).AtRest
      (damage [.authenticate config.username config.password answer]) := by
  cases answer with
  | ok _ => exact ⟨⟨trivial, rfl, nofun, trivial, trivial, nofun⟩, ⟨nofun, nofun⟩, nofun, nofun⟩
  | error e =>
    exact ⟨⟨rfl, rfl, nofun, trivial, trivial, nofun⟩, ⟨nofun, nofun⟩, nofun, fun _ _ => .inl ⟨e, rfl⟩⟩

end Scrobbler

theorem Listener.step_at_rest {w : Listener} {d : Damage} (h : w.scrobbler.AtRest d) {a : Action}
    (outlived : ∀ env, a = .poll env → d.outlived env w = true) :
    Follows no_repoll d (w.step a) fun w d => w.scrobbler.AtRest d := by
  cases a with
  | wait time => exact Call.follows_pure h
  | update_current_track env track_id force_new_track =>
    exact Call.follows_bind (Call.follows_weaken (Scrobbler.update_current_track_at_rest env w.clock
      track_id force_new_track h) fun _ _ h => Call.follows_pure h)
  | poll env =>
    refine Call.follows_bind (Call.follows_weaken (Scrobbler.poll_marked h (outlived env rfl))
      fun _ _ stopped => ?_)
    exact Call.follows_bind (Call.follows_emit rfl (Call.follows_pure stopped.at_rest))

/-- Every poll of a run outlives the damage done before it. -/
def Listener.Outlives (config : ScrobblerConfig) (answer : Except ScrobblerError Unit)
    (clock : Instant) (actions : List Action) : Prop :=
  ∀ before env after w, actions = before ++ .poll env :: after →
    (Listener.run config answer clock before).value = some w →
    (damage (Listener.run config answer clock before).log).outlived env w = true

variable {config : ScrobblerConfig} {answer : Except ScrobblerError Unit} {clock : Instant}

theorem Listener.outlives_snoc {actions : List Action} {a : Action} :
    Outlives config answer clock (actions ++ [a]) ↔ Outlives config answer clock actions ∧
      ∀ env w, a = .poll env → (Listener.run config answer clock actions).value = some w →
        (damage (Listener.run config answer clock actions).log).outlived env w = true := by
  constructor
  · refine fun outlives => ⟨fun before env after w cut => ?_, fun env w last => ?_⟩
    · exact outlives before env (after ++ [a]) w (by rw [cut]; simp)
    · exact outlives actions env [] w (by rw [last])
  · rintro ⟨outlives, last⟩ before env after w cut
    rcases List.eq_nil_or_concat after with rfl | ⟨after, b, rfl⟩
    · obtain ⟨rfl, same⟩ := List.append_inj' cut rfl
      exact last env w (List.singleton_inj.mp same)
    · have cut : actions ++ [a] = (before ++ .poll env :: after) ++ [b] := by simpa using cut
      exact outlives before env after w (List.append_inj' cut rfl).1

theorem Listener.run_at_rest {actions : List Action}
    (outlives : Outlives config answer clock actions) :
    Follows no_repoll .none (Listener.run config answer clock actions)
      fun w d => w.scrobbler.AtRest d := by
  induction actions using List.reverseRecOn with
  | nil =>
    rw [Listener.run_eq]
    refine ⟨damage [.authenticate config.username config.password answer], ?_, ?_⟩
    · cases answer <;> rfl
    · rintro w ⟨⟩
      exact Scrobbler.started_at_rest config answer
  | append_singleton actions a ih =>
    obtain ⟨outlives, last⟩ := outlives_snoc.mp outlives
    obtain ⟨d, accepted, at_rest⟩ := ih outlives
    rw [Listener.run_snoc]
    refine Call.follows_bind ⟨d, accepted, fun w reached =>
      Listener.step_at_rest (at_rest w reached) fun env poll => ?_⟩
    rw [(observe_no_repoll accepted).1]
    exact last env w poll reached

theorem Listener.run_repolls {actions : List Action}
    (lost : ¬ Outlives config answer clock actions) :
    ∃ slot, .repolled slot ∈ (Listener.run config answer clock actions).log := by
  induction actions using List.reverseRecOn with
  | nil => exact absurd (fun before _ _ _ cut => by cases before <;> cases cut) lost
  | append_singleton actions a ih =>
    rw [Listener.run_snoc]
    by_cases outlives : Outlives config answer clock actions
    · obtain ⟨d, accepted, at_rest⟩ := Listener.run_at_rest outlives
      by_contra none_repolled
      refine lost (outlives_snoc.mpr ⟨outlives, fun env w poll reached => ?_⟩)
      subst poll
      rw [(observe_no_repoll accepted).1] at at_rest
      by_contra not_outlived
      obtain ⟨slot, repolled⟩ := Scrobbler.poll_repolls (at_rest w reached)
        (Bool.eq_false_iff.mpr not_outlived)
      exact none_repolled ⟨slot, Call.mem_bind_right reached (Call.mem_bind_left repolled)⟩
    · obtain ⟨slot, repolled⟩ := ih outlives
      exact ⟨slot, Call.mem_bind_left repolled⟩

/-! Nothing else in the scrobbler panics. -/

def Effect.repolls (e : Effect) : Prop :=
  ∃ slot, e = .repolled slot

/-- The session takes packets, and the metadata fetch does not panic. -/
def Action.Sound : Action → Prop
  | .poll env => env.connected = true ∧ ∀ track_id, env.fetch track_id ≠ none
  | _ => True

namespace Scrobbler

variable {s : Scrobbler} {env : Env} {now : Instant}

theorem start_due_scrobble_panics : PanicsBy Effect.repolls (s.start_due_scrobble env now) := by
  rcases start_due_scrobble_cases env now s with ⟨same, _⟩ | ⟨_, _, _, sent⟩
  · rw [same]
    exact Call.panics_by_pure s
  · rw [sent]
    exact Call.panics_by_bind (Call.panics_by_emit nofun) fun _ _ => Call.panics_by_pure _

theorem poll_auth_panics : PanicsBy Effect.repolls s.poll_auth := by
  refine Call.panics_by_bind (BoxFuture.panics_by_poll ⟨_, rfl⟩ nofun nofun) fun r _ => ?_
  dsimp only
  split <;> exact Call.panics_by_pure _

theorem poll_scrobble_panics : PanicsBy Effect.repolls (s.poll_scrobble env now) := by
  refine Call.panics_by_bind start_due_scrobble_panics fun s _ => ?_
  split
  · refine Call.panics_by_bind (BoxFuture.panics_by_poll ⟨_, rfl⟩ nofun nofun) fun r _ => ?_
    dsimp only
    split <;> exact Call.panics_by_pure _
  · exact Call.panics_by_pure _

theorem poll_new_track_panics (connected : env.connected = true) :
    PanicsBy Effect.repolls (s.poll_new_track env) := by
  have requested : ∀ track_id, PanicsBy Effect.repolls (get_track_meta env track_id) := by
    intro track_id
    refine Call.panics_by_bind (Call.panics_by_emit nofun) fun _ _ => ?_
    rw [if_pos connected]
    exact Call.panics_by_pure _
  refine Call.panics_by_bind (BoxFuture.panics_by_poll ⟨_, rfl⟩ nofun nofun) fun r _ => ?_
  dsimp only
  split
  · split
    · exact Call.panics_by_bind (requested _) fun _ _ => Call.panics_by_pure _
    · exact Call.panics_by_pure _
  · exact Call.panics_by_pure _
  · exact Call.panics_by_pure _

theorem poll_meta_fetch_panics (answered : ∀ track_id, env.fetch track_id ≠ none) :
    PanicsBy Effect.repolls (s.poll_meta_fetch env) := by
  refine Call.panics_by_bind (BoxFuture.panics_by_poll ⟨_, rfl⟩ nofun answered) fun r _ => ?_
  dsimp only
  split
  · exact Call.panics_by_bind (Call.panics_by_bind (Call.panics_by_emit nofun)
      fun _ _ => Call.panics_by_pure _) fun _ _ => Call.panics_by_pure _
  · exact Call.panics_by_pure _
  · exact Call.panics_by_pure _

theorem poll_now_playing_panics : PanicsBy Effect.repolls s.poll_now_playing := by
  refine Call.panics_by_bind (BoxFuture.panics_by_poll ⟨_, rfl⟩ nofun nofun) fun r _ => ?_
  dsimp only
  split <;> exact Call.panics_by_pure _

theorem proceed_panics {first : Stage} {next : Scrobbler → Stage}
    (begins : PanicsBy Effect.repolls first) (goes_on : ∀ s, PanicsBy Effect.repolls (next s)) :
    PanicsBy Effect.repolls (proceed first next) := by
  refine Call.panics_by_bind begins fun r _ => ?_
  dsimp only
  split
  · exact goes_on _
  · exact Call.panics_by_pure _

end Scrobbler

theorem Listener.step_panics (w : Listener) {a : Action} (sound : a.Sound) :
    PanicsBy Effect.repolls (w.step a) := by
  cases a with
  | wait time => exact Call.panics_by_pure _
  | update_current_track env track_id force_new_track =>
    refine Call.panics_by_bind ?_ fun _ _ => Call.panics_by_pure _
    unfold Scrobbler.update_current_track
    split
    · exact Call.panics_by_bind Scrobbler.start_due_scrobble_panics fun _ _ =>
        Call.panics_by_bind (Call.panics_by_bind (Call.panics_by_emit nofun)
          fun _ _ => Call.panics_by_pure _) fun _ _ => Call.panics_by_pure _
    · exact Call.panics_by_pure _
  | poll env =>
    obtain ⟨connected, answered⟩ := sound
    refine Call.panics_by_bind (Call.panics_by_bind (Scrobbler.proceed_panics
      Scrobbler.poll_auth_panics fun s => Scrobbler.proceed_panics
      Scrobbler.poll_scrobble_panics fun s => Scrobbler.proceed_panics
      (Scrobbler.poll_new_track_panics connected) fun s => Scrobbler.proceed_panics
      (Scrobbler.poll_meta_fetch_panics answered) fun s => Scrobbler.poll_now_playing_panics)
      fun _ _ => Call.panics_by_pure _) fun _ _ => ?_
    exact Call.panics_by_bind (Call.panics_by_emit nofun) fun _ _ => Call.panics_by_pure _

theorem Listener.run_panics {actions : List Action} (sound : ∀ a ∈ actions, a.Sound) :
    PanicsBy Effect.repolls (Listener.run config answer clock actions) := by
  refine Call.panics_by_bind ?_ fun _ _ =>
    Call.panics_by_run fun w a member => Listener.step_panics w (sound a member)
  rw [Scrobbler.new_eq]
  exact Call.panics_by_bind (Call.panics_by_emit nofun) fun _ _ => Call.panics_by_pure _

/-- A run polls no future that has resolved if and only if each of its polls
outlives the damage done before it; and then nothing in it panics, unless the
session or the metadata fetch does. -/
theorem never_repolled (config : ScrobblerConfig) (answer : Except ScrobblerError Unit)
    (clock : Instant) (actions : List Action) :
    ((∀ slot, .repolled slot ∉ (Listener.run config answer clock actions).log) ↔
      Listener.Outlives config answer clock actions) ∧
    ((∀ a ∈ actions, a.Sound) → Listener.Outlives config answer clock actions →
      ∃ w, (Listener.run config answer clock actions).value = some w) := by
  have iff : (∀ slot, .repolled slot ∉ (Listener.run config answer clock actions).log) ↔
      Listener.Outlives config answer clock actions := by
    constructor
    · intro none_repolled
      by_contra lost
      obtain ⟨slot, repolled⟩ := Listener.run_repolls lost
      exact none_repolled slot repolled
    · intro outlives
      obtain ⟨_, accepted, _⟩ := Listener.run_at_rest outlives
      exact (observe_no_repoll accepted).2
  refine ⟨iff, fun sound outlives => Option.ne_none_iff_exists'.mp fun panics => ?_⟩
  obtain ⟨_, repolled, slot, rfl⟩ := (Listener.run_panics sound).mp panics
  exact iff.mpr outlives slot repolled

/-! A metadata request that fails, and the play after it. -/

def offline : Env := { answering with fetch := fun _ => some (.error ⟨"offline"⟩) }
def failed_play : List Action :=
  [.update_current_track answering first_track false, .poll offline,
    .update_current_track answering second_track false, .poll answering]

theorem failed_play_recovers :
    (∀ slot, .repolled slot ∉ (Listener.run account (.ok ()) 0 failed_play).log) ∧
    ∃ w, (Listener.run account (.ok ()) 0 failed_play).value = some w := by
  obtain ⟨iff, returns⟩ := never_repolled account (.ok ()) 0 failed_play
  have outlives : Listener.Outlives account (.ok ()) 0 failed_play := by
    intro before env after w cut reached
    rcases before with _ | ⟨_, _ | ⟨_, _ | ⟨_, _ | ⟨_, _ | ⟨_, _⟩⟩⟩⟩⟩ <;> cases cut <;>
      cases reached <;> rfl
  refine ⟨iff.mpr outlives, returns (fun a member => ?_) outlives⟩
  simp only [failed_play, List.mem_cons, List.not_mem_nil, or_false] at member
  rcases member with rfl | rfl | rfl | rfl
  · trivial
  · exact ⟨rfl, nofun⟩
  · trivial
  · exact ⟨rfl, nofun⟩

/-- The second poll after a refused login polls the login again, and panics. -/
theorem refused_login_repolled :
    .repolled .auth_future ∈ (Listener.run account (.error ⟨"refused"⟩) 0
      [.poll answering, .poll answering]).log ∧
    (Listener.run account (.error ⟨"refused"⟩) 0 [.poll answering, .poll answering]).value = none := by
  decide

end ConnectScrobbler
