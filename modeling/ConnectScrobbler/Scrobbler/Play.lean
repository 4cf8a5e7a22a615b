import ConnectScrobbler.Scrobbler
import Mathlib.Data.List.Count

/-! What the scrobbler is for, said without its future slots. A play has one
track and one start; it is given the metadata of its own track once, and it may
be submitted once, with that metadata, after more than twenty seconds. Nothing
is said here about how `poll` brings this about. -/
namespace ConnectScrobbler

structure Play where
  track : SpotifyId
  start : Instant
  metadata : Option Scrobble
  submitted : Bool
  deriving DecidableEq, Repr

namespace Play

/-- The effects in order during a play, and the play after them. Before the
first play nothing may be fetched or sent. -/
def allow : Option Play → Effect → Option (Option Play)
  | _, .set_new_track track start => some (some ⟨track, start, none, false⟩)
  | some p, .get_track_meta id => if id = p.track then some (some p) else none
  | some p, .fetched id (.ok scrobble) =>
    if id = p.track ∧ p.metadata = none then some (some { p with metadata := some scrobble })
    else none
  | some p, .fetched id (.error _) => if id = p.track then some (some p) else none
  | some p, .send_now_playing track _ => if p.metadata = some track then some (some p) else none
  | some p, .send_scrobble scrobble time _ =>
    if p.metadata = some scrobble ∧ p.submitted = false ∧ p.start + Duration.new 20 0 < time then
      some (some { p with submitted := true })
    else none
  | none, .get_track_meta _ => none
  | none, .fetched _ _ => none
  | none, .send_now_playing _ _ => none
  | none, .send_scrobble _ _ _ => none
  | p, .authenticate _ _ _ => some p
  | p, .repolled _ => some p
  | p, .polled _ => some p

theorem allow_repolled (p : Option Play) (slot : Slot) : allow p (.repolled slot) = some p := by
  cases p <;> rfl

theorem allow_polled (p : Option Play) (result : Poll (Except Unit Unit) Unit) :
    allow p (.polled result) = some p := by
  cases p <;> rfl

end Play

def Effect.begins_play : Effect → Bool
  | .set_new_track _ _ => true
  | _ => false

def Effect.submits : Effect → Bool
  | .send_scrobble _ _ _ => true
  | _ => false

def Effect.sends (scrobble : Scrobble) : Effect → Bool
  | .send_scrobble sent _ _ => decide (sent = scrobble)
  | .send_now_playing sent _ => decide (sent = scrobble)
  | _ => false

/-- `span` is what happened since the play of `track` began at `start`, and no
play has begun in `log` since. -/
def LatestPlay (log : List Effect) (track : SpotifyId) (start : Instant) (span : List Effect) :
    Prop :=
  ∃ before, log = before ++ .set_new_track track start :: span ∧ ∀ e ∈ span, e.begins_play = false

theorem LatestPlay.snoc {log : List Effect} {track : SpotifyId} {start : Instant}
    {span : List Effect} (latest : LatestPlay log track start span) {e : Effect}
    (same : e.begins_play = false) : LatestPlay (log ++ [e]) track start (span ++ [e]) := by
  obtain ⟨before, rfl, none_begins⟩ := latest
  refine ⟨before, by simp, fun x hx => ?_⟩
  rcases List.mem_append.mp hx with hx | hx
  · exact none_begins x hx
  · rw [List.mem_singleton.mp hx]
    exact same

theorem LatestPlay.unique {log : List Effect} {track track' : SpotifyId} {start start' : Instant}
    {span span' : List Effect} (h : LatestPlay log track start span)
    (h' : LatestPlay log track' start' span') : track = track' ∧ start = start' ∧ span = span' := by
  obtain ⟨before, rfl, same⟩ := h
  obtain ⟨before', equal, same'⟩ := h'
  rcases List.append_eq_append_iff.mp equal with ⟨gap, _, rest⟩ | ⟨gap, _, rest⟩
  all_goals
    cases gap with
    | nil => cases rest; exact ⟨rfl, rfl, rfl⟩
    | cons e gap =>
      -- the later of two beginnings would lie in the other one's span
      exfalso
      obtain ⟨_, inside⟩ := List.cons.inj rest
      first
        | have := same (.set_new_track track' start') (by simp [inside])
          cases this
        | have := same' (.set_new_track track start) (by simp [inside])
          cases this

/-- What an accepted log says about the play it ends in. -/
structure Play.Explains (p : Play) (span : List Effect) : Prop where
  counted : span.countP Effect.submits = if p.submitted then 1 else 0
  submission : ∀ scrobble time answer, .send_scrobble scrobble time answer ∈ span →
    p.metadata = some scrobble ∧ p.start + Duration.new 20 0 < time
  metadata : ∀ scrobble, p.metadata = some scrobble → .fetched p.track (.ok scrobble) ∈ span

theorem Play.explains_begin (track : SpotifyId) (start : Instant) :
    (⟨track, start, none, false⟩ : Play).Explains [] :=
  ⟨rfl, nofun, nofun⟩

theorem Play.Explains.snoc_other {p : Play} {span : List Effect} (h : p.Explains span) {e : Effect}
    (other : e.submits = false) : p.Explains (span ++ [e]) := by
  refine ⟨?_, ?_, ?_⟩
  · rw [List.countP_append, h.counted]
    simp [other]
  · intro scrobble time answer member
    rcases List.mem_append.mp member with member | member
    · exact h.submission scrobble time answer member
    · rw [← List.mem_singleton.mp member] at other
      cases other
  · intro scrobble known
    exact List.mem_append_left _ (h.metadata scrobble known)

theorem Play.Explains.snoc_fetched {p : Play} {span : List Effect} (h : p.Explains span)
    (unknown : p.metadata = none) (scrobble : Scrobble) :
    ({ p with metadata := some scrobble } : Play).Explains
      (span ++ [.fetched p.track (.ok scrobble)]) := by
  refine ⟨?_, ?_, ?_⟩
  · rw [List.countP_append, h.counted]
    simp [Effect.submits]
  · intro s time answer member
    rcases List.mem_append.mp member with member | member
    · have := (h.submission s time answer member).1
      rw [unknown] at this
      cases this
    · cases List.mem_singleton.mp member
  · intro s known
    cases known
    exact List.mem_append_right _ (List.mem_singleton.mpr rfl)

theorem Play.Explains.snoc_submission {p : Play} {span : List Effect} (h : p.Explains span)
    {scrobble : Scrobble} {time : Instant} (answer : Except ScrobblerError Unit)
    (known : p.metadata = some scrobble) (fresh : p.submitted = false)
    (late : p.start + Duration.new 20 0 < time) :
    ({ p with submitted := true } : Play).Explains
      (span ++ [.send_scrobble scrobble time answer]) := by
  refine ⟨?_, ?_, ?_⟩
  · rw [List.countP_append, h.counted, fresh]
    simp [Effect.submits]
  · intro s t a member
    rcases List.mem_append.mp member with member | member
    · exact h.submission s t a member
    · cases List.mem_singleton.mp member
      exact ⟨known, late⟩
  · intro s hs
    exact List.mem_append_left _ (h.metadata s hs)

theorem Play.allow_cases {before : Option Play} {e : Effect} {p : Play}
    (taken : allow before e = some (some p)) :
    (∃ track start, e = .set_new_track track start ∧ p = ⟨track, start, none, false⟩) ∨
    ∃ q, before = some q ∧ e.begins_play = false ∧
      ((p = q ∧ e.submits = false) ∨
       (∃ scrobble, e = .fetched q.track (.ok scrobble) ∧ q.metadata = none ∧
          p = { q with metadata := some scrobble }) ∨
       (∃ scrobble time answer, e = .send_scrobble scrobble time answer ∧
          q.metadata = some scrobble ∧ q.submitted = false ∧
          q.start + Duration.new 20 0 < time ∧ p = { q with submitted := true })) := by
  cases before with
  | none =>
    cases e with
    | set_new_track track start => cases taken; exact .inl ⟨track, start, rfl, rfl⟩
    | fetched id answer => cases answer <;> cases taken
    | _ => cases taken
  | some q =>
    cases e with
    | set_new_track track start => cases taken; exact .inl ⟨track, start, rfl, rfl⟩
    | fetched id answer =>
      refine .inr ⟨q, rfl, rfl, ?_⟩
      cases answer with
      | ok scrobble =>
        simp only [allow, Option.ite_none_right_eq_some, Option.some.injEq] at taken
        obtain ⟨⟨rfl, unknown⟩, rfl⟩ := taken
        exact .inr (.inl ⟨scrobble, rfl, unknown, rfl⟩)
      | error err =>
        simp only [allow, Option.ite_none_right_eq_some, Option.some.injEq] at taken
        exact .inl ⟨taken.2.symm, rfl⟩
    | send_scrobble scrobble time answer =>
      simp only [allow, Option.ite_none_right_eq_some, Option.some.injEq] at taken
      obtain ⟨⟨known, fresh, late⟩, rfl⟩ := taken
      exact .inr ⟨q, rfl, rfl, .inr (.inr ⟨scrobble, time, answer, rfl, known, fresh, late, rfl⟩)⟩
    | get_track_meta id =>
      simp only [allow, Option.ite_none_right_eq_some, Option.some.injEq] at taken
      exact .inr ⟨q, rfl, rfl, .inl ⟨taken.2.symm, rfl⟩⟩
    | send_now_playing track answer =>
      simp only [allow, Option.ite_none_right_eq_some, Option.some.injEq] at taken
      exact .inr ⟨q, rfl, rfl, .inl ⟨taken.2.symm, rfl⟩⟩
    | _ => cases taken; exact .inr ⟨_, rfl, rfl, .inl ⟨rfl, rfl⟩⟩

theorem Play.sends_known {before after : Option Play} {e : Effect} {scrobble : Scrobble}
    (taken : allow before e = some after) (sends : e.sends scrobble = true) :
    ∃ q, before = some q ∧ q.metadata = some scrobble := by
  cases e with
  | send_scrobble sent time answer =>
    obtain rfl : sent = scrobble := of_decide_eq_true sends
    cases before with
    | none => cases taken
    | some q =>
      simp only [allow, Option.ite_none_right_eq_some] at taken
      exact ⟨q, rfl, taken.1.1⟩
  | send_now_playing sent answer =>
    obtain rfl : sent = scrobble := of_decide_eq_true sends
    cases before with
    | none => cases taken
    | some q =>
      simp only [allow, Option.ite_none_right_eq_some] at taken
      exact ⟨q, rfl, taken.1⟩
  | _ => cases sends

/-- The play an accepted log ends in is the latest one, and the log explains it. -/
theorem Play.explained {log : List Effect} {p : Play}
    (accepted : Call.observe Play.allow none log = some (some p)) :
    ∃ span, LatestPlay log p.track p.start span ∧ p.Explains span := by
  induction log using List.reverseRecOn generalizing p with
  | nil => cases accepted
  | append_singleton log e ih =>
    obtain ⟨before, after, reached, taken, last⟩ := Call.observe_at accepted
    cases last
    rcases allow_cases taken with ⟨track, start, rfl, rfl⟩ | ⟨q, rfl, same, step⟩
    · exact ⟨[], ⟨log, rfl, nofun⟩, explains_begin track start⟩
    · obtain ⟨span, latest, explains⟩ := ih reached
      rcases step with ⟨rfl, other⟩ | ⟨scrobble, rfl, unknown, rfl⟩ |
        ⟨scrobble, time, answer, rfl, known, fresh, late, rfl⟩
      · exact ⟨_, latest.snoc same, explains.snoc_other other⟩
      · exact ⟨_, latest.snoc same, explains.snoc_fetched unknown scrobble⟩
      · exact ⟨_, latest.snoc same, explains.snoc_submission answer known fresh late⟩

theorem Play.allow_some {p : Play} {e : Effect} {after : Option Play}
    (taken : allow (some p) e = some after) : ∃ q, after = some q := by
  cases after with
  | some q => exact ⟨q, rfl⟩
  | none =>
    exfalso
    cases e with
    | fetched id answer => cases answer <;> simp [allow] at taken
    | _ => simp [allow] at taken

theorem Play.observe_some {span : List Effect} {p : Play} {after : Option Play}
    (accepted : Call.observe Play.allow (some p) span = some after) : ∃ q, after = some q := by
  induction span generalizing p with
  | nil => cases accepted; exact ⟨p, rfl⟩
  | cons e span ih =>
    obtain ⟨next, taken, rest⟩ := Option.bind_eq_some_iff.mp accepted
    obtain ⟨q, rfl⟩ := allow_some taken
    exact ih rest

/-- Every play of an accepted log is explained by its span, also one that is over. -/
theorem LatestPlay.explained {log after : List Effect} {last : Option Play} {track : SpotifyId}
    {start : Instant} {span : List Effect} (latest : LatestPlay log track start span)
    (accepted : Call.observe Play.allow none (log ++ after) = some last) :
    ∃ p : Play, Call.observe Play.allow none log = some (some p) ∧
      p.track = track ∧ p.start = start ∧ p.Explains span := by
  rw [Call.observe_append, Option.bind_eq_some_iff] at accepted
  obtain ⟨reached, hr, _⟩ := accepted
  obtain ⟨before, rfl, _⟩ := id latest
  obtain ⟨_, next, _, begun, rest⟩ := Call.observe_at hr
  cases begun
  obtain ⟨p, rfl⟩ := Play.observe_some rest
  obtain ⟨span', latest', explains⟩ := Play.explained hr
  obtain ⟨rfl, rfl, rfl⟩ := latest.unique latest'
  exact ⟨p, hr, rfl, rfl, explains⟩

end ConnectScrobbler
