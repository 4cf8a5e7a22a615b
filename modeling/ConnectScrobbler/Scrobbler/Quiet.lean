import ConnectScrobbler.Scrobbler.Guarantees

/-! What polling leaves as it is: the track that is playing. -/
namespace ConnectScrobbler

namespace Scrobbler

variable {env : Env} {now : Instant} {s t : Scrobbler}

/-- A part of `poll` keeps the track, and does not end `poll` with a value. -/
def Stays (s : Scrobbler) (x : Stage) : Prop :=
  ∀ t returned, x.value = some (t, returned) →
    t.current_track_id = s.current_track_id ∧ ∀ a, returned ≠ some (.ok (.ready a))

theorem start_due_scrobble_keeps (submitted : (s.start_due_scrobble env now).value = some t) :
    t.current_track_id = s.current_track_id := by
  rcases start_due_scrobble_cases env now s with ⟨same, _⟩ | ⟨_, _, _, sent⟩
  · rw [same] at submitted
    cases submitted
    rfl
  · rw [sent] at submitted
    cases submitted
    rfl

theorem poll_auth_stays : s.Stays s.poll_auth := by
  intro t returned polled
  obtain ⟨⟨answer, auth_future⟩, _, polled⟩ := Call.bind_returns.mp polled
  rcases answer with _ | (_ | _)
  all_goals
    cases polled
    exact ⟨rfl, by simp⟩

theorem poll_scrobble_stays : s.Stays (s.poll_scrobble env now) := by
  intro t returned polled
  obtain ⟨due, submitted, polled⟩ := Call.bind_returns.mp polled
  have kept := start_due_scrobble_keeps submitted
  split at polled
  · obtain ⟨⟨answer, future⟩, _, polled⟩ := Call.bind_returns.mp polled
    rcases answer with _ | (_ | _)
    all_goals
      cases polled
      exact ⟨kept, by simp⟩
  · cases polled
    exact ⟨kept, by simp⟩

theorem poll_new_track_stays : s.Stays (s.poll_new_track env) := by
  intro t returned polled
  obtain ⟨⟨answer, new_track_future⟩, _, polled⟩ := Call.bind_returns.mp polled
  rcases answer with _ | (_ | _)
  · cases polled
    exact ⟨rfl, by simp⟩
  · cases track : s.current_track_id with
    | none =>
      simp only [track] at polled
      cases polled
      exact ⟨rfl, by simp⟩
    | some track_id =>
      simp only [track] at polled
      obtain ⟨meta_fetch_future, _, polled⟩ := Call.bind_returns.mp polled
      cases polled
      exact ⟨rfl, by simp⟩
  · cases polled
    exact ⟨rfl, by simp⟩

theorem poll_meta_fetch_stays : s.Stays (s.poll_meta_fetch env) := by
  intro t returned polled
  obtain ⟨⟨answer, meta_fetch_future⟩, _, polled⟩ := Call.bind_returns.mp polled
  rcases answer with _ | (_ | _)
  · cases polled
    exact ⟨rfl, by simp⟩
  · obtain ⟨now_playing_future, _, polled⟩ := Call.bind_returns.mp polled
    cases polled
    exact ⟨rfl, by simp⟩
  · cases polled
    exact ⟨rfl, by simp⟩

theorem poll_now_playing_stays : s.Stays s.poll_now_playing := by
  intro t returned polled
  obtain ⟨⟨answer, now_playing_future⟩, _, polled⟩ := Call.bind_returns.mp polled
  rcases answer with _ | (_ | _)
  all_goals
    cases polled
    exact ⟨rfl, by simp⟩

theorem proceed_stays {first : Stage} {next : Scrobbler → Stage} (stays : s.Stays first)
    (rest : ∀ t : Scrobbler, t.Stays (next t)) : s.Stays (proceed first next) := by
  intro u returned polled
  obtain ⟨⟨t, ended⟩, early, polled⟩ := Call.bind_returns.mp polled
  obtain ⟨kept, unready⟩ := stays t ended early
  cases ended with
  | none =>
    obtain ⟨later, unready⟩ := rest t u returned polled
    exact ⟨later.trans kept, unready⟩
  | some result =>
    cases polled
    exact ⟨kept, unready⟩

/-- A poll ends with NotReady or an error, and it begins no play. -/
theorem poll_stays {result : Poll (Except Unit Unit) Unit}
    (polled : (s.poll env now).value = some (t, result)) :
    t.current_track_id = s.current_track_id ∧ ∀ a, result ≠ .ok (.ready a) := by
  obtain ⟨⟨u, returned⟩, parts, done⟩ := Call.bind_returns.mp polled
  have stays : s.Stays (proceed s.poll_auth fun s =>
      proceed (s.poll_scrobble env now) fun s =>
      proceed (s.poll_new_track env) fun s =>
      proceed (s.poll_meta_fetch env) fun s =>
      s.poll_now_playing) :=
    proceed_stays poll_auth_stays fun _ =>
    proceed_stays poll_scrobble_stays fun _ =>
    proceed_stays poll_new_track_stays fun _ =>
    proceed_stays poll_meta_fetch_stays fun _ =>
    poll_now_playing_stays
  obtain ⟨kept, unready⟩ := stays u returned parts
  cases done
  refine ⟨kept, ?_⟩
  intro a ready
  cases returned with
  | none => cases ready
  | some result => exact unready a (congrArg some ready)

end Scrobbler

/-- Time passes and the scrobbler is polled, but told nothing. -/
def Action.Quiet : Action → Prop
  | .wait _ => True
  | .poll _ => True
  | .update_current_track _ _ _ => False

theorem Listener.step_quiet {w w' : Listener} {a : Action} (quiet : a.Quiet)
    (stepped : (w.step a).value = some w') :
    w'.scrobbler.current_track_id = w.scrobbler.current_track_id := by
  cases a with
  | wait time =>
    cases stepped
    rfl
  | poll env =>
    obtain ⟨⟨scrobbler, result⟩, polled, done⟩ := Call.bind_returns.mp stepped
    cases done
    exact (Scrobbler.poll_stays polled).1
  | update_current_track _ _ _ => cases quiet

theorem Listener.run_quiet {w w' : Listener} {actions : List Action}
    (quiet : ∀ a ∈ actions, a.Quiet) (reached : (Call.run Listener.step w actions).value = some w') :
    w'.scrobbler.current_track_id = w.scrobbler.current_track_id := by
  induction actions generalizing w with
  | nil =>
    cases reached
    rfl
  | cons a actions ih =>
    obtain ⟨u, stepped, reached⟩ := Call.bind_returns.mp reached
    have first := step_quiet (quiet a (.head _)) stepped
    have rest := ih (fun b member => quiet b (.tail _ member)) reached
    exact rest.trans first

end ConnectScrobbler
