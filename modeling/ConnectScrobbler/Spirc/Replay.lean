import ConnectScrobbler.Scrobbler.Quiet
import ConnectScrobbler.Spirc.Frames

/-! A state that is announced twice: whether the second time begins a new play. -/
namespace ConnectScrobbler

open Mercury (MercuryManager)

namespace Scrobbler

variable {env : Env} {now : Instant} {id : SpotifyId} {force : Bool} {s t : Scrobbler}

/-- Nothing about the track that is playing has changed. -/
structure Unchanged (s t : Scrobbler) : Prop where
  id : t.current_track_id = s.current_track_id
  start : t.current_track_start = s.current_track_start
  metadata : t.current_track_meta = s.current_track_meta
  scrobbled : t.current_track_scrobbled = s.current_track_scrobbled

theorem update_current_track_current
    (updated : (s.update_current_track env now id force).value = some t) :
    t.current_track_id = some id := by
  rcases s.update_current_track_cases env now id force with ⟨_, u, began, plays⟩ | ⟨same_play, same⟩
  · rw [began] at updated
    cases updated
    exact plays.id
  · rw [same] at updated
    cases updated
    unfold starts_play new_track_detected at same_play
    split at same_play
    · simp at same_play
    · rename_i known
      simp only [Bool.or_eq_false_iff, decide_eq_false_iff_not, not_not] at same_play
      rw [known, same_play.2]

/-- The track that is playing plays anew only if that is forced. -/
theorem starts_play_current (current : s.current_track_id = some id) :
    s.starts_play id force = force := by
  simp [starts_play, new_track_detected, current]

theorem Plays.unchanged_iff {start : Instant} (current : s.current_track_id = some id)
    (plays : t.Plays id start) : s.Unchanged t ↔ s.Plays id start := by
  constructor
  · intro unchanged
    constructor
    · exact current
    · rw [← unchanged.start, plays.start]
    · rw [← unchanged.metadata, plays.metadata]
    · rw [← unchanged.scrobbled, plays.scrobbled]
  · intro before
    constructor
    · rw [plays.id, before.id]
    · rw [plays.start, before.start]
    · rw [plays.metadata, before.metadata]
    · rw [plays.scrobbled, before.scrobbled]

end Scrobbler

namespace SpircTask

variable {p : Platform} {env : TurnEnv} {frame frame' : Frame} {m m' : MercuryManager}
  {t t' : SpircTask}

theorem handle_frame_current {id : SpotifyId} (relevant : t.Relevant frame id)
    (handled : (t.handle_frame p env frame m).value = some (t', m')) :
    t'.scrobbler.current_track_id = some id := by
  rw [handle_frame_relevant relevant] at handled
  obtain ⟨_, _, handled⟩ := Call.bind_returns.mp handled
  obtain ⟨scrobbler, updated, done⟩ := Call.bind_returns.mp handled
  cases done
  exact Scrobbler.update_current_track_current updated

theorem handled_relevant (announced : t.Announces frame) (listed : frame.get_state.track ≠ [])
    (handled : (t.handle_frame p env frame m).value = some (t', m')) :
    ∃ id, t.Relevant frame id := by
  by_contra none
  rw [handle_frame_panics announced listed] at handled
  · cases handled
  · intro track playing whole
    obtain ⟨id, named⟩ := Option.ne_none_iff_exists'.mp (SpotifyId.from_raw_returns _ |>.mpr whole)
    exact none ⟨id, announced, track, playing, named⟩

theorem Relevant.again {id : SpotifyId} (relevant : t.Relevant frame id)
    (announced : t'.Announces frame') (same : frame'.get_state = frame.get_state) :
    t'.Relevant frame' id := by
  obtain ⟨_, track, playing, named⟩ := relevant
  refine ⟨announced, track, ?_, named⟩
  rw [Frame.playing, same]
  exact playing

/-- A state that has been announced, then polls and time, then the same state once more:
the track that is playing is left alone just where its position is not zero, or the state has
no tracks, or the second announcement comes so soon that the new play begins as the old one did.
In the first two cases the scrobbler is not even told. -/
theorem announced_again_unchanged_iff (p : Platform) (env env' : TurnEnv)
    {frame frame' : Frame} {m m1 m' : MercuryManager} {t t1 t' : SpircTask} {actions : List Action}
    {clock : Instant} (announced : t.Announces frame)
    (handled : (t.handle_frame p env frame m).value = some (t1, m1))
    (quiet : ∀ a ∈ actions, a.Quiet)
    (reached : (Call.run Listener.step ⟨t1.scrobbler, clock⟩ actions).value =
      some ⟨t'.scrobbler, env'.updated_at⟩)
    (again : t'.Announces frame') (same : frame'.get_state = frame.get_state) :
    ∃ t2, (t'.handle_frame p env' frame' m').value = some (t2, m') ∧
      (t'.scrobbler.Unchanged t2.scrobbler ↔
        frame.get_state.get_position_ms ≠ 0 ∨ frame.get_state.track = [] ∨
          ∃ id, t'.scrobbler.Plays id (env'.updated_at + env'.update.busy)) ∧
      (frame.get_state.get_position_ms ≠ 0 ∨ frame.get_state.track = [] →
        t'.handle_frame p env' frame' m' = ⟨[.handle_frame frame'], some (t', m')⟩) := by
  by_cases listed : frame.get_state.track = []
  · have ignored : t'.handle_frame p env' frame' m' = ⟨[.handle_frame frame'], some (t', m')⟩ := by
      apply handle_frame_ignored
      · rintro ⟨_, hello⟩
        rw [again.2.1] at hello
        cases hello
      · rintro ⟨_, listed'⟩
        rw [same] at listed'
        exact listed' listed
    refine ⟨t', by rw [ignored], ?_, fun _ => ignored⟩
    simp only [listed, true_or, or_true, iff_true]
    exact ⟨rfl, rfl, rfl, rfl⟩
  · obtain ⟨id, relevant⟩ := handled_relevant announced listed handled
    have current : t'.scrobbler.current_track_id = some id := by
      rw [Listener.run_quiet quiet reached]
      exact handle_frame_current relevant handled
    have played := @handle_frame_relevant p m' env' _ _ _ (relevant.again again same)
    rw [same] at played
    simp only [listed, false_or, or_false]
    rcases t'.scrobbler.update_current_track_cases env'.update env'.updated_at id
      (frame.get_state.get_position_ms == 0) with ⟨starts, s, updated, plays⟩ | ⟨kept, unchanged⟩
    · rw [Scrobbler.starts_play_current current, beq_iff_eq] at starts
      refine ⟨{ t' with scrobbler := s }, ?_, ?_, fun moved => absurd starts moved⟩
      · rw [played]
        exact Call.bind_returns.mpr ⟨(), rfl, Call.bind_returns.mpr ⟨s, updated, rfl⟩⟩
      · rw [Scrobbler.Plays.unchanged_iff current plays]
        constructor
        · intro before
          exact .inr ⟨id, before⟩
        · rintro (moved | ⟨other, before⟩)
          · exact absurd starts moved
          · cases current.symm.trans before.id
            exact before
    · rw [Scrobbler.starts_play_current current, beq_eq_false_iff_ne] at kept
      rw [unchanged] at played
      refine ⟨t', by rw [played]; rfl, ?_, fun _ => played⟩
      simp only [ne_eq, kept, not_false_eq_true, true_or, iff_true]
      exact ⟨rfl, rfl, rfl, rfl⟩

/-! A track that is announced, heard for twenty-one seconds and announced again because the
volume has changed. -/

def playing_at (position_ms : BitVec 32) : State :=
  { State.new with
    position_ms := some position_ms
    position_measured_at := some 1500000000000
    playing_track_index := some 0
    track := [⟨some (List.replicate 16 1)⟩] }

def louder (frame : Frame) : Frame :=
  { frame with device_state := some { frame.get_device_state with volume := some 0x8000 } }

def listening : List Action := [.poll answering, .wait (Duration.new 21 0), .poll answering]

def later_turn : TurnEnv := { quick_turn with updated_at := Duration.new 21 0 }

/-- The song has been heard, and submitted, once. -/
def heard : Scrobbler :=
  ⟨account, some ⟨.from_parts 0x0101010101010101 0x0101010101010101⟩, some 0, some song, true,
    .empty, .empty, .empty, .empty, none⟩

theorem moved_on_unchanged : ∃ t2,
    ({ idle with scrobbler := heard }.handle_frame platform later_turn
      (louder (announcing (playing_at 5000))) .new).value = some (t2, .new) ∧
    heard.Unchanged t2.scrobbler := by
  obtain ⟨t2, handled, unchanged, _⟩ := @announced_again_unchanged_iff platform quick_turn later_turn
    (announcing (playing_at 5000)) (louder (announcing (playing_at 5000))) .new .new .new idle _
    { idle with scrobbler := heard } listening 0 ⟨⟨by decide, .inl rfl⟩, rfl, rfl⟩ rfl
    (by simp [listening, Action.Quiet]) rfl ⟨⟨by decide, .inl rfl⟩, rfl, rfl⟩ rfl
  exact ⟨t2, handled, unchanged.mpr (.inl (by decide))⟩

/-- The start of a track, announced again when it has been heard: it is submitted twice. -/
theorem volume_change_replays :
    (louder (announcing (playing_at 0))).get_state = (announcing (playing_at 0)).get_state ∧
    ∃ t1 w1 t2 w2 log1 log2,
      (idle.handle_frame platform quick_turn (announcing (playing_at 0)) .new).value =
        some (t1, .new) ∧
      Call.run Listener.step ⟨t1.scrobbler, 0⟩ listening = ⟨log1, some w1⟩ ∧
      ({ t1 with scrobbler := w1.scrobbler }.handle_frame platform later_turn
        (louder (announcing (playing_at 0))) .new).value = some (t2, .new) ∧
      Call.run Listener.step ⟨t2.scrobbler, w1.clock⟩ listening = ⟨log2, some w2⟩ ∧
      ¬ w1.scrobbler.Unchanged t2.scrobbler ∧ (log1 ++ log2).countP Effect.submits = 2 := by
  refine ⟨rfl, _, _, _, _, _, _, rfl, rfl, rfl, rfl, ?_, by decide⟩
  intro unchanged
  cases unchanged.scrobbled

end SpircTask

end ConnectScrobbler
