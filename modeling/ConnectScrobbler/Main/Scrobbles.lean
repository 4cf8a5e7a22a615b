import ConnectScrobbler.Main.Device
import ConnectScrobbler.Main.Interrupts
import ConnectScrobbler.Spirc.Heard

/-! Where a scrobble of the program comes from, all the way back to the frame that announced it. -/
namespace ConnectScrobbler

namespace MainEffect

def scrobbler : MainEffect → Option Effect
  | .spirc (.scrobbler e) => some e
  | _ => none

def handles : MainEffect → Bool
  | .spirc (.handle_frame _) => true
  | _ => false

theorem scrobbler_eq {e : MainEffect} {entry : Effect} (same : e.scrobbler = some entry) :
    e = .spirc (.scrobbler entry) := by
  unfold scrobbler at same
  split at same
  · cases same
    rfl
  · cases same

end MainEffect

open MainEffect (scrobbler handles lets)

variable {ident : String} {log : List MainEffect} {k k' : Heard} {e : MainEffect}

namespace Heard

/-- What a log says of what has been heard in the end: which play goes on, and the last frame. -/
structure Explains (ident : String) (log : List MainEffect) (k : Heard) : Prop where
  plays : Call.observe Play.allow none (log.filterMap scrobbler) = some k.play
  announced : ∀ id, k.announced = some id → ∃ earlier frame between,
    log = earlier ++ .spirc (.handle_frame frame) :: between ∧ frame.announced ident = some id ∧
      ∀ e ∈ between, e.handles = false

theorem allow_scrobbler {entry : Effect} (taken : lets (allow ident) k (.spirc (.scrobbler entry)) = some k') :
    entry.About k.announced ∧ k'.announced = k.announced ∧ Play.allow k.play entry = some k'.play := by
  rw [lets, allow] at taken
  split at taken
  · rename_i about
    obtain ⟨play, allowed, rfl⟩ := Option.map_eq_some_iff.mp taken
    exact ⟨about, rfl, allowed⟩
  · cases taken

/-- An entry of another kind changes nothing. -/
theorem Explains.other (explains : Explains ident log k) (silent : e.scrobbler = none)
    (unhandled : e.handles = false) : Explains ident (log ++ [e]) k := by
  constructor
  · rw [List.filterMap_append, List.filterMap_cons, silent]
    exact (congrArg _ (List.append_nil _)).trans explains.plays
  · intro id announced
    obtain ⟨earlier, frame, between, rfl, names, after⟩ := explains.announced id announced
    refine ⟨earlier, frame, between ++ [e], by simp, names, ?_⟩
    simpa [or_imp, forall_and, unhandled] using after

theorem Explains.snoc (explains : Explains ident log k) (taken : lets (allow ident) k e = some k') :
    Explains ident (log ++ [e]) k' := by
  cases e with
  | connect config credentials => cases taken; exact explains.other rfl rfl
  | shutdown spirc => cases taken; exact explains.other rfl rfl
  | spawn task => cases taken; exact explains.other rfl rfl
  | spirc e =>
    cases e with
    | handle_frame frame =>
      cases taken
      constructor
      · rw [List.filterMap_append]
        exact (congrArg _ (List.append_nil _)).trans explains.plays
      · intro id announced
        exact ⟨log, frame, [], rfl, announced, by simp⟩
    | scrobbler entry =>
      obtain ⟨_, same, allowed⟩ := allow_scrobbler taken
      constructor
      · rw [List.filterMap_append, Call.observe_append, explains.plays]
        exact Call.observe_singleton allowed
      · intro id announced
        rw [same] at announced
        obtain ⟨earlier, frame, between, rfl, names, after⟩ := explains.announced id announced
        refine ⟨earlier, frame, between ++ [.spirc (.scrobbler entry)], by simp, names, ?_⟩
        intro e member
        rcases List.mem_append.mp member with member | member
        · exact after e member
        · rw [List.mem_singleton.mp member]
          rfl
    | _ => cases taken; exact explains.other rfl rfl

theorem explained (accepted : Call.observe (lets (allow ident)) start log = some k) : Explains ident log k := by
  induction log using List.reverseRecOn generalizing k with
  | nil =>
    cases accepted
    exact ⟨rfl, nofun⟩
  | append_singleton log e ih =>
    obtain ⟨j, _, before, taken, done⟩ := Call.observe_at accepted
    cases done
    exact (ih before).snoc taken

end Heard

/-- Every device hears what it scrobbles. -/
theorem keeps_hearing (p : Platform) (device_id : String) :
    Keeps p device_id (Heard.allow device_id) .start fun h k => h.task.Hears device_id k := by
  constructor
  · rintro setup connected answer env m rfl
    exact Host.start_hears p setup connected answer env m
  · intro h k hears action
    exact Host.step_hears hears action

/-- Whatever comes in for the program, in whatever order, and up to a panic: each scrobble that it
submits is of a play that began when a frame for this device said that another one plays a track. More
than twenty seconds have passed since, the metadata is what was fetched for that track during the play,
and nothing has been submitted for the play before. -/
theorem scrobbles_announced (p : Platform) (setup : Setup) (actions : List Program.Action)
    {before after : List MainEffect} {scrobble : Scrobble} {time : Instant}
    {answer : Except ScrobblerError Unit}
    (cut : (Program.run p setup actions).log =
      before ++ .spirc (.scrobbler (.send_scrobble scrobble time answer)) :: after) :
    ∃ frame id start earlier between play,
      before = earlier ++ .spirc (.handle_frame frame) ::
        (between ++ .spirc (.scrobbler (.set_new_track id start)) :: play) ∧
      frame.announced setup.session_config.device_id = some id ∧
      (∀ e ∈ between, e.handles = false) ∧
      (∀ e ∈ play.filterMap scrobbler, e.begins_play = false ∧ e.submits = false) ∧
      .spirc (.scrobbler (.fetched id (.ok scrobble))) ∈ play ∧ start + Duration.new 20 0 < time := by
  obtain ⟨_, accepted, _⟩ := Program.run_follows setup
    (keeps_hearing p setup.session_config.device_id) actions
  rw [cut] at accepted
  obtain ⟨k, k', reached, taken, _⟩ := Call.observe_at accepted
  obtain ⟨_, _, allowed⟩ := Heard.allow_scrobbler taken
  have explains := Heard.explained reached
  obtain ⟨q, playing, known, fresh, late⟩ : ∃ q, k.play = some q ∧ q.metadata = some scrobble ∧
      q.submitted = false ∧ q.start + Duration.new 20 0 < time := by
    cases playing : k.play with
    | none =>
      rw [playing] at allowed
      cases allowed
    | some q =>
      rw [playing] at allowed
      simp only [Play.allow, Option.ite_none_right_eq_some] at allowed
      exact ⟨q, rfl, allowed.1⟩
  have plays := explains.plays
  rw [playing] at plays
  obtain ⟨span, ⟨_, latest, same_play⟩, explained⟩ := Play.explained plays
  obtain ⟨front, back, rfl, _, back_plays⟩ := List.filterMap_eq_append_iff.mp latest
  obtain ⟨silent, e, play, rfl, _, begins, rfl⟩ := List.filterMap_eq_cons_iff.mp back_plays
  obtain rfl := MainEffect.scrobbler_eq begins
  rw [← List.append_assoc] at reached
  obtain ⟨j, j', begun, taken, _⟩ := Call.observe_at reached
  obtain ⟨announced, _, _⟩ := Heard.allow_scrobbler taken
  obtain ⟨earlier, frame, between, split, names, after_it⟩ :=
    (Heard.explained begun).announced q.track announced
  refine ⟨frame, q.track, q.start, earlier, between, play, ?_, names, after_it, ?_, ?_, late⟩
  · rw [← List.append_assoc, split]
    simp
  · intro e member
    refine ⟨same_play e member, ?_⟩
    have none_submits := explained.counted
    rw [fresh, if_neg (by simp), List.countP_eq_zero] at none_submits
    simpa using none_submits e member
  · obtain ⟨e, member, fetched⟩ := List.mem_filterMap.mp (explained.metadata scrobble known)
    rw [← MainEffect.scrobbler_eq fetched]
    exact member

namespace Program

/-- A phone plays a song, and for longer than twenty seconds. -/
def played : Frame := SpircTask.announcing { State.new with track := [⟨some (List.replicate 16 1)⟩] }

def hearing : Platform :=
  { SpircTask.platform with
    format :=
      { write_to_bytes := Frame.write_to_bytes
        parse_from_bytes := fun data => [played].find? (·.write_to_bytes = data) } }

def polled (polled_at : Instant) : Action :=
  .turn ⟨.ok .notReady, .ok .notReady, .ok (), SpircTask.sending,
    fun _ => { SpircTask.quick_turn with polled_at }⟩

def listened : List Action :=
  [connected, .receive (.response ⟨"", 200, [played.write_to_bytes]⟩), polled 0, polled (Duration.new 21 0)]

end Program

theorem scrobbles_announced_song : ∃ frame id earlier later,
    (Program.run Program.hearing Program.setup Program.listened).log.take 15 =
      earlier ++ .spirc (.handle_frame frame) :: later ∧
    frame.announced "scrobbler" = some id ∧ .spirc (.scrobbler (.fetched id (.ok song))) ∈ later := by
  let log := (Program.run Program.hearing Program.setup Program.listened).log
  have submitted : log.drop 15 = .spirc (.scrobbler (.send_scrobble song (Duration.new 21 0) (.ok ()))) ::
      log.drop 16 := by
    decide +kernel
  have cut := (List.take_append_drop 15 log).symm.trans (congrArg (log.take 15 ++ ·) submitted)
  obtain ⟨frame, id, start, earlier, between, play, split, announced, _, _, fetched, _⟩ :=
    scrobbles_announced Program.hearing Program.setup Program.listened cut
  exact ⟨frame, id, earlier, _, split, announced,
    List.mem_append_right between (List.mem_cons_of_mem _ fetched)⟩

end ConnectScrobbler
