import ConnectScrobbler.Spirc.Turns

/-! What a device scrobbles: the plays that the frames for it announce, and no others. -/
namespace ConnectScrobbler

open Call (Follows Writes)
open Mercury (MercuryManager MercurySender)

/-- The track that a frame says another device plays, if it is for this one. -/
def Frame.announced (ident : String) (frame : Frame) : Option SpotifyId :=
  if frame.get_ident ≠ ident ∧ (frame.recipient = [] ∨ ident ∈ frame.recipient) ∧
      frame.get_typ = .Notify ∧ frame.get_device_state.get_is_active = true then
    frame.playing.bind fun track => SpotifyId.from_raw track.get_gid
  else none

/-- A play that begins is of this track. -/
def Effect.About (announced : Option SpotifyId) : Effect → Prop
  | .set_new_track track_id _ => announced = some track_id
  | _ => True

instance (announced : Option SpotifyId) (e : Effect) : Decidable (e.About announced) := by
  cases e <;> unfold Effect.About <;> infer_instance

/-- What the last frame has announced, and the play. -/
structure Heard where
  announced : Option SpotifyId
  play : Option Play

namespace Heard

def start : Heard := ⟨none, none⟩

def allow (ident : String) (k : Heard) : SpircEffect → Option Heard
  | .handle_frame frame => some { k with announced := frame.announced ident }
  | .scrobbler e =>
    if e.About k.announced then (Play.allow k.play e).map fun play => { k with play } else none
  | .mercury _ => some k
  | .sender _ => some k
  | .start_send _ => some k
  | .handle_command _ => some k
  | .scrobbler_error => some k
  | .returned _ => some k

end Heard

namespace SpircEffect

/-- Neither a frame that comes in nor anything of the scrobbler. -/
def Apart : SpircEffect → Prop
  | .handle_frame _ => False
  | .scrobbler _ => False
  | _ => True

end SpircEffect

open SpircEffect (Apart)

variable {ident : String} {k : Heard}

theorem Heard.ignores {e : SpircEffect} (apart : e.Apart) : Heard.allow ident k e = some k := by
  cases e with
  | handle_frame frame => exact apart.elim
  | scrobbler e => exact apart.elim
  | _ => rfl

/-! What a scrobbler begins. -/

namespace Scrobbler

variable {env : Env} {now : Instant} {s : Scrobbler}

theorem start_due_scrobble_writes (announced : Option SpotifyId) :
    Writes (Effect.About announced) (s.start_due_scrobble env now) := by
  rcases start_due_scrobble_cases env now s with ⟨same, _⟩ | ⟨_, _, _, sent⟩
  · rw [same]
    exact Call.writes_nothing
  · rw [sent]
    constructor
    rintro e (_ | ⟨_, ⟨⟩⟩)
    trivial

theorem update_current_track_writes (track_id : SpotifyId) (force_new_track : Bool) :
    Writes (Effect.About (some track_id)) (s.update_current_track env now track_id force_new_track) := by
  unfold update_current_track
  split
  · apply (start_due_scrobble_writes _).bind
    intro s' _
    apply Writes.bind (x := s'.set_new_track (now + env.busy) track_id)
    · constructor
      rintro e (_ | ⟨_, ⟨⟩⟩)
      rfl
    · intro _ _
      exact Call.writes_nothing
  · exact Call.writes_nothing

theorem poll_auth_writes (announced : Option SpotifyId) : Writes (Effect.About announced) s.poll_auth := by
  apply (BoxFuture.poll_writes trivial nofun _).bind
  rintro ⟨_ | _ | _, future⟩ _ <;> exact Call.writes_nothing

theorem poll_scrobble_writes (announced : Option SpotifyId) :
    Writes (Effect.About announced) (s.poll_scrobble env now) := by
  apply (start_due_scrobble_writes announced).bind
  intro s' _
  split
  · apply (BoxFuture.poll_writes trivial nofun _).bind
    rintro ⟨_ | _ | _, future⟩ _ <;> exact Call.writes_nothing
  · exact Call.writes_nothing

theorem get_track_meta_writes (announced : Option SpotifyId) (track_id : SpotifyId) :
    Writes (Effect.About announced) (get_track_meta env track_id) := by
  apply Writes.bind (Call.writes_emit (o := Effect.get_track_meta track_id) trivial)
  intro _ _
  split <;> exact Call.writes_nothing

theorem poll_new_track_writes (announced : Option SpotifyId) :
    Writes (Effect.About announced) (s.poll_new_track env) := by
  apply (BoxFuture.poll_writes trivial nofun _).bind
  rintro ⟨_ | _ | _, future⟩ _
  · exact Call.writes_nothing
  · dsimp only
    split
    · apply (get_track_meta_writes announced _).bind
      intro _ _
      exact Call.writes_nothing
    · exact Call.writes_nothing
  · exact Call.writes_nothing

theorem poll_meta_fetch_writes (announced : Option SpotifyId) :
    Writes (Effect.About announced) (s.poll_meta_fetch env) := by
  apply (BoxFuture.poll_writes trivial (fun _ _ => trivial) _).bind
  rintro ⟨_ | track | _, future⟩ _
  · exact Call.writes_nothing
  · apply Writes.bind (x := send_now_playing env track)
    · constructor
      rintro e (_ | ⟨_, ⟨⟩⟩)
      trivial
    · intro _ _
      exact Call.writes_nothing
  · exact Call.writes_nothing

theorem poll_now_playing_writes (announced : Option SpotifyId) :
    Writes (Effect.About announced) s.poll_now_playing := by
  apply (BoxFuture.poll_writes trivial nofun _).bind
  rintro ⟨_ | _ | _, future⟩ _ <;> exact Call.writes_nothing

theorem proceed_writes {announced : Option SpotifyId} {first : Stage} {next : Scrobbler → Stage}
    (writes : Writes (Effect.About announced) first)
    (continues : ∀ s, Writes (Effect.About announced) (next s)) :
    Writes (Effect.About announced) (proceed first next) := by
  apply writes.bind
  rintro ⟨s, _ | result⟩ _
  · exact continues s
  · exact Call.writes_nothing

/-- A poll begins no play. -/
theorem poll_writes (announced : Option SpotifyId) : Writes (Effect.About announced) (s.poll env now) := by
  apply Writes.bind
  · apply proceed_writes (poll_auth_writes announced)
    intro s
    apply proceed_writes (poll_scrobble_writes announced)
    intro s
    apply proceed_writes (poll_new_track_writes announced)
    intro s
    apply proceed_writes (poll_meta_fetch_writes announced)
    intro s
    exact poll_now_playing_writes announced
  · intro _ _
    exact Call.writes_nothing

end Scrobbler

/-! What a device says has nothing to do with what it hears. -/

variable {p : Platform} {m : MercuryManager} {t : SpircTask}

namespace FrameSink

variable {connected : Bool}

theorem hand_on_apart {frames : List Frame} {sender : MercurySender} :
    Writes Apart (hand_on p connected frames m sender) := by
  induction frames generalizing m sender with
  | nil => exact Call.writes_nothing
  | cons frame frames ih =>
    apply (Call.writes_within (f := SpircEffect.sender) (fun _ => trivial) _).bind
    intro _ _
    exact ih

theorem poll_complete_apart {s : FrameSink} : Writes Apart (s.poll_complete p connected m) := by
  apply hand_on_apart.bind
  intro _ _
  apply (Call.writes_within (f := SpircEffect.sender) (fun _ => trivial) _).bind
  intro _ _
  exact Call.writes_nothing

end FrameSink

namespace SpircTask

variable {env : SendEnv}

theorem send_apart {frame : Frame} : Writes Apart (CommandSender.send p env frame m t) := by
  unfold CommandSender.send FrameSink.start_send
  dsimp only
  apply Writes.bind
  · apply (Call.writes_emit (o := SpircEffect.start_send _) trivial).bind
    intro _ _
    apply FrameSink.hand_on_apart.bind
    intro _ _
    exact Call.writes_nothing
  · intro _ _
    exact Call.writes_nothing

theorem hello_apart : Writes Apart (t.hello p env m) := by
  apply Writes.bind Call.writes_nothing
  intro _ _
  exact send_apart

theorem notify_apart {recipient : Option String} : Writes Apart (t.notify p env recipient m) := by
  apply Writes.bind Call.writes_nothing
  intro _ _
  exact send_apart

theorem handle_command_apart {cmd : SpircCommand} : Writes Apart (t.handle_command p env cmd m) := by
  apply (Call.writes_emit (o := SpircEffect.handle_command cmd) trivial).bind
  intro _ _
  cases cmd
  apply Writes.bind Call.writes_nothing
  intro _ _
  apply send_apart.bind
  intro _ _
  exact Call.writes_nothing

/-- A device, and what it has heard. -/
def Hears (ident : String) (t : SpircTask) (k : Heard) : Prop :=
  t.ident = ident ∧ t.scrobbler.Agrees k.play

theorem Relevant.announced {frame : Frame} {id : SpotifyId} (relevant : t.Relevant frame id) :
    frame.announced t.ident = some id := by
  obtain ⟨⟨accepted, notifies, active⟩, track, playing, named⟩ := relevant
  rw [Frame.announced, if_pos ⟨accepted.1, accepted.2, notifies, active⟩, playing]
  exact named

theorem scrobbler_follows {α : Type} {x : Call Effect α} {Q : α → Option Play → Prop}
    (writes : Writes (Effect.About k.announced) x) (follows : Follows Play.allow k.play x Q) :
    Follows (Heard.allow ident) k (x.within .scrobbler) fun a k' => ∃ play, k' = { k with play } ∧ Q a play := by
  refine Call.follows_part (fun play => { k with play }) ?_ writes follows
  intro e about play play' taken
  rw [Heard.allow, if_pos about, taken]
  rfl

theorem Hears.apart {α : Type} {x : Call SpircEffect α} (writes : Writes Apart x) :
    Follows (Heard.allow ident) k x fun a k' => k' = k ∧ x.value = some a :=
  writes.follows fun _ => Heard.ignores

variable {env : TurnEnv}

theorem handle_frame_hears {frame : Frame} (hears : Hears ident t k) :
    Follows (Heard.allow ident) k (t.handle_frame p env frame m) fun (t', _) k' => Hears ident t' k' := by
  obtain ⟨named, agrees⟩ := hears
  rcases handle_frame_cases p env frame m t with ⟨_, _, answered⟩ | ⟨id, relevant, told⟩ |
    ⟨_, _, _, stops⟩ | ⟨_, _, ignored⟩
  · rw [answered]
    apply Call.follows_bind
    apply Call.follows_emit rfl
    apply Call.follows_weaken (Hears.apart notify_apart)
    rintro ⟨t', m'⟩ _ ⟨rfl, returned⟩
    obtain ⟨sequence, sender, rfl⟩ := notify_returned returned
    exact ⟨named, agrees⟩
  · have announced := relevant.announced
    rw [named] at announced
    rw [told]
    apply Call.follows_bind
    apply Call.follows_emit rfl
    apply Call.follows_bind
    apply Call.follows_weaken
    · apply scrobbler_follows (k := ⟨frame.announced ident, k.play⟩) _
        (Scrobbler.update_current_track_follows agrees)
      rw [announced]
      exact Scrobbler.update_current_track_writes id _
    · rintro scrobbler _ ⟨play, rfl, agrees, _⟩
      exact Call.follows_pure ⟨named, agrees⟩
  · rw [stops]
    exact ⟨_, Call.observe_singleton rfl, by simp⟩
  · rw [ignored]
    refine ⟨_, Call.observe_singleton rfl, ?_⟩
    rintro _ ⟨⟩
    exact ⟨named, agrees⟩

theorem poll_subscription_hears (hears : Hears ident t k) :
    Follows (Heard.allow ident) k (t.poll_subscription p env m) fun (t', _) k' => Hears ident t' k' := by
  unfold poll_subscription
  split
  · rename_i subscription _
    have hears : Hears ident { t with subscription } k := hears
    apply Call.follows_bind
    apply Call.follows_unwrap
    intro frame _
    apply Call.follows_bind
    apply Call.follows_weaken (handle_frame_hears hears)
    rintro ⟨t', m'⟩ k' hears
    exact Call.follows_pure hears
  · exact Call.follows_panic
  · exact Call.follows_panic
  · exact Call.follows_pure hears

theorem poll_commands_hears (hears : Hears ident t k) :
    Follows (Heard.allow ident) k (t.poll_commands p env m) fun (t', _) k' => Hears ident t' k' := by
  cases queued : t.commands.queue with
  | nil =>
    rw [poll_commands_empty queued]
    exact Call.follows_pure hears
  | cons command queue =>
    rw [poll_commands_queued queued]
    apply Call.follows_bind
    apply Call.follows_weaken (Hears.apart handle_command_apart)
    rintro ⟨t', m'⟩ _ ⟨rfl, returned⟩
    obtain ⟨sequence, sender, rfl⟩ := handle_command_returned returned
    exact Call.follows_pure hears

theorem poll_scrobbler_hears (hears : Hears ident t k) :
    Follows (Heard.allow ident) k (t.poll_scrobbler env) fun (t', _) k' => Hears ident t' k' := by
  apply Call.follows_bind
  apply Call.follows_weaken
  · exact scrobbler_follows (Scrobbler.poll_writes _) (Scrobbler.poll_follows hears.2)
  · rintro ⟨scrobbler, result⟩ _ ⟨play, rfl, agrees, _⟩
    rcases result with _ | (_ | _)
    · apply Call.follows_bind
      apply Call.follows_emit rfl
      exact Call.follows_pure ⟨hears.1, agrees⟩
    · exact Call.follows_pure ⟨hears.1, agrees⟩
    · exact Call.follows_pure ⟨hears.1, agrees⟩

theorem serve_hears (hears : Hears ident t k) :
    Follows (Heard.allow ident) k (t.serve p env m) fun (t', _) k' => Hears ident t' k' := by
  apply Call.follows_ite
  · intro _
    apply Call.follows_bind
    apply Call.follows_weaken (poll_subscription_hears hears)
    rintro ⟨t1, m1, received⟩ k1 hears
    apply Call.follows_bind
    apply Call.follows_weaken (poll_commands_hears hears)
    rintro ⟨t2, m2, commanded⟩ k2 hears
    apply Call.follows_bind
    apply Call.follows_weaken (poll_scrobbler_hears hears)
    rintro ⟨t3, scrobbled⟩ k3 hears
    exact Call.follows_pure hears
  · intro _
    exact Call.follows_pure hears

theorem turn_hears (hears : Hears ident t k) :
    Follows (Heard.allow ident) k (t.turn p env m) fun (_, t', _) k' => Hears ident t' k' := by
  apply Call.follows_bind
  apply Call.follows_weaken (serve_hears hears)
  rintro ⟨t1, m1, progress⟩ k1 hears
  apply Call.follows_bind
  apply Call.follows_weaken (Hears.apart FrameSink.poll_complete_apart)
  rintro ⟨polled, sender, m2⟩ _ ⟨rfl, _⟩
  cases polled with
  | error err => exact Call.follows_panic
  | ok polled =>
    apply Call.follows_ite
    · intro _
      exact Call.follows_pure hears
    · intro _
      apply Call.follows_ite
      · intro _
        exact Call.follows_pure hears
      · intro _
        exact Call.follows_pure hears

theorem poll_loop_hears {env : Nat → TurnEnv} {left : Nat} (hears : Hears ident t k) :
    Follows (Heard.allow ident) k (poll_loop p env left m t) fun (_, t', _) k' => Hears ident t' k' := by
  induction left generalizing t m k with
  | zero => exact Call.follows_pure hears
  | succ left ih =>
    apply Call.follows_bind
    apply Call.follows_weaken (turn_hears hears)
    rintro ⟨_ | result, t1, m1⟩ k1 hears
    · exact ih hears
    · exact Call.follows_pure hears

theorem poll_hears {env : Nat → TurnEnv} (hears : Hears ident t k) :
    Follows (Heard.allow ident) k (t.poll p env m) fun (_, t', _) k' => Hears ident t' k' := by
  apply Call.follows_bind
  apply Call.follows_weaken (poll_loop_hears hears)
  rintro ⟨result, t1, m1⟩ k1 hears
  apply Call.follows_bind
  apply Call.follows_emit rfl
  exact Call.follows_pure hears

end SpircTask

namespace Host

/-- A device never begins a play that no frame has announced. -/
theorem step_hears {h : Host} (hears : h.task.Hears ident k) (action : Action) :
    Follows (Heard.allow ident) k (h.step p action) fun h' k' => h'.task.Hears ident k' := by
  cases action with
  | receive arrival => exact Call.follows_pure hears
  | shutdown => exact Call.follows_pure hears
  | drop_spirc => exact Call.follows_pure hears
  | mercury action =>
    apply Call.follows_bind
    apply Call.follows_weaken (Call.follows_within (fun _ => rfl) _)
    rintro mercury _ ⟨rfl, _⟩
    exact Call.follows_pure hears
  | poll env =>
    apply Call.follows_ite
    · intro _
      exact Call.follows_pure hears
    · intro _
      apply Call.follows_bind
      apply Call.follows_weaken (SpircTask.poll_hears hears)
      rintro ⟨result, task, mercury⟩ k' hears
      exact Call.follows_pure hears

theorem start_hears (p : Platform) (setup : Spirc.Setup) (connected : Bool)
    (answer : Except ScrobblerError Unit) (env : SendEnv) (m : MercuryManager) :
    Follows (Heard.allow setup.device_id) .start (start p setup connected answer env m)
      fun h k => h.task.Hears setup.device_id k := by
  apply Call.follows_bind
  apply Call.follows_bind
  apply Call.follows_weaken (Call.follows_within (fun _ => rfl) _)
  rintro m1 _ ⟨rfl, _⟩
  apply Call.follows_bind
  apply Call.follows_weaken
  · apply SpircTask.scrobbler_follows (k := Heard.start) _
      (Q := fun s play => s.Agrees play)
    · rw [Scrobbler.new_eq]
      exact ⟨_, rfl, by rintro _ ⟨⟩; exact Scrobbler.started_agrees _ _⟩
    · rw [Scrobbler.new_eq]
      constructor
      rintro e (_ | ⟨_, ⟨⟩⟩)
      trivial
  · rintro scrobbler _ ⟨play, rfl, agrees⟩
    apply Call.follows_weaken (SpircTask.Hears.apart SpircTask.hello_apart)
    rintro ⟨task, mercury⟩ _ ⟨rfl, returned⟩
    obtain ⟨sequence, sender, rfl⟩ := SpircTask.hello_returned returned
    exact Call.follows_pure ⟨rfl, agrees⟩

end Host

end ConnectScrobbler
