import ConnectScrobbler.Core.Mercury.Reassembly
import ConnectScrobbler.Scrobbler.Guarantees
import ConnectScrobbler.Spirc

/-! Which frames a device survives, and what they do to its scrobbler. -/
namespace ConnectScrobbler

open Mercury (MercuryManager MercurySender)

variable {p : Platform} {m m' : MercuryManager}

/-- No call of the scrobbler. -/
def Aside {α : Type} (x : Call SpircEffect α) : Prop := ∀ e, SpircEffect.scrobbler e ∉ x.log

theorem Aside.bind {α β : Type} {x : Call SpircEffect α} {f : α → Call SpircEffect β}
    (first : Aside x) (rest : ∀ a, x.value = some a → Aside (f a)) : Aside (x >>= f) := by
  intro e member
  rcases Call.mem_bind member with early | ⟨a, returned, late⟩
  · exact first e early
  · exact rest a returned e late

theorem Aside.within {α O : Type} {f : O → SpircEffect} (other : ∀ o e, f o ≠ .scrobbler e)
    (x : Call O α) : Aside (x.within f) := by
  intro e member
  obtain ⟨o, _, same⟩ := List.mem_map.mp member
  exact other o e same

theorem Aside.unwrap {α : Type} (x : Option α) : Aside (Call.unwrap x) := by
  intro e member
  cases member

namespace FrameSink

variable {connected : Bool} {frames : List Frame} {sender sender' : MercurySender}

theorem hand_on_returns :
    (hand_on p connected frames m sender).value ≠ none ↔ m.Takes p.build connected frames.length := by
  induction frames generalizing m sender with
  | nil => simp [hand_on, MercuryManager.Takes]
  | cons frame frames ih =>
    rw [hand_on, Call.bind_goes_on, Call.within_value, MercurySender.start_send_value]
    constructor
    · rintro ⟨⟨sender', m'⟩, started, rest⟩
      obtain ⟨⟨task, _⟩, sent, done⟩ := Option.map_eq_some_iff.mp started
      cases done
      have one : m.Takes p.build connected 1 :=
        MercuryManager.send_returns.mp (Option.ne_none_iff_exists'.mpr ⟨_, sent⟩)
      exact (MercuryManager.takes_more (MercuryManager.send_counts sent) one).mpr (ih.mp rest)
    · intro more
      have goes_on : (m.send p.build p.protobuf connected sender.uri
          (p.format.write_to_bytes frame)).value ≠ none := MercuryManager.send_returns.mpr more.first
      obtain ⟨⟨task, m'⟩, sent⟩ := Option.ne_none_iff_exists'.mp goes_on
      refine ⟨_, by rw [sent]; rfl, ih.mpr ?_⟩
      exact (MercuryManager.takes_more (MercuryManager.send_counts sent) more.first).mp more

theorem hand_on_aside : Aside (hand_on p connected frames m sender) := by
  induction frames generalizing m sender with
  | nil => exact Aside.unwrap (some _)
  | cons frame frames ih => exact (Aside.within (by simp) _).bind fun _ _ => ih

theorem start_send_value {env : SendEnv} {frame : Frame} {s : FrameSink} :
    (s.start_send p env frame m).value =
      (hand_on p env.connected ((s.held ++ [frame]).take env.handed) m s.sender).value.map
        fun (sender, m) => (⟨(s.held ++ [frame]).drop env.handed, sender⟩, m) := by
  simp only [start_send, Call.emit_eq, Call.bind_some, Call.bind_value]
  generalize (hand_on p env.connected ((s.held ++ [frame]).take env.handed) m s.sender).value = x
  cases x <;> rfl

theorem start_send_returns {env : SendEnv} {frame : Frame} {s : FrameSink} :
    (s.start_send p env frame m).value ≠ none ↔
      m.Takes p.build env.connected (min env.handed (s.held.length + 1)) := by
  have count : ((s.held ++ [frame]).take env.handed).length = min env.handed (s.held.length + 1) := by
    rw [List.length_take, List.length_append]
    rfl
  rw [← count, start_send_value, Ne, Option.map_eq_none_iff]
  exact hand_on_returns

theorem start_send_aside {env : SendEnv} {frame : Frame} {s : FrameSink} :
    Aside (s.start_send p env frame m) := by
  apply Aside.bind
  · simp [Aside]
  · intro _ _
    apply hand_on_aside.bind
    intro _ _
    exact Aside.unwrap (some _)

end FrameSink

/-- The entry of the track list that the frame says is playing. -/
def Frame.playing (frame : Frame) : Option TrackRef :=
  frame.get_state.track[frame.get_state.get_playing_track_index.toNat]?

namespace SpircTask

/-- A frame for this device: it is another one's, sent to all or to this one. -/
def Accepts (frame : Frame) (t : SpircTask) : Prop :=
  frame.get_ident ≠ t.ident ∧ (frame.recipient = [] ∨ t.ident ∈ frame.recipient)

/-- A frame that says what is playing on an active device. -/
def Announces (frame : Frame) (t : SpircTask) : Prop :=
  t.Accepts frame ∧ frame.get_typ = .Notify ∧ frame.get_device_state.get_is_active = true

/-- The frame announces a track with this id. -/
def Relevant (frame : Frame) (id : SpotifyId) (t : SpircTask) : Prop :=
  t.Announces frame ∧ ∃ track, frame.playing = some track ∧
    SpotifyId.from_raw track.get_gid = some id

/-- A frame can be sent: there are numbers left, and the session takes what the sink hands on. -/
def Sends (p : Platform) (env : SendEnv) (m : MercuryManager) (t : SpircTask) : Prop :=
  (p.build = .debug → t.sequence.value.toNat + 1 < 2 ^ 32) ∧
    m.Takes p.build env.connected (min env.handed (t.sender.held.length + 1))

/-- A hello can be answered, and a list of tracks has an entry with an id of 16 bytes where
the frame says that it is playing. -/
def Sound (p : Platform) (env : TurnEnv) (frame : Frame) (m : MercuryManager) (t : SpircTask) :
    Prop :=
  (t.Accepts frame → frame.get_typ = .Hello → t.Sends p env.notify m) ∧
    (t.Announces frame → frame.get_state.track ≠ [] →
      ∃ track, frame.playing = some track ∧ track.get_gid.length = 16)

variable {env : TurnEnv} {frame : Frame} {t t' : SpircTask}

theorem accepts_iff : t.Accepts frame ↔
    ¬ (frame.get_ident = t.ident ∨ (frame.recipient.length > 0 ∧ t.ident ∉ frame.recipient)) := by
  rw [Accepts, not_or, not_and, not_not, gt_iff_lt, List.length_pos_iff, or_iff_not_imp_left]

theorem send_returns {env : SendEnv} :
    (CommandSender.send p env frame m t).value ≠ none ↔
      m.Takes p.build env.connected (min env.handed (t.sender.held.length + 1)) := by
  rw [CommandSender.send]
  exact (Call.bind_total (by simp)).trans FrameSink.start_send_returns

theorem notify_returns {env : SendEnv} {recipient : Option String} :
    (t.notify p env recipient m).value ≠ none ↔ t.Sends p env m := by
  have counted : p.build.add t.sequence.value 1 ≠ none ↔
      (p.build = .debug → t.sequence.value.toNat + 1 < 2 ^ 32) := by
    rw [Ne, Build.add_stops, not_and, Nat.not_le]
    rfl
  rw [notify, CommandSender.new_eq, Sends, ← counted]
  cases p.build.add t.sequence.value 1 with
  | none => simp
  | some next => exact send_returns.trans (by simp)

theorem notify_aside {env : SendEnv} {recipient : Option String} :
    Aside (t.notify p env recipient m) := by
  apply (Aside.unwrap _).bind
  intro made _
  apply FrameSink.start_send_aside.bind
  intro sent _
  exact Aside.unwrap (some _)

theorem notify_keeps {env : SendEnv} {recipient : Option String}
    (returned : (t.notify p env recipient m).value = some (t', m')) :
    t'.scrobbler = t.scrobbler := by
  obtain ⟨made, counted, returned⟩ := Call.bind_returns.mp returned
  obtain rfl := CommandSender.new_returns counted
  obtain ⟨sent, _, done⟩ := Call.bind_returns.mp returned
  cases done
  rfl

/-- What a frame for this device does, by its type. -/
theorem handle_frame_accepted (accepted : t.Accepts frame) : t.handle_frame p env frame m = do
    Call.emit (.handle_frame frame)
    match frame.get_typ with
    | .Hello => t.notify p env.notify (some frame.get_ident) m
    | .Notify =>
      if !frame.get_device_state.get_is_active then return (t, m)
      else
        if frame.get_state.track.length > 0 then do
          let playing_track_ref ← Call.unwrap frame.playing
          let playing_track_spotify_id ← Call.unwrap (SpotifyId.from_raw playing_track_ref.get_gid)
          let scrobbler ← (t.scrobbler.update_current_track env.update env.updated_at
            playing_track_spotify_id (frame.get_state.get_position_ms == 0)).within .scrobbler
          return ({ t with scrobbler }, m)
        else return (t, m)
    | _ => return (t, m) := by
  rw [handle_frame, if_neg (accepts_iff.mp accepted)]
  rfl

theorem handle_frame_hello (accepted : t.Accepts frame) (hello : frame.get_typ = .Hello) :
    t.handle_frame p env frame m =
      Call.emit (.handle_frame frame) >>= fun _ => t.notify p env.notify (some frame.get_ident) m := by
  rw [handle_frame_accepted accepted, hello]

theorem handle_frame_announced (announced : t.Announces frame)
    (listed : frame.get_state.track ≠ []) : t.handle_frame p env frame m = do
      Call.emit (.handle_frame frame)
      let playing_track_ref ← Call.unwrap frame.playing
      let playing_track_spotify_id ← Call.unwrap (SpotifyId.from_raw playing_track_ref.get_gid)
      let scrobbler ← (t.scrobbler.update_current_track env.update env.updated_at
        playing_track_spotify_id (frame.get_state.get_position_ms == 0)).within .scrobbler
      return ({ t with scrobbler }, m) := by
  obtain ⟨accepted, notifies, active⟩ := announced
  rw [handle_frame_accepted accepted, notifies, active, if_pos (List.length_pos_iff.mpr listed)]
  rfl

/-- A frame that is passed over. -/
theorem handle_frame_ignored (no_hello : ¬ (t.Accepts frame ∧ frame.get_typ = .Hello))
    (silent : ¬ (t.Announces frame ∧ frame.get_state.track ≠ [])) :
    t.handle_frame p env frame m = ⟨[.handle_frame frame], some (t, m)⟩ := by
  by_cases accepted : t.Accepts frame
  · rw [handle_frame_accepted accepted]
    cases typ : frame.get_typ with
    | Hello => exact absurd ⟨accepted, typ⟩ no_hello
    | Notify =>
      by_cases active : frame.get_device_state.get_is_active = true
      · have empty : frame.get_state.track = [] := by
          by_contra listed
          exact silent ⟨⟨accepted, typ, active⟩, listed⟩
        simp [active, empty]
      · simp [active]
    | _ => rfl
  · rw [handle_frame, if_pos (not_not.mp (mt accepts_iff.mpr accepted))]
    rfl

theorem update_returns (id : SpotifyId) : ∃ t', ((do
    Call.emit (.handle_frame frame)
    let scrobbler ← (t.scrobbler.update_current_track env.update env.updated_at id
      (frame.get_state.get_position_ms == 0)).within SpircEffect.scrobbler
    return ({ t with scrobbler }, m) : Spirc.Step)).value = some t' := by
  rcases t.scrobbler.update_current_track_cases env.update env.updated_at id
    (frame.get_state.get_position_ms == 0) with ⟨_, s, updated, _⟩ | ⟨_, same⟩
  · exact ⟨_, Call.bind_returns.mpr ⟨(), rfl, Call.bind_returns.mpr ⟨s, updated, rfl⟩⟩⟩
  · rw [same]
    exact ⟨_, rfl⟩

theorem Relevant.whole {id : SpotifyId} (relevant : t.Relevant frame id) :
    frame.get_state.track ≠ [] ∧ frame.get_typ = .Notify ∧
      ∃ track, frame.playing = some track ∧ track.get_gid.length = 16 := by
  obtain ⟨announced, track, playing, named⟩ := relevant
  refine ⟨?_, announced.2.1, track, playing, ?_⟩
  · intro empty
    rw [Frame.playing, empty] at playing
    cases playing
  · rw [← SpotifyId.from_raw_returns, named]
    simp

theorem handle_frame_relevant {id : SpotifyId} (relevant : t.Relevant frame id) :
    t.handle_frame p env frame m = do
      Call.emit (.handle_frame frame)
      let scrobbler ← (t.scrobbler.update_current_track env.update env.updated_at id
        (frame.get_state.get_position_ms == 0)).within .scrobbler
      return ({ t with scrobbler }, m) := by
  have listed := relevant.whole.1
  obtain ⟨announced, track, playing, named⟩ := relevant
  rw [handle_frame_announced announced listed, playing]
  simp only [Call.unwrap_eq, Call.bind_some, named]
  rfl

/-- A list of tracks that does not have what it takes stops the whole program. -/
theorem handle_frame_panics (announced : t.Announces frame) (listed : frame.get_state.track ≠ [])
    (broken : ∀ track, frame.playing = some track → track.get_gid.length ≠ 16) :
    t.handle_frame p env frame m = ⟨[.handle_frame frame], none⟩ := by
  rw [handle_frame_announced announced listed]
  cases playing : frame.playing with
  | none => rfl
  | some track =>
    have unnamed : SpotifyId.from_raw track.get_gid = none := by
      rw [SpotifyId.from_raw, if_neg (broken track playing)]
    simp [unnamed]

/-- All that a frame can do: it is answered, the scrobbler is told, everything stops, or nothing
happens. -/
theorem handle_frame_cases (p : Platform) (env : TurnEnv) (frame : Frame) (m : MercuryManager)
    (t : SpircTask) :
    (t.Accepts frame ∧ frame.get_typ = .Hello ∧ t.handle_frame p env frame m =
      Call.emit (.handle_frame frame) >>= fun _ => t.notify p env.notify (some frame.get_ident) m) ∨
    (∃ id, t.Relevant frame id ∧ t.handle_frame p env frame m = do
      Call.emit (.handle_frame frame)
      let scrobbler ← (t.scrobbler.update_current_track env.update env.updated_at id
        (frame.get_state.get_position_ms == 0)).within .scrobbler
      return ({ t with scrobbler }, m)) ∨
    (t.Announces frame ∧ frame.get_state.track ≠ [] ∧
      (∀ track, frame.playing = some track → track.get_gid.length ≠ 16) ∧
      t.handle_frame p env frame m = ⟨[.handle_frame frame], none⟩) ∨
    (¬ (t.Accepts frame ∧ frame.get_typ = .Hello) ∧
      ¬ (t.Announces frame ∧ frame.get_state.track ≠ []) ∧
      t.handle_frame p env frame m = ⟨[.handle_frame frame], some (t, m)⟩) := by
  by_cases greeted : t.Accepts frame ∧ frame.get_typ = .Hello
  · exact .inl ⟨greeted.1, greeted.2, handle_frame_hello greeted.1 greeted.2⟩
  · right
    by_cases told : t.Announces frame ∧ frame.get_state.track ≠ []
    · obtain ⟨announced, listed⟩ := told
      by_cases whole : ∃ track, frame.playing = some track ∧ track.get_gid.length = 16
      · obtain ⟨track, playing, whole⟩ := whole
        obtain ⟨id, named⟩ :=
          Option.ne_none_iff_exists'.mp (SpotifyId.from_raw_returns _ |>.mpr whole)
        have relevant : t.Relevant frame id := ⟨announced, track, playing, named⟩
        exact .inl ⟨id, relevant, handle_frame_relevant relevant⟩
      · have broken : ∀ track, frame.playing = some track → track.get_gid.length ≠ 16 :=
          fun track playing length => whole ⟨track, playing, length⟩
        exact .inr (.inl ⟨announced, listed, broken, handle_frame_panics announced listed broken⟩)
    · exact .inr (.inr ⟨greeted, told, handle_frame_ignored greeted told⟩)

/-- A frame is survived, and the scrobbler is told of the track that it announces, once,
and of nothing else. -/
structure Safe (p : Platform) (env : TurnEnv) (frame : Frame) (m : MercuryManager) (t : SpircTask) :
    Prop where
  returns : (t.handle_frame p env frame m).value ≠ none
  told : ∀ id, t.Relevant frame id → t.handle_frame p env frame m = do
    Call.emit (.handle_frame frame)
    let scrobbler ← (t.scrobbler.update_current_track env.update env.updated_at id
      (frame.get_state.get_position_ms == 0)).within .scrobbler
    return ({ t with scrobbler }, m)
  untouched : (∀ id, ¬ t.Relevant frame id) → Aside (t.handle_frame p env frame m) ∧
    ∀ t' m', (t.handle_frame p env frame m).value = some (t', m') → t'.scrobbler = t.scrobbler

theorem safe_iff_sound (p : Platform) (env : TurnEnv) (frame : Frame) (m : MercuryManager)
    (t : SpircTask) : t.Safe p env frame m ↔ t.Sound p env frame m := by
  have handled : Aside (Call.emit (SpircEffect.handle_frame frame)) := by simp [Aside]
  rcases handle_frame_cases p env frame m t with ⟨accepted, hello, answered⟩ | ⟨id, relevant, told⟩ |
    ⟨announced, listed, broken, stops⟩ | ⟨no_hello, silent, ignored⟩
  · have no_notify : frame.get_typ ≠ .Notify := by simp [hello]
    constructor
    · intro safe
      have returns := safe.returns
      rw [answered] at returns
      obtain ⟨_, _, notified⟩ := Call.bind_goes_on.mp returns
      exact ⟨fun _ _ => notify_returns.mp notified, fun announced => absurd announced.2.1 no_notify⟩
    · intro sound
      refine ⟨?_, fun id relevant => absurd relevant.whole.2.1 no_notify, fun _ => ⟨?_, ?_⟩⟩
      · rw [answered]
        exact Call.bind_goes_on.mpr ⟨(), rfl, notify_returns.mpr (sound.1 accepted hello)⟩
      · rw [answered]
        exact handled.bind fun _ _ => notify_aside
      · intro t' m' returned
        rw [answered] at returned
        obtain ⟨_, _, notified⟩ := Call.bind_returns.mp returned
        exact notify_keeps notified
  · obtain ⟨_, notify, whole⟩ := relevant.whole
    have no_hello : frame.get_typ ≠ .Hello := by simp [notify]
    have sound : t.Sound p env frame m :=
      ⟨fun _ hello => absurd hello no_hello, fun _ _ => whole⟩
    refine ⟨fun _ => sound, fun _ => ⟨?_, ?_, fun none => absurd relevant (none id)⟩⟩
    · rw [told]
      exact Option.ne_none_iff_exists'.mpr (update_returns id)
    · intro other relevant'
      exact handle_frame_relevant relevant'
  · constructor
    · intro safe
      exact absurd (by rw [stops]) safe.returns
    · intro sound
      obtain ⟨track, playing, length⟩ := sound.2 announced listed
      exact absurd length (broken track playing)
  · have irrelevant : ∀ id, ¬ t.Relevant frame id :=
      fun id relevant => silent ⟨relevant.1, relevant.whole.1⟩
    refine ⟨fun _ => ⟨?_, ?_⟩, fun _ => ⟨?_, fun id relevant => absurd relevant (irrelevant id), ?_⟩⟩
    · intro accepted hello
      exact absurd ⟨accepted, hello⟩ no_hello
    · intro announced listed
      exact absurd ⟨announced, listed⟩ silent
    · rw [ignored]
      simp
    · intro _
      rw [ignored]
      refine ⟨handled, ?_⟩
      rintro _ _ ⟨⟩
      rfl

/-! A device and frames of a phone. Two of them stop it: the track that is playing is a local
file, which has no id, and the ninth of one track is playing. -/

def of_phone (typ : MessageType) : Frame :=
  { Frame.new with ident := some "phone", typ := some typ }

def announcing (state : State) : Frame :=
  { of_phone .Notify with
    device_state := some { DeviceState.new with is_active := some true }
    state := some state }

def local_file : Frame := announcing { State.new with track := [⟨none⟩] }

def ninth_of_one : Frame :=
  announcing { State.new with
    playing_track_index := some 8
    track := [⟨some (List.replicate 16 1)⟩] }

def platform : Platform where
  build := .release
  protobuf := Mercury.messages
  format :=
    { write_to_bytes := Frame.write_to_bytes
      parse_from_bytes := fun data =>
        [of_phone .Hello, local_file, ninth_of_one].find? (·.write_to_bytes = data) }

def sending : SendEnv := ⟨0, 0, true⟩
def quick_turn : TurnEnv := ⟨sending, answering, 0, sending, answering, 0, true⟩

def idle : SpircTask where
  sequence := .new 2
  ident := "scrobbler"
  device := initial_device_state "librespot" ⟨"Scrobbler", .Speaker⟩ 0xFFFF
  state := initial_state
  subscription := []
  sender := ⟨[], .new "hm://remote/3/user/user/"⟩
  commands := .new
  shutdown := false
  scrobbler := .started account (.ok ())

theorem local_file_not_safe : ¬ idle.Safe platform quick_turn local_file .new ∧
    ¬ idle.Safe platform quick_turn ninth_of_one .new := by
  constructor
  · intro safe
    apply safe.returns
    rfl
  · intro safe
    apply safe.returns
    rfl

end SpircTask

end ConnectScrobbler
