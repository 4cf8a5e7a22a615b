import ConnectScrobbler.Spirc.Talk
import ConnectScrobbler.Spirc.Turns

/-! What a device has sent, at any time: the device follows its talk. -/
namespace ConnectScrobbler

open Bytes (be)
open Call (Follows)
open Mercury (MercuryManager MercurySender Packet ok_header)
open Talk (allow)

variable {p : Platform} {ident : String} {m : MercuryManager} {k : Talk}

/-- What the talk says of a sink: the frames on their way, then the requests without an answer. -/
def FrameSink.on_way (format : FrameFormat) (s : FrameSink) (k : Talk) : Talk :=
  { k with held := s.held.map format.write_to_bytes, waiting := s.sender.pending }

namespace FrameSink

variable {connected : Bool}

theorem sender_follows {item : Bytes} {sender : MercurySender} {rest : List Bytes}
    (held : k.held = item :: rest) (waiting : k.waiting = sender.pending) :
    Follows (allow p.format ident) k
      ((sender.start_send p.build p.protobuf connected item m).within .sender)
      fun (sender', _) k' => k' = { k with held := rest, waiting := sender'.pending } := by
  rw [MercurySender.start_send, Call.within_bind, Call.within_within]
  apply Call.follows_bind
  apply Call.follows_weaken (Call.follows_within (fun _ => rfl) _)
  rintro ⟨task, m'⟩ _ ⟨rfl, _⟩
  rw [Call.within_bind]
  apply Call.follows_bind
  apply Call.follows_emit
  · rw [allow, if_pos (by rw [held]; rfl)]
  · apply Call.follows_pure
    rw [held, waiting]
    rfl

theorem hand_on_follows {frames : List Frame} {sender : MercurySender} {rest : List Bytes}
    (held : k.held = frames.map p.format.write_to_bytes ++ rest)
    (waiting : k.waiting = sender.pending) :
    Follows (allow p.format ident) k (hand_on p connected frames m sender)
      fun (sender', _) k' => k' = { k with held := rest, waiting := sender'.pending } := by
  induction frames generalizing k m sender with
  | nil =>
    apply Call.follows_pure
    show k = { k with held := rest, waiting := sender.pending }
    rw [← waiting, ← List.nil_append rest, ← List.map_nil, ← held]
  | cons frame frames ih =>
    apply Call.follows_bind
    apply Call.follows_weaken (sender_follows held waiting)
    rintro ⟨sender', m'⟩ _ rfl
    exact ih rfl rfl

theorem start_send_follows {env : SendEnv} {frame : Frame} {s : FrameSink}
    (held : k.held = s.held.map p.format.write_to_bytes) (waiting : k.waiting = s.sender.pending)
    (due : k.owed = [frame.shape]) (numbered : frame.seq_nr = some (BitVec.ofNat 32 (k.sent + 1))) :
    Follows (allow p.format ident) k (s.start_send p env frame m) fun (s', _) k' =>
      k' = s'.on_way p.format { k with owed := [], sent := k.sent + 1 } := by
  apply Call.follows_bind
  apply Call.follows_emit
  · rw [allow, if_pos ⟨due, numbered⟩]
  · apply Call.follows_bind
    apply Call.follows_weaken
    · refine hand_on_follows (?_ : k.held ++ [p.format.write_to_bytes frame] = _ ++
        ((s.held ++ [frame]).drop env.handed).map p.format.write_to_bytes) waiting
      rw [← List.map_append, List.take_append_drop, List.map_append, held]
      rfl
    · rintro ⟨sender, m'⟩ _ rfl
      apply Call.follows_pure
      rfl

theorem flush_follows {pending : List Nat} (waiting : k.waiting = pending) :
    Follows (allow p.format ident) k ((MercurySender.flush m pending).within .sender)
      fun (result, pending') k' => k' = { k with waiting := pending' } ∧
        (result = .ok (.ready ()) → pending' = []) := by
  induction pending generalizing k with
  | nil =>
    apply Call.follows_pure
    exact ⟨by rw [← waiting], fun _ => rfl⟩
  | cons task pending ih =>
    have next : k.waiting.head? = some task := by rw [waiting]; rfl
    rw [MercurySender.flush]
    rcases m.poll task with _ | (value | _)
    · rw [Call.within_bind]
      apply Call.follows_bind
      apply Call.follows_emit rfl
      apply Call.follows_pure
      exact ⟨by rw [← waiting], by simp⟩
    · rw [Call.within_bind]
      apply Call.follows_bind
      apply Call.follows_emit
      · rw [allow, if_pos next]
      · apply ih
        rw [waiting]
        rfl
    · apply Call.follows_pure
      exact ⟨by rw [← waiting], by simp⟩

theorem poll_complete_follows {s : FrameSink} (held : k.held = s.held.map p.format.write_to_bytes)
    (waiting : k.waiting = s.sender.pending) :
    Follows (allow p.format ident) k (s.poll_complete p connected m) fun (result, s', _) k' =>
      k' = s'.on_way p.format k ∧
        (result = .ok (.ready ()) → s'.held = [] ∧ s'.sender.pending = []) := by
  apply Call.follows_bind
  apply Call.follows_weaken
  · apply hand_on_follows (held.trans (List.append_nil _).symm) waiting
  · rintro ⟨sender, m'⟩ _ rfl
    apply Call.follows_bind
    unfold MercurySender.poll_complete
    rw [Call.within_bind]
    apply Call.follows_bind
    apply Call.follows_weaken (flush_follows rfl)
    rintro ⟨result, pending⟩ _ ⟨rfl, flushed⟩
    apply Call.follows_pure
    apply Call.follows_pure
    exact ⟨rfl, fun ready => ⟨rfl, flushed ready⟩⟩

end FrameSink

namespace SpircTask

variable {t t' : SpircTask} {closed : Bool}

/-- A device and its talk: what is due, whether the goodbye has come up, the number that is
next, and what is on its way. -/
structure Carries (p : Platform) (ident : String) (owed : List (MessageType × List String))
    (closed : Bool) (t : SpircTask) (k : Talk) : Prop where
  named : t.ident = ident
  owed : k.owed = owed
  closed : k.closed = closed
  numbered : t.sequence.value = BitVec.ofNat 32 (k.sent + 1)
  held : k.held = t.sender.held.map p.format.write_to_bytes
  waiting : k.waiting = t.sender.sender.pending

/-- Between its calls a device has said all that is due, and the talk is over when it is. -/
def Agrees (p : Platform) (ident : String) (t : SpircTask) (k : Talk) : Prop :=
  Carries p ident [] t.shutdown t k

theorem Carries.owing {owed : List (MessageType × List String)} (carries : Carries p ident owed closed t k)
    (due : List (MessageType × List String)) (last : Bool) :
    Carries p ident due last t { k with owed := due, closed := last } :=
  ⟨carries.named, rfl, rfl, carries.numbered, carries.held, carries.waiting⟩

/-- The rest of a device does not matter to its talk. -/
theorem Carries.other {owed : List (MessageType × List String)} (carries : Carries p ident owed closed t k)
    (ident_same : t'.ident = t.ident) (sequence_same : t'.sequence = t.sequence)
    (sender_same : t'.sender = t.sender) : Carries p ident owed closed t' k := by
  obtain ⟨named, owed, closed, numbered, held, waiting⟩ := carries
  rw [← ident_same] at named
  rw [← sequence_same] at numbered
  rw [← sender_same] at held waiting
  exact ⟨named, owed, closed, numbered, held, waiting⟩

theorem send_follows {env : SendEnv} {frame : Frame}
    (carries : Carries p ident [frame.shape] closed t k)
    (numbered : frame.seq_nr = some t.sequence.value) :
    Follows (allow p.format ident) k
      (CommandSender.send p env frame m { t with sequence := ⟨t.sequence.value + 1⟩ })
      fun (t', _) k' => Carries p ident [] closed t' k' ∧ t'.shutdown = t.shutdown := by
  rw [carries.numbered] at numbered ⊢
  unfold CommandSender.send
  generalize with_state : (if frame.state.isNone && t.device.get_is_active then
    { frame with state := some t.state } else frame) = whole
  have same : whole.shape = frame.shape ∧ whole.seq_nr = frame.seq_nr := by
    rw [← with_state]
    split <;> exact ⟨rfl, rfl⟩
  apply Call.follows_bind
  apply Call.follows_weaken
  · apply FrameSink.start_send_follows carries.held carries.waiting
    · rw [same.1, carries.owed]
    · rw [same.2, numbered]
  · rintro ⟨sender, m'⟩ _ rfl
    apply Call.follows_pure
    refine ⟨⟨carries.named, rfl, carries.closed, ?_, rfl, rfl⟩, rfl⟩
    exact (BitVec.ofNat_add (k.sent + 1) 1).symm

theorem hello_follows {env : SendEnv} (carries : Carries p ident [(.Hello, [])] closed t k) :
    Follows (allow p.format ident) k (t.hello p env m) fun (t', _) k' =>
      Carries p ident [] closed t' k' ∧ t'.shutdown = t.shutdown := by
  apply Call.follows_bind
  apply Call.follows_unwrap
  intro made counted
  obtain rfl := CommandSender.new_returns counted
  exact send_follows carries rfl

theorem notify_follows {env : SendEnv} {recipient : String}
    (carries : Carries p ident [answer recipient] closed t k) :
    Follows (allow p.format ident) k (t.notify p env (some recipient) m) fun (t', _) k' =>
      Carries p ident [] closed t' k' ∧ t'.shutdown = t.shutdown := by
  apply Call.follows_bind
  apply Call.follows_unwrap
  intro made counted
  obtain rfl := CommandSender.new_returns counted
  exact send_follows carries rfl

theorem handle_command_follows {env : SendEnv} {cmd : SpircCommand}
    (agrees : Carries p ident [] false t k) :
    Follows (allow p.format ident) k (t.handle_command p env cmd m) fun (t', _) k' =>
      Agrees p ident t' k' := by
  cases cmd
  apply Call.follows_bind
  apply Call.follows_emit
  · rw [allow, if_pos ⟨agrees.owed, agrees.closed⟩]
  · apply Call.follows_bind
    apply Call.follows_unwrap
    intro made counted
    obtain rfl := CommandSender.new_returns counted
    apply Call.follows_bind
    apply Call.follows_weaken
    · exact send_follows (agrees.owing _ true) rfl
    · rintro ⟨t', m'⟩ k' ⟨carries, _⟩
      apply Call.follows_pure
      exact carries.other rfl rfl rfl

variable {frame : Frame}

theorem greeted_hello (accepted : t.Accepts frame) (hello : frame.get_typ = .Hello) :
    (SpircEffect.handle_frame frame).greeted t.ident = [frame.get_ident] := by
  rw [SpircEffect.greeted, if_pos ⟨accepted.1, accepted.2, hello⟩]

theorem greeted_other (no_hello : ¬ (t.Accepts frame ∧ frame.get_typ = .Hello)) :
    (SpircEffect.handle_frame frame).greeted t.ident = [] := by
  rw [SpircEffect.greeted, if_neg fun greeted => no_hello ⟨⟨greeted.1, greeted.2.1⟩, greeted.2.2⟩]

/-- A frame that greets nobody makes nothing due. -/
theorem handled_other (carries : Carries p ident [] false t k)
    (no_hello : ¬ (t.Accepts frame ∧ frame.get_typ = .Hello)) :
    allow p.format ident k (.handle_frame frame) = some k := by
  have silent := greeted_other no_hello
  rw [carries.named] at silent
  rw [allow, if_pos ⟨carries.owed, carries.closed⟩, silent, List.map_nil, ← carries.owed]

theorem handle_frame_follows {env : TurnEnv} (carries : Carries p ident [] false t k)
    (running : t.shutdown = false) :
    Follows (allow p.format ident) k (t.handle_frame p env frame m) fun (t', _) k' =>
      Carries p ident [] false t' k' ∧ t'.shutdown = false := by
  rcases handle_frame_cases p env frame m t with ⟨accepted, hello, answered⟩ | ⟨id, relevant, told⟩ |
    ⟨announced, _, _, stops⟩ | ⟨no_hello, _, ignored⟩
  · have greeted := greeted_hello accepted hello
    rw [carries.named] at greeted
    rw [answered]
    apply Call.follows_bind
    apply Call.follows_emit
    · rw [allow, if_pos ⟨carries.owed, carries.closed⟩, greeted]
    · rw [carries.closed, ← running]
      exact notify_follows (carries.owing [answer frame.get_ident] t.shutdown)
  · have no_hello : frame.get_typ ≠ .Hello := by simp [relevant.whole.2.1]
    rw [told]
    apply Call.follows_bind
    apply Call.follows_emit (handled_other carries fun greeted => no_hello greeted.2)
    apply Call.follows_bind
    apply Call.follows_weaken (Call.follows_within (fun _ => rfl) _)
    rintro scrobbler _ ⟨rfl, _⟩
    apply Call.follows_pure
    exact ⟨carries.other rfl rfl rfl, running⟩
  · have no_hello : frame.get_typ ≠ .Hello := by simp [announced.2.1]
    rw [stops]
    exact ⟨k, Call.observe_singleton (handled_other carries fun greeted => no_hello greeted.2),
      by simp⟩
  · rw [ignored]
    refine ⟨k, Call.observe_singleton (handled_other carries no_hello), ?_⟩
    rintro _ ⟨⟩
    exact ⟨carries, running⟩

variable {env : TurnEnv}

theorem poll_subscription_follows (carries : Carries p ident [] false t k)
    (running : t.shutdown = false) :
    Follows (allow p.format ident) k (t.poll_subscription p env m) fun (t', _) k' =>
      Carries p ident [] false t' k' ∧ t'.shutdown = false := by
  unfold poll_subscription
  split
  · apply Call.follows_bind
    apply Call.follows_unwrap
    intro frame _
    apply Call.follows_bind
    apply Call.follows_weaken
    · apply handle_frame_follows
      · exact carries.other rfl rfl rfl
      · exact running
    · rintro ⟨t', m'⟩ k' after
      apply Call.follows_pure
      exact after
  · exact Call.follows_panic
  · exact Call.follows_panic
  · apply Call.follows_pure
    exact ⟨carries, running⟩

theorem poll_commands_follows (carries : Carries p ident [] false t k)
    (running : t.shutdown = false) :
    Follows (allow p.format ident) k (t.poll_commands p env m) fun (t', _) k' =>
      Agrees p ident t' k' := by
  cases queued : t.commands.queue with
  | nil =>
    rw [poll_commands_empty queued]
    apply Call.follows_pure
    show Carries p ident [] t.shutdown t k
    rw [running]
    exact carries
  | cons command queue =>
    rw [poll_commands_queued queued]
    apply Call.follows_bind
    apply Call.follows_weaken
    · apply handle_command_follows
      exact carries.other rfl rfl rfl
    · rintro ⟨t', m'⟩ k' after
      apply Call.follows_pure
      exact after

theorem poll_scrobbler_follows (agrees : Agrees p ident t k) :
    Follows (allow p.format ident) k (t.poll_scrobbler env) fun (t', _) k' =>
      Agrees p ident t' k' := by
  apply Call.follows_bind
  apply Call.follows_weaken (Call.follows_within (fun _ => rfl) _)
  rintro ⟨scrobbler, result⟩ _ ⟨rfl, _⟩
  rcases result with _ | (_ | _)
  · apply Call.follows_bind
    apply Call.follows_emit rfl
    apply Call.follows_pure
    exact agrees.other rfl rfl rfl
  · apply Call.follows_pure
    exact agrees.other rfl rfl rfl
  · apply Call.follows_pure
    exact agrees.other rfl rfl rfl

theorem serve_follows (agrees : Agrees p ident t k) :
    Follows (allow p.format ident) k (t.serve p env m) fun (t', _) k' => Agrees p ident t' k' := by
  unfold serve
  cases running : t.shutdown with
  | true =>
    apply Call.follows_pure
    exact agrees
  | false =>
    rw [Agrees, running] at agrees
    apply Call.follows_bind
    apply Call.follows_weaken (poll_subscription_follows agrees running)
    rintro ⟨t1, m1, received⟩ k1 ⟨carries, running⟩
    apply Call.follows_bind
    apply Call.follows_weaken (poll_commands_follows carries running)
    rintro ⟨t2, m2, commanded⟩ k2 agrees
    apply Call.follows_bind
    apply Call.follows_weaken (poll_scrobbler_follows agrees)
    rintro ⟨t3, scrobbled⟩ k3 agrees
    apply Call.follows_pure
    exact agrees

/-- A device that has said goodbye and has nothing left on its way. -/
structure Through (t : SpircTask) : Prop where
  closed : t.shutdown = true
  held : t.sender.held = []
  answered : t.sender.sender.pending = []

theorem turn_follows (agrees : Agrees p ident t k) :
    Follows (allow p.format ident) k (t.turn p env m) fun (result, t', _) k' =>
      Agrees p ident t' k' ∧ (result = some (.ready ()) → t'.Through) := by
  apply Call.follows_bind
  apply Call.follows_weaken (serve_follows agrees)
  rintro ⟨t1, m1, progress⟩ k1 agrees
  apply Call.follows_bind
  apply Call.follows_weaken (FrameSink.poll_complete_follows agrees.held agrees.waiting)
  rintro ⟨polled, sender, m2⟩ _ ⟨rfl, flushed⟩
  have kept : Agrees p ident { t1 with sender } (sender.on_way p.format k1) :=
    ⟨agrees.named, agrees.owed, agrees.closed, agrees.numbered, rfl, rfl⟩
  cases polled with
  | error err => exact Call.follows_panic
  | ok polled =>
    apply Call.follows_ite
    · intro ready
      rw [Bool.and_eq_true, beq_iff_eq] at ready
      obtain ⟨held, answered⟩ := flushed (congrArg _ ready.2)
      apply Call.follows_pure
      exact ⟨kept, fun _ => ⟨ready.1, held, answered⟩⟩
    · intro _
      apply Call.follows_ite
      · intro _
        apply Call.follows_pure
        exact ⟨kept, by simp⟩
      · intro _
        apply Call.follows_pure
        exact ⟨kept, by simp⟩

theorem poll_loop_follows {env : Nat → TurnEnv} {left : Nat} (agrees : Agrees p ident t k) :
    Follows (allow p.format ident) k (poll_loop p env left m t) fun (result, t', _) k' =>
      Agrees p ident t' k' ∧ (result = some (.ready ()) → t'.Through) := by
  induction left generalizing t m k with
  | zero =>
    apply Call.follows_pure
    exact ⟨agrees, by simp⟩
  | succ left ih =>
    apply Call.follows_bind
    apply Call.follows_weaken (turn_follows agrees)
    rintro ⟨_ | result, t1, m1⟩ k1 ⟨agrees, through⟩
    · exact ih agrees
    · apply Call.follows_pure
      exact ⟨agrees, through⟩

theorem poll_follows {env : Nat → TurnEnv} (agrees : Agrees p ident t k) :
    Follows (allow p.format ident) k (t.poll p env m) fun (result, t', _) k' =>
      Agrees p ident t' k' ∧ (result = .ready () → t'.Through) := by
  apply Call.follows_bind
  apply Call.follows_weaken (poll_loop_follows agrees)
  rintro ⟨result, t1, m1⟩ k1 ⟨agrees, through⟩
  apply Call.follows_bind
  rcases result with _ | (_ | _)
  · apply Call.follows_emit rfl
    apply Call.follows_pure
    exact ⟨agrees, by simp⟩
  · obtain ⟨closed, held, answered⟩ := through rfl
    apply Call.follows_emit
    · apply if_pos
      exact ⟨agrees.owed, agrees.closed.trans closed, by rw [agrees.held, held]; rfl,
        by rw [agrees.waiting, answered]⟩
    · apply Call.follows_pure
      exact ⟨agrees, fun _ => ⟨closed, held, answered⟩⟩
  · apply Call.follows_emit rfl
    apply Call.follows_pure
    exact ⟨agrees, by simp⟩

end SpircTask

namespace Talk

variable {format : FrameFormat} {log : List SpircEffect}

theorem Explains.numbers (explains : Explains format ident log k)
    (few : (log.flatMap (·.sent)).length < 2 ^ 32) :
    (log.flatMap (·.sent)).map (·.get_seq_nr.toNat) =
      List.range' 1 (log.flatMap (·.sent)).length := by
  have count : (log.flatMap (·.sent)).length = k.sent := by
    simpa using congrArg List.length explains.numbered
  rw [count] at few
  calc (log.flatMap (·.sent)).map (·.get_seq_nr.toNat)
      = ((log.flatMap (·.sent)).map Frame.seq_nr).map fun seq_nr => (seq_nr.getD 0).toNat := by
        rw [List.map_map]
        rfl
    _ = (List.range k.sent).map (1 + ·) := by
        rw [explains.numbered, List.map_map]
        apply List.map_congr_left
        intro n member
        have below := List.mem_range.mp member
        simp only [Function.comp_apply, Option.getD_some, BitVec.toNat_ofNat]
        omega
    _ = List.range' 1 (log.flatMap (·.sent)).length := by
        rw [count, ← List.range'_eq_map_range]

/-- The talk knows that all has been said, handed on and answered when a poll is ready. -/
theorem Explains.ready {k' : Talk} (explains : Explains format ident log k)
    (taken : allow format ident k (.returned (.ready ())) = some k') :
    log.any (·.closes) = true ∧
      (log.flatMap (·.sent)).map Frame.shape = script ident log ∧
      (log.flatMap (·.requested)).map Prod.fst =
        (log.flatMap (·.sent)).map format.write_to_bytes ∧
      log.flatMap (·.answered) = (log.flatMap (·.requested)).map Prod.snd := by
  obtain ⟨said, goodbye, _, carried, awaited⟩ := explains
  rw [allow] at taken
  obtain ⟨⟨owed, closed, held, waiting⟩, _⟩ := Option.ite_none_right_eq_some.mp taken
  rw [owed, List.append_nil] at said
  rw [held, List.append_nil] at carried
  rw [waiting, List.append_nil] at awaited
  exact ⟨goodbye.symm.trans closed, said.symm, carried.symm, awaited.symm⟩

end Talk

namespace Host

variable {h : Host}

/-- A device follows its talk as long as it is there. -/
def Holds (p : Platform) (ident : String) (h : Host) (k : Talk) : Prop :=
  SpircTask.Agrees p ident h.task k ∧ (h.finished = true → h.task.Through)

theorem step_follows (holds : h.Holds p ident k) (action : Action) :
    Follows (allow p.format ident) k (h.step p action) fun h' k' => h'.Holds p ident k' := by
  obtain ⟨agrees, through⟩ := holds
  cases action with
  | receive arrival =>
    apply Call.follows_pure
    exact ⟨agrees.other rfl rfl rfl, fun finished =>
      ⟨(through finished).closed, (through finished).held, (through finished).answered⟩⟩
  | shutdown =>
    apply Call.follows_pure
    exact ⟨agrees.other rfl rfl rfl, fun finished =>
      ⟨(through finished).closed, (through finished).held, (through finished).answered⟩⟩
  | drop_spirc =>
    apply Call.follows_pure
    exact ⟨agrees.other rfl rfl rfl, fun finished =>
      ⟨(through finished).closed, (through finished).held, (through finished).answered⟩⟩
  | mercury action =>
    apply Call.follows_bind
    apply Call.follows_weaken (Call.follows_within (fun _ => rfl) _)
    rintro mercury _ ⟨rfl, _⟩
    apply Call.follows_pure
    exact ⟨agrees, through⟩
  | poll env =>
    apply Call.follows_ite
    · intro _
      apply Call.follows_pure
      exact ⟨agrees, through⟩
    · intro _
      apply Call.follows_bind
      apply Call.follows_weaken (SpircTask.poll_follows agrees)
      rintro ⟨result, task, mercury⟩ k' ⟨agrees, through⟩
      apply Call.follows_pure
      exact ⟨agrees, fun finished => through (beq_iff_eq.mp finished)⟩

theorem start_follows (p : Platform) (setup : Spirc.Setup) (connected : Bool)
    (answer : Except ScrobblerError Unit) (env : SendEnv) (m : MercuryManager) :
    Follows (allow p.format setup.device_id) Talk.start (start p setup connected answer env m)
      fun h k => h.Holds p setup.device_id k := by
  apply Call.follows_bind
  apply Call.follows_bind
  apply Call.follows_weaken (Call.follows_within (fun _ => rfl) _)
  rintro m1 _ ⟨rfl, _⟩
  apply Call.follows_bind
  apply Call.follows_weaken (Call.follows_within (fun _ => rfl) _)
  rintro scrobbler _ ⟨rfl, _⟩
  apply Call.follows_weaken
  · apply SpircTask.hello_follows
    exact ⟨rfl, rfl, rfl, rfl, rfl, rfl⟩
  · rintro ⟨task, mercury⟩ k' ⟨carries, running⟩
    apply Call.follows_pure
    refine ⟨?_, by simp⟩
    show SpircTask.Carries p setup.device_id [] task.shutdown task k'
    rw [running]
    exact carries

theorem run_follows (p : Platform) (setup : Spirc.Setup) (connected : Bool)
    (answer : Except ScrobblerError Unit) (env : SendEnv) (m : MercuryManager)
    (actions : List Action) :
    Follows (allow p.format setup.device_id) Talk.start
      (run p setup connected answer env m actions) fun h k => h.Holds p setup.device_id k := by
  apply Call.follows_bind
  apply Call.follows_weaken (start_follows p setup connected answer env m)
  intro h k holds
  apply Call.run_follows (R := Holds p setup.device_id) _ holds
  intro h k holds action
  exact step_follows holds action

def here : Spirc.Setup := ⟨"librespot", ⟨"Scrobbler", .Speaker⟩, "scrobbler", "user", account⟩

def reply (cmd : UInt8) (seq : Nat) : Action :=
  .mercury (.dispatch cmd (Packet.carrying (be 8 seq) (.final, [ok_header])).encode)

end Host

end ConnectScrobbler
