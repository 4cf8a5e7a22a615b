import ConnectScrobbler.Scrobbler.Quiet
import ConnectScrobbler.Spirc.Frames

/-! What the calls of a device change, and that the loop of its `poll` comes to an end. -/
namespace ConnectScrobbler

open Mercury (MercuryManager)

namespace SpircTask

variable {p : Platform} {env : TurnEnv} {m m' : MercuryManager} {t t' : SpircTask}

theorem send_returned {env : SendEnv} {frame : Frame}
    (returned : (CommandSender.send p env frame m t).value = some (t', m')) :
    ∃ sender, t' = { t with sender } := by
  obtain ⟨⟨sender, m1⟩, _, done⟩ := Call.bind_returns.mp returned
  cases done
  exact ⟨sender, rfl⟩

theorem hello_returned {env : SendEnv} (returned : (t.hello p env m).value = some (t', m')) :
    ∃ sequence sender, t' = { t with sequence, sender } := by
  obtain ⟨made, counted, returned⟩ := Call.bind_returns.mp returned
  obtain rfl := CommandSender.new_returns counted
  obtain ⟨sender, rfl⟩ := send_returned returned
  exact ⟨_, sender, rfl⟩

theorem notify_returned {env : SendEnv} {recipient : Option String}
    (returned : (t.notify p env recipient m).value = some (t', m')) :
    ∃ sequence sender, t' = { t with sequence, sender } := by
  obtain ⟨made, counted, returned⟩ := Call.bind_returns.mp returned
  obtain rfl := CommandSender.new_returns counted
  obtain ⟨sender, rfl⟩ := send_returned returned
  exact ⟨_, sender, rfl⟩

theorem handle_command_returned {env : SendEnv} {cmd : SpircCommand}
    (returned : (t.handle_command p env cmd m).value = some (t', m')) :
    ∃ sequence sender,
      t' = { t with sequence, sender, shutdown := true, commands := t.commands.close } := by
  cases cmd
  obtain ⟨_, _, returned⟩ := Call.bind_returns.mp returned
  obtain ⟨made, counted, returned⟩ := Call.bind_returns.mp returned
  obtain rfl := CommandSender.new_returns counted
  obtain ⟨⟨t1, m1⟩, sent, done⟩ := Call.bind_returns.mp returned
  obtain ⟨sender, rfl⟩ := send_returned sent
  cases done
  exact ⟨_, sender, rfl⟩

theorem handle_frame_returned {frame : Frame}
    (returned : (t.handle_frame p env frame m).value = some (t', m')) :
    ∃ sequence sender scrobbler, t' = { t with sequence, sender, scrobbler } := by
  rcases handle_frame_cases p env frame m t with ⟨_, _, answered⟩ | ⟨id, _, told⟩ |
    ⟨_, _, _, stops⟩ | ⟨_, _, ignored⟩
  · rw [answered] at returned
    obtain ⟨_, _, notified⟩ := Call.bind_returns.mp returned
    obtain ⟨sequence, sender, rfl⟩ := notify_returned notified
    exact ⟨sequence, sender, t.scrobbler, rfl⟩
  · rw [told] at returned
    obtain ⟨_, _, returned⟩ := Call.bind_returns.mp returned
    obtain ⟨scrobbler, _, done⟩ := Call.bind_returns.mp returned
    cases done
    exact ⟨t.sequence, t.sender, scrobbler, rfl⟩
  · rw [stops] at returned
    cases returned
  · rw [ignored] at returned
    cases returned
    exact ⟨t.sequence, t.sender, t.scrobbler, rfl⟩

theorem poll_commands_empty (empty : t.commands.queue = []) :
    t.poll_commands p env m = ⟨[], some (t, m, false)⟩ := by
  unfold poll_commands
  rcases Receiver.poll_empty empty with polled | polled
  · rw [polled]
    rfl
  · rw [polled]
    rfl

theorem poll_commands_queued {command : SpircCommand} {queue : List SpircCommand}
    (queued : t.commands.queue = command :: queue) : t.poll_commands p env m = do
      let (t, m) ← { t with commands := { t.commands with queue } }.handle_command p env.goodbye
        command m
      return (t, m, true) := by
  unfold poll_commands
  rw [Receiver.poll_queued queued]

variable {progress : Bool}

/-- Where there was progress, something that was waiting has been handled. -/
theorem poll_subscription_returned
    (returned : (t.poll_subscription p env m).value = some (t', m', progress)) :
    ∃ subscription sequence sender scrobbler,
      t' = { t with subscription, sequence, sender, scrobbler } ∧
        subscription.length + progress.toNat = t.subscription.length := by
  unfold poll_subscription at returned
  split at returned
  · rename_i subscription there
    obtain ⟨frame, _, returned⟩ := Call.bind_returns.mp returned
    obtain ⟨⟨t1, m1⟩, handled, done⟩ := Call.bind_returns.mp returned
    obtain ⟨sequence, sender, scrobbler, rfl⟩ := handle_frame_returned handled
    cases done
    exact ⟨subscription, sequence, sender, scrobbler, rfl, by simp [there]⟩
  · cases returned
  · cases returned
  · cases returned
    exact ⟨t.subscription, t.sequence, t.sender, t.scrobbler, rfl, rfl⟩

theorem poll_commands_returned
    (returned : (t.poll_commands p env m).value = some (t', m', progress)) :
    (t.commands.queue = [] ∧ t' = t ∧ progress = false) ∨
      (t'.shutdown = true ∧ t'.backlog + 1 = t.backlog ∧ progress = true) := by
  cases queued : t.commands.queue with
  | nil =>
    rw [poll_commands_empty queued] at returned
    cases returned
    exact .inl ⟨rfl, rfl, rfl⟩
  | cons command queue =>
    rw [poll_commands_queued queued] at returned
    obtain ⟨⟨t1, m1⟩, handled, done⟩ := Call.bind_returns.mp returned
    obtain ⟨sequence, sender, rfl⟩ := handle_command_returned handled
    cases done
    refine .inr ⟨rfl, ?_, rfl⟩
    simp only [backlog, queued, List.length_cons, Receiver.close]
    omega

theorem poll_scrobbler_returned (returned : (t.poll_scrobbler env).value = some (t', progress)) :
    (∃ scrobbler, t' = { t with scrobbler }) ∧ progress = false := by
  obtain ⟨⟨scrobbler, result⟩, polled, returned⟩ := Call.bind_returns.mp returned
  have unready := (Scrobbler.poll_stays polled).2
  rcases result with _ | (a | _)
  · cases returned
    exact ⟨⟨scrobbler, rfl⟩, rfl⟩
  · exact absurd rfl (unready a)
  · cases returned
    exact ⟨⟨scrobbler, rfl⟩, rfl⟩

theorem serve_backlog (returned : (t.serve p env m).value = some (t', m', progress)) :
    t'.backlog + progress.toNat ≤ t.backlog := by
  unfold serve at returned
  split at returned
  · obtain ⟨⟨t1, m1, received⟩, first, returned⟩ := Call.bind_returns.mp returned
    obtain ⟨⟨t2, m2, commanded⟩, second, returned⟩ := Call.bind_returns.mp returned
    obtain ⟨⟨t3, scrobbled⟩, third, done⟩ := Call.bind_returns.mp returned
    obtain ⟨_, _, _, _, rfl, received_one⟩ := poll_subscription_returned first
    obtain ⟨⟨_, rfl⟩, rfl⟩ := poll_scrobbler_returned third
    rcases poll_commands_returned second with ⟨_, rfl, rfl⟩ | ⟨_, handled_one, rfl⟩
    · cases done
      simp only [backlog, Bool.or_false]
      omega
    · cases done
      simp only [backlog, Bool.or_true, Bool.true_or, Bool.toNat_true] at handled_one ⊢
      omega
  · cases returned
    exact Nat.le_refl _

/-- A turn serves the device and then its sender; there is another one only after progress. -/
theorem turn_returned {result : Option (Async Unit)}
    (returned : (t.turn p env m).value = some (result, t', m')) :
    ∃ t1 m1 progress sender, (t.serve p env m).value = some (t1, m1, progress) ∧
      t' = { t1 with sender } ∧ (result = none → progress = true) := by
  obtain ⟨⟨t1, m1, progress⟩, served, returned⟩ := Call.bind_returns.mp returned
  obtain ⟨⟨polled, sender, m2⟩, _, returned⟩ := Call.bind_returns.mp returned
  refine ⟨t1, m1, progress, sender, served, ?_⟩
  cases polled with
  | error err => cases returned
  | ok polled =>
    simp only at returned
    split at returned
    · cases returned
      exact ⟨rfl, by simp⟩
    · split at returned
      · cases returned
        exact ⟨rfl, by simp⟩
      · rename_i progressed
        cases returned
        exact ⟨rfl, fun _ => by simpa using progressed⟩

/-- A turn that does not end `poll` has handled something. -/
theorem turn_backlog (returned : (t.turn p env m).value = some (none, t', m')) :
    t'.backlog < t.backlog := by
  obtain ⟨t1, m1, progress, sender, served, rfl, progressed⟩ := turn_returned returned
  have fewer := serve_backlog served
  rw [progressed rfl, Bool.toNat_true] at fewer
  exact fewer

/-- The loop has turns enough for what is waiting, so `poll` ends as its last turn says. -/
theorem poll_loop_ends {env : Nat → TurnEnv} {left : Nat} {result : Option (Async Unit)}
    (enough : t.backlog < left)
    (returned : (poll_loop p env left m t).value = some (result, t', m')) : result ≠ none := by
  induction left generalizing t m with
  | zero => omega
  | succ left ih =>
    obtain ⟨⟨ended, t1, m1⟩, turned, returned⟩ := Call.bind_returns.mp returned
    cases ended with
    | some result =>
      cases returned
      simp
    | none =>
      have fewer := turn_backlog turned
      exact ih (by omega) returned

end SpircTask

end ConnectScrobbler
