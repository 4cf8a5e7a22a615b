import ConnectScrobbler.Main
import ConnectScrobbler.Spirc.Turns

/-! Whether an interrupt reaches the device, and that a poll of the program comes to an end. -/
namespace ConnectScrobbler

open Mercury (MercuryManager)

namespace SpircTask

variable {p : Platform} {env : TurnEnv} {m m' : MercuryManager} {t t' u : SpircTask}
  {progress : Bool}

/-- Nobody has asked a device to shut down, and it goes on. -/
structure Unasked (t t' : SpircTask) : Prop where
  before : t.shutdown = false
  empty : t.commands.queue = []
  after : t'.shutdown = false
  commands : t'.commands = t.commands

/-- A device says goodbye if it has been asked to. -/
def Obeys (t t' : SpircTask) : Prop := t'.shutdown = true ∨ t.Unasked t'

theorem Obeys.trans (first : t.Obeys t') (second : t'.Obeys u) : t.Obeys u := by
  rcases second with stopped | later
  · exact .inl stopped
  · rcases first with stopped | earlier
    · rw [later.before] at stopped
      cases stopped
    · exact .inr ⟨earlier.before, earlier.empty, later.after,
        later.commands.trans earlier.commands⟩

theorem serve_obeys (returned : (t.serve p env m).value = some (t', m', progress)) : t.Obeys t' := by
  unfold serve at returned
  cases running : t.shutdown with
  | true =>
    rw [running] at returned
    cases returned
    exact .inl running
  | false =>
    rw [running] at returned
    obtain ⟨⟨t1, m1, received⟩, first, returned⟩ := Call.bind_returns.mp returned
    obtain ⟨⟨t2, m2, commanded⟩, second, returned⟩ := Call.bind_returns.mp returned
    obtain ⟨⟨t3, scrobbled⟩, third, done⟩ := Call.bind_returns.mp returned
    obtain ⟨_, _, _, _, rfl, _⟩ := poll_subscription_returned first
    obtain ⟨⟨_, rfl⟩, _⟩ := poll_scrobbler_returned third
    cases done
    rcases poll_commands_returned second with ⟨empty, rfl, _⟩ | ⟨stopped, _, _⟩
    · exact .inr ⟨running, empty, running, rfl⟩
    · exact .inl stopped

theorem turn_obeys {result : Option (Async Unit)}
    (returned : (t.turn p env m).value = some (result, t', m')) : t.Obeys t' := by
  obtain ⟨t1, m1, progress, sender, served, rfl, _⟩ := turn_returned returned
  rcases serve_obeys served with stopped | unasked
  · exact .inl stopped
  · exact .inr ⟨unasked.before, unasked.empty, unasked.after, unasked.commands⟩

theorem poll_loop_obeys {env : Nat → TurnEnv} {left : Nat} {result : Option (Async Unit)}
    (returned : (poll_loop p env (left + 1) m t).value = some (result, t', m')) : t.Obeys t' := by
  induction left generalizing t m with
  | zero =>
    obtain ⟨⟨ended, t1, m1⟩, turned, returned⟩ := Call.bind_returns.mp returned
    cases ended with
    | none =>
      cases returned
      exact turn_obeys turned
    | some result =>
      cases returned
      exact turn_obeys turned
  | succ left ih =>
    obtain ⟨⟨ended, t1, m1⟩, turned, returned⟩ := Call.bind_returns.mp returned
    cases ended with
    | none => exact (turn_obeys turned).trans (ih returned)
    | some result =>
      cases returned
      exact turn_obeys turned

theorem poll_obeys {env : Nat → TurnEnv} {result : Async Unit}
    (returned : (t.poll p env m).value = some (result, t', m')) : t.Obeys t' := by
  obtain ⟨⟨ended, t1, m1⟩, looped, returned⟩ := Call.bind_returns.mp returned
  obtain ⟨_, _, done⟩ := Call.bind_returns.mp returned
  cases done
  exact poll_loop_obeys looped

/-- A shutdown that is sent gets there as long as the device goes on. -/
def Listens (t : SpircTask) : Prop := t.shutdown = false → t.commands.taking = true

theorem Obeys.listens (obeys : t.Obeys t') (listens : t.Listens) : t'.Listens := by
  intro running
  rcases obeys with stopped | unasked
  · rw [running] at stopped
    cases stopped
  · rw [unasked.commands]
    exact listens unasked.before

theorem Obeys.shutdown (obeys : (Spirc.shutdown t).Obeys t') (listens : t.Listens) :
    t'.shutdown = true := by
  rcases obeys with stopped | unasked
  · exact stopped
  · have taking := listens unasked.before
    have empty := unasked.empty
    simp [Spirc.shutdown, Receiver.send, taking] at empty

end SpircTask

namespace Host

variable {p : Platform} {h h' : Host}

/-- The device has handled a shutdown. -/
def Over (h : Host) : Prop := h.task.shutdown = true

/-- A device that goes on has been sent a shutdown. -/
def Asked (h : Host) : Prop := h.finished = false ∧ ∃ t : SpircTask, t.Listens ∧ h.task = Spirc.shutdown t

theorem start_returned {setup : Spirc.Setup} {connected : Bool} {answer : Except ScrobblerError Unit}
    {env : SendEnv} {m : MercuryManager}
    (started : (start p setup connected answer env m).value = some h) :
    h.task.Listens ∧ h.finished = false := by
  obtain ⟨⟨task, mercury⟩, made, done⟩ := Call.bind_returns.mp started
  obtain ⟨m1, _, made⟩ := Call.bind_returns.mp made
  obtain ⟨scrobbler, _, made⟩ := Call.bind_returns.mp made
  obtain ⟨sequence, sender, rfl⟩ := SpircTask.hello_returned made
  cases done
  exact ⟨fun _ => rfl, rfl⟩

theorem poll_obeys {env : Nat → TurnEnv} (polled : (h.step p (.poll env)).value = some h')
    (unfinished : h.finished = false) : h.task.Obeys h'.task := by
  rw [step, unfinished] at polled
  obtain ⟨⟨result, task, mercury⟩, returned, done⟩ := Call.bind_returns.mp polled
  cases done
  exact SpircTask.poll_obeys returned

theorem poll_over {env : Nat → TurnEnv} (polled : (h.step p (.poll env)).value = some h')
    (told : h.Over ∨ h.Asked) : h'.Over := by
  cases finished : h.finished with
  | true =>
    rw [step, finished] at polled
    cases polled
    rcases told with stopped | asked
    · exact stopped
    · cases finished.symm.trans asked.1
  | false =>
    have obeys := poll_obeys polled finished
    rcases told with stopped | ⟨_, t, listens, asked⟩
    · rcases obeys with stopped | unasked
      · exact stopped
      · rw [Over, unasked.before] at stopped
        cases stopped
    · rw [asked] at obeys
      exact obeys.shutdown listens

end Host

namespace Main

variable {p : Platform} {env : TurnEnv} {x x' : Main} {log : List MainEffect}

/-- The connection comes up after an interrupt. -/
def Late (env : TurnEnv) (x : Main) : Prop :=
  x.shutdown = true ∧ x.connect ≠ none ∧ ∃ login, env.connect = .ok (.ready login)

/-- After an interrupt the spirc that there is has been sent a shutdown. -/
def Told (log : List MainEffect) (x : Main) : Prop :=
  x.shutdown = true → ∀ spirc, x.spirc = some spirc → MainEffect.shutdown spirc ∈ log

/-- The device is told of an interrupt, and listens until there is one. -/
structure Sound (heard : Host → Prop) (log : List MainEffect) (x : Main) : Prop where
  told : x.Told log
  heard : x.shutdown = true → ∀ h, x.spirc_task = some h → heard h
  listens : x.shutdown = false → ∀ h, x.spirc_task = some h → h.task.Listens ∧ h.finished = false
  paired : x.spirc_task = none ↔ x.spirc = none

theorem Sound.longer {heard : Host → Prop} {more : List MainEffect} (sound : x.Sound heard log) :
    x.Sound heard (log ++ more) := by
  constructor
  · intro interrupted spirc there
    exact List.mem_append_left more (sound.told interrupted spirc there)
  · exact sound.heard
  · exact sound.listens
  · exact sound.paired

/-- What comes in for a device does not tell it to stop, nor let it miss that. -/
theorem Sound.same_task {h h' : Host} (sound : x.Sound Host.Over log) (there : x.spirc_task = some h)
    (commands : h'.task.commands = h.task.commands) (shutdown : h'.task.shutdown = h.task.shutdown)
    (finished : h'.finished = h.finished) :
    Sound Host.Over log { x with spirc_task := some h' } := by
  constructor
  · exact sound.told
  · rintro interrupted _ ⟨⟩
    exact shutdown.trans (sound.heard interrupted h there)
  · rintro uninterrupted _ ⟨⟩
    obtain ⟨listens, unfinished⟩ := sound.listens uninterrupted h there
    refine ⟨?_, finished.trans unfinished⟩
    intro running
    rw [commands]
    exact listens (shutdown ▸ running)
  · rw [← sound.paired, there]
    simp

/-! What the parts of a turn can do. -/

theorem poll_connect_returned {connected : Bool}
    (returned : (x.poll_connect p env).value = some (x', connected)) :
    (x' = x ∧ connected = false) ∨
      ∃ h : Host, (x.connect ≠ none ∧ ∃ login, env.connect = .ok (.ready login)) ∧
        (h.task.Listens ∧ h.finished = false) ∧ connected = true ∧
        x' = { x with
          connect := none
          spirc := some ⟨x.devices⟩
          spirc_task := some h
          devices := x.devices + 1 } := by
  unfold poll_connect at returned
  cases waits : x.connect with
  | none =>
    rw [waits] at returned
    cases returned
    exact .inl ⟨rfl, rfl⟩
  | some credentials =>
    rw [waits] at returned
    rcases polled : env.connect with _ | (login | _)
    · rw [polled] at returned
      cases returned
    · rw [polled] at returned
      obtain ⟨h, started, done⟩ := Call.bind_returns.mp returned
      cases done
      exact .inr ⟨h, ⟨by simp, login, rfl⟩, Host.start_returned started, rfl, rfl⟩
    · rw [polled] at returned
      cases returned
      exact .inl ⟨rfl, rfl⟩

theorem poll_signal_returned {result : Option (Async Unit)} {signalled : Bool}
    (returned : (x.poll_signal env).value = some (result, x', signalled)) :
    (x' = x ∧ signalled = false) ∨
      (x.shutdown = false ∧ result = none ∧ signalled = true ∧
        (x.poll_signal env).log = x.forward.log ∧
        ∃ x1, x.forward.value = some x1 ∧ x' = { x1 with shutdown := true }) := by
  unfold poll_signal at returned ⊢
  split at returned
  · cases returned
  · cases uninterrupted : x.shutdown with
    | true =>
      rw [uninterrupted] at returned
      cases returned
      exact .inl ⟨rfl, rfl⟩
    | false =>
      rw [uninterrupted] at returned
      obtain ⟨x1, forwarded, done⟩ := Call.bind_returns.mp returned
      cases done
      refine .inr ⟨rfl, rfl, rfl, ?_, x1, forwarded, rfl⟩
      simp only [Bool.not_false, ite_true]
      rw [Call.bind_log forwarded]
      simp
  · cases returned
    exact .inl ⟨rfl, rfl⟩

theorem poll_task_returned {result : Option (Async Unit)}
    (returned : (x.poll_task p env).value = some (result, x')) :
    (x.spirc_task = none ∧ x' = x) ∨
      ∃ h h', x.spirc_task = some h ∧ (h.step p (.poll env.task)).value = some h' ∧
        (x.shutdown = false → h'.finished = false) ∧ x' = { x with spirc_task := some h' } := by
  unfold poll_task at returned
  cases there : x.spirc_task with
  | none =>
    rw [there] at returned
    cases returned
    exact .inl ⟨rfl, rfl⟩
  | some h =>
    rw [there] at returned
    obtain ⟨h', polled, returned⟩ := Call.bind_returns.mp returned
    right
    refine ⟨h, h', rfl, polled, ?_⟩
    simp only at returned
    split at returned
    · split at returned
      · rename_i interrupted
        cases returned
        exact ⟨fun uninterrupted => absurd interrupted (by simp [uninterrupted]), rfl⟩
      · cases returned
    · rename_i unfinished
      cases returned
      exact ⟨fun _ => by simpa using unfinished, rfl⟩

theorem poll_connect_sound {connected : Bool} (sound : x.Sound Host.Over log) (on_time : ¬ x.Late env)
    (returned : (x.poll_connect p env).value = some (x', connected)) :
    x'.Sound Host.Over (log ++ (x.poll_connect p env).log) := by
  apply Sound.longer
  rcases poll_connect_returned returned with ⟨rfl, _⟩ | ⟨h, comes_up, listens, _, rfl⟩
  · exact sound
  · have uninterrupted : x.shutdown = false := by
      by_contra interrupted
      exact on_time ⟨by simpa using interrupted, comes_up⟩
    constructor
    · intro interrupted
      cases uninterrupted.symm.trans interrupted
    · intro interrupted
      cases uninterrupted.symm.trans interrupted
    · rintro _ _ ⟨⟩
      exact listens
    · simp

theorem forward_sound (sound : x.Sound Host.Over log) (uninterrupted : x.shutdown = false)
    (returned : x.forward.value = some x') :
    Sound (fun h => h.Over ∨ h.Asked) (log ++ x.forward.log) { x' with shutdown := true } := by
  unfold forward at returned ⊢
  cases there : x.spirc with
  | none =>
    have alone := sound.paired.mpr there
    rw [there] at returned
    cases returned
    constructor
    · intro _ spirc other
      rw [there] at other
      cases other
    · intro _ h other
      rw [alone] at other
      cases other
    · simp
    · simp [alone, there]
  | some spirc =>
    rw [there] at returned
    cases returned
    constructor
    · rintro _ _ ⟨⟩
      simp
    · intro _ _ same
      obtain ⟨h, task, rfl⟩ := Option.map_eq_some_iff.mp same
      obtain ⟨listens, unfinished⟩ := sound.listens uninterrupted h task
      exact .inr ⟨unfinished, h.task, listens, rfl⟩
    · simp
    · simp [sound.paired, there]

theorem poll_signal_sound {result : Option (Async Unit)} {signalled : Bool}
    (sound : x.Sound Host.Over log)
    (returned : (x.poll_signal env).value = some (result, x', signalled)) :
    x'.Sound (fun h => h.Over ∨ h.Asked) (log ++ (x.poll_signal env).log) ∧
      (result ≠ none → x' = x) := by
  rcases poll_signal_returned returned with ⟨rfl, _⟩ |
    ⟨uninterrupted, none, _, logged, x1, forwarded, rfl⟩
  · refine ⟨Sound.longer ⟨sound.told, ?_, sound.listens, sound.paired⟩, fun _ => rfl⟩
    intro interrupted h there
    exact .inl (sound.heard interrupted h there)
  · rw [logged]
    exact ⟨forward_sound sound uninterrupted forwarded, fun some => absurd none some⟩

theorem poll_task_sound {result : Option (Async Unit)}
    (sound : x.Sound (fun h => h.Over ∨ h.Asked) log)
    (returned : (x.poll_task p env).value = some (result, x')) :
    x'.Sound Host.Over (log ++ (x.poll_task p env).log) := by
  apply Sound.longer
  rcases poll_task_returned returned with ⟨alone, rfl⟩ | ⟨h, h', there, polled, unfinished', rfl⟩
  · refine ⟨sound.told, ?_, sound.listens, sound.paired⟩
    intro _ h other
    cases alone.symm.trans other
  · refine ⟨sound.told, ?_, ?_, ?_⟩
    · rintro interrupted _ ⟨⟩
      exact Host.poll_over polled (sound.heard interrupted h there)
    · rintro uninterrupted _ ⟨⟩
      obtain ⟨listens, unfinished⟩ := sound.listens uninterrupted h there
      exact ⟨(Host.poll_obeys polled unfinished).listens listens, unfinished' uninterrupted⟩
    · rw [← sound.paired, there]
      simp

theorem turn_sound {result : Option (Async Unit)} (sound : x.Sound Host.Over log)
    (on_time : ¬ x.Late env) (returned : (x.turn p env).value = some (result, x')) :
    x'.Sound Host.Over (log ++ (x.turn p env).log) := by
  obtain ⟨⟨x1, connected⟩, connects, returned⟩ := Call.bind_returns.mp returned
  obtain ⟨⟨result1, x2, signalled⟩, signals, returned⟩ := Call.bind_returns.mp returned
  have sound1 := poll_connect_sound sound on_time connects
  obtain ⟨sound2, same⟩ := poll_signal_sound sound1 signals
  unfold turn
  rw [Call.bind_log connects, Call.bind_log signals]
  cases result1 with
  | some result1 =>
    cases returned
    rw [same (by simp), ← List.append_assoc]
    exact sound1.longer
  | none =>
    obtain ⟨⟨result2, x3⟩, polled, returned⟩ := Call.bind_returns.mp returned
    have sound3 := poll_task_sound sound2 polled
    simp only [Call.bind_log polled, ← List.append_assoc] at sound3 ⊢
    apply Sound.longer
    cases result2 with
    | some result2 =>
      cases returned
      exact sound3
    | none =>
      simp only at returned
      split at returned
      all_goals
        cases returned
        exact sound3

/-- Where there was progress, there is less to come. -/
theorem poll_connect_to_come {connected : Bool}
    (returned : (x.poll_connect p env).value = some (x', connected)) :
    x'.to_come + connected.toNat = x.to_come := by
  rcases poll_connect_returned returned with ⟨rfl, rfl⟩ | ⟨h, ⟨waits, _⟩, _, rfl, rfl⟩
  · rfl
  · have pending := Option.isSome_iff_ne_none.mpr waits
    simp only [to_come, pending, Option.isSome_none, Bool.toNat_false, Bool.toNat_true]
    omega

theorem poll_signal_to_come {result : Option (Async Unit)} {signalled : Bool}
    (returned : (x.poll_signal env).value = some (result, x', signalled)) :
    x'.to_come + signalled.toNat = x.to_come := by
  rcases poll_signal_returned returned with ⟨rfl, rfl⟩ |
    ⟨uninterrupted, _, rfl, _, x1, forwarded, rfl⟩
  · rfl
  · have connect_same : x1.connect = x.connect := by
      unfold forward at forwarded
      split at forwarded
      all_goals
        cases forwarded
        rfl
    simp [to_come, connect_same, uninterrupted]

theorem poll_task_to_come {result : Option (Async Unit)}
    (returned : (x.poll_task p env).value = some (result, x')) : x'.to_come = x.to_come := by
  rcases poll_task_returned returned with ⟨_, rfl⟩ | ⟨_, _, _, _, _, rfl⟩
  · rfl
  · rfl

theorem turn_to_come (returned : (x.turn p env).value = some (none, x')) :
    x'.to_come < x.to_come := by
  obtain ⟨⟨x1, connected⟩, connects, returned⟩ := Call.bind_returns.mp returned
  obtain ⟨⟨result, x2, signalled⟩, signals, returned⟩ := Call.bind_returns.mp returned
  cases result with
  | some result => cases returned
  | none =>
    obtain ⟨⟨ended, x3⟩, polled, returned⟩ := Call.bind_returns.mp returned
    have first := poll_connect_to_come connects
    have second := poll_signal_to_come signals
    have third := poll_task_to_come polled
    cases ended with
    | some ended => cases returned
    | none =>
      cases connected <;> cases signalled
      · cases returned
      all_goals
        cases returned
        simp only [Bool.toNat_true, Bool.toNat_false] at first second
        omega

/-- The loop has turns enough, so a poll ends as its last turn says. -/
theorem poll_loop_ends {env : Nat → TurnEnv} {left : Nat} {result : Option (Async Unit)}
    (enough : x.to_come < left) (returned : (poll_loop p env left x).value = some (result, x')) :
    result ≠ none := by
  induction left generalizing x with
  | zero => omega
  | succ left ih =>
    obtain ⟨⟨ended, x1⟩, turned, returned⟩ := Call.bind_returns.mp returned
    cases ended with
    | some result =>
      cases returned
      simp
    | none =>
      have less := turn_to_come turned
      exact ih (by omega) returned

end Main

namespace Program

variable {p : Platform} {x x' : Program} {log : List MainEffect}

/-- As long as the program goes on, no connection comes up after an interrupt. -/
def OnTime (x : Program) : Action → Prop
  | .turn env => x.finished = false → ¬ x.main.Late env
  | _ => True

theorem deliver_sound {action : Host.Action} (sound : x.main.Sound Host.Over log)
    (quiet : ∀ h h' : Host, (h.step p action).value = some h' → h'.task.commands = h.task.commands ∧
      h'.task.shutdown = h.task.shutdown ∧ h'.finished = h.finished)
    (delivered : (x.deliver p action).value = some x') :
    x'.main.Sound Host.Over (log ++ (x.deliver p action).log) := by
  apply Main.Sound.longer
  unfold deliver at delivered
  cases there : x.main.spirc_task with
  | none =>
    rw [there] at delivered
    cases delivered
    exact sound
  | some h =>
    rw [there] at delivered
    obtain ⟨h', stepped, done⟩ := Call.bind_returns.mp delivered
    obtain ⟨commands, shutdown, finished⟩ := quiet h h' stepped
    cases done
    exact sound.same_task there commands shutdown finished

theorem step_sound {action : Action} (sound : x.main.Sound Host.Over log) (on_time : x.OnTime action)
    (stepped : (step p x action).value = some x') :
    x'.main.Sound Host.Over (log ++ (step p x action).log) := by
  cases action with
  | receive arrival =>
    apply deliver_sound sound _ stepped
    rintro h _ ⟨⟩
    exact ⟨rfl, rfl, rfl⟩
  | mercury action =>
    apply deliver_sound sound _ stepped
    intro h h' stepped
    obtain ⟨mercury, _, done⟩ := Call.bind_returns.mp stepped
    cases done
    exact ⟨rfl, rfl, rfl⟩
  | turn env =>
    unfold step at stepped ⊢
    cases finished : x.finished with
    | true =>
      rw [finished] at stepped
      cases stepped
      exact sound.longer
    | false =>
      rw [finished] at stepped
      obtain ⟨⟨result, main⟩, turned, done⟩ := Call.bind_returns.mp stepped
      have after := Main.turn_sound sound (on_time finished) turned
      cases done
      simp only [Bool.false_eq_true, if_false]
      rw [Call.bind_log turned, ← List.append_assoc]
      exact after.longer

theorem new_sound {setup : Setup} {main : Main} (made : (Main.new setup).value = some main) :
    main.Sound Host.Over (Main.new setup).log := by
  unfold Main.new at made ⊢
  cases credentials : setup.credentials with
  | none =>
    rw [credentials] at made
    cases made
    exact ⟨by simp [Main.Told], by simp, by simp, by simp⟩
  | some credentials =>
    rw [credentials] at made
    cases made
    exact ⟨by simp [Main.Told], by simp, by simp, by simp⟩

/-- Where each connection comes up before the first interrupt or in the turn that takes it, the
spirc is sent a shutdown after an interrupt, and its device has handled that and said goodbye. -/
theorem interrupt_told {p : Platform} {setup : Setup} {main : Main} {actions : List Action}
    {x : Program} (made : (Main.new setup).value = some main)
    (on_time : Call.Meets (step p) OnTime ⟨main, false⟩ actions)
    (reached : (run p setup actions).value = some x) :
    x.main.Told (run p setup actions).log ∧
      (x.main.shutdown = true → ∀ h, x.main.spirc_task = some h → h.task.shutdown = true) := by
  obtain ⟨other, same, reached⟩ := Call.bind_returns.mp reached
  cases made.symm.trans same
  have sound : x.main.Sound Host.Over
      ((Main.new setup).log ++ (Call.run (step p) ⟨main, false⟩ actions).log) := by
    refine on_time.induction
      (P := fun log x => x.main.Sound Host.Over ((Main.new setup).log ++ log)) ?_ ?_ reached
    · exact (new_sound made).longer
    · intro log s sound action on_time t stepped
      rw [← List.append_assoc]
      exact step_sound sound on_time stepped
  unfold run
  rw [Call.bind_log made]
  exact ⟨sound.told, sound.heard⟩

def setup : Setup :=
  { version_string := "librespot"
    session_config := ⟨"librespot", "scrobbler"⟩
    connect_config := ⟨"Scrobbler", .Speaker⟩
    credentials := some ⟨"user", .AUTHENTICATION_USER_PASS, []⟩
    scrobbler_config := account }

def turning (connect : Async Login) (signal : Async (Option Unit)) : Action :=
  .turn ⟨.ok connect, .ok signal, .ok (), SpircTask.sending, fun _ => SpircTask.quick_turn⟩

def connected : Action := turning (.ready ⟨"user", .new⟩) .notReady
def interrupted : Action := turning .notReady (.ready (some ()))

theorem interrupt_told_after_connecting : ∃ x, (run SpircTask.platform setup [connected, interrupted]).value =
      some x ∧ x.main.shutdown = true ∧ x.main.spirc = some ⟨0⟩ ∧
    x.main.Told (run SpircTask.platform setup [connected, interrupted]).log := by
  obtain ⟨main, made⟩ : ∃ main, (Main.new setup).value = some main := ⟨_, rfl⟩
  have uninterrupted : main.shutdown = false := by
    cases made
    rfl
  have on_time : Call.Meets (step SpircTask.platform) OnTime ⟨main, false⟩ [connected, interrupted] := by
    apply Call.meets_cons
    · rintro _ ⟨late, _⟩
      rw [uninterrupted] at late
      cases late
    · intro x _
      apply Call.meets_cons
      · rintro _ ⟨_, _, _, comes_up⟩
        cases comes_up
      · intro y _
        exact Call.meets_nil _ _ _
  refine ⟨_, rfl, rfl, rfl, ?_⟩
  exact (interrupt_told made on_time rfl).1

/-- An interrupt that comes before the connection is forgotten when the device is made. -/
theorem early_interrupt_lost :
    ¬ ∀ (p : Platform) (setup : Setup) (actions : List Action) (x : Program),
      (run p setup actions).value = some x → x.main.Told (run p setup actions).log := by
  intro told
  have sent := told SpircTask.platform setup [interrupted, connected] _ rfl rfl ⟨0⟩ rfl
  revert sent
  decide +kernel

theorem step_turn (env : Main.TurnEnv) (main : Main) : step p ⟨main, false⟩ (.turn env) =
    ⟨(main.turn p env).log, (main.turn p env).value.map fun polled =>
      ⟨polled.2, polled.1 == some (.ready ())⟩⟩ := by
  have unfolded : step p ⟨main, false⟩ (.turn env) = main.turn p env >>= fun polled =>
      ⟨[], some ⟨polled.2, polled.1 == some (.ready ())⟩⟩ := rfl
  rw [unfolded]
  generalize main.turn p env = x
  obtain ⟨log, value⟩ := x
  cases value <;> simp

theorem poll_loop_is_run (env : Nat → Main.TurnEnv) (left : Nat) (main : Main) :
    ∃ envs : List Main.TurnEnv, Call.run (step p) ⟨main, false⟩ (envs.map .turn) =
      ⟨(main.poll_loop p env left).log, (main.poll_loop p env left).value.map fun polled =>
        ⟨polled.2, polled.1 == some (.ready ())⟩⟩ := by
  induction left generalizing main with
  | zero => exact ⟨[], rfl⟩
  | succ left ih =>
    have first := step_turn (p := p) (env left) main
    unfold Main.poll_loop
    generalize main.turn p (env left) = x at first ⊢
    obtain ⟨log, value⟩ := x
    rcases value with _ | ⟨_ | result, main'⟩
    · refine ⟨[env left], ?_⟩
      simp only [List.map_cons, Call.run, first]
      rfl
    · obtain ⟨envs, rest⟩ := ih main'
      refine ⟨env left :: envs, ?_⟩
      simp only [List.map_cons, Call.run, first]
      simp [rest]
    · refine ⟨[env left], ?_⟩
      simp only [List.map_cons, Call.run, first]
      simp

/-- A poll is a run of turns, and the program has ended when it is ready. -/
theorem poll_is_run (env : Nat → Main.TurnEnv) (main : Main) :
    ∃ envs : List Main.TurnEnv, Call.run (step p) ⟨main, false⟩ (envs.map .turn) =
      ⟨(main.poll p env).log, (main.poll p env).value.map fun polled =>
        ⟨polled.2, polled.1 == .ready ()⟩⟩ := by
  obtain ⟨envs, run⟩ := poll_loop_is_run (p := p) env (main.to_come + 1) main
  refine ⟨envs, ?_⟩
  rw [run, Main.poll]
  generalize main.poll_loop p env (main.to_come + 1) = x
  obtain ⟨log, value⟩ := x
  rcases value with _ | ⟨_ | (_ | _), main'⟩
  all_goals simp

end Program

end ConnectScrobbler
