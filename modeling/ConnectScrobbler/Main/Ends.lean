import ConnectScrobbler.Main.Device
import ConnectScrobbler.Main.Interrupts
import ConnectScrobbler.Spirc.Trace

/-! How the program comes to its end: two interrupts, or one and a goodbye that has been answered. -/
namespace ConnectScrobbler

open MainEffect (lets)

variable {M : Type} {p : Platform}

def MainEffect.device : MainEffect → Option SpircEffect
  | .spirc e => some e
  | _ => none

/-- What a monitor of devices sees of the program's log. -/
theorem MainEffect.observe_device (allow : M → SpircEffect → Option M) (k : M) (log : List MainEffect) :
    Call.observe (lets allow) k log = Call.observe allow k (log.filterMap device) := by
  induction log generalizing k with
  | nil => rfl
  | cons e log ih =>
    cases e with
    | spirc e =>
      show (allow k e).bind _ = (allow k e).bind _
      exact congrArg _ (funext fun k' => ih k')
    | _ => exact ih k

/-- Every device follows its talk. -/
theorem keeps_talking (p : Platform) (device_id : String) :
    Keeps p device_id (Talk.allow p.format device_id) .start (Host.Holds p device_id) := by
  constructor
  · rintro setup connected answer env m rfl
    exact Host.start_follows p setup connected answer env m
  · intro h k holds action
    exact Host.step_follows holds action

namespace Main

variable {env : TurnEnv} {x x' : Main}

/-- An interrupt comes in this turn. -/
def TurnEnv.interrupts (env : TurnEnv) : Bool := env.signal == .ok (.ready (some ()))

theorem poll_connect_shutdown {connected : Bool}
    (returned : (x.poll_connect p env).value = some (x', connected)) : x'.shutdown = x.shutdown := by
  rcases poll_connect_returned returned with ⟨rfl, _⟩ | ⟨_, _, _, _, rfl⟩ <;> rfl

/-- The first interrupt is kept in mind, and the second one ends the program. -/
theorem poll_signal_interrupts {result : Option (Async Unit)} {signalled : Bool}
    (returned : (x.poll_signal env).value = some (result, x', signalled)) :
    x'.shutdown = (x.shutdown || env.interrupts) ∧
      (result ≠ none → x.shutdown = true ∧ env.interrupts = true) := by
  unfold poll_signal at returned
  unfold TurnEnv.interrupts
  rcases signal : env.signal with _ | ((_ | _) | _)
  · rw [signal] at returned
    cases returned
  · rw [signal] at returned
    cases returned
    exact ⟨(Bool.or_false _).symm, by simp⟩
  · rw [signal] at returned
    cases interrupted : x.shutdown with
    | true =>
      rw [interrupted] at returned
      cases returned
      exact ⟨interrupted, fun _ => ⟨rfl, rfl⟩⟩
    | false =>
      rw [interrupted] at returned
      obtain ⟨x1, _, done⟩ := Call.bind_returns.mp returned
      cases done
      exact ⟨rfl, by simp⟩
  · rw [signal] at returned
    cases returned
    exact ⟨(Bool.or_false _).symm, by simp⟩

theorem poll_task_ends {result : Option (Async Unit)}
    (returned : (x.poll_task p env).value = some (result, x')) :
    x'.shutdown = x.shutdown ∧ (result ≠ none → x.shutdown = true ∧
      ∃ h, x'.spirc_task = some h ∧ h.finished = true) := by
  unfold poll_task at returned
  split at returned
  · cases returned
    exact ⟨rfl, by simp⟩
  · obtain ⟨h', _, returned⟩ := Call.bind_returns.mp returned
    dsimp only at returned
    split at returned
    · rename_i finished
      split at returned
      · rename_i interrupted
        cases returned
        exact ⟨rfl, fun _ => ⟨interrupted, h', rfl, finished⟩⟩
      · cases returned
    · cases returned
      exact ⟨rfl, by simp⟩

/-- A turn that ends the program takes the second interrupt, or its device has finished after the first. -/
theorem turn_ends {result : Option (Async Unit)} (returned : (x.turn p env).value = some (result, x')) :
    (result ≠ some (.ready ()) → x'.shutdown = (x.shutdown || env.interrupts)) ∧
      (result = some (.ready ()) → x.shutdown = true ∧ env.interrupts = true ∨
        (x.shutdown || env.interrupts) = true ∧ ∃ h, x'.spirc_task = some h ∧ h.finished = true) := by
  obtain ⟨⟨x1, connected⟩, connects, returned⟩ := Call.bind_returns.mp returned
  obtain ⟨⟨result1, x2, signalled⟩, signals, returned⟩ := Call.bind_returns.mp returned
  have same := poll_connect_shutdown connects
  obtain ⟨kept, second⟩ := poll_signal_interrupts signals
  rw [same] at kept second
  cases result1 with
  | some result1 =>
    cases returned
    have both := second (by simp)
    exact ⟨fun _ => kept, fun _ => .inl both⟩
  | none =>
    obtain ⟨⟨result2, x3⟩, polled, returned⟩ := Call.bind_returns.mp returned
    obtain ⟨still, stopped⟩ := poll_task_ends polled
    rw [kept] at still stopped
    cases result2 with
    | some result2 =>
      cases returned
      have ended := stopped (by simp)
      exact ⟨fun _ => still, fun _ => .inr ended⟩
    | none =>
      dsimp only at returned
      split at returned
      · cases returned
        exact ⟨fun _ => still, by simp⟩
      · cases returned
        exact ⟨fun _ => still, by simp⟩

end Main

namespace Program

def Action.interrupts : Action → Bool
  | .turn env => env.interrupts
  | _ => false

/-- So many interrupts have come, as long as the program goes on; when it has come to its end, there have
been two, or there has been one and its device has finished. -/
structure Interrupted (x : Program) (n : Nat) : Prop where
  waits : x.finished = false → x.main.shutdown = decide (0 < n)
  ends : x.finished = true → 2 ≤ n ∨ 0 < n ∧ ∃ h, x.main.spirc_task = some h ∧ h.finished = true

variable {x x' : Program} {n : Nat}

theorem Interrupted.more (interrupted : x.Interrupted n) (ended : x.finished = true) (more : Nat) :
    x.Interrupted (n + more) := by
  constructor
  · intro going
    cases going.symm.trans ended
  · intro ended
    rcases interrupted.ends ended with two | ⟨one, stopped⟩
    · exact .inl (by omega)
    · exact .inr ⟨by omega, stopped⟩

/-- What comes in for a device does not change how far it is. -/
theorem deliver_interrupted {action : Host.Action} (interrupted : x.Interrupted n)
    (quiet : ∀ h h' : Host, (h.step p action).value = some h' → h'.finished = h.finished)
    (delivered : (x.deliver p action).value = some x') : x'.Interrupted n := by
  unfold deliver at delivered
  split at delivered
  · cases delivered
    exact interrupted
  · rename_i h there
    obtain ⟨h', stepped, done⟩ := Call.bind_returns.mp delivered
    cases done
    refine ⟨interrupted.waits, fun ended => (interrupted.ends ended).imp_right ?_⟩
    rintro ⟨one, stopped, same, finished⟩
    cases there.symm.trans same
    exact ⟨one, h', rfl, (quiet h h' stepped).trans finished⟩

theorem step_interrupted {action : Action} (interrupted : x.Interrupted n)
    (stepped : (step p x action).value = some x') : x'.Interrupted (n + action.interrupts.toNat) := by
  cases action with
  | receive arrival =>
    apply deliver_interrupted interrupted _ stepped
    rintro h _ ⟨⟩
    rfl
  | mercury action =>
    apply deliver_interrupted interrupted _ stepped
    intro h h' stepped
    obtain ⟨_, _, done⟩ := Call.bind_returns.mp stepped
    cases done
    rfl
  | turn env =>
    unfold step at stepped
    cases finished : x.finished with
    | true =>
      rw [finished] at stepped
      cases stepped
      exact interrupted.more finished _
    | false =>
      rw [finished] at stepped
      obtain ⟨⟨result, main⟩, turned, done⟩ := Call.bind_returns.mp stepped
      obtain ⟨going, ends⟩ := Main.turn_ends turned
      have waits := interrupted.waits finished
      cases done
      rw [waits] at going ends
      constructor
      · intro going_on
        rw [going (by simpa using going_on)]
        cases env_interrupts : env.interrupts <;> simp [Action.interrupts, env_interrupts]
      · intro ended
        rcases ends (by simpa using ended) with ⟨before, now⟩ | ⟨either, stopped⟩
        · left
          have one := of_decide_eq_true before
          simp only [Action.interrupts, now, Bool.toNat_true]
          omega
        · right
          refine ⟨?_, stopped⟩
          rcases Bool.or_eq_true_iff.mp either with before | now
          · have one := of_decide_eq_true before
            omega
          · simp only [Action.interrupts, now, Bool.toNat_true]
            omega

theorem run_interrupted {actions : List Action} (interrupted : x.Interrupted n)
    (reached : (Call.run (step p) x actions).value = some x') :
    x'.Interrupted (n + actions.countP (·.interrupts)) := by
  induction actions generalizing x n with
  | nil =>
    cases reached
    exact interrupted
  | cons action actions ih =>
    obtain ⟨y, stepped, reached⟩ := Call.bind_returns.mp reached
    have after := ih (step_interrupted interrupted stepped) reached
    rw [List.countP_cons]
    cases here : action.interrupts with
    | true =>
      simp only [here, Bool.toNat_true, if_true] at after ⊢
      rwa [Nat.add_assoc, Nat.add_comm 1] at after
    | false => simpa [here] using after

theorem new_interrupted {setup : Setup} {main : Main} (made : (Main.new setup).value = some main) :
    Interrupted ⟨main, false⟩ 0 := by
  refine ⟨fun _ => ?_, by simp⟩
  unfold Main.new at made
  cases credentials : setup.credentials with
  | none =>
    rw [credentials] at made
    cases made
    rfl
  | some credentials =>
    rw [credentials] at made
    cases made
    rfl

/-- The program does not come to its end by itself. It takes two interrupts, or one, and then its device
has said goodbye with its last frame, and all of its frames have been handed on and answered. -/
theorem program_ends {setup : Setup} {actions : List Action} {x : Program}
    (reached : (run p setup actions).value = some x) (ended : x.finished = true) :
    2 ≤ actions.countP (·.interrupts) ∨ 0 < actions.countP (·.interrupts) ∧
      ∃ log said goodbye, log = (run p setup actions).log.filterMap MainEffect.device ∧
        log.flatMap (·.sent) = said ++ [goodbye] ∧ goodbye.get_typ = .Goodbye ∧
        (log.flatMap (·.requested)).map Prod.fst = (log.flatMap (·.sent)).map p.format.write_to_bytes ∧
        log.flatMap (·.answered) = (log.flatMap (·.requested)).map Prod.snd := by
  obtain ⟨main, made, ran⟩ := Call.bind_returns.mp reached
  have interrupted := run_interrupted (new_interrupted made) ran
  rw [Nat.zero_add] at interrupted
  refine (interrupted.ends ended).imp_right ?_
  rintro ⟨one, h, there, finished⟩
  obtain ⟨k, observed, bound⟩ := run_follows setup (keeps_talking p setup.session_config.device_id) actions
  obtain ⟨agrees, through⟩ := (bound x reached).task h there
  obtain ⟨closed, held, answered⟩ := through finished
  rw [MainEffect.observe_device] at observed
  have explains := Talk.explained observed
  generalize (run p setup actions).log.filterMap MainEffect.device = log at explains ⊢
  have said := explains.said
  rw [agrees.owed, List.append_nil, script, ← explains.closed, agrees.closed, closed, if_pos rfl] at said
  obtain ⟨frames, last, split, _, goodbye⟩ := List.map_eq_append_iff.mp said.symm
  obtain ⟨goodbye_frame, rfl, shaped⟩ := List.map_eq_singleton_iff.mp goodbye
  refine ⟨one, log, frames, goodbye_frame, rfl, split, congrArg Prod.fst shaped, ?_, ?_⟩
  · rw [explains.carried, agrees.held, held]
    simp
  · rw [explains.awaited, agrees.waiting, answered]
    simp

def answered (cmd : UInt8) (seq : Nat) : Action :=
  .mercury (.dispatch cmd (Mercury.Packet.carrying (Bytes.be 8 seq) (.final, [Mercury.ok_header])).encode)

/-- One interrupt, and the server has answered to the goodbye when the device is polled again. -/
def leaving : List Action :=
  [connected, interrupted, answered 0xb3 0, answered 0xb2 1, answered 0xb2 2, turning .notReady .notReady]

theorem program_ends_leaving : ∃ log said goodbye,
    log = (run SpircTask.platform setup leaving).log.filterMap MainEffect.device ∧
    log.flatMap (·.sent) = said ++ [goodbye] ∧ goodbye.get_typ = .Goodbye ∧
    log.flatMap (·.answered) = (log.flatMap (·.requested)).map Prod.snd := by
  have finished : ((run SpircTask.platform setup leaving).value.map (·.finished)) = some true := by decide +kernel
  obtain ⟨x, reached, ended⟩ := Option.map_eq_some_iff.mp finished
  rcases program_ends reached ended with two | ⟨_, log, said, goodbye, rfl, sent, last, _, answers⟩
  · exact absurd two (by decide)
  · exact ⟨_, said, goodbye, rfl, sent, last, answers⟩

end Program

end ConnectScrobbler
