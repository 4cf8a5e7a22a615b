import ConnectScrobbler.Main

/-! The program makes one device at most, so what any device keeps to it keeps to. -/
namespace ConnectScrobbler

open Call (Follows)

variable {M : Type} {p : Platform} {device_id : String} {allow : M → SpircEffect → Option M} {start k : M}
  {R : Host → M → Prop}

/-- A monitor of devices, in the program. -/
def MainEffect.lets (allow : M → SpircEffect → Option M) (k : M) : MainEffect → Option M
  | .spirc e => allow k e
  | .connect _ _ => some k
  | .shutdown _ => some k
  | .spawn _ => some k

/-- Every device of this name follows a monitor, whatever is done with it. -/
structure Keeps (p : Platform) (device_id : String) (allow : M → SpircEffect → Option M) (start : M)
    (R : Host → M → Prop) : Prop where
  starts : ∀ (setup : Spirc.Setup) connected answer env m, setup.device_id = device_id →
    Follows allow start (Host.start p setup connected answer env m) R
  steps : ∀ h k, R h k → ∀ action, Follows allow k (h.step p action) R

theorem Keeps.within (k : M) {α : Type} {x : Call SpircEffect α} {Q : α → M → Prop}
    (follows : Follows allow k x Q) : Follows (MainEffect.lets allow) k (x.within .spirc) Q := by
  have writes : Call.Writes (fun _ => True) x := ⟨fun _ _ => trivial⟩
  apply Call.follows_weaken
  · exact Call.follows_part (f := MainEffect.spirc) (fun k => k) (fun _ _ _ _ taken => taken) writes follows
  · rintro a _ ⟨k', rfl, post⟩
    exact post

namespace Main

/-- The device that there is keeps to the monitor, and there has been none as long as the
connection is waited for. -/
structure Bound (device_id : String) (start : M) (R : Host → M → Prop) (x : Main) (k : M) : Prop where
  named : x.session_config.device_id = device_id
  fresh : x.connect ≠ none → x.spirc_task = none ∧ k = start
  task : ∀ h, x.spirc_task = some h → R h k

variable {env : TurnEnv} {x : Main}

theorem poll_connect_follows (keeps : Keeps p device_id allow start R) (bound : x.Bound device_id start R k) :
    Follows (MainEffect.lets allow) k (x.poll_connect p env) fun (x', _) k' =>
      x'.Bound device_id start R k' := by
  unfold poll_connect
  split
  · exact Call.follows_pure bound
  · rename_i waits
    obtain ⟨none_yet, rfl⟩ := bound.fresh (by simp [waits])
    split
    · exact Call.follows_panic
    · exact Call.follows_pure bound
    · apply Call.follows_bind
      apply Call.follows_weaken
      · exact Keeps.within _ (keeps.starts _ _ _ _ _ bound.named)
      · intro h k' related
        apply Call.follows_pure
        refine ⟨bound.named, by simp, ?_⟩
        rintro _ ⟨⟩
        exact related

theorem forward_follows (keeps : Keeps p device_id allow start R) (bound : x.Bound device_id start R k) :
    Follows (MainEffect.lets allow) k x.forward fun x' k' => x'.Bound device_id start R k' := by
  unfold forward
  split
  · apply Call.follows_bind
    apply Call.follows_emit rfl
    apply Call.follows_pure
    refine ⟨bound.named, fun waits => ?_, ?_⟩
    · obtain ⟨none_yet, same⟩ := bound.fresh waits
      exact ⟨by simp [none_yet], same⟩
    · intro h there
      obtain ⟨h, task, rfl⟩ := Option.map_eq_some_iff.mp there
      obtain ⟨_, ⟨⟩, related⟩ := keeps.steps h k (bound.task h task) .shutdown
      exact related _ rfl
  · exact Call.follows_pure bound

theorem poll_signal_follows (keeps : Keeps p device_id allow start R) (bound : x.Bound device_id start R k) :
    Follows (MainEffect.lets allow) k (x.poll_signal env) fun (_, x', _) k' =>
      x'.Bound device_id start R k' := by
  unfold poll_signal
  split
  · exact Call.follows_panic
  · apply Call.follows_ite
    · intro _
      apply Call.follows_bind
      apply Call.follows_weaken (forward_follows keeps bound)
      intro x' k' bound
      exact Call.follows_pure ⟨bound.named, bound.fresh, bound.task⟩
    · intro _
      exact Call.follows_pure bound
  · exact Call.follows_pure bound

theorem poll_task_follows (keeps : Keeps p device_id allow start R) (bound : x.Bound device_id start R k) :
    Follows (MainEffect.lets allow) k (x.poll_task p env) fun (_, x') k' => x'.Bound device_id start R k' := by
  unfold poll_task
  split
  · exact Call.follows_pure bound
  · rename_i h there
    apply Call.follows_bind
    apply Call.follows_weaken (Keeps.within k (keeps.steps h k (bound.task h there) (.poll env.task)))
    intro h' k' related
    have bound' : Bound device_id start R { x with spirc_task := some h' } k' := by
      refine ⟨bound.named, fun waits => ?_, ?_⟩
      · cases there.symm.trans (bound.fresh waits).1
      · rintro _ ⟨⟩
        exact related
    apply Call.follows_ite
    · intro _
      apply Call.follows_ite
      · intro _
        exact Call.follows_pure bound'
      · intro _
        exact Call.follows_panic
    · intro _
      exact Call.follows_pure bound'

theorem turn_follows (keeps : Keeps p device_id allow start R) (bound : x.Bound device_id start R k) :
    Follows (MainEffect.lets allow) k (x.turn p env) fun (_, x') k' => x'.Bound device_id start R k' := by
  apply Call.follows_bind
  apply Call.follows_weaken (poll_connect_follows keeps bound)
  rintro ⟨x1, connected⟩ k1 bound
  apply Call.follows_bind
  apply Call.follows_weaken (poll_signal_follows keeps bound)
  rintro ⟨_ | result, x2, signalled⟩ k2 bound
  · apply Call.follows_bind
    apply Call.follows_weaken (poll_task_follows keeps bound)
    rintro ⟨_ | result, x3⟩ k3 bound
    · apply Call.follows_ite
      · intro _
        exact Call.follows_pure bound
      · intro _
        exact Call.follows_pure bound
    · exact Call.follows_pure bound
  · exact Call.follows_pure bound

end Main

namespace Program

variable {x : Program}

theorem deliver_follows (keeps : Keeps p device_id allow start R)
    (bound : x.main.Bound device_id start R k) (action : Host.Action) :
    Follows (MainEffect.lets allow) k (x.deliver p action) fun x' k' =>
      x'.main.Bound device_id start R k' := by
  unfold deliver
  split
  · exact Call.follows_pure bound
  · rename_i h there
    apply Call.follows_bind
    apply Call.follows_weaken (Keeps.within k (keeps.steps h k (bound.task h there) action))
    intro h' k' related
    apply Call.follows_pure
    refine ⟨bound.named, fun waits => ?_, ?_⟩
    · cases there.symm.trans (bound.fresh waits).1
    · rintro _ ⟨⟩
      exact related

theorem step_follows (keeps : Keeps p device_id allow start R)
    (bound : x.main.Bound device_id start R k) (action : Action) :
    Follows (MainEffect.lets allow) k (x.step p action) fun x' k' => x'.main.Bound device_id start R k' := by
  cases action with
  | receive arrival => exact deliver_follows keeps bound _
  | mercury action => exact deliver_follows keeps bound _
  | turn env =>
    apply Call.follows_ite
    · intro _
      exact Call.follows_pure bound
    · intro _
      apply Call.follows_bind
      apply Call.follows_weaken (Main.turn_follows keeps bound)
      rintro ⟨returned, main⟩ k' bound
      exact Call.follows_pure bound

theorem new_follows (setup : Setup) : Follows (MainEffect.lets allow) start (Main.new setup)
    fun (x : Main) k => x.Bound setup.session_config.device_id start R k := by
  unfold Main.new
  cases setup.credentials with
  | none =>
    refine ⟨start, rfl, fun x made => ?_⟩
    cases made
    exact ⟨rfl, by simp, by simp⟩
  | some credentials =>
    refine ⟨start, rfl, fun x made => ?_⟩
    cases made
    exact ⟨rfl, by simp, by simp⟩

/-- The program follows what its devices follow, up to a panic. -/
theorem run_follows (setup : Setup) (keeps : Keeps p setup.session_config.device_id allow start R)
    (actions : List Action) :
    Follows (MainEffect.lets allow) start (run p setup actions) fun x k =>
      x.main.Bound setup.session_config.device_id start R k := by
  apply Call.follows_bind
  apply Call.follows_weaken (new_follows (R := R) setup)
  intro main k bound
  let Held (x : Program) (k : M) : Prop := x.main.Bound setup.session_config.device_id start R k
  have steps : ∀ x k, Held x k → ∀ action, Follows (MainEffect.lets allow) k (x.step p action) Held :=
    fun x k bound action => step_follows keeps bound action
  exact Call.run_follows steps bound actions

end Program

end ConnectScrobbler
