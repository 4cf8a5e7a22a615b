import ConnectScrobbler.Core.Mercury.Reassembly

/-! What each call does to the subscriptions, to the futures of the subscribers
and to answers that have been given. -/
namespace ConnectScrobbler.Mercury

open Bytes (be)
open MercuryPending (of)
open Packet (head parse take_in)

namespace MercuryManager

variable {build : Build} {protobuf : Protobuf} {m m' : MercuryManager}

def reaches (closed : Nat → Bool) (response : MercuryResponse) (entry : String × Nat) : Bool :=
  starts_with response.uri entry.1 && !closed entry.2

/-- `retain` sends the event to every open receiver that watches its URI, and
drops only entries whose receiver is gone. -/
theorem retain_eq (closed : Nat → Bool) (response : MercuryResponse) (subs : List (String × Nat)) :
    retain closed response subs =
      ⟨(subs.filter (reaches closed response)).map fun entry => .send entry.2 response,
        some (subs.filter fun entry => !(starts_with response.uri entry.1 && closed entry.2))⟩ := by
  induction subs with
  | nil => rfl
  | cons entry subs ih =>
    obtain ⟨watched, sub⟩ := entry
    rw [retain, ih]
    cases watches : starts_with response.uri watched <;> cases gone : closed sub <;>
      simp [reaches, watches, gone]

theorem mem_retain_log {closed : Nat → Bool} {response : MercuryResponse}
    {subs : List (String × Nat)} {sub : Nat} {other : MercuryResponse} :
    .send sub other ∈ (retain closed response subs).log ↔ other = response ∧ closed sub = false ∧
      ∃ watched, (watched, sub) ∈ subs ∧ starts_with response.uri watched = true := by
  rw [retain_eq]
  simp only [List.mem_map, List.mem_filter, reaches, Bool.and_eq_true, Bool.not_eq_true',
    Effect.send.injEq, Prod.exists]
  constructor
  · rintro ⟨watched, _, ⟨member, watches, open_⟩, rfl, rfl⟩
    exact ⟨rfl, open_, watched, member, watches⟩
  · rintro ⟨rfl, open_, watched, member, watches⟩
    exact ⟨watched, sub, ⟨member, watches, open_⟩, rfl, rfl⟩

def Kept (closed : Nat → Bool) (earlier later : List (String × Nat)) : Prop :=
  (∀ entry ∈ later, entry ∈ earlier) ∧ ∀ entry ∈ earlier, closed entry.2 = false → entry ∈ later

theorem Kept.refl (closed : Nat → Bool) (subs : List (String × Nat)) : Kept closed subs subs :=
  ⟨fun _ member => member, fun _ member _ => member⟩

theorem complete_request_kept {cmd : UInt8} {pending : MercuryPending}
    (returned : (m.complete_request protobuf cmd pending).value = some m') :
    Kept m.closed m.subscriptions m'.subscriptions := by
  obtain ⟨response, _, returned⟩ := Call.bind_returns.mp returned
  split at returned
  · split at returned <;> cases returned <;> exact .refl ..
  · split at returned
    · obtain ⟨subscriptions, retained, returned⟩ := Call.bind_returns.mp returned
      obtain ⟨_, rfl⟩ := drop_callback_returns returned
      rw [retain_eq] at retained
      cases retained
      refine ⟨fun entry member => (List.mem_filter.mp member).1, fun entry member open_ => ?_⟩
      exact List.mem_filter.mpr ⟨member, by rw [open_]; simp⟩
    · split at returned <;> cases returned <;> exact .refl ..

theorem dispatch_kept {cmd : UInt8} {data : Bytes}
    (returned : (m.dispatch protobuf cmd data).value = some m') :
    Kept m.closed m.subscriptions m'.subscriptions := by
  obtain ⟨⟨m1, held⟩, received, concluded⟩ := Call.bind_returns.mp returned
  rcases receive_cases cmd data m with
    panics | ⟨_, _, _, _, _, _, _, ignored⟩ | ⟨p, x, callback, _, _, taken⟩
  · rw [panics] at received
    cases received
  · rw [ignored] at received
    cases received
    cases concluded
    exact .refl ..
  · rw [taken] at received
    cases received
    simp only [conclude] at concluded
    split at concluded
    · exact complete_request_kept (m := m.remove p.seq) concluded
    · obtain ⟨_, rfl⟩ := insert_returns concluded
      exact .refl ..

structure StreamStep (a : Action) (m m' : MercuryManager) : Prop where
  streams : m.streams ≤ m'.streams
  kept : ∀ entry ∈ m.subscriptions, m.closed entry.2 = false → entry ∈ m'.subscriptions
  added : ∀ entry ∈ m'.subscriptions, entry ∈ m.subscriptions ∨ entry.2 < m'.streams
  closed : ∀ s, m'.closed s = true → m.closed s = true ∨ a = .drop_receiver s ∧ s < m.streams
  channels : m.channels ≤ m'.channels
  subscribers : ∀ rx, m'.subscribers rx = m.subscribers rx ∨
    m.channels ≤ rx ∧ rx < m'.channels ∨ a = .poll_subscriber rx ∧ m.subscribers rx ≠ none

theorem subscribed_tx {uri : String} {tx : Nat} {response : MercuryResponse}
    {entries : List (String × Nat)} (parsed : subscribed protobuf uri tx response = some entries) :
    ∀ entry ∈ entries, entry.2 = tx := by
  unfold subscribed at parsed
  split at parsed
  · generalize response.payload = payload at parsed
    induction payload generalizing entries with
    | nil => cases parsed; nofun
    | cons sub payload ih =>
      rw [List.mapM_cons] at parsed
      obtain ⟨entry, first, rest⟩ := Option.bind_eq_some_iff.mp parsed
      obtain ⟨later, others, done⟩ := Option.bind_eq_some_iff.mp rest
      cases done
      obtain ⟨message, _, named⟩ := Option.bind_eq_some_iff.mp first
      cases named
      exact List.forall_mem_cons.mpr ⟨rfl, ih others⟩
  · cases parsed
    exact List.forall_mem_cons.mpr ⟨rfl, nofun⟩

theorem poll_subscriber_cases {rx : Nat}
    (returned : (m.poll_subscriber protobuf rx).value = some m') :
    m' = m ∧ (m.subscribers rx = none ∨ m.poll rx = .ok .notReady) ∨
    ∃ uri, m.subscribers rx = some (.mapped uri) ∧
      ((∃ err, m.poll rx = .error err) ∧
          m' = { m with subscribers := Function.update m.subscribers rx (some (.resolved none)) } ∨
        ∃ response entries, m.poll rx = .ok (.ready response) ∧
          subscribed protobuf uri m.streams response = some entries ∧
          m' = { m with
            streams := m.streams + 1
            subscriptions := m.subscriptions ++ entries
            subscribers := Function.update m.subscribers rx (some (.resolved (some m.streams))) }) := by
  unfold poll_subscriber at returned
  split at returned
  · rename_i absent
    cases returned
    exact .inl ⟨rfl, .inl absent⟩
  · cases returned
  · rename_i uri mapped
    split at returned
    · rename_i waits
      cases returned
      exact .inl ⟨rfl, .inr waits⟩
    · rename_i err failed
      cases returned
      exact .inr ⟨uri, mapped, .inl ⟨⟨err, failed⟩, rfl⟩⟩
    · rename_i response ready
      obtain ⟨entries, parsed, done⟩ := Call.bind_returns.mp returned
      cases done
      exact .inr ⟨uri, mapped, .inr ⟨response, entries, ready, parsed, rfl⟩⟩

/-- A step that leaves streams and subscriptions alone. -/
theorem StreamStep.quiet {a : Action} (streams : m'.streams = m.streams)
    (subscriptions : m'.subscriptions = m.subscriptions) (closed : m'.closed = m.closed)
    (channels : m.channels ≤ m'.channels)
    (subscribers : ∀ rx, m'.subscribers rx = m.subscribers rx ∨
      m.channels ≤ rx ∧ rx < m'.channels ∨ a = .poll_subscriber rx ∧ m.subscribers rx ≠ none) :
    StreamStep a m m' := by
  refine ⟨streams.ge, ?_, ?_, ?_, channels, subscribers⟩
  · intro entry member _
    rw [subscriptions]
    exact member
  · intro entry member
    rw [subscriptions] at member
    exact .inl member
  · intro s gone
    rw [closed] at gone
    exact .inl gone

theorem poll_subscriber_subscribers {rx : Nat} (there : m.subscribers rx ≠ none)
    (future : Option SubscribeFuture) (r : Nat) :
    Function.update m.subscribers rx future r = m.subscribers r ∨
      m.channels ≤ r ∧ r < m.channels ∨
      Action.poll_subscriber rx = .poll_subscriber r ∧ m.subscribers r ≠ none := by
  by_cases own : r = rx
  · subst own
    exact .inr (.inr ⟨rfl, there⟩)
  · exact .inl (Function.update_of_ne own ..)

theorem step_streams {a : Action} (returned : (m.step build protobuf a).value = some m') :
    StreamStep a m m' := by
  cases a with
  | request req connected =>
    obtain ⟨⟨rx, m1⟩, requested, done⟩ := Call.bind_returns.mp returned
    obtain ⟨_, _, _, _, _, rfl⟩ := request_returns requested
    cases done
    exact .quiet rfl rfl rfl (Nat.le_succ _) fun _ => .inl rfl
  | subscribe uri connected =>
    obtain ⟨⟨rx, m1⟩, requested, done⟩ := Call.bind_returns.mp returned
    obtain ⟨_, _, _, _, rfl, rfl⟩ := request_returns requested
    cases done
    refine .quiet rfl rfl rfl (Nat.le_succ _) fun rx => ?_
    by_cases own : rx = m.channels
    · exact .inr (.inl ⟨own.ge, by rw [own]; exact Nat.lt_succ_self _⟩)
    · exact .inl (Function.update_of_ne own ..)
  | dispatch cmd data =>
    have kept := dispatch_kept returned
    obtain ⟨_, _, _, _, _, _, _, _, _, rfl⟩ := dispatch_returns returned
    exact ⟨Nat.le_refl _, kept.2, fun entry member => .inl (kept.1 entry member),
      fun _ gone => .inl gone, Nat.le_refl _, fun _ => .inl rfl⟩
  | poll_subscriber rx =>
    rcases poll_subscriber_cases returned with
      ⟨rfl, _⟩ | ⟨uri, mapped, ⟨_, rfl⟩ | ⟨response, entries, _, parsed, rfl⟩⟩
    · exact .quiet rfl rfl rfl (Nat.le_refl _) fun _ => .inl rfl
    · have there : m.subscribers rx ≠ none := by simp [mapped]
      exact .quiet rfl rfl rfl (Nat.le_refl _) (poll_subscriber_subscribers there _)
    · have there : m.subscribers rx ≠ none := by simp [mapped]
      refine ⟨Nat.le_succ _, fun _ member _ => List.mem_append_left _ member, fun entry member => ?_,
        fun _ gone => .inl gone, Nat.le_refl _, poll_subscriber_subscribers there _⟩
      rcases List.mem_append.mp member with member | member
      · exact .inl member
      · right
        rw [subscribed_tx parsed entry member]
        exact Nat.lt_succ_self _
  | drop_receiver stream =>
    simp only [step] at returned
    split at returned
    · rename_i there
      cases returned
      refine ⟨Nat.le_refl _, fun _ member _ => member, fun _ member => .inl member,
        fun s gone => ?_, Nat.le_refl _, fun _ => .inl rfl⟩
      by_cases own : s = stream
      · exact .inr ⟨by rw [own], own ▸ there⟩
      · have same : Function.update m.closed stream true s = m.closed s :=
          Function.update_of_ne own ..
        exact .inl (same.symm.trans gone)
    · cases returned
      exact .quiet rfl rfl rfl (Nat.le_refl _) fun _ => .inl rfl

/-- No entry can answer this callback. -/
def Absent (callback : Nat) (m : MercuryManager) : Prop :=
  ∀ seq pending, m.pending seq = some pending → pending.callback ≠ some callback

theorem drop_callback_oneshots {callback : Option Nat} {cb : Nat} (other : callback ≠ some cb)
    (returned : (m.drop_callback callback).value = some m') : m'.oneshots cb = m.oneshots cb := by
  cases callback with
  | none => cases returned; rfl
  | some callback =>
    cases returned
    exact Function.update_of_ne (fun same => other (congrArg some same.symm)) ..

theorem insert_oneshots {seq : Bytes} {pending : MercuryPending} {cb : Nat} (absent : m.Absent cb)
    (returned : (m.insert seq pending).value = some m') : m'.oneshots cb = m.oneshots cb := by
  obtain ⟨m1, dropped, done⟩ := Call.bind_returns.mp returned
  cases done
  have other : (m.pending seq).bind (·.callback) ≠ some cb := by
    intro same
    obtain ⟨old, there, named⟩ := Option.bind_eq_some_iff.mp same
    exact absent seq old there named
  have kept := drop_callback_oneshots other dropped
  exact kept

theorem request_oneshots {connected : Bool} {req : MercuryRequest} {rx cb : Nat}
    (absent : m.Absent cb) (made : cb < m.channels)
    (returned : (m.request build protobuf connected req).value = some (rx, m')) :
    m'.oneshots cb = m.oneshots cb := by
  obtain ⟨⟨seq, m1⟩, numbered, returned⟩ := Call.bind_returns.mp returned
  obtain ⟨_, _, _, _, rfl⟩ := next_seq_returns numbered
  obtain ⟨m2, inserted, returned⟩ := Call.bind_returns.mp returned
  obtain ⟨_, _, returned⟩ := Call.bind_returns.mp returned
  obtain ⟨_, _, done⟩ := Call.bind_returns.mp returned
  cases done
  refine Eq.trans (insert_oneshots ?_ inserted) (Function.update_of_ne (Nat.ne_of_lt made) ..)
  exact absent

theorem complete_request_oneshots {cmd : UInt8} {pending : MercuryPending} {cb : Nat}
    (other : pending.callback ≠ some cb)
    (returned : (m.complete_request protobuf cmd pending).value = some m') :
    m'.oneshots cb = m.oneshots cb := by
  have completed : ∀ callback result, pending.callback = some callback →
      (m.complete callback result).value = some m' → m'.oneshots cb = m.oneshots cb := by
    intro callback result named returned
    cases returned
    exact Function.update_of_ne (fun same => other (by rw [named, same])) ..
  obtain ⟨response, _, returned⟩ := Call.bind_returns.mp returned
  split at returned
  · split at returned
    · exact completed _ _ (by assumption) returned
    · cases returned; rfl
  · split at returned
    · obtain ⟨subscriptions, _, returned⟩ := Call.bind_returns.mp returned
      exact drop_callback_oneshots (m := { m with subscriptions }) other returned
    · split at returned
      · exact completed _ _ (by assumption) returned
      · cases returned; rfl

theorem dispatch_oneshots {cmd : UInt8} {data : Bytes} {cb : Nat} (absent : m.Absent cb)
    (returned : (m.dispatch protobuf cmd data).value = some m') :
    m'.oneshots cb = m.oneshots cb := by
  obtain ⟨⟨m1, held⟩, received, concluded⟩ := Call.bind_returns.mp returned
  rcases receive_cases cmd data m with
    panics | ⟨_, _, _, _, _, _, _, ignored⟩ | ⟨p, x, callback, _, entry, taken⟩
  · rw [panics] at received
    cases received
  · rw [ignored] at received
    cases received
    cases concluded
    rfl
  · rw [taken] at received
    cases received
    have other : callback ≠ some cb := by
      rintro rfl
      exact absent p.seq _ (found_callback entry) rfl
    simp only [conclude] at concluded
    split at concluded
    · exact complete_request_oneshots (m := m.remove p.seq) other concluded
    · rw [insert_free (remove_pending p.seq)] at concluded
      cases concluded
      rfl

theorem step_oneshots {a : Action} {cb : Nat} (absent : m.Absent cb) (made : cb < m.channels)
    (returned : (m.step build protobuf a).value = some m') : m'.oneshots cb = m.oneshots cb := by
  cases a with
  | request req connected =>
    obtain ⟨⟨rx, m1⟩, requested, done⟩ := Call.bind_returns.mp returned
    cases done
    exact request_oneshots absent made requested
  | subscribe uri connected =>
    obtain ⟨⟨rx, m1⟩, requested, done⟩ := Call.bind_returns.mp returned
    cases done
    have kept := request_oneshots absent made requested
    exact kept
  | dispatch cmd data => exact dispatch_oneshots absent returned
  | poll_subscriber rx =>
    obtain ⟨_, _, _, rfl⟩ := poll_subscriber_returns returned
    rfl
  | drop_receiver stream =>
    simp only [step] at returned
    split at returned <;> cases returned <;> rfl

theorem step_absent {a : Action} {cb n : Nat} (numbered : m.Numbered build n) (absent : m.Absent cb)
    (made : cb < m.channels) (returned : (m.step build protobuf a).value = some m') :
    m'.Absent cb := by
  intro seq pending entry named
  have old : m.pending seq ≠ some pending := fun there => absent seq pending there named
  rcases (step_entries numbered returned).2 with
    ⟨_, changed⟩ | ⟨_, _, own, _, _, _, _, _, _, inherits, changed⟩ | unchanged
  · rw [changed] at entry
    by_cases same : seq = be 8 n
    · subst same
      rw [Function.update_self] at entry
      cases entry
      rw [numbered.channels] at made
      exact absurd (Option.some.inj named) (Nat.ne_of_gt made)
    · rw [Function.update_of_ne same] at entry
      exact old entry
  · rw [changed] at entry
    by_cases same : seq = own
    · subst same
      rw [Function.update_self] at entry
      obtain ⟨earlier, was, still⟩ := inherits pending cb entry named
      exact absent seq earlier was still
    · rw [Function.update_of_ne same] at entry
      exact old entry
  · rw [unchanged] at entry
    exact old entry

theorem complete_request_completes {cmd : UInt8} {pending : MercuryPending} {cb : Nat}
    {result : Except MercuryError MercuryResponse}
    (completed : .complete cb result ∈ (m.complete_request protobuf cmd pending).log) :
    pending.callback = some cb ∧
      ∀ m', (m.complete_request protobuf cmd pending).value = some m' →
        m'.oneshots cb = .complete result := by
  unfold complete_request at completed ⊢
  cases whole : pending.response protobuf with
  | none => simp [whole] at completed
  | some response =>
    simp only [whole, Call.unwrap_eq, Call.bind_some, List.nil_append] at completed ⊢
    have named : ∀ callback answer, pending.callback = some callback →
        .complete cb result ∈ (m.complete callback answer).log → pending.callback = some cb ∧
          ∀ m', (m.complete callback answer).value = some m' → m'.oneshots cb = .complete result := by
      intro callback answer here member
      obtain ⟨rfl, rfl⟩ : cb = callback ∧ result = answer := by simpa [complete] using member
      refine ⟨here, ?_⟩
      rintro _ ⟨⟩
      exact Function.update_self ..
    by_cases failed : response.status_code ≥ 400
    · rw [if_pos failed] at completed ⊢
      cases callback : pending.callback with
      | none => simp [callback] at completed
      | some cb' =>
        simp only [callback] at completed ⊢
        rw [← callback]
        exact named cb' _ callback completed
    · rw [if_neg failed] at completed ⊢
      by_cases event : cmd = 0xb5
      · rw [if_pos event, retain_eq] at completed
        exfalso
        cases callback : pending.callback <;> simp [callback, drop_callback] at completed
      · rw [if_neg event] at completed ⊢
        cases callback : pending.callback with
        | none => simp [callback] at completed
        | some cb' =>
          simp only [callback] at completed ⊢
          rw [← callback]
          exact named cb' _ callback completed

theorem dispatch_completes {cmd : UInt8} {data : Bytes} {cb : Nat}
    {result : Except MercuryError MercuryResponse} (keyed : m.Keyed)
    (completed : .complete cb result ∈ (m.dispatch protobuf cmd data).log)
    (returned : (m.dispatch protobuf cmd data).value = some m') :
    m'.oneshots cb = .complete result ∧ m'.Absent cb ∧ cb < m.channels := by
  rcases receive_cases cmd data m with
    panics | ⟨_, _, _, _, _, _, _, ignored⟩ | ⟨p, x, callback, _, entry, taken⟩
  · rw [dispatch, panics] at returned
    cases returned
  · rw [dispatch, ignored] at completed
    simp at completed
  · have final : p.flags = 1 := by
      by_contra more
      simp only [dispatch, taken, Call.bind_some, conclude, if_neg more,
        insert_free (remove_pending p.seq)] at completed
      simp at completed
    simp only [dispatch, taken, Call.bind_some, conclude, if_pos final] at completed returned
    obtain ⟨named, answered⟩ := complete_request_completes
      ((List.mem_append.mp completed).resolve_left (by simp))
    have callback' : callback = some cb := named
    subst callback'
    obtain ⟨own, made⟩ := keyed p.seq _ cb (found_callback entry) rfl
    refine ⟨answered m' returned, fun seq pending there still => ?_, made⟩
    obtain ⟨_, _, rfl⟩ := complete_request_returns returned
    have removed : Function.update m.pending p.seq none seq = some pending := there
    by_cases same : seq = p.seq
    · subst same
      rw [Function.update_self] at removed
      cases removed
    · rw [Function.update_of_ne same] at removed
      exact same ((keyed seq pending cb removed still).1.trans own.symm)

end MercuryManager

end ConnectScrobbler.Mercury
