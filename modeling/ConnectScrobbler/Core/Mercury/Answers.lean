import ConnectScrobbler.Core.Mercury.Subscription

/-! When a callback is answered. The entry that had it is gone by then, so that
an answer is given once and stays. -/
namespace ConnectScrobbler.Mercury.MercuryManager

open Bytes (be)
open MercuryPending (of)
open Packet (parse take_in)

variable {build : Build} {protobuf : Protobuf} {m m' : MercuryManager} {cb : Nat}

/-- This call answers the callback or drops it, and no entry has it afterwards. -/
def Resolves (log : List Effect) (m' : MercuryManager) (cb : Nat) : Prop :=
  m'.Absent cb ∧ (m'.oneshots cb = .canceled ∨
    ∃ result, m'.oneshots cb = .complete result ∧ .complete cb result ∈ log)

/-- Whoever an entry is to answer waits for it. -/
def Unanswered (m : MercuryManager) : Prop :=
  ∀ seq pending cb, m.pending seq = some pending → pending.callback = some cb →
    m.oneshots cb = .waiting

/-- A new entry cancels the callback of the one in its place and no other. -/
theorem insert_resolves {seq : Bytes} {pending : MercuryPending} (keyed : m.Keyed)
    (other : pending.callback ≠ some cb) (returned : (m.insert seq pending).value = some m') :
    m'.oneshots cb = m.oneshots cb ∨ m'.Absent cb ∧ m'.oneshots cb = .canceled := by
  obtain ⟨m1, dropped, done⟩ := Call.bind_returns.mp returned
  cases done
  by_cases own : (m.pending seq).bind (·.callback) = some cb
  · right
    obtain ⟨replaced, there, named⟩ := Option.bind_eq_some_iff.mp own
    have key := (keyed seq replaced cb there named).1
    rw [own] at dropped
    cases dropped
    refine ⟨?_, Function.update_self ..⟩
    intro place held entry still
    have entry' : Function.update m.pending seq (some pending) place = some held := entry
    by_cases same : place = seq
    · subst same
      rw [Function.update_self] at entry'
      cases entry'
      exact other still
    · rw [Function.update_of_ne same] at entry'
      exact same ((keyed place held cb entry' still).1.trans key.symm)
  · left
    have kept := drop_callback_oneshots own dropped
    exact kept

theorem request_resolves {connected : Bool} {req : MercuryRequest} {rx : Nat} (keyed : m.Keyed)
    (made : cb < m.channels)
    (returned : (m.request build protobuf connected req).value = some (rx, m')) :
    m'.oneshots cb = m.oneshots cb ∨ m'.Absent cb ∧ m'.oneshots cb = .canceled := by
  obtain ⟨⟨seq, m1⟩, numbered, returned⟩ := Call.bind_returns.mp returned
  obtain ⟨_, _, _, _, rfl⟩ := next_seq_returns numbered
  obtain ⟨m2, inserted, returned⟩ := Call.bind_returns.mp returned
  obtain ⟨_, _, returned⟩ := Call.bind_returns.mp returned
  obtain ⟨_, _, done⟩ := Call.bind_returns.mp returned
  cases done
  have old : m.channel.2.oneshots cb = m.oneshots cb :=
    Function.update_of_ne (Nat.ne_of_lt made) ..
  rw [← old]
  apply insert_resolves ?_ ?_ inserted
  · intro seq pending callback entry named
    obtain ⟨key, below⟩ := keyed seq pending callback entry named
    exact ⟨key, Nat.lt_succ_of_lt below⟩
  · intro same
    exact absurd (Option.some.inj same) (Nat.ne_of_gt made)

/-- The callback of a request that is new waits. -/
theorem request_waits {connected : Bool} {req : MercuryRequest} {rx : Nat} (keyed : m.Keyed)
    (returned : (m.request build protobuf connected req).value = some (rx, m')) :
    m'.oneshots m.channels = .waiting := by
  obtain ⟨⟨seq, m1⟩, numbered, returned⟩ := Call.bind_returns.mp returned
  obtain ⟨_, _, _, _, rfl⟩ := next_seq_returns numbered
  obtain ⟨m2, inserted, returned⟩ := Call.bind_returns.mp returned
  obtain ⟨_, _, returned⟩ := Call.bind_returns.mp returned
  obtain ⟨_, _, done⟩ := Call.bind_returns.mp returned
  cases done
  obtain ⟨m3, dropped, done⟩ := Call.bind_returns.mp inserted
  cases done
  have other : (m.pending seq).bind (·.callback) ≠ some m.channels := by
    intro own
    obtain ⟨replaced, there, named⟩ := Option.bind_eq_some_iff.mp own
    exact absurd (keyed seq replaced m.channels there named).2 (Nat.lt_irrefl _)
  have kept := drop_callback_oneshots other dropped
  have new : m.channel.2.oneshots m.channels = .waiting := Function.update_self ..
  exact kept.trans new

theorem complete_request_resolves {cmd : UInt8} {pending : MercuryPending}
    (named : pending.callback = some cb) (absent : m.Absent cb)
    (returned : (m.complete_request protobuf cmd pending).value = some m') :
    Resolves (m.complete_request protobuf cmd pending).log m' cb := by
  unfold complete_request at returned ⊢
  cases whole : pending.response protobuf with
  | none => simp [whole] at returned
  | some response =>
    simp only [whole, named, Call.unwrap_eq, Call.bind_some, List.nil_append] at returned ⊢
    have answered : ∀ result, (m.complete cb result).value = some m' →
        Resolves (m.complete cb result).log m' cb := by
      intro result returned
      cases returned
      refine ⟨absent, .inr ⟨result, Function.update_self .., ?_⟩⟩
      simp [complete]
    by_cases failed : response.status_code ≥ 400
    · rw [if_pos failed] at returned ⊢
      exact answered _ returned
    · rw [if_neg failed] at returned ⊢
      by_cases event : cmd = 0xb5
      · rw [if_pos event, retain_eq] at returned
        cases returned
        exact ⟨absent, .inl (Function.update_self ..)⟩
      · rw [if_neg event] at returned ⊢
        exact answered _ returned

theorem dispatch_resolves {cmd : UInt8} {data : Bytes} (keyed : m.Keyed)
    (returned : (m.dispatch protobuf cmd data).value = some m') :
    m'.oneshots cb = m.oneshots cb ∨ Resolves (m.dispatch protobuf cmd data).log m' cb := by
  rcases receive_cases cmd data m with
    panics | ⟨_, _, _, _, _, _, _, ignored⟩ | ⟨p, x, callback, parsed, entry, taken⟩
  · rw [dispatch, panics] at returned
    cases returned
  · rw [dispatch, ignored] at returned
    cases returned
    exact .inl rfl
  · by_cases final : p.flags = 1
    · rw [dispatch_final parsed entry final] at returned ⊢
      by_cases own : callback = some cb
      · subst own
        have absent : (m.remove p.seq).Absent cb := by
          intro place held there still
          have there' : Function.update m.pending p.seq none place = some held := there
          have key := (keyed p.seq _ cb (found_callback entry) rfl).1
          by_cases same : place = p.seq
          · subst same
            rw [Function.update_self] at there'
            cases there'
          · rw [Function.update_of_ne same] at there'
            exact same ((keyed place held cb there' still).1.trans key.symm)
        obtain ⟨gone, answer⟩ := complete_request_resolves rfl absent returned
        refine .inr ⟨gone, answer.imp_right ?_⟩
        rintro ⟨result, answered, logged⟩
        exact ⟨result, answered, List.mem_append_right _ logged⟩
      · left
        exact complete_request_oneshots (m := m.remove p.seq) own returned
    · left
      rw [dispatch_more parsed entry final] at returned
      cases returned
      rfl

theorem step_resolves {a : Action} (keyed : m.Keyed) (made : cb < m.channels)
    (returned : (m.step build protobuf a).value = some m') :
    m'.oneshots cb = m.oneshots cb ∨ Resolves (m.step build protobuf a).log m' cb := by
  cases a with
  | request req connected =>
    obtain ⟨⟨rx, m1⟩, requested, done⟩ := Call.bind_returns.mp returned
    cases done
    rcases request_resolves keyed made requested with same | ⟨absent, canceled⟩
    · exact .inl same
    · exact .inr ⟨absent, .inl canceled⟩
  | subscribe uri connected =>
    obtain ⟨⟨rx, m1⟩, requested, done⟩ := Call.bind_returns.mp returned
    cases done
    rcases request_resolves keyed made requested with same | ⟨absent, canceled⟩
    · exact .inl same
    · exact .inr ⟨absent, .inl canceled⟩
  | dispatch cmd data => exact dispatch_resolves keyed returned
  | poll_subscriber rx =>
    obtain ⟨_, _, _, rfl⟩ := poll_subscriber_returns returned
    exact .inl rfl
  | drop_receiver stream =>
    left
    simp only [step] at returned
    split at returned <;> cases returned <;> rfl

theorem step_waits {a : Action} (keyed : m.Keyed) (one : a.requests = 1)
    (returned : (m.step build protobuf a).value = some m') : m'.oneshots m.channels = .waiting := by
  cases a with
  | request req connected =>
    obtain ⟨⟨rx, m1⟩, requested, done⟩ := Call.bind_returns.mp returned
    cases done
    exact request_waits keyed requested
  | subscribe uri connected =>
    obtain ⟨⟨rx, m1⟩, requested, done⟩ := Call.bind_returns.mp returned
    cases done
    have waits := request_waits keyed requested
    exact waits
  | dispatch cmd data => cases one
  | poll_subscriber rx => cases one
  | drop_receiver stream => cases one

theorem step_made_or_new {a : Action} {n : Nat} (numbered : m.Numbered build n) (keyed : m.Keyed)
    (returned : (m.step build protobuf a).value = some m') (below : cb < m'.channels) :
    cb < m.channels ∨ cb = m.channels ∧ m'.oneshots cb = .waiting := by
  have count : m'.channels = m.channels + a.requests := by
    rw [(step_entries numbered returned).1.channels, numbered.channels]
  by_cases made : cb < m.channels
  · exact .inl made
  · have few : a.requests ≤ 1 := by cases a <;> simp [Action.requests]
    have one : a.requests = 1 := by omega
    have new : cb = m.channels := by omega
    subst new
    exact .inr ⟨rfl, step_waits keyed one returned⟩

theorem step_unanswered {a : Action} (reached : m.Reached build) (h : m.Unanswered)
    (returned : (m.step build protobuf a).value = some m') : m'.Unanswered := by
  obtain ⟨n, numbered⟩ := reached.numbered
  intro seq pending cb entry named
  have below := (step_keyed numbered reached.keyed returned seq pending cb entry named).2
  rcases step_made_or_new numbered reached.keyed returned below with made | ⟨_, waits⟩
  · have had : ¬ m.Absent cb := by
      intro absent
      exact step_absent numbered absent made returned seq pending entry named
    obtain ⟨place, held, there, still⟩ : ∃ place held, m.pending place = some held ∧
        held.callback = some cb := by
      by_contra none
      apply had
      intro place held there still
      exact none ⟨place, held, there, still⟩
    rcases step_resolves reached.keyed made returned with same | ⟨gone, _⟩
    · exact same.trans (h place held cb there still)
    · exact absurd named (gone seq pending entry)
  · exact waits

/-- What has been answered is in no entry. -/
theorem Unanswered.absent (h : m.Unanswered) (answered : m.oneshots cb ≠ .waiting) : m.Absent cb := by
  intro seq pending entry named
  exact answered (h seq pending cb entry named)

/-- An answer stays. -/
theorem answered_stays {a : Action} (h : m.Unanswered) (made : cb < m.channels)
    (answered : m.oneshots cb ≠ .waiting) (returned : (m.step build protobuf a).value = some m') :
    m'.oneshots cb = m.oneshots cb :=
  step_oneshots (h.absent answered) made returned

end ConnectScrobbler.Mercury.MercuryManager
