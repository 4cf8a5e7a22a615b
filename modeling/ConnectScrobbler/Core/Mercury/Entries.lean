import ConnectScrobbler.Core.Mercury.Packet

/-! What each call does to the entries of the manager, said once for each call. -/
namespace ConnectScrobbler.Mercury

open Bytes (be)
open MercuryPending (of)
open Packet (head parse take_in)

namespace MercuryManager

variable {build : Build} {protobuf : Protobuf} {m m' : MercuryManager}

theorem drop_callback_returns {callback : Option Nat}
    (returned : (m.drop_callback callback).value = some m') :
    ∃ oneshots, m' = { m with oneshots } := by
  cases callback with
  | none => cases returned; exact ⟨_, rfl⟩
  | some callback => cases returned; exact ⟨_, rfl⟩

theorem insert_returns {seq : Bytes} {pending : MercuryPending}
    (returned : (m.insert seq pending).value = some m') :
    ∃ oneshots, m' =
      { m with oneshots, pending := Function.update m.pending seq (some pending) } := by
  obtain ⟨m1, dropped, done⟩ := Call.bind_returns.mp returned
  obtain ⟨oneshots, rfl⟩ := drop_callback_returns dropped
  cases done
  exact ⟨oneshots, rfl⟩

theorem insert_free {seq : Bytes} (free : m.pending seq = none) (pending : MercuryPending) :
    m.insert seq pending = ⟨[.insert seq pending.callback],
      some { m with pending := Function.update m.pending seq (some pending) }⟩ := by
  rw [insert, free]
  rfl

theorem remove_pending (seq : Bytes) : (m.remove seq).pending seq = none :=
  Function.update_self ..

theorem remove_free {seq : Bytes} (free : m.pending seq = none) : m.remove seq = m := by
  rw [remove, ← free, Function.update_eq_self]

theorem next_seq_returns {seq : Bytes} (returned : (m.next_seq build).value = some (seq, m')) :
    ∃ v sequence, m.sequence.get build = some (v, sequence) ∧ seq = be 8 v.toNat ∧
      m' = { m with sequence } := by
  obtain ⟨⟨v, sequence⟩, counted, done⟩ := Call.bind_returns.mp returned
  cases done
  exact ⟨v, sequence, counted, rfl, rfl⟩

/-- A request puts an empty entry with a new callback under the next number. -/
theorem request_returns {connected : Bool} {req : MercuryRequest} {rx : Nat}
    (returned : (m.request build protobuf connected req).value = some (rx, m')) :
    ∃ v sequence oneshots, m.sequence.get build = some (v, sequence) ∧ rx = m.channels ∧
      m' = { m with
        sequence
        channels := m.channels + 1
        oneshots
        pending := Function.update m.pending (be 8 v.toNat)
          (some (of .empty (some m.channels))) } := by
  obtain ⟨⟨seq, m1⟩, numbered, returned⟩ := Call.bind_returns.mp returned
  obtain ⟨v, sequence, counted, rfl, rfl⟩ := next_seq_returns numbered
  obtain ⟨m2, inserted, returned⟩ := Call.bind_returns.mp returned
  obtain ⟨oneshots, rfl⟩ := insert_returns inserted
  obtain ⟨data, encoded, returned⟩ := Call.bind_returns.mp returned
  obtain ⟨_, sent, done⟩ := Call.bind_returns.mp returned
  cases done
  exact ⟨v, sequence, oneshots, counted, rfl, rfl⟩

theorem poll_subscriber_returns {rx : Nat}
    (returned : (m.poll_subscriber protobuf rx).value = some m') :
    ∃ streams subscriptions subscribers, m' = { m with streams, subscriptions, subscribers } := by
  unfold poll_subscriber at returned
  split at returned
  · cases returned; exact ⟨_, _, _, rfl⟩
  · cases returned
  · split at returned
    · cases returned; exact ⟨_, _, _, rfl⟩
    · cases returned; exact ⟨_, _, _, rfl⟩
    · obtain ⟨entries, parsed, done⟩ := Call.bind_returns.mp returned
      cases done
      exact ⟨_, _, _, rfl⟩

theorem complete_request_returns {cmd : UInt8} {pending : MercuryPending}
    (returned : (m.complete_request protobuf cmd pending).value = some m') :
    ∃ subscriptions oneshots, m' = { m with subscriptions, oneshots } := by
  obtain ⟨response, _, returned⟩ := Call.bind_returns.mp returned
  split at returned
  · split at returned
    · cases returned; exact ⟨_, _, rfl⟩
    · cases returned; exact ⟨_, _, rfl⟩
  · split at returned
    · obtain ⟨subscriptions, _, returned⟩ := Call.bind_returns.mp returned
      obtain ⟨oneshots, rfl⟩ := drop_callback_returns returned
      exact ⟨_, _, rfl⟩
    · split at returned
      · cases returned; exact ⟨_, _, rfl⟩
      · cases returned; exact ⟨_, _, rfl⟩

theorem found_of_pending {cmd : UInt8} {seq : Bytes} {pending : MercuryPending}
    (entry : m.pending seq = some pending) : m.found cmd seq = some pending := by
  rw [found, entry]

theorem found_event {seq : Bytes} (free : m.pending seq = none) :
    m.found 0xb5 seq = some (of .empty none) := by
  rw [found, free]
  rfl

theorem found_none {cmd : UInt8} {seq : Bytes} :
    m.found cmd seq = none ↔ m.pending seq = none ∧ cmd ≠ 0xb5 := by
  unfold found
  cases m.pending seq with
  | some pending => simp
  | none => by_cases event : cmd = 0xb5 <;> simp [event]

theorem found_response {cmd : UInt8} {seq : Bytes} {pending : MercuryPending}
    (entry : m.found cmd seq = some pending) (response : cmd ≠ 0xb5) :
    m.pending seq = some pending := by
  unfold found at entry
  split at entry
  · rename_i there
    rw [there, entry]
  · rw [if_neg response] at entry
    cases entry

theorem found_callback {cmd : UInt8} {seq : Bytes} {x : Assembly UInt8} {callback : Nat}
    (entry : m.found cmd seq = some (of x (some callback))) :
    m.pending seq = some (of x (some callback)) := by
  unfold found at entry
  split at entry
  · rename_i there
    rw [there, entry]
  · split at entry
    · exact absurd (congrArg MercuryPending.callback (Option.some.inj entry)) nofun
    · cases entry

theorem receive_entry {cmd : UInt8} {data : Bytes} {p : Packet} {x : Assembly UInt8}
    {callback : Option Nat} (parsed : parse data = some p)
    (entry : m.found cmd p.seq = some (of x callback)) :
    m.receive cmd data = ⟨[.receive cmd data],
      some (m.remove p.seq, some ⟨cmd, p.seq, p.flags, of (take_in x p) callback⟩)⟩ := by
  obtain ⟨⟨seq, flags, count, rest⟩, opened, parsed⟩ := Option.bind_eq_some_iff.mp parsed
  obtain ⟨chunks, read, done⟩ := Option.bind_eq_some_iff.mp parsed
  cases done
  rw [receive_eq, opened]
  simp only [Call.emit_eq, Call.unwrap_eq, Call.bind_some, entry, MercuryPending.read_parts_of,
    read, Option.map_some]
  rfl

theorem receive_unknown {cmd : UInt8} {data : Bytes} {seq : Bytes} {flags : UInt8} {count : Nat}
    {rest : Bytes} (opened : head data = some (seq, flags, count, rest))
    (free : m.pending seq = none) (response : cmd ≠ 0xb5) :
    m.receive cmd data = ⟨[.receive cmd data, .ignore_seq seq cmd], some (m, none)⟩ := by
  rw [receive_eq, opened]
  simp only [Call.emit_eq, Call.unwrap_eq, Call.bind_some, found_none.mpr ⟨free, response⟩,
    remove_free free]
  rfl

/-- The first half of `dispatch` panics, ignores the packet or takes it in. -/
theorem receive_cases (cmd : UInt8) (data : Bytes) (m : MercuryManager) :
    m.receive cmd data = ⟨[.receive cmd data], none⟩ ∨
    (∃ seq flags count rest, head data = some (seq, flags, count, rest) ∧ m.pending seq = none ∧
      cmd ≠ 0xb5 ∧
      m.receive cmd data = ⟨[.receive cmd data, .ignore_seq seq cmd], some (m, none)⟩) ∨
    ∃ p x callback, parse data = some p ∧ m.found cmd p.seq = some (of x callback) ∧
      m.receive cmd data = ⟨[.receive cmd data],
        some (m.remove p.seq, some ⟨cmd, p.seq, p.flags, of (take_in x p) callback⟩)⟩ := by
  cases opened : head data with
  | none => rw [receive_eq, opened]; exact .inl rfl
  | some read =>
    obtain ⟨seq, flags, count, rest⟩ := read
    cases entry : m.found cmd seq with
    | none =>
      obtain ⟨free, response⟩ := found_none.mp entry
      exact .inr (.inl ⟨seq, flags, count, rest, rfl, free, response,
        receive_unknown opened free response⟩)
    | some pending =>
      obtain ⟨parts, carried, callback⟩ := pending
      cases read : Packet.read_chunks count rest with
      | some chunks =>
        have parsed : parse data = some ⟨seq, flags, chunks⟩ := by
          simp only [parse, opened, Option.bind_eq_bind, Option.bind_some, read]
          rfl
        exact .inr (.inr ⟨_, ⟨parts, carried⟩, callback, parsed, entry, receive_entry parsed entry⟩)
      | none =>
        have unread : MercuryPending.read_parts flags count rest ⟨parts, carried, callback⟩ = none :=
          (MercuryPending.read_parts_of flags count rest ⟨parts, carried⟩ callback).trans
            (by rw [read]; rfl)
        refine .inl ?_
        rw [receive_eq, opened]
        simp only [Call.emit_eq, Call.unwrap_eq, Call.bind_some, entry, unread]
        rfl

theorem conclude_returns {held : Held} (returned : (m.conclude protobuf held).value = some m') :
    ∃ subscriptions oneshots pending, m' = { m with subscriptions, oneshots, pending } ∧
      pending = if held.flags = 1 then m.pending
        else Function.update m.pending held.seq (some held.pending) := by
  unfold conclude at returned
  split at returned
  · rename_i final
    obtain ⟨subscriptions, oneshots, rfl⟩ := complete_request_returns returned
    exact ⟨subscriptions, oneshots, _, rfl, by rw [if_pos final]⟩
  · rename_i more
    obtain ⟨oneshots, rfl⟩ := insert_returns returned
    exact ⟨_, oneshots, _, rfl, by rw [if_neg more]⟩

/-- An entry comes from an earlier one if it has its callback. -/
def Inherits (earlier later : Option MercuryPending) : Prop :=
  ∀ pending callback, later = some pending → pending.callback = some callback →
    ∃ old, earlier = some old ∧ old.callback = some callback

/-- A dispatch touches the entry of its own sequence only, and gives it no new callback. -/
theorem dispatch_returns {cmd : UInt8} {data : Bytes}
    (returned : (m.dispatch protobuf cmd data).value = some m') :
    ∃ seq flags count rest entry subscriptions oneshots,
      head data = some (seq, flags, count, rest) ∧ Inherits (m.pending seq) entry ∧
      m' = { m with
        subscriptions, oneshots, pending := Function.update m.pending seq entry } := by
  obtain ⟨⟨m1, held⟩, received, concluded⟩ := Call.bind_returns.mp returned
  rcases receive_cases cmd data m with
    panics | ⟨seq, flags, count, rest, opened, free, _, ignored⟩ | ⟨p, x, callback, parsed, entry, taken⟩
  · rw [panics] at received
    cases received
  · rw [ignored] at received
    cases received
    cases concluded
    refine ⟨seq, flags, count, rest, none, m.subscriptions, m.oneshots, opened, nofun, ?_⟩
    rw [← free, Function.update_eq_self]
  · rw [taken] at received
    cases received
    obtain ⟨⟨seq, flags, count, rest⟩, opened, parsed⟩ := Option.bind_eq_some_iff.mp parsed
    obtain ⟨chunks, _, done⟩ := Option.bind_eq_some_iff.mp parsed
    cases done
    obtain ⟨subscriptions, oneshots, _, rfl, rfl⟩ := conclude_returns concluded
    refine ⟨seq, flags, count, rest, if flags = 1 then none else some (of (take_in x ⟨seq, flags, chunks⟩) callback),
      subscriptions, oneshots, opened, ?_, ?_⟩
    · intro pending other same named
      split at same
      · cases same
      · cases same
        cases callback with
        | none => cases named
        | some callback => exact ⟨_, found_callback entry, named⟩
    · show MercuryManager.mk .. = _
      congr 1
      by_cases final : flags = 1
      · rw [if_pos final, if_pos final]
        rfl
      · rw [if_neg final, if_neg final]
        exact Function.update_idem ..

end MercuryManager

def Action.requests : Action → Nat
  | .request .. => 1
  | .subscribe .. => 1
  | _ => 0

def requests (actions : List Action) : Nat :=
  (actions.map Action.requests).sum

@[simp] theorem requests_nil : requests [] = 0 := rfl

@[simp] theorem requests_append (as bs : List Action) :
    requests (as ++ bs) = requests as + requests bs := by
  simp [requests]

@[simp] theorem requests_cons (a : Action) (as : List Action) :
    requests (a :: as) = a.requests + requests as := by
  simp [requests]

namespace MercuryManager

variable {build : Build} {protobuf : Protobuf} {m m' : MercuryManager}

structure Numbered (build : Build) (m : MercuryManager) (n : Nat) : Prop where
  sequence : m.sequence = ⟨BitVec.ofNat 64 n⟩
  channels : m.channels = n
  checked : build = .debug → n < 2 ^ 64

theorem Numbered.kept {n : Nat} (h : m.Numbered build n) (sequence : m'.sequence = m.sequence)
    (channels : m'.channels = m.channels) : m'.Numbered build n :=
  ⟨sequence.trans h.sequence, channels.trans h.channels, h.checked⟩

/-- Entries with a callback are those of the requests. -/
def Keyed (m : MercuryManager) : Prop :=
  ∀ seq pending callback, m.pending seq = some pending → pending.callback = some callback →
    seq = be 8 callback ∧ callback < m.channels

theorem be_ofNat (n : Nat) : be 8 (BitVec.ofNat 64 n).toNat = be 8 n := by
  rw [BitVec.toNat_ofNat]
  have same := Bytes.be_read_be (be 8 n)
  rwa [Bytes.read_be_be, Bytes.length_be] at same

theorem request_numbered {connected : Bool} {req : MercuryRequest} {rx n : Nat}
    (h : m.Numbered build n)
    (returned : (m.request build protobuf connected req).value = some (rx, m')) :
    rx = n ∧ m'.Numbered build (n + 1) ∧
      m'.pending = Function.update m.pending (be 8 n) (some (of .empty (some n))) := by
  obtain ⟨v, sequence, oneshots, counted, rfl, rfl⟩ := request_returns returned
  rw [h.sequence] at counted
  obtain ⟨rfl, rfl, checked⟩ := SeqGenerator.get_counts (by decide) counted
  rw [h.channels, be_ofNat]
  exact ⟨rfl, ⟨rfl, rfl, fun debug => checked debug (h.checked debug)⟩, rfl⟩

/-- What a step can do to the numbers and the entries. -/
theorem step_entries {a : Action} {n : Nat} (h : m.Numbered build n)
    (returned : (m.step build protobuf a).value = some m') :
    m'.Numbered build (n + a.requests) ∧
    (a.requests = 1 ∧ m'.pending = Function.update m.pending (be 8 n) (some (of .empty (some n))) ∨
    (∃ cmd data seq flags count rest entry, a = .dispatch cmd data ∧
      head data = some (seq, flags, count, rest) ∧ Inherits (m.pending seq) entry ∧
      m'.pending = Function.update m.pending seq entry) ∨
    m'.pending = m.pending) := by
  cases a with
  | request req connected =>
    obtain ⟨⟨rx, m1⟩, requested, done⟩ := Call.bind_returns.mp returned
    cases done
    obtain ⟨_, numbered, pending⟩ := request_numbered h requested
    exact ⟨numbered, .inl ⟨rfl, pending⟩⟩
  | subscribe uri connected =>
    obtain ⟨⟨rx, m1⟩, requested, done⟩ := Call.bind_returns.mp returned
    cases done
    obtain ⟨_, numbered, pending⟩ := request_numbered h requested
    exact ⟨numbered.kept rfl rfl, .inl ⟨rfl, pending⟩⟩
  | dispatch cmd data =>
    obtain ⟨seq, flags, count, rest, entry, _, _, opened, inherits, rfl⟩ := dispatch_returns returned
    exact ⟨h.kept rfl rfl,
      .inr (.inl ⟨cmd, data, seq, flags, count, rest, entry, rfl, opened, inherits, rfl⟩)⟩
  | poll_subscriber rx =>
    obtain ⟨_, _, _, rfl⟩ := poll_subscriber_returns returned
    exact ⟨h.kept rfl rfl, .inr (.inr rfl)⟩
  | drop_receiver stream =>
    simp only [step] at returned
    split at returned <;> cases returned <;>
      exact ⟨h.kept rfl rfl, .inr (.inr rfl)⟩

theorem step_keyed {a : Action} {n : Nat} (h : m.Numbered build n) (keyed : m.Keyed)
    (returned : (m.step build protobuf a).value = some m') : m'.Keyed := by
  obtain ⟨numbered, entries⟩ := step_entries h returned
  have grown : m.channels ≤ m'.channels := by
    rw [h.channels, numbered.channels]
    exact Nat.le_add_right ..
  have old : ∀ seq pending callback, m.pending seq = some pending →
      pending.callback = some callback → seq = be 8 callback ∧ callback < m'.channels := by
    intro seq pending callback entry named
    obtain ⟨key, below⟩ := keyed seq pending callback entry named
    exact ⟨key, Nat.lt_of_lt_of_le below grown⟩
  intro seq pending callback entry named
  rcases entries with ⟨one, changed⟩ | ⟨_, _, own, _, _, _, _, _, _, inherits, changed⟩ | unchanged
  · rw [changed] at entry
    by_cases same : seq = be 8 n
    · subst same
      rw [Function.update_self] at entry
      cases entry
      cases named
      exact ⟨rfl, by rw [numbered.channels, one]; exact Nat.lt_succ_self n⟩
    · rw [Function.update_of_ne same] at entry
      exact old seq pending callback entry named
  · rw [changed] at entry
    by_cases same : seq = own
    · subst same
      rw [Function.update_self] at entry
      obtain ⟨earlier, was, named⟩ := inherits pending callback entry named
      exact old seq earlier callback was named
    · rw [Function.update_of_ne same] at entry
      exact old seq pending callback entry named
  · rw [unchanged] at entry
    exact old seq pending callback entry named

theorem run_entries {actions : List Action}
    (reached : (run build protobuf actions).value = some m) :
    m.Numbered build (requests actions) ∧ m.Keyed := by
  refine Call.run_induction (P := fun as _ m => m.Numbered build (requests as) ∧ m.Keyed)
    ⟨⟨rfl, rfl, fun _ => by decide⟩, nofun⟩ ?_ reached
  rintro as _ m ⟨numbered, keyed⟩ a m' returned
  rw [requests_append, requests_cons, requests_nil, Nat.add_zero]
  exact ⟨(step_entries numbered returned).1, step_keyed numbered keyed returned⟩

end MercuryManager

end ConnectScrobbler.Mercury
