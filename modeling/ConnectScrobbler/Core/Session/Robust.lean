import ConnectScrobbler.Core.Mercury.Reassembly
import ConnectScrobbler.Core.Mercury.Streams
import ConnectScrobbler.Core.Session

/-! Which packets the dispatcher survives with its maps intact. -/
namespace ConnectScrobbler

open Bytes (be drain_to read_be)
open Mercury.Packet (head parse read_chunks take_in)

namespace Mercury.MercuryManager

variable {protobuf : Protobuf} {m m' : MercuryManager}

/-- An entry once a packet's chunks are in. -/
def fed (flags : UInt8) (chunks : List Bytes) (pending : MercuryPending) : MercuryPending :=
  .of (Assembly.feed ⟨pending.parts, pending.partial_part⟩ (flags = 2) chunks) pending.callback

/-- A packet that cannot be cut into parts, has none, or is the last of a response whose
first part is not a header. -/
def Malformed (protobuf : Protobuf) (cmd : UInt8) (data : Bytes) (m : MercuryManager) : Prop :=
  match parse data with
  | none => True
  | some p => p.chunks = [] ∨ p.flags = 1 ∧ ∃ pending, m.found cmd p.seq = some pending ∧
      (fed p.flags p.chunks pending).response protobuf = none

/-- A packet says which request it is for. If that is none, nothing more is read; otherwise
its parts are all there, and there are some (or there may be none, if it is not the last
one and its request is known), and if it is the last one the response has a header. -/
def Sound (protobuf : Protobuf) (cmd : UInt8) (data : Bytes) (m : MercuryManager) : Prop :=
  ∃ seq flags count rest, head data = some (seq, flags, count, rest) ∧
    ∀ pending, m.found cmd seq = some pending → ∃ chunks, read_chunks count rest = some chunks ∧
      if flags = 1 then chunks ≠ [] ∧ (fed flags chunks pending).response protobuf ≠ none
      else chunks ≠ [] ∨ m.pending seq ≠ none

def Robust (protobuf : Protobuf) (cmd : UInt8) (data : Bytes) (m : MercuryManager) : Prop :=
  ∃ m', (m.dispatch protobuf cmd data).value = some m' ∧
    (m.Malformed protobuf cmd data → m'.pending = m.pending ∧ m'.subscriptions = m.subscriptions)

theorem complete_request_panics {cmd : UInt8} {pending : MercuryPending} :
    (m.complete_request protobuf cmd pending).value = none ↔ pending.response protobuf = none := by
  rw [complete_request, Call.bind_value]
  cases named : pending.response protobuf with
  | none => simp
  | some response =>
    simp only [Call.unwrap_eq, Option.bind_some, reduceCtorEq, iff_false]
    split
    · split <;> simp [complete]
    · split
      · rw [retain_eq]
        cases pending.callback <;> simp [drop_callback]
      · split <;> simp [complete]

theorem found_cases {cmd : UInt8} {seq : Bytes} {pending : MercuryPending}
    (entry : m.found cmd seq = some pending) :
    m.pending seq = some pending ∨ m.pending seq = none ∧ pending = .of .empty none := by
  unfold found at entry
  split at entry
  · rename_i there
    cases entry
    exact .inl there
  · rename_i free
    split at entry
    · cases entry
      exact .inr ⟨free, rfl⟩
    · cases entry

theorem fed_nothing (flags : UInt8) (pending : MercuryPending) : fed flags [] pending = pending :=
  rfl

theorem pending_eq (pending : MercuryPending) :
    pending = .of ⟨pending.parts, pending.partial_part⟩ pending.callback := rfl

section Dispatch

variable {cmd : UInt8} {data : Bytes} {seq : Bytes} {flags : UInt8} {count : Nat} {rest : Bytes}
  {chunks : List Bytes} {pending : MercuryPending}

theorem dispatch_headless (headless : head data = none) :
    (m.dispatch protobuf cmd data).value = none := by
  rw [dispatch, receive_eq, headless]
  rfl

variable (opened : head data = some (seq, flags, count, rest))
include opened

theorem dispatch_unknown (unknown : m.found cmd seq = none) :
    (m.dispatch protobuf cmd data).value = some m := by
  obtain ⟨free, response⟩ := found_none.mp unknown
  rw [dispatch, receive_unknown opened free response]
  rfl

theorem dispatch_cut_short (entry : m.found cmd seq = some pending)
    (short : read_chunks count rest = none) : (m.dispatch protobuf cmd data).value = none := by
  rw [pending_eq pending] at entry
  rw [dispatch, receive_eq, opened]
  simp only [Call.emit_eq, Call.unwrap_eq, Call.bind_some, entry, MercuryPending.read_parts_of,
    short, Option.map_none]
  rfl

theorem parsed_of (read : read_chunks count rest = some chunks) :
    parse data = some ⟨seq, flags, chunks⟩ := by
  simp only [parse, opened, read, Option.bind_eq_bind, Option.bind_some]
  rfl

theorem dispatch_last (entry : m.found cmd seq = some pending)
    (read : read_chunks count rest = some chunks) (final : flags = 1) :
    (m.dispatch protobuf cmd data).value =
      ((m.remove seq).complete_request protobuf cmd (fed flags chunks pending)).value := by
  rw [pending_eq pending] at entry
  rw [dispatch_final (parsed_of opened read) entry final]
  rfl

theorem dispatch_not_last (entry : m.found cmd seq = some pending)
    (read : read_chunks count rest = some chunks) (more : flags ≠ 1) :
    (m.dispatch protobuf cmd data).value = some { m with
      pending := Function.update m.pending seq (some (fed flags chunks pending)) } := by
  rw [pending_eq pending] at entry
  rw [dispatch_more (parsed_of opened read) entry more]
  rfl

theorem malformed_iff (entry : m.found cmd seq = some pending)
    (read : read_chunks count rest = some chunks) : m.Malformed protobuf cmd data ↔
      chunks = [] ∨ flags = 1 ∧ (fed flags chunks pending).response protobuf = none := by
  rw [Malformed, parsed_of opened read]
  simp [entry]

theorem robust_last (entry : m.found cmd seq = some pending)
    (read : read_chunks count rest = some chunks) (final : flags = 1) :
    m.Robust protobuf cmd data ↔
      chunks ≠ [] ∧ (fed flags chunks pending).response protobuf ≠ none := by
  rw [Robust, dispatch_last opened entry read final, malformed_iff opened entry read]
  constructor
  · rintro ⟨m', returned, keeps⟩
    have answered : (fed flags chunks pending).response protobuf ≠ none := by
      intro headless
      rw [complete_request_panics.mpr headless] at returned
      cases returned
    refine ⟨?_, answered⟩
    rintro rfl
    obtain ⟨subscriptions, oneshots, rfl⟩ := complete_request_returns returned
    have gone : m.pending seq = none := by
      rw [← (keeps (.inl rfl)).1]
      exact remove_pending seq
    obtain there | ⟨_, rfl⟩ := found_cases entry
    · rw [gone] at there
      cases there
    · exact answered rfl
  · rintro ⟨some_parts, answered⟩
    obtain ⟨m', returned⟩ := Option.ne_none_iff_exists'.mp (mt complete_request_panics.mp answered)
    refine ⟨m', returned, ?_⟩
    rintro (none | ⟨_, headless⟩)
    · exact absurd none some_parts
    · exact absurd headless answered

theorem robust_not_last (entry : m.found cmd seq = some pending)
    (read : read_chunks count rest = some chunks) (more : flags ≠ 1) :
    m.Robust protobuf cmd data ↔ chunks ≠ [] ∨ m.pending seq ≠ none := by
  rw [Robust, dispatch_not_last opened entry read more, malformed_iff opened entry read]
  constructor
  · rintro ⟨m', returned, keeps⟩
    cases returned
    by_contra neither
    obtain ⟨none, free⟩ := not_or.mp neither
    have same := congrFun (keeps (.inl (not_not.mp none))).1 seq
    rw [not_not.mp free] at same
    simp at same
  · intro either
    refine ⟨_, rfl, ?_⟩
    rintro (rfl | ⟨final, _⟩)
    · have there : m.pending seq = some pending := by
        obtain there | ⟨free, _⟩ := found_cases entry
        · exact there
        · simp [free] at either
      refine ⟨?_, rfl⟩
      show Function.update m.pending seq (some (fed flags [] pending)) = m.pending
      rw [fed_nothing, ← there, Function.update_eq_self]
    · exact absurd final more

end Dispatch

theorem mercury_robust_iff {cmd : UInt8} {data : Bytes} :
    m.Robust protobuf cmd data ↔ m.Sound protobuf cmd data := by
  cases opened : head data with
  | none => simp [Robust, Sound, opened, dispatch_headless opened]
  | some read =>
    obtain ⟨seq, flags, count, rest⟩ := read
    simp only [Sound, opened, Option.some.injEq, Prod.mk.injEq]
    cases entry : m.found cmd seq with
    | none =>
      have returned : (m.dispatch protobuf cmd data).value = some m := dispatch_unknown opened entry
      simp [Robust, returned, entry]
    | some pending =>
      cases read : read_chunks count rest with
      | none => simp [Robust, dispatch_cut_short opened entry read, entry, read]
      | some chunks =>
        by_cases final : flags = 1
        · rw [robust_last opened entry read final]
          simp [entry, read, final]
        · rw [robust_not_last opened entry read final]
          simp [entry, read, final]

end Mercury.MercuryManager

namespace AudioKeyManager

variable {warns : Bool} {cmd : UInt8} {data : Bytes} {m : AudioKeyManager}

/-- A key has 16 bytes and an error two, after the four that say which request it is for. -/
def Whole (cmd : UInt8) (data : Bytes) : Prop :=
  if cmd = 0xd then data.length = 20 else 6 ≤ data.length

def seq_of (data : Bytes) : BitVec 32 := BitVec.ofNat 32 (read_be (data.take 4))

/-- The request is said, and if it is pending the answer is whole. -/
def Sound (cmd : UInt8) (data : Bytes) (m : AudioKeyManager) : Prop :=
  4 ≤ data.length ∧ (m.pending (seq_of data) ≠ none → Whole cmd data)

def Robust (warns : Bool) (cmd : UInt8) (data : Bytes) (m : AudioKeyManager) : Prop :=
  ∃ m', (m.dispatch warns cmd data).value = some m' ∧ (¬ Whole cmd data → m'.pending = m.pending)

theorem dispatch_eq (warns : Bool) (cmd : UInt8) (m : AudioKeyManager) (enough : 4 ≤ data.length) :
    m.dispatch warns cmd data = match m.pending (seq_of data) with
      | none => pure (m.remove (seq_of data))
      | some sender =>
        if cmd = 0xd then do
          let key ← Call.unwrap (AudioKey.copy_from_slice (data.drop 4))
          (m.remove (seq_of data)).complete sender (.ok key)
        else if cmd = 0xe then
          if warns ∧ (data.drop 4).length < 2 then Call.panic
          else (m.remove (seq_of data)).complete sender (.error {})
        else (m.remove (seq_of data)).cancel sender := by
  rw [dispatch, drain_to, if_pos enough]
  rfl

theorem remove_free {seq : BitVec 32} (free : m.pending seq = none) : m.remove seq = m := by
  rw [remove, ← free, Function.update_eq_self]

/-- What is done for a pending request takes its entry out. -/
theorem dispatch_pending {sender : Nat} {m' : AudioKeyManager} (enough : 4 ≤ data.length)
    (pending : m.pending (seq_of data) = some sender)
    (returned : (m.dispatch warns cmd data).value = some m') : m'.pending ≠ m.pending := by
  intro same
  have gone : m'.pending (seq_of data) = none := by
    rw [dispatch_eq warns cmd m enough, pending] at returned
    simp only at returned
    split at returned
    · obtain ⟨key, _, done⟩ := Call.bind_returns.mp returned
      cases done
      exact Function.update_self ..
    · split at returned
      · split at returned
        · cases returned
        · cases returned
          exact Function.update_self ..
      · cases returned
        exact Function.update_self ..
  rw [same, pending] at gone
  cases gone

theorem dispatch_whole (answer : cmd = 0xd ∨ cmd = 0xe) (enough : 4 ≤ data.length)
    (whole : Whole cmd data) : ∃ m', (m.dispatch warns cmd data).value = some m' := by
  rw [dispatch_eq warns cmd m enough]
  cases m.pending (seq_of data) with
  | none => exact ⟨_, rfl⟩
  | some sender =>
    unfold Whole at whole
    rcases answer with rfl | rfl
    · have size : (data.drop 4).length = 16 := by
        rw [List.length_drop]
        simp only [if_true] at whole
        omega
      simp only [if_true, AudioKey.copy_from_slice, dif_pos size]
      exact ⟨_, rfl⟩
    · have size : ¬ (data.drop 4).length < 2 := by
        rw [List.length_drop]
        rw [if_neg (by decide)] at whole
        omega
      simp only [size, and_false, if_false]
      exact ⟨_, rfl⟩

theorem audio_key_robust_iff (answer : cmd = 0xd ∨ cmd = 0xe) :
    m.Robust warns cmd data ↔ m.Sound cmd data := by
  by_cases enough : 4 ≤ data.length
  · by_cases whole : Whole cmd data
    · simp [Robust, Sound, enough, whole, dispatch_whole answer]
    · cases pending : m.pending (seq_of data) with
      | none =>
        rw [Robust, dispatch_eq warns cmd m enough, pending, remove_free pending]
        simp [Sound, enough, pending]
      | some sender =>
        constructor
        · rintro ⟨m', returned, keeps⟩
          exact absurd (keeps whole) (dispatch_pending enough pending returned)
        · rintro ⟨_, needed⟩
          exact absurd (needed (by simp [pending])) whole
  · have panics : (m.dispatch warns cmd data).value = none := by
      rw [dispatch, drain_to, if_neg enough]
      rfl
    simp [Robust, Sound, enough, panics]

end AudioKeyManager

namespace ChannelManager

/-- A packet has to say its channel; the map of channels is not touched. -/
theorem robust_iff_long (cmd : UInt8) (data : Bytes) (m : ChannelManager) :
    (∃ m', (m.dispatch cmd data).value = some m' ∧
      (data.length < 2 → m'.channels = m.channels)) ↔ 2 ≤ data.length := by
  by_cases enough : 2 ≤ data.length
  · simp only [enough, iff_true]
    rw [dispatch, drain_to, if_pos enough]
    simp only [Call.unwrap_eq, Call.bind_some]
    split
    · unfold send
      split
      · exact ⟨_, rfl, fun _ => rfl⟩
      · exact ⟨_, rfl, fun _ => rfl⟩
    · exact ⟨_, rfl, fun _ => rfl⟩
  · rw [dispatch, drain_to, if_neg enough]
    simp [enough]

end ChannelManager

namespace Session

/-- A payload that does not have the form its command asks for. -/
def Malformed (protobuf : Protobuf) (cmd : UInt8) (data : Bytes) (s : Session) : Prop :=
  if cmd = 0x1b then from_utf8 data = none
  else if cmd = 0x9 ∨ cmd = 0xa then data.length < 2
  else if cmd = 0xd ∨ cmd = 0xe then ¬ AudioKeyManager.Whole cmd data
  else if 0xb2 ≤ cmd ∧ cmd ≤ 0xb6 then s.mercury.Malformed protobuf cmd data
  else False

/-- The dispatcher returns, and a malformed payload leaves the maps as they were. -/
def Robust (warns : Bool) (protobuf : Protobuf) (cmd : UInt8) (data : Bytes) (s : Session) : Prop :=
  ∃ s', (s.dispatch warns protobuf cmd data).value = some s' ∧
    (s.Malformed protobuf cmd data →
      s'.mercury.pending = s.mercury.pending ∧ s'.mercury.subscriptions = s.mercury.subscriptions ∧
      s'.audio_key.pending = s.audio_key.pending ∧ s'.channel.channels = s.channel.channels)

def Sound (protobuf : Protobuf) (cmd : UInt8) (data : Bytes) (s : Session) : Prop :=
  if cmd = 0x4 then s.connected = true
  else if cmd = 0x1b then from_utf8 data ≠ none
  else if cmd = 0x9 ∨ cmd = 0xa then 2 ≤ data.length
  else if cmd = 0xd ∨ cmd = 0xe then s.audio_key.Sound cmd data
  else if 0xb2 ≤ cmd ∧ cmd ≤ 0xb6 then s.mercury.Sound protobuf cmd data
  else True

/-- Which packets the dispatcher is robust against, in whatever state the session is. -/
theorem robust_iff_sound (warns : Bool) (protobuf : Protobuf) (cmd : UInt8) (data : Bytes)
    (s : Session) : s.Robust warns protobuf cmd data ↔ s.Sound protobuf cmd data := by
  unfold Robust Sound Malformed dispatch
  by_cases ping : cmd = 0x4
  · subst ping
    cases connected : s.connected <;> simp [send_packet, connected]
  simp only [if_neg ping]
  by_cases pong : cmd = 0x4a
  · subst pong
    simp
  simp only [if_neg pong]
  by_cases country : cmd = 0x1b
  · simp only [if_pos country]
    cases from_utf8 data <;> simp
  simp only [if_neg country]
  by_cases channel : cmd = 0x9 ∨ cmd = 0xa
  · simp only [if_pos channel]
    rw [← ChannelManager.robust_iff_long cmd data s.channel]
    simp [Call.bind_returns]
  simp only [if_neg channel]
  by_cases audio_key : cmd = 0xd ∨ cmd = 0xe
  · simp only [if_pos audio_key]
    have whole : s.audio_key.Robust warns cmd data ↔ s.audio_key.Sound cmd data :=
      AudioKeyManager.audio_key_robust_iff audio_key
    rw [← whole]
    simp [Call.bind_returns, AudioKeyManager.Robust]
  simp only [if_neg audio_key]
  by_cases mercury : 0xb2 ≤ cmd ∧ cmd ≤ 0xb6
  · simp only [if_pos mercury]
    rw [← Mercury.MercuryManager.mercury_robust_iff]
    simp [Call.bind_returns, Mercury.MercuryManager.Robust]
  · simp [if_neg mercury]

/-- A response that ends within its first field takes the dispatcher down. -/
theorem empty_response_panics :
    ¬ Session.new.Robust true Mercury.messages 0xb2 [] := by
  rintro ⟨s', returned, _⟩
  cases returned

end Session

end ConnectScrobbler
