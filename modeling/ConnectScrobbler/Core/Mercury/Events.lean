import ConnectScrobbler.Core.Mercury.Subscription

/-! Events and requests share the map of entries. An event whose sequence is that
of a pending request is taken for a packet of its response. -/
namespace ConnectScrobbler.Mercury

open Bytes (be)
open MercuryPending (of)
open Packet (head parse take_in)

namespace MercuryManager

variable {build : Build} {protobuf : Protobuf} {m m' : MercuryManager}

/-- What a dispatch leaves behind: if its second half panics, the state after the first. -/
def left_by (protobuf : Protobuf) (cmd : UInt8) (data : Bytes) (m : MercuryManager) :
    Option MercuryManager :=
  (m.receive cmd data).value.map fun
    | (m, some held) => (m.conclude protobuf held).value.getD m
    | (m, none) => m

theorem left_by_returned {cmd : UInt8} {data : Bytes}
    (returned : (m.dispatch protobuf cmd data).value = some m') :
    m.left_by protobuf cmd data = some m' := by
  obtain ⟨⟨m1, held⟩, received, concluded⟩ := Call.bind_returns.mp returned
  rw [left_by, received]
  cases held with
  | none => exact concluded
  | some held =>
    simp only at concluded
    simp only [Option.map_some, concluded, Option.getD_some]

/-- Every pending request keeps its entry, and its callback is not answered. -/
def Undisturbed (m m' : MercuryManager) : Prop :=
  ∀ key pending callback, m.pending key = some pending → pending.callback = some callback →
    m'.pending key = some pending ∧ m'.oneshots callback = m.oneshots callback

/-- The packet is for no pending request, or neither ends nor adds to its entry. -/
def Spares (m : MercuryManager) (p : Packet) : Prop :=
  ∀ pending callback, m.pending p.seq = some pending → pending.callback = some callback →
    p.flags ≠ 1 ∧ (p.chunks = [] ∨
      p.flags = 2 ∧ p.chunks = [[]] ∧ pending.partial_part ≠ none)

theorem final_undisturbed {p : Packet} {x : Assembly UInt8} {callback : Option Nat}
    (entry : m.found 0xb5 p.seq = some (of x callback)) (final : p.flags = 1)
    (pending : m'.pending = (m.remove p.seq).pending)
    (oneshots : ∀ cb, callback ≠ some cb → m'.oneshots cb = m.oneshots cb) :
    m.Undisturbed m' ↔ m.Spares p := by
  constructor
  · intro kept own cb there named
    have gone := (kept p.seq own cb there named).1
    rw [pending, remove_pending] at gone
    cases gone
  · intro spared key own cb there named
    have other : key ≠ p.seq := by
      rintro rfl
      exact (spared own cb there named).1 final
    refine ⟨?_, oneshots cb ?_⟩
    · rw [pending, ← there]
      exact Function.update_of_ne other ..
    · rintro rfl
      exact (spared (of x (some cb)) cb (found_callback entry) rfl).1 final

theorem more_undisturbed {p : Packet} {x : Assembly UInt8} {callback : Option Nat}
    (entry : m.found 0xb5 p.seq = some (of x callback)) (more : p.flags ≠ 1)
    (pending : m'.pending =
      Function.update m.pending p.seq (some (of (take_in x p) callback)))
    (oneshots : m'.oneshots = m.oneshots) : m.Undisturbed m' ↔ m.Spares p := by
  have unchanged : take_in x p = x ↔
      p.chunks = [] ∨ p.flags = 2 ∧ p.chunks = [[]] ∧ x.carried ≠ none := by
    rw [take_in, Assembly.feed_eq_self, decide_eq_true_iff]
  have own : ∀ pending, m.pending p.seq = some pending → pending = of x callback := by
    intro pending there
    exact Option.some.inj ((found_of_pending there).symm.trans entry)
  constructor
  · intro kept held cb there named
    refine ⟨more, ?_⟩
    have after := (kept p.seq held cb there named).1
    cases own held there
    rw [pending, Function.update_self] at after
    exact unchanged.mp (MercuryPending.of_inj.mp (Option.some.inj after)).1
  · intro spared key held cb there named
    refine ⟨?_, congrFun oneshots cb⟩
    rw [pending]
    by_cases same : key = p.seq
    · subst same
      cases own held there
      rw [Function.update_self, unchanged.mpr (spared _ cb there named).2]
    · rw [Function.update_of_ne same, there]

theorem event_undisturbed {data : Bytes} {p : Packet} (parsed : parse data = some p) :
    ∃ m', m.left_by protobuf 0xb5 data = some m' ∧ (m.Undisturbed m' ↔ m.Spares p) := by
  obtain ⟨x, callback, entry⟩ : ∃ x callback, m.found 0xb5 p.seq = some (of x callback) := by
    cases there : m.pending p.seq with
    | none => exact ⟨_, _, found_event there⟩
    | some pending => exact ⟨⟨pending.parts, pending.partial_part⟩, pending.callback,
        found_of_pending there⟩
  rw [left_by, receive_entry parsed entry]
  refine ⟨_, rfl, ?_⟩
  by_cases final : p.flags = 1
  · simp only [conclude, if_pos final]
    cases returned :
        ((m.remove p.seq).complete_request protobuf 0xb5 (of (take_in x p) callback)).value with
    | none => exact final_undisturbed entry final rfl fun _ _ => rfl
    | some m' =>
      refine final_undisturbed entry final ?_ fun cb other => ?_
      · obtain ⟨_, _, rfl⟩ := complete_request_returns returned
        rfl
      · exact complete_request_oneshots (m := m.remove p.seq) other returned
  · simp only [conclude, if_neg final, insert_free (remove_pending p.seq)]
    refine more_undisturbed entry final ?_ rfl
    exact Function.update_idem ..

theorem event_collected {key : Bytes} {n : Nat} {header_data : Bytes} {header : Header}
    {parts : List Bytes} {fragments : List (Ending × List Bytes)} {last : Ending × List Bytes}
    {during : List Action} {data : Bytes} (numbered : m.Numbered build n)
    (unused : m.pending key = none)
    (free : ∀ k, n ≤ k → k < n + requests during → key ≠ be 8 k)
    (cut : Fragmentation (header_data :: parts) (fragments ++ [last]))
    (parsed : protobuf.parse_header header_data = some header)
    (interleaved : Interleaves (· = 0xb5) key (fragments.map (Packet.carrying key)) during)
    (arrived : parse data = some (.carrying key last)) :
    OtherPanics build protobuf key m during ∨ ∃ m',
      (Call.run (step build protobuf) m during).value = some m' ∧
      m'.Finishes protobuf data ⟨header.get_uri, header.get_status_code, parts⟩ := by
  have start : m.Holds (· = 0xb5) key .empty none := .inr ⟨unused, fun _ event => event, rfl, rfl⟩
  rcases tracked interleaved numbered (fun k above below _ => free k above below) start
    (flags_before_last cut) with panics | ⟨m', reached, _, holds⟩
  · exact .inl panics
  · exact .inr ⟨m', reached, .carrying key last, _, none, arrived, flags_last cut key,
      holds.found rfl, response_last cut parsed key none⟩

end MercuryManager

open MercuryManager (run OtherPanics)

variable {build : Build} {protobuf : Protobuf}

/-- In every state that a run reaches, an event packet leaves the pending requests
alone exactly if it spares them; and an event in fragments, whose sequence no
request and no response uses meanwhile, is delivered with its own parts. -/
theorem events_apart {before : List Action} {m : MercuryManager}
    (reached : (run build protobuf before).value = some m) :
    (∀ data p, parse data = some p → ∃ m', m.left_by protobuf 0xb5 data = some m' ∧
      (∀ returned, (m.dispatch protobuf 0xb5 data).value = some returned → returned = m') ∧
      (m.Undisturbed m' ↔ m.Spares p)) ∧
    ∀ key header_data header parts fragments last during data,
      m.pending key = none →
      (∀ k, requests before ≤ k → k < requests (before ++ during) → key ≠ be 8 k) →
      Fragmentation (header_data :: parts) (fragments ++ [last]) →
      protobuf.parse_header header_data = some header → header.get_status_code < 400 →
      Interleaves (· = 0xb5) key (fragments.map (Packet.carrying key)) during →
      parse data = some (.carrying key last) →
      OtherPanics build protobuf key .new (before ++ during) ∨ ∃ m1,
        (run build protobuf (before ++ during)).value = some m1 ∧
        ∀ tx response, .send tx response ∈ (m1.dispatch protobuf 0xb5 data).log ↔
          response = ⟨header.get_uri, header.get_status_code, parts⟩ ∧ m1.closed tx = false ∧
          ∃ watched, (watched, tx) ∈ m1.subscriptions ∧
            starts_with header.get_uri watched = true := by
  constructor
  · intro data p parsed
    obtain ⟨m', left, undisturbed⟩ := MercuryManager.event_undisturbed parsed
    refine ⟨m', left, fun returned h => ?_, undisturbed⟩
    exact Option.some.inj ((MercuryManager.left_by_returned h).symm.trans left)
  · intro key header_data header parts fragments last during data unused free cut parsed success
      interleaved arrived
    have numbered := (MercuryManager.run_entries reached).1
    rw [requests_append] at free
    rcases MercuryManager.event_collected numbered unused free cut parsed interleaved arrived with
      panics | ⟨m1, collected, finishes⟩
    · exact .inl (panics.after reached)
    · refine .inr ⟨m1, ?_, fun _ _ => MercuryManager.event_sent finishes success⟩
      rw [run, Call.run_append]
      exact Call.bind_returns.mpr ⟨m, reached, collected⟩

/-! An event of its own sequence among requests, and one with that of a request. -/

def event_fragment (key : Bytes) (fragment : Ending × List Bytes) : Action :=
  .dispatch 0xb5 (Packet.carrying key fragment).encode

theorem events_apart_from_get : ∃ m, (run .release messages [get_u]).value = some m ∧
    (∃ m', m.left_by messages 0xb5 event_u = some m' ∧ m.Undisturbed m') ∧
    (OtherPanics .release messages [9] .new
        ([get_u] ++ [event_fragment [9] (.continued, [ok_uri_header, [1]]), get_u]) ∨
      ∃ m1, (run .release messages
          ([get_u] ++ [event_fragment [9] (.continued, [ok_uri_header, [1]]), get_u])).value = some m1 ∧
        ∀ tx response, .send tx response ∈ (m1.dispatch messages 0xb5
            (Packet.carrying [9] (.final, [[2]])).encode).log ↔
          response = ⟨"u", 200, [[1, 2]]⟩ ∧ m1.closed tx = false ∧
          ∃ watched, (watched, tx) ∈ m1.subscriptions ∧ starts_with "u" watched = true) := by
  have cut : Fragmentation [ok_uri_header, [1, 2]]
      ([(.continued, [ok_uri_header, [1]])] ++ [(.final, [[2]])]) :=
    @Fragmentation.continued _ [ok_uri_header] [] [1] [2] _ (.final nofun)
  have interleaved : Interleaves (· = 0xb5) [9]
      ([(.continued, [ok_uri_header, [1]])].map (Packet.carrying [9]))
      [event_fragment [9] (.continued, [ok_uri_header, [1]]), get_u] :=
    .packet rfl rfl rfl (.other trivial .done)
  have reached : (run .release messages [get_u]).value = some _ := rfl
  obtain ⟨spared, received⟩ := events_apart reached
  refine ⟨_, reached, ?_, ?_⟩
  · obtain ⟨m', left, _, undisturbed⟩ :=
      spared event_u (.carrying [9] (.final, [ok_uri_header, [7]])) rfl
    exact ⟨m', left, undisturbed.mpr nofun⟩
  · exact received [9] ok_uri_header
      { Header.new with uri := some "u", status_code := some 200 } [[1, 2]] _ (.final, [[2]]) _ _ rfl
      (fun _ _ _ same => nomatch congrArg List.length same) cut rfl (by decide) interleaved rfl

/-- An event with the sequence of a pending request takes its entry and cancels it. -/
theorem event_cancels_get :
    ((run .release messages [get_u]).value.map fun m => (m.pending (be 8 0), m.oneshots 0)) =
      some (some ⟨[], none, some 0⟩, .waiting) ∧
    ((run .release messages [get_u, event_fragment (be 8 0) (.final, [ok_uri_header])]).value.map
      fun m => (m.pending (be 8 0), m.oneshots 0)) = some (none, .canceled) := by
  decide

end ConnectScrobbler.Mercury
