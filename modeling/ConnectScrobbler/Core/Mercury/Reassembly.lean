import ConnectScrobbler.Core.Mercury.Entries

/-! A response in fragments. The packets of one sequence find their entry whatever
other actions come between them, and the last one completes the request with the
parts that were cut up. -/
namespace ConnectScrobbler.Mercury

open Bytes (be)
open MercuryPending (of)
open Packet (head parse take_in)

def Action.Elsewhere (key : Bytes) : Action → Prop
  | .dispatch _ data => ∀ seq flags count rest, head data = some (seq, flags, count, rest) → seq ≠ key
  | _ => True

/-- The packets with the key arrive in order, under commands that are allowed,
and anything else happens in between. -/
inductive Interleaves (own : UInt8 → Prop) (key : Bytes) : List Packet → List Action → Prop
  | done : Interleaves own key [] []
  | packet {cmd : UInt8} {data : Bytes} {p : Packet} {packets : List Packet} {actions : List Action}
      (allowed : own cmd) (parsed : parse data = some p) (same : p.seq = key)
      (rest : Interleaves own key packets actions) :
      Interleaves own key (p :: packets) (.dispatch cmd data :: actions)
  | other {a : Action} {packets : List Packet} {actions : List Action}
      (elsewhere : a.Elsewhere key) (rest : Interleaves own key packets actions) :
      Interleaves own key packets (a :: actions)

namespace MercuryManager

variable {build : Build} {protobuf : Protobuf} {m m' : MercuryManager} {own : UInt8 → Prop}
  {key : Bytes}

/-- The entry for the key; the one of an event need not be there before its first packet. -/
def Holds (m : MercuryManager) (own : UInt8 → Prop) (key : Bytes) (x : Assembly UInt8)
    (callback : Option Nat) : Prop :=
  m.pending key = some (of x callback) ∨
    m.pending key = none ∧ (∀ cmd, own cmd → cmd = 0xb5) ∧ x = .empty ∧ callback = none

theorem Holds.found {x : Assembly UInt8} {callback : Option Nat} {cmd : UInt8}
    (h : m.Holds own key x callback) (allowed : own cmd) : m.found cmd key = some (of x callback) := by
  rcases h with entry | ⟨free, events, rfl, rfl⟩
  · exact found_of_pending entry
  · rw [events cmd allowed]
    exact found_event free

/-- In a run from here an action that is not one of the packets panics. -/
def OtherPanics (build : Build) (protobuf : Protobuf) (key : Bytes) (m : MercuryManager)
    (actions : List Action) : Prop :=
  ∃ done a rest m', actions = done ++ a :: rest ∧ a.Elsewhere key ∧
    (Call.run (step build protobuf) m done).value = some m' ∧ (m'.step build protobuf a).value = none

theorem OtherPanics.after {earlier actions : List Action}
    (reached : (Call.run (step build protobuf) m earlier).value = some m')
    (h : OtherPanics build protobuf key m' actions) :
    OtherPanics build protobuf key m (earlier ++ actions) := by
  obtain ⟨done, b, rest, m'', rfl, elsewhere, returned, panics⟩ := h
  refine ⟨earlier ++ done, b, rest, m'', (List.append_assoc ..).symm, elsewhere, ?_, panics⟩
  rw [Call.run_append]
  exact Call.bind_returns.mpr ⟨m', reached, returned⟩

theorem dispatch_more {cmd : UInt8} {data : Bytes} {p : Packet} {x : Assembly UInt8}
    {callback : Option Nat} (parsed : parse data = some p)
    (entry : m.found cmd p.seq = some (of x callback)) (more : p.flags ≠ 1) :
    m.dispatch protobuf cmd data = ⟨[.receive cmd data, .insert p.seq callback],
      some { m with
        pending := Function.update m.pending p.seq (some (of (take_in x p) callback)) }⟩ := by
  simp only [dispatch, receive_entry parsed entry, Call.bind_some, conclude, if_neg more,
    insert_free (remove_pending p.seq)]
  simp [remove, of]

theorem dispatch_final {cmd : UInt8} {data : Bytes} {p : Packet} {x : Assembly UInt8}
    {callback : Option Nat} (parsed : parse data = some p)
    (entry : m.found cmd p.seq = some (of x callback)) (final : p.flags = 1) :
    m.dispatch protobuf cmd data = (do
      Call.emit (.receive cmd data)
      (m.remove p.seq).complete_request protobuf cmd (of (take_in x p) callback)) := by
  simp only [dispatch, receive_entry parsed entry, Call.bind_some, conclude, if_pos final]
  rfl

theorem step_elsewhere {a : Action} {n : Nat} (numbered : m.Numbered build n)
    (elsewhere : a.Elsewhere key) (free : a.requests = 1 → key ≠ be 8 n)
    (returned : (m.step build protobuf a).value = some m') : m'.pending key = m.pending key := by
  rcases (step_entries numbered returned).2 with
    ⟨one, changed⟩ | ⟨cmd, data, seq, flags, count, rest, entry, rfl, opened, _, changed⟩ | unchanged
  · rw [changed, Function.update_of_ne (free one)]
  · rw [changed, Function.update_of_ne (elsewhere seq flags count rest opened).symm]
  · rw [unchanged]

theorem tracked {packets : List Packet} {actions : List Action}
    (interleaved : Interleaves own key packets actions) {n : Nat} {x : Assembly UInt8}
    {callback : Option Nat} (numbered : m.Numbered build n)
    (free : ∀ k, n ≤ k → k < n + requests actions → (build = .debug → k < 2 ^ 64) → key ≠ be 8 k)
    (entry : m.Holds own key x callback) (more : ∀ p ∈ packets, p.flags ≠ 1) :
    OtherPanics build protobuf key m actions ∨
    ∃ m', (Call.run (step build protobuf) m actions).value = some m' ∧
      m'.Numbered build (n + requests actions) ∧
      m'.Holds own key (packets.foldl take_in x) callback := by
  induction interleaved generalizing m n x with
  | done => exact .inr ⟨m, rfl, numbered, entry⟩
  | @packet cmd data p packets actions allowed parsed same rest ih =>
    subst same
    have taken : (m.step build protobuf (.dispatch cmd data)).value = some { m with
        pending := Function.update m.pending p.seq (some (of (take_in x p) callback)) } :=
      congrArg Call.value (dispatch_more parsed (entry.found allowed) (more p (.head _)))
    have count : requests (.dispatch cmd data :: actions) = requests actions := by
      rw [requests_cons]
      exact Nat.zero_add _
    rw [count] at free ⊢
    have counted : MercuryManager.Numbered build { m with
        pending := Function.update m.pending p.seq (some (of (take_in x p) callback)) } n :=
      numbered.kept rfl rfl
    rcases ih counted free (.inl (Function.update_self ..)) (fun q member => more q (.tail _ member))
      with panics | ⟨m', reached, counted, holds⟩
    · have one : (Call.run (step build protobuf) m [.dispatch cmd data]).value = some _ :=
        Call.bind_returns.mpr ⟨_, taken, rfl⟩
      exact .inl (panics.after one)
    · exact .inr ⟨m', Call.bind_returns.mpr ⟨_, taken, reached⟩, counted, holds⟩
  | @other a packets actions elsewhere rest ih =>
    rw [requests_cons, ← Nat.add_assoc] at free ⊢
    cases returned : (m.step build protobuf a).value with
    | none => exact .inl ⟨[], a, actions, m, rfl, elsewhere, rfl, returned⟩
    | some m1 =>
      have same : m1.pending key = m.pending key :=
        step_elsewhere numbered elsewhere
          (fun one => free n (Nat.le_refl n) (by omega) numbered.checked) returned
      have holds : m1.Holds own key x callback := by rw [Holds, same]; exact entry
      rcases ih (step_entries numbered returned).1 (fun k above below => free k (by omega) below)
        holds more with panics | ⟨m', reached, counted, holds⟩
      · have one : (Call.run (step build protobuf) m [a]).value = some m1 :=
          Call.bind_returns.mpr ⟨m1, returned, rfl⟩
        exact .inl (panics.after one)
      · exact .inr ⟨m', Call.bind_returns.mpr ⟨m1, returned, reached⟩, counted, holds⟩

end MercuryManager

def flags_of : Ending → UInt8
  | .continued => 2
  | .whole => 0
  | .final => 1

def Packet.carrying (key : Bytes) (fragment : Ending × List Bytes) : Packet :=
  ⟨key, flags_of fragment.1, fragment.2⟩

theorem take_in_carrying (key : Bytes) (x : Assembly UInt8) (fragment : Ending × List Bytes) :
    take_in x (.carrying key fragment) = Fragmentation.take_in x fragment := by
  obtain ⟨ending, chunks⟩ := fragment
  cases ending <;> rfl

theorem foldl_carrying (key : Bytes) (x : Assembly UInt8) (fragments : List (Ending × List Bytes)) :
    (fragments.map (Packet.carrying key)).foldl take_in x =
      fragments.foldl Fragmentation.take_in x := by
  rw [List.foldl_map]
  simp only [take_in_carrying]

section Cut

variable {parts : List Bytes} {fragments : List (Ending × List Bytes)} {last : Ending × List Bytes}

theorem flags_last (cut : Fragmentation parts (fragments ++ [last])) (key : Bytes) :
    (Packet.carrying key last).flags = 1 := by
  rw [Packet.carrying, cut.last_final.1]
  rfl

theorem flags_before_last (cut : Fragmentation parts (fragments ++ [last])) {key : Bytes} :
    ∀ p ∈ fragments.map (Packet.carrying key), p.flags ≠ 1 := by
  intro p member
  obtain ⟨⟨ending, chunks⟩, inside, rfl⟩ := List.mem_map.mp member
  have other := cut.last_final.2 _ inside
  cases ending with
  | continued => exact nofun
  | whole => exact nofun
  | final => exact absurd rfl other

theorem take_in_last (cut : Fragmentation parts (fragments ++ [last])) (key : Bytes) :
    take_in ((fragments.map (Packet.carrying key)).foldl take_in .empty) (.carrying key last) =
      ⟨parts, none⟩ := by
  obtain ⟨part, rest, rfl⟩ := List.exists_cons_of_ne_nil cut.nonempty
  have whole := cut.reassembles .empty part rest rfl
  rw [List.foldl_append] at whole
  rw [foldl_carrying, take_in_carrying]
  exact whole

theorem response_last {protobuf : Protobuf} {header_data : Bytes} {header : Header}
    (cut : Fragmentation (header_data :: parts) (fragments ++ [last]))
    (parsed : protobuf.parse_header header_data = some header) (key : Bytes)
    (callback : Option Nat) :
    (of (take_in ((fragments.map (Packet.carrying key)).foldl take_in .empty)
      (.carrying key last)) callback).response protobuf =
        some ⟨header.get_uri, header.get_status_code, parts⟩ := by
  rw [take_in_last cut]
  simp only [MercuryPending.response, of, parsed]
  rfl

end Cut

def answer (response : MercuryResponse) : Except MercuryError MercuryResponse :=
  if response.status_code ≥ 400 then .error {} else .ok response

theorem complete_request_answers {protobuf : Protobuf} {m : MercuryManager} {cmd : UInt8}
    {pending : MercuryPending} {tx : Nat} {response : MercuryResponse}
    (whole : pending.response protobuf = some response) (named : pending.callback = some tx)
    (no_event : cmd ≠ 0xb5) :
    m.complete_request protobuf cmd pending = m.complete tx (answer response) := by
  rw [MercuryManager.complete_request, whole, named, answer]
  simp only [Call.unwrap_eq, Call.bind_some, List.nil_append, if_neg no_event]
  split <;> rfl

/-- The last packet of a response completes its request. -/
theorem dispatch_completes {protobuf : Protobuf} {m : MercuryManager} {cmd : UInt8} {data : Bytes}
    {p : Packet} {x : Assembly UInt8} {tx : Nat} {response : MercuryResponse}
    (parsed : parse data = some p) (entry : m.pending p.seq = some (of x (some tx)))
    (final : p.flags = 1)
    (whole : (of (take_in x p) (some tx)).response protobuf = some response)
    (no_event : cmd ≠ 0xb5) : ∃ m',
    m.dispatch protobuf cmd data =
      ⟨[.receive cmd data, .complete tx (answer response)], some m'⟩ ∧
    m'.oneshots tx = .complete (answer response) := by
  rw [MercuryManager.dispatch_final parsed (MercuryManager.found_of_pending entry) final,
    complete_request_answers whole rfl no_event]
  exact ⟨_, rfl, Function.update_self ..⟩

theorem be_ne {k n : Nat} (above : n < k) (near : k < n + 2 ^ 64) : be 8 n ≠ be 8 k := by
  intro same
  have congruent := congrArg Bytes.read_be same
  rw [Bytes.read_be_be, Bytes.read_be_be] at congruent
  omega

open MercuryManager (run step OtherPanics)

variable {build : Build} {protobuf : Protobuf}

/-- A request whose response arrives in fragments, among packets of other
sequences and new requests, is completed by the last fragment: with the parts
after the header, or with an error if the header has an error status. -/
theorem reassembled {before during : List Action} {m : MercuryManager} {key : Bytes} {tx : Nat}
    {header_data : Bytes} {header : Header} {parts : List Bytes}
    {fragments : List (Ending × List Bytes)} {last : Ending × List Bytes} {cmd : UInt8}
    {data : Bytes} (reached : (run build protobuf before).value = some m)
    (waiting : m.pending key = some ⟨[], none, some tx⟩)
    (few : build = .release → requests (before ++ during) ≤ tx + 2 ^ 64)
    (cut : Fragmentation (header_data :: parts) (fragments ++ [last]))
    (parsed : protobuf.parse_header header_data = some header)
    (interleaved : Interleaves (fun _ => True) key (fragments.map (Packet.carrying key)) during)
    (arrived : parse data = some (.carrying key last)) (response : cmd ≠ 0xb5) :
    OtherPanics build protobuf key .new (before ++ during) ∨ ∃ m',
      run build protobuf (before ++ during ++ [.dispatch cmd data]) =
        ⟨(run build protobuf (before ++ during)).log ++ [.receive cmd data,
          .complete tx (answer ⟨header.get_uri, header.get_status_code, parts⟩)], some m'⟩ ∧
      m'.oneshots tx = .complete (answer ⟨header.get_uri, header.get_status_code, parts⟩) := by
  obtain ⟨numbered, keyed⟩ := MercuryManager.run_entries reached
  obtain ⟨rfl, below⟩ := keyed key _ tx waiting rfl
  rw [numbered.channels] at below
  have free : ∀ k, requests before ≤ k → k < requests before + requests during →
      (build = .debug → k < 2 ^ 64) → be 8 tx ≠ be 8 k := by
    intro k above small checked
    refine be_ne (Nat.lt_of_lt_of_le below above) ?_
    cases build with
    | debug => exact Nat.lt_of_lt_of_le (checked rfl) (Nat.le_add_left ..)
    | release =>
      have bound := few rfl
      rw [requests_append] at bound
      exact Nat.lt_of_lt_of_le small bound
  rcases MercuryManager.tracked interleaved numbered free (x := .empty) (.inl waiting)
    (flags_before_last cut) with panics | ⟨m1, collected, _, holds⟩
  · exact .inl (panics.after reached)
  · have entry := holds.resolve_right fun h => nomatch h.2.2.2
    have there : (run build protobuf (before ++ during)).value = some m1 := by
      rw [run, Call.run_append]
      exact Call.bind_returns.mpr ⟨m, reached, collected⟩
    obtain ⟨m', completes, completed⟩ := dispatch_completes arrived entry (flags_last cut _)
      (response_last cut parsed _ _) response
    have completes : m1.step build protobuf (.dispatch cmd data) = _ := completes
    refine .inr ⟨m', ?_, completed⟩
    rw [run, Call.run_snoc_returned there, completes]
    rfl

/-! A request whose response is cut in two, and one that meets an error status.
The messages are those of protobuf for short strings and for the headers that occur. -/

def string_field (tag : UInt8) : Option String → Bytes
  | some s =>
    let bytes := s.toList.map fun c => UInt8.ofNat c.toNat
    tag :: UInt8.ofNat bytes.length :: bytes
  | none => []

def ok_header : Bytes := [0x20, 0x90, 0x03]
def missing_header : Bytes := [0x20, 0xa8, 0x06]
def ok_uri_header : Bytes := [0x0a, 1, 0x75, 0x20, 0x90, 0x03]

def messages : Protobuf where
  write_header h := string_field 0x0a h.uri ++ string_field 0x12 h.content_type ++
    string_field 0x1a h.method
  compute_size h := (string_field 0x0a h.uri ++ string_field 0x12 h.content_type ++
    string_field 0x1a h.method).length
  parse_header bytes :=
    if bytes = ok_header then some { Header.new with status_code := some 200 }
    else if bytes = missing_header then some { Header.new with status_code := some 404 }
    else if bytes = ok_uri_header then
      some { Header.new with uri := some "u", status_code := some 200 }
    else none
  parse_subscription _ := none

def get_u : Action := .request ⟨.GET, "u", none, []⟩ true
def arriving (key : Bytes) (fragment : Ending × List Bytes) : Action :=
  .dispatch 0xb2 (Packet.carrying key fragment).encode

theorem cut_in_two_reassembled :
    OtherPanics .release messages (be 8 0) .new
      ([get_u] ++ [arriving (be 8 0) (.continued, [ok_header, [1]]), get_u]) ∨
    ∃ m', run .release messages ([get_u] ++ [arriving (be 8 0) (.continued, [ok_header, [1]]), get_u] ++
        [arriving (be 8 0) (.final, [[2], [3]])]) =
      ⟨(run .release messages ([get_u] ++
          [arriving (be 8 0) (.continued, [ok_header, [1]]), get_u])).log ++
        [.receive 0xb2 (Packet.carrying (be 8 0) (.final, [[2], [3]])).encode,
          .complete 0 (answer ⟨"", 200, [[1, 2], [3]]⟩)], some m'⟩ ∧
      m'.oneshots 0 = .complete (answer ⟨"", 200, [[1, 2], [3]]⟩) := by
  have cut : Fragmentation [ok_header, [1, 2], [3]]
      ([(.continued, [ok_header, [1]])] ++ [(.final, [[2], [3]])]) :=
    @Fragmentation.continued _ [ok_header] [[3]] [1] [2] _ (.final nofun)
  have interleaved : Interleaves (fun _ => True) (be 8 0)
      ([(.continued, [ok_header, [1]])].map (Packet.carrying (be 8 0)))
      [arriving (be 8 0) (.continued, [ok_header, [1]]), get_u] :=
    .packet trivial rfl rfl (.other trivial .done)
  have arrived : parse (Packet.carrying (be 8 0) (.final, [[2], [3]])).encode =
      some (.carrying (be 8 0) (.final, [[2], [3]])) := rfl
  have few : Build.release = .release →
      requests ([get_u] ++ [arriving (be 8 0) (.continued, [ok_header, [1]]), get_u]) ≤ 0 + 2 ^ 64 :=
    fun _ => by decide
  have response : (0xb2 : UInt8) ≠ 0xb5 := by decide
  have parsed : messages.parse_header ok_header =
      some { Header.new with status_code := some 200 } := rfl
  exact reassembled rfl rfl few cut parsed interleaved arrived response

def completes (callback : Nat) : Effect → Bool
  | .complete other _ => other == callback
  | _ => false

def get_missing : List Action :=
  [get_u, arriving (be 8 0) (.final, [missing_header, [1]])]

/-- A response with an error status completes its request with no payload. -/
theorem missing_not_delivered :
    (run .release messages get_missing).value.map (·.oneshots 0) = some (.complete (.error {})) ∧
    ∀ e ∈ (run .release messages get_missing).log,
      completes 0 e = true → e = .complete 0 (.error {}) := by
  decide

end ConnectScrobbler.Mercury
