import ConnectScrobbler.Core.Mercury.Events
import ConnectScrobbler.Lib.Publish

/-! The subscriptions as a table of watchers: the manager publishes the events that
it completes, and nothing else. -/
namespace ConnectScrobbler.Mercury

open Bytes (be)
open MercuryPending (of)
open Packet (parse take_in)
open Publish (Table Watcher entry_register deliver_entry)

/-- What has arrived of each event in progress. -/
abbrev Begun := Bytes → Option (Assembly UInt8)

namespace Begun

/-- A packet belongs to the event in progress that has its sequence; only one with
the command of an event begins a new one. -/
def assembly (begun : Begun) (cmd : UInt8) (seq : Bytes) : Option (Assembly UInt8) :=
  match begun seq with
  | some x => some x
  | none => if cmd = 0xb5 then some .empty else none

def after (begun : Begun) : Action → Begun
  | .dispatch cmd data =>
    match parse data with
    | none => begun
    | some p =>
      match begun.assembly cmd p.seq with
      | none => begun
      | some x => Function.update begun p.seq (if p.flags = 1 then none else some (take_in x p))
  | _ => begun

/-- The event with a status of success that this action completes. -/
def completed (protobuf : Protobuf) (begun : Begun) : Action → Option MercuryResponse
  | .dispatch cmd data => do
    let p ← parse data
    let x ← begun.assembly cmd p.seq
    let event ← (of (take_in x p) none).response protobuf
    if cmd = 0xb5 ∧ p.flags = 1 ∧ event.status_code < 400 then some event else none
  | _ => none

end Begun

/-- The events that are completed, in their order. -/
def events (protobuf : Protobuf) (begun : Begun) : List Action → List MercuryResponse
  | [] => []
  | a :: actions =>
    (begun.completed protobuf a).toList ++ events protobuf (begun.after a) actions

def sends (log : List Effect) : List (Nat × MercuryResponse) :=
  log.filterMap fun
    | .send tx response => some (tx, response)
    | _ => none

@[simp] theorem sends_append (log more : List Effect) : sends (log ++ more) = sends log ++ sends more :=
  List.filterMap_append ..

def watching (watched : String) (event : MercuryResponse) : Bool := starts_with event.uri watched

namespace MercuryManager

variable {build : Build} {protobuf : Protobuf} {m m' : MercuryManager}

/-- The entries that are of no request. -/
def begun (m : MercuryManager) : Begun := fun seq =>
  (m.pending seq).bind fun pending => match pending.callback with
    | none => some ⟨pending.parts, pending.partial_part⟩
    | some _ => none

/-- Events and pending requests have sequences of their own. -/
def Apart (m : MercuryManager) : Action → Prop
  | .dispatch cmd data => cmd = 0xb5 → ∀ p, parse data = some p →
      ∀ pending, m.pending p.seq = some pending → pending.callback = none
  | .request .. => m.begun (be 8 m.sequence.value.toNat) = none
  | .subscribe .. => m.begun (be 8 m.sequence.value.toNat) = none
  | _ => True

theorem begun_of {seq : Bytes} {x : Assembly UInt8} (entry : m.pending seq = some (of x none)) :
    m.begun seq = some x := by
  rw [begun, entry]
  rfl

theorem begun_free {seq : Bytes} (free : m.pending seq = none) : m.begun seq = none := by
  rw [begun, free]
  rfl

theorem begun_request {seq : Bytes} {x : Assembly UInt8} {callback : Nat}
    (entry : m.pending seq = some (of x (some callback))) : m.begun seq = none := by
  rw [begun, entry]
  rfl

theorem begun_update {seq : Bytes} {entry : Option MercuryPending} {value : Option (Assembly UInt8)}
    (pending : m'.pending = Function.update m.pending seq entry) (own : m'.begun seq = value) :
    m'.begun = Function.update m.begun seq value := by
  funext key
  by_cases same : key = seq
  · subst same
    rw [Function.update_self, own]
  · rw [Function.update_of_ne same, begun, begun, pending, Function.update_of_ne same]

/-- An entry that is of no request, or a new one, is what has arrived of the event. -/
theorem assembly_found {cmd : UInt8} {seq : Bytes} {x : Assembly UInt8}
    (entry : m.found cmd seq = some (of x none)) : m.begun.assembly cmd seq = some x := by
  unfold found at entry
  split at entry
  · rename_i there
    rw [Begun.assembly, begun_of (there.trans entry)]
  · rename_i free
    rw [Begun.assembly, begun_free free]
    split at entry
    · rename_i event
      have empty : of .empty none = of x none := Option.some.inj entry
      rw [if_pos event, (MercuryPending.of_inj.mp empty).1]
    · cases entry

/-- The entries that are left after a call which completes this event, if any. -/
def left (m : MercuryManager) : Option MercuryResponse → List (String × Nat)
  | some event => m.subscriptions.filter fun entry => !(watching entry.1 event && m.closed entry.2)
  | none => m.subscriptions

/-- What is sent by a call which completes this event, if any. -/
def due (m : MercuryManager) : Option MercuryResponse → List (Nat × MercuryResponse)
  | some event => (m.subscriptions.filter fun entry =>
      watching entry.1 event && !m.closed entry.2).map fun entry => (entry.2, event)
  | none => []

/-- What a call does for the subscribers: the event that is complete is sent to those
who watch it, and an entry that cannot be sent to is lost. -/
structure Delivers (completed : Option MercuryResponse) (log : List Effect) (m m' : MercuryManager) :
    Prop where
  subscriptions : m'.subscriptions = m.left completed
  sent : sends log = m.due completed
  closed : m'.closed = m.closed

theorem complete_delivers {callback : Nat} {result : Except MercuryError MercuryResponse}
    (returned : (m.complete callback result).value = some m') :
    Delivers none (m.complete callback result).log m m' := by
  cases returned
  exact ⟨rfl, rfl, rfl⟩

theorem drop_callback_sends (callback : Option Nat) (m : MercuryManager) :
    sends (m.drop_callback callback).log = [] := by
  cases callback <;> rfl

theorem complete_request_delivers {cmd : UInt8} {pending : MercuryPending}
    (returned : (m.complete_request protobuf cmd pending).value = some m') :
    ∃ response, pending.response protobuf = some response ∧
      Delivers (if cmd = 0xb5 ∧ response.status_code < 400 then some response else none)
        (m.complete_request protobuf cmd pending).log m m' := by
  unfold complete_request at returned ⊢
  cases whole : pending.response protobuf with
  | none => simp [whole] at returned
  | some response =>
    refine ⟨response, rfl, ?_⟩
    simp only [whole, Call.unwrap_eq, Call.bind_some, List.nil_append] at returned ⊢
    by_cases failed : response.status_code ≥ 400
    · have no_success : ¬ (cmd = 0xb5 ∧ response.status_code < 400) := fun both =>
        absurd failed (Int.not_le.mpr both.2)
      rw [if_pos failed] at returned ⊢
      rw [if_neg no_success]
      cases named : pending.callback with
      | none =>
        simp only [named] at returned ⊢
        cases returned
        exact ⟨rfl, rfl, rfl⟩
      | some callback =>
        simp only [named] at returned ⊢
        exact complete_delivers returned
    · rw [if_neg failed] at returned ⊢
      by_cases event : cmd = 0xb5
      · rw [if_pos event, retain_eq] at returned ⊢
        rw [if_pos ⟨event, Int.not_le.mp failed⟩]
        obtain ⟨_, rfl⟩ := drop_callback_returns returned
        refine ⟨rfl, ?_, rfl⟩
        rw [Call.bind_some, sends_append, drop_callback_sends, List.append_nil]
        rw [sends, List.filterMap_map]
        exact congrFun List.filterMap_eq_map' _
      · rw [if_neg event] at returned ⊢
        rw [if_neg fun both => event both.1]
        cases named : pending.callback with
        | none =>
          simp only [named] at returned ⊢
          cases returned
          exact ⟨rfl, rfl, rfl⟩
        | some callback =>
          simp only [named] at returned ⊢
          exact complete_delivers returned

theorem completed_packet (protobuf : Protobuf) {begun : Begun} {cmd : UInt8} {data : Bytes} {p : Packet}
    {x : Assembly UInt8} (parsed : parse data = some p) (there : begun.assembly cmd p.seq = some x) :
    begun.after (.dispatch cmd data) =
        Function.update begun p.seq (if p.flags = 1 then none else some (take_in x p)) ∧
      begun.completed protobuf (.dispatch cmd data) =
        ((of (take_in x p) none).response protobuf).bind fun event =>
          if cmd = 0xb5 ∧ p.flags = 1 ∧ event.status_code < 400 then some event else none := by
  simp [Begun.after, Begun.completed, parsed, there]

theorem completed_foreign (protobuf : Protobuf) {begun : Begun} {cmd : UInt8} {data : Bytes}
    (foreign : ∀ p, parse data = some p → begun.assembly cmd p.seq = none) :
    begun.after (.dispatch cmd data) = begun ∧
      begun.completed protobuf (.dispatch cmd data) = none := by
  cases parsed : parse data with
  | none => simp [Begun.after, Begun.completed, parsed]
  | some p => simp [Begun.after, Begun.completed, parsed, foreign p parsed]

/-- The packets of a response are none of the subscribers' business. -/
theorem response_delivers {cmd : UInt8} {data : Bytes} {p : Packet} {x : Assembly UInt8}
    {callback : Nat} (parsed : parse data = some p)
    (entry : m.pending p.seq = some (of x (some callback))) (response : cmd ≠ 0xb5)
    (returned : (m.dispatch protobuf cmd data).value = some m') :
    m'.begun = m.begun ∧ Delivers none (m.dispatch protobuf cmd data).log m m' := by
  have found : m.found cmd p.seq = some (of x (some callback)) := found_of_pending entry
  have same : m.begun = Function.update m.begun p.seq none := by
    rw [← begun_request entry, Function.update_eq_self]
  by_cases final : p.flags = 1
  · rw [dispatch_final parsed found final] at returned ⊢
    obtain ⟨answer, _, delivers⟩ := complete_request_delivers (m := m.remove p.seq) returned
    rw [if_neg fun both => response both.1] at delivers
    obtain ⟨_, _, rfl⟩ := complete_request_returns (m := m.remove p.seq) returned
    constructor
    · rw [same]
      apply begun_update (m := m) rfl
      exact begun_free (Function.update_self ..)
    · exact ⟨delivers.subscriptions, delivers.sent, delivers.closed⟩
  · rw [dispatch_more parsed found final] at returned ⊢
    cases returned
    constructor
    · rw [same]
      apply begun_update (m := m) rfl
      exact begun_request (Function.update_self ..)
    · exact ⟨rfl, rfl, rfl⟩

theorem event_delivers {cmd : UInt8} {data : Bytes} {p : Packet} {x : Assembly UInt8}
    (parsed : parse data = some p) (entry : m.found cmd p.seq = some (of x none))
    (returned : (m.dispatch protobuf cmd data).value = some m') :
    m'.begun = m.begun.after (.dispatch cmd data) ∧
      Delivers (m.begun.completed protobuf (.dispatch cmd data))
        (m.dispatch protobuf cmd data).log m m' := by
  obtain ⟨after, completed⟩ := completed_packet protobuf parsed (assembly_found entry)
  rw [after, completed]
  by_cases final : p.flags = 1
  · rw [dispatch_final parsed entry final] at returned ⊢
    obtain ⟨event, whole, delivers⟩ := complete_request_delivers (m := m.remove p.seq) returned
    obtain ⟨_, _, rfl⟩ := complete_request_returns (m := m.remove p.seq) returned
    constructor
    · rw [if_pos final]
      apply begun_update (m := m) rfl
      exact begun_free (Function.update_self ..)
    · have same : (if cmd = 0xb5 ∧ event.status_code < 400 then some event else none) =
          ((of (take_in x p) none).response protobuf).bind fun event =>
            if cmd = 0xb5 ∧ p.flags = 1 ∧ event.status_code < 400 then some event else none := by
        rw [whole]
        simp [final]
      rw [← same]
      exact ⟨delivers.subscriptions, delivers.sent, delivers.closed⟩
  · rw [dispatch_more parsed entry final] at returned ⊢
    cases returned
    constructor
    · rw [if_neg final]
      apply begun_update (m := m) rfl
      exact begun_of (Function.update_self ..)
    · have none_complete : (((of (take_in x p) none).response protobuf).bind fun event =>
          if cmd = 0xb5 ∧ p.flags = 1 ∧ event.status_code < 400 then some event else none) = none := by
        cases (of (take_in x p) none).response protobuf <;> simp [final]
      rw [none_complete]
      exact ⟨rfl, rfl, rfl⟩

theorem dispatch_delivers {cmd : UInt8} {data : Bytes} (apart : m.Apart (.dispatch cmd data))
    (returned : (m.dispatch protobuf cmd data).value = some m') :
    m'.begun = m.begun.after (.dispatch cmd data) ∧
      Delivers (m.begun.completed protobuf (.dispatch cmd data))
        (m.dispatch protobuf cmd data).log m m' := by
  rcases receive_cases cmd data m with
    panics | ⟨seq, _, _, _, opened, free, response, ignored⟩ | ⟨p, x, callback, parsed, entry, taken⟩
  · rw [dispatch, panics] at returned
    cases returned
  · have foreign : ∀ p, parse data = some p → m.begun.assembly cmd p.seq = none := by
      intro p parsed
      obtain ⟨⟨_, _, _, _⟩, again, parsed⟩ := Option.bind_eq_some_iff.mp parsed
      obtain ⟨chunks, _, done⟩ := Option.bind_eq_some_iff.mp parsed
      cases done
      cases again.symm.trans opened
      rw [Begun.assembly, begun_free free]
      exact if_neg response
    obtain ⟨after, completed⟩ := completed_foreign protobuf foreign
    rw [after, completed]
    rw [dispatch, ignored] at returned ⊢
    cases returned
    exact ⟨rfl, rfl, rfl, rfl⟩
  · cases callback with
    | none => exact event_delivers parsed entry returned
    | some callback =>
      have there := found_callback entry
      have response : cmd ≠ 0xb5 := by
        intro event
        cases apart event p parsed _ there
      have foreign : ∀ q, parse data = some q → m.begun.assembly cmd q.seq = none := by
        intro q again
        cases again.symm.trans parsed
        rw [Begun.assembly, begun_request there]
        exact if_neg response
      obtain ⟨after, completed⟩ := completed_foreign protobuf foreign
      rw [after, completed]
      exact response_delivers parsed there response returned

theorem sends_nothing {log : List Effect} (silent : ∀ tx response, .send tx response ∉ log) :
    sends log = [] := by
  apply List.filterMap_eq_nil_iff.mpr
  intro e member
  cases e with
  | send tx response => exact absurd member (silent tx response)
  | _ => rfl

theorem insert_sends (seq : Bytes) (pending : MercuryPending) (m : MercuryManager) (tx : Nat)
    (response : MercuryResponse) : .send tx response ∉ (m.insert seq pending).log := by
  intro member
  rcases Call.mem_bind member with dropped | ⟨_, _, rest⟩
  · cases callback : (m.pending seq).bind (·.callback) <;> simp [callback, drop_callback] at dropped
  · simp at rest

theorem request_delivers {connected : Bool} {req : MercuryRequest} {rx : Nat}
    (apart : m.begun (be 8 m.sequence.value.toNat) = none)
    (returned : (m.request build protobuf connected req).value = some (rx, m')) :
    m'.begun = m.begun ∧ Delivers none (m.request build protobuf connected req).log m m' := by
  have silent : sends (m.request build protobuf connected req).log = [] := by
    apply sends_nothing
    intro tx response member
    rcases Call.mem_bind member with numbered | ⟨_, _, rest⟩
    · rcases Call.mem_bind numbered with counted | ⟨_, _, rest⟩
      · simp at counted
      · simp at rest
    · rcases Call.mem_bind rest with inserted | ⟨_, _, rest⟩
      · exact insert_sends _ _ _ tx response inserted
      · rcases Call.mem_bind rest with encoded | ⟨_, _, rest⟩
        · simp at encoded
        · rcases Call.mem_bind rest with sent | ⟨_, _, rest⟩
          · cases connected <;> simp [send_packet] at sent
          · simp at rest
  obtain ⟨v, sequence, oneshots, counted, _, rfl⟩ := request_returns returned
  obtain ⟨next, _, done⟩ := Option.bind_eq_some_iff.mp counted
  cases done
  refine ⟨?_, rfl, silent, rfl⟩
  have same : m.begun = Function.update m.begun (be 8 m.sequence.value.toNat) none := by
    rw [← apart, Function.update_eq_self]
  rw [same]
  apply begun_update (m := m) rfl
  exact begun_request (Function.update_self ..)

/-- What a call does for the subscribers, whatever it is. -/
theorem step_delivers {a : Action} (apart : m.Apart a)
    (returned : (m.step build protobuf a).value = some m') :
    m'.begun = m.begun.after a ∧
      sends (m.step build protobuf a).log = m.due (m.begun.completed protobuf a) ∧
      (∃ new, m'.subscriptions = m.left (m.begun.completed protobuf a) ++ new) ∧
      (m'.closed = m.closed ∨ ∃ tx, m'.closed = Function.update m.closed tx true) := by
  cases a with
  | request req connected =>
    obtain ⟨⟨rx, m1⟩, requested, done⟩ := Call.bind_returns.mp returned
    cases done
    obtain ⟨begun, delivers⟩ := request_delivers apart requested
    refine ⟨begun, ?_, ⟨[], ?_⟩, .inl delivers.closed⟩
    · rw [step, Call.bind_log requested, sends_append]
      exact (List.append_nil _).trans delivers.sent
    · exact delivers.subscriptions.trans (List.append_nil _).symm
  | subscribe uri connected =>
    obtain ⟨⟨rx, m1⟩, requested, done⟩ := Call.bind_returns.mp returned
    cases done
    obtain ⟨begun, delivers⟩ := request_delivers apart requested
    refine ⟨begun, ?_, ⟨[], ?_⟩, .inl delivers.closed⟩
    · rw [step, subscribe, Call.bind_log requested, sends_append]
      exact (List.append_nil _).trans delivers.sent
    · exact delivers.subscriptions.trans (List.append_nil _).symm
  | dispatch cmd data =>
    obtain ⟨begun, delivers⟩ := dispatch_delivers apart returned
    refine ⟨begun, delivers.sent, ⟨[], ?_⟩, .inl delivers.closed⟩
    exact delivers.subscriptions.trans (List.append_nil _).symm
  | poll_subscriber rx =>
    have silent : sends (m.poll_subscriber protobuf rx).log = [] := by
      unfold poll_subscriber
      split
      · rfl
      · rfl
      · split
        · rfl
        · rfl
        · apply sends_nothing
          intro tx response member
          rcases Call.mem_bind member with parsed | ⟨_, _, rest⟩
          · simp at parsed
          · simp at rest
    rcases poll_subscriber_cases returned with
      ⟨rfl, _⟩ | ⟨uri, _, ⟨_, rfl⟩ | ⟨response, entries, _, _, rfl⟩⟩
    · exact ⟨rfl, silent, ⟨[], (List.append_nil _).symm⟩, .inl rfl⟩
    · exact ⟨rfl, silent, ⟨[], (List.append_nil _).symm⟩, .inl rfl⟩
    · exact ⟨rfl, silent, ⟨entries, rfl⟩, .inl rfl⟩
  | drop_receiver stream =>
    have silent : sends (m.step build protobuf (.drop_receiver stream)).log = [] := by
      simp only [step]
      split <;> rfl
    simp only [step] at returned
    split at returned
    · cases returned
      exact ⟨rfl, silent, ⟨[], (List.append_nil _).symm⟩, .inr ⟨stream, rfl⟩⟩
    · cases returned
      exact ⟨rfl, silent, ⟨[], (List.append_nil _).symm⟩, .inl rfl⟩

/-- The table has the subscriptions, and knows which receivers are gone. -/
structure Shows (m : MercuryManager) (t : Table String Nat MercuryResponse) : Prop where
  entries : t.watchers.map Watcher.entry = m.subscriptions
  gone : t.gone = m.closed

theorem completed_shows {t : Table String Nat MercuryResponse} (shown : m.Shows t)
    (event : Option MercuryResponse) (new : List (String × Nat)) : ∃ ops,
    (t.run watching ops).watchers.map Watcher.entry = m.left event ++ new ∧
      (t.run watching ops).gone = m.closed ∧
      (t.run watching ops).published = t.published ++ event.toList ∧
      (t.run watching ops).sent = t.sent ++ m.due event := by
  cases event with
  | none =>
    refine ⟨[.register new], ?_, shown.gone, (List.append_nil _).symm, (List.append_nil _).symm⟩
    simp [Table.run, Table.step, shown.entries, left]
  | some event =>
    refine ⟨[.publish event, .register new], ?_, shown.gone, rfl, ?_⟩
    · simp only [Table.run, List.foldl_cons, List.foldl_nil, Table.step, List.map_append,
        List.map_map, entry_register, left, ← shown.entries, ← shown.gone, List.filter_map]
      congr 1
      apply List.map_congr_left
      intro w _
      exact deliver_entry event w
    · simp only [Table.run, List.foldl_cons, List.foldl_nil, Table.step, due, ← shown.entries,
        ← shown.gone, List.filter_map, List.map_map]
      rfl

theorem step_shows {a : Action} {t : Table String Nat MercuryResponse} (shown : m.Shows t)
    (apart : m.Apart a) (returned : (m.step build protobuf a).value = some m') : ∃ ops,
    m'.Shows (t.run watching ops) ∧
      (t.run watching ops).published = t.published ++ (m.begun.completed protobuf a).toList ∧
      (t.run watching ops).sent = t.sent ++ sends (m.step build protobuf a).log := by
  obtain ⟨_, sent, ⟨new, subscriptions⟩, closed⟩ := step_delivers apart returned
  obtain ⟨ops, entries, gone, published, due⟩ :=
    completed_shows shown (m.begun.completed protobuf a) new
  rcases closed with same | ⟨tx, dropped⟩
  · refine ⟨ops, ⟨?_, ?_⟩, published, ?_⟩
    · rw [entries, subscriptions]
    · rw [gone, same]
    · rw [due, sent]
  · refine ⟨ops ++ [.drop tx], ?_⟩
    rw [Table.run_append]
    refine ⟨⟨?_, ?_⟩, published, ?_⟩
    · exact entries.trans subscriptions.symm
    · rw [dropped, ← gone]
      rfl
    · rw [sent]
      exact due

theorem run_shows {during : List Action} {t : Table String Nat MercuryResponse} (shown : m.Shows t)
    (apart : Call.Meets (step build protobuf) Apart m during)
    (returned : (Call.run (step build protobuf) m during).value = some m') : ∃ ops,
    m'.Shows (t.run watching ops) ∧ m'.begun = during.foldl Begun.after m.begun ∧
      (t.run watching ops).published = t.published ++ events protobuf m.begun during ∧
      (t.run watching ops).sent = t.sent ++ sends (Call.run (step build protobuf) m during).log := by
  induction during generalizing m t with
  | nil =>
    cases returned
    exact ⟨[], shown, rfl, (List.append_nil _).symm, (List.append_nil _).symm⟩
  | cons a during ih =>
    obtain ⟨first, rest⟩ := Call.meets_cons_iff.mp apart
    obtain ⟨m1, stepped, went_on⟩ := Call.bind_returns.mp returned
    obtain ⟨ops, shows1, published, sent⟩ := step_shows shown first stepped
    obtain ⟨later, shows2, begun, published', sent'⟩ := ih shows1 (rest m1 stepped) went_on
    have after := (step_delivers first stepped).1
    refine ⟨ops ++ later, ?_⟩
    rw [Table.run_append]
    refine ⟨shows2, ?_, ?_, ?_⟩
    · rw [begun, after]
      rfl
    · rw [published', published, after, events, List.append_assoc]
    · rw [sent', sent, Call.run, Call.bind_log stepped, sends_append, List.append_assoc]

end MercuryManager

open MercuryManager (run step)

variable {build : Build} {protobuf : Protobuf}

/-- From any time in a run on, the subscriptions are a table of watchers to which exactly
the completed events are published: what is sent is what the table sends, every entry gets
what it watches of the events since it is there, in their order, and an entry is lost
only by an event that it watches, when its own receiver is gone. The entries of that time
whose receivers are not gone in the end are watchers from the first event on. -/
theorem delivery_exact {before during : List Action} {m0 m : MercuryManager}
    (reached : (run build protobuf before).value = some m0)
    (went_on : (Call.run (step build protobuf) m0 during).value = some m)
    (apart : Call.Meets (step build protobuf) MercuryManager.Apart .new (before ++ during)) :
    (∃ ops t, t = (Table.start m0.closed m0.subscriptions).run watching ops ∧
      t.published = events protobuf (before.foldl Begun.after fun _ => none) during ∧
      t.sent = sends (Call.run (step build protobuf) m0 during).log ∧
      t.watchers.map Watcher.entry = m.subscriptions ∧
      (∀ w ∈ t.watchers, w.inbox = (t.published.drop w.since).filter (watching w.key)) ∧
      (∀ tx, m.closed tx = false →
        t.sent_to tx = (t.published.zipIdx.flatMap fun (event, time) =>
          Table.owed watching t.watchers tx event time) ∧
        ∀ w, (t.watchers.filter fun w => decide (w.receiver = tx)) = [w] →
          t.sent_to tx = w.inbox) ∧
      t.gone = m.closed ∧
      ((m0.subscriptions.filter fun entry => !m.closed entry.2).map fun entry => (entry, 0)).Sublist
        (t.watchers.map fun w => (w.entry, w.since))) ∧
    (m0.subscriptions.filter fun entry => !m.closed entry.2).Sublist m.subscriptions ∧
    ∀ a m', m.Apart a → (m.step build protobuf a).value = some m' → ∃ new, m'.subscriptions =
      (m.subscriptions.filter fun entry => match m.begun.completed protobuf a with
        | some event => !(watching entry.1 event && m.closed entry.2)
        | none => true) ++ new := by
  have shows0 : MercuryManager.Shows .new (Table.start (fun _ => false) []) := ⟨rfl, rfl⟩
  obtain ⟨_, _, begun, _, _⟩ := MercuryManager.run_shows shows0 apart.initial reached
  have here : m0.Shows (Table.start m0.closed m0.subscriptions) := ⟨entry_register .., rfl⟩
  obtain ⟨ops, shown, _, published, sent⟩ :=
    MercuryManager.run_shows here (apart.rest reached) went_on
  have initial := Table.start_exact watching m0.closed m0.subscriptions
  have exactly := Table.run_exact initial ops
  have served := Table.run_served initial
    (Table.start_served watching m0.closed m0.subscriptions) ops
  have keeps := Table.start_keeps watching m0.closed m0.subscriptions ops
  rw [shown.gone] at keeps
  refine ⟨⟨ops, _, rfl, ?_, ?_, shown.entries, ?_, ?_, shown.gone, keeps⟩, ?_, ?_⟩
  · rw [published, begun]
    rfl
  · rw [sent]
    rfl
  · intro w member
    exact (exactly w member).2
  · intro tx alive
    rw [← shown.gone] at alive
    refine ⟨served tx alive, ?_⟩
    intro w only
    exact Table.sent_to_one exactly served alive only
  · have entries := keeps.map Prod.fst
    rw [List.map_map, List.map_map] at entries
    have same : (Prod.fst ∘ fun entry : String × Nat => (entry, 0)) = id := rfl
    rw [same, List.map_id] at entries
    rw [← shown.entries]
    exact entries
  · intro a m' apart stepped
    obtain ⟨_, _, ⟨new, subscriptions⟩, _⟩ := MercuryManager.step_delivers apart stepped
    refine ⟨new, subscriptions.trans ?_⟩
    congr 1
    cases m.begun.completed protobuf a with
    | none => simp [MercuryManager.left]
    | some event => rfl

/-! One subscription and one event that it watches. -/

def subscribed_u : List Action :=
  [subscribe_u, .dispatch 0xb3 acknowledgement, .poll_subscriber 0]

theorem subscribed_u_apart : Call.Meets (step .release messages) MercuryManager.Apart .new
    (subscribed_u ++ [.dispatch 0xb5 event_u]) := by
  apply Call.meets_cons
  · rfl
  rintro m1 ⟨⟩
  apply Call.meets_cons
  · intro event
    exact absurd event (by decide)
  rintro m2 ⟨⟩
  apply Call.meets_cons
  · trivial
  rintro m3 ⟨⟩
  apply Call.meets_cons
  · rintro _ p ⟨⟩ pending there
    cases there
  intro m4 _
  exact Call.meets_nil _ _ m4

theorem event_u_delivered_once : ∃ m0 m, (run .release messages subscribed_u).value = some m0 ∧
    (Call.run (step .release messages) m0 [.dispatch 0xb5 event_u]).value = some m ∧
    ∃ t : Table String Nat MercuryResponse, t.published = [⟨"u", 200, [[7]]⟩] ∧
      t.sent = [(0, ⟨"u", 200, [[7]]⟩)] ∧ t.gone = m.closed ∧
      t.watchers.map (fun w => (w.entry, w.since)) = [(("u", 0), 0)] ∧
      ∀ w ∈ t.watchers, w.inbox = (t.published.drop w.since).filter (watching w.key) := by
  obtain ⟨⟨ops, t, _, published, sent, entries, inboxes, _, gone, kept⟩, _⟩ :=
    delivery_exact rfl rfl subscribed_u_apart
  have kept : [(("u", 0), 0)].Sublist (t.watchers.map fun w => (w.entry, w.since)) := kept
  have one : t.watchers.length = 1 := by simpa using congrArg List.length entries
  refine ⟨_, _, rfl, rfl, t, published, sent, gone, ?_, inboxes⟩
  exact (kept.eq_of_length (by rw [List.length_map, one]; rfl)).symm

end ConnectScrobbler.Mercury
