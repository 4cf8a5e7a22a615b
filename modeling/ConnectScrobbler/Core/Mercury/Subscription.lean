import ConnectScrobbler.Core.Mercury.Streams

/-! A subscription from its acknowledgement on. The response to SUB resolves the
request, but the entry that events are matched with is made when the owner of
the future polls it. -/
namespace ConnectScrobbler.Mercury

open Bytes (be)
open MercuryPending (of)
open Packet (head parse take_in)

namespace MercuryManager

variable {build : Build} {protobuf : Protobuf} {m m' : MercuryManager}

/-- This packet is the last one of an event, which it makes complete. -/
def Finishes (protobuf : Protobuf) (m : MercuryManager) (data : Bytes) (event : MercuryResponse) :
    Prop :=
  ∃ p x callback, parse data = some p ∧ p.flags = 1 ∧ m.found 0xb5 p.seq = some (of x callback) ∧
    (of (take_in x p) callback).response protobuf = some event

theorem event_sent {data : Bytes} {event other : MercuryResponse} {tx : Nat}
    (finishes : m.Finishes protobuf data event) (success : event.status_code < 400) :
    .send tx other ∈ (m.dispatch protobuf 0xb5 data).log ↔ other = event ∧ m.closed tx = false ∧
      ∃ watched, (watched, tx) ∈ m.subscriptions ∧ starts_with event.uri watched = true := by
  obtain ⟨p, x, callback, parsed, final, entry, whole⟩ := finishes
  rw [dispatch_final parsed entry final, complete_request, whole]
  simp only [Call.unwrap_eq, Call.bind_some, List.nil_append, if_neg (Int.not_le.mpr success), if_pos]
  rw [← mem_retain_log]
  simp only [retain_eq]
  cases callback <;> simp [of, drop_callback, remove]

structure Made (m : MercuryManager) : Prop where
  entries : ∀ entry ∈ m.subscriptions, entry.2 < m.streams
  closed : ∀ s, m.closed s = true → s < m.streams
  subscribers : ∀ rx, m.subscribers rx ≠ none → rx < m.channels

theorem step_made {a : Action} (made : m.Made)
    (returned : (m.step build protobuf a).value = some m') : m'.Made := by
  have step := step_streams returned
  refine ⟨fun entry member => ?_, fun s gone => ?_, fun rx there => ?_⟩
  · rcases step.added entry member with old | new
    · exact Nat.lt_of_lt_of_le (made.entries entry old) step.streams
    · exact new
  · rcases step.closed s gone with old | ⟨_, below⟩
    · exact Nat.lt_of_lt_of_le (made.closed s old) step.streams
    · exact Nat.lt_of_lt_of_le below step.streams
  · rcases step.subscribers rx with same | ⟨_, below⟩ | ⟨_, old⟩
    · rw [same] at there
      exact Nat.lt_of_lt_of_le (made.subscribers rx there) step.channels
    · exact below
    · exact Nat.lt_of_lt_of_le (made.subscribers rx old) step.channels

structure Reached (build : Build) (m : MercuryManager) : Prop where
  numbered : ∃ n, m.Numbered build n
  keyed : m.Keyed
  made : m.Made

theorem step_reached {a : Action} (h : m.Reached build)
    (returned : (m.step build protobuf a).value = some m') : m'.Reached build := by
  obtain ⟨⟨n, numbered⟩, keyed, made⟩ := h
  exact ⟨⟨_, (step_entries numbered returned).1⟩, step_keyed numbered keyed returned,
    step_made made returned⟩

theorem run_reached {actions : List Action}
    (reached : (run build protobuf actions).value = some m) : m.Reached build := by
  refine Call.run_induction (P := fun _ _ m => m.Reached build) ?_
    (fun _ _ _ h _ _ returned => step_reached h returned) reached
  exact ⟨⟨0, rfl, rfl, fun _ => by decide⟩, nofun, nofun, nofun, fun _ there => absurd rfl there⟩

/-- The future has its response and waits to be polled. -/
structure Waiting (m : MercuryManager) (rx : Nat) (uri : String) (response : MercuryResponse) :
    Prop where
  subscriber : m.subscribers rx = some (.mapped uri)
  answered : m.oneshots rx = .complete (.ok response)
  absent : m.Absent rx

structure Watching (m : MercuryManager) (rx tx : Nat) : Prop where
  subscriber : m.subscribers rx = some (.resolved (some tx))
  made : tx < m.streams

def Served (m : MercuryManager) (tx : Nat) (entries : List (String × Nat)) : Prop :=
  m.closed tx = false ∧ ∀ entry ∈ entries, entry.2 = tx ∧ entry ∈ m.subscriptions

variable {a : Action} {rx tx : Nat} {uri : String} {response : MercuryResponse}
  {entries : List (String × Nat)}

theorem Waiting.unpolled (h : m.Waiting rx uri response) (reached : m.Reached build)
    (other : a ≠ .poll_subscriber rx) (returned : (m.step build protobuf a).value = some m') :
    m'.Waiting rx uri response := by
  obtain ⟨n, numbered⟩ := reached.numbered
  have made := reached.made.subscribers rx (by rw [h.subscriber]; nofun)
  refine ⟨?_, (step_oneshots h.absent made returned).trans h.answered,
    step_absent numbered h.absent made returned⟩
  rcases (step_streams returned).subscribers rx with same | ⟨new, _⟩ | ⟨polled, _⟩
  · exact same.trans h.subscriber
  · exact absurd made (Nat.not_lt.mpr new)
  · exact absurd polled other

theorem Waiting.polled (h : m.Waiting rx uri response) (reached : m.Reached build)
    (returned : (m.step build protobuf (.poll_subscriber rx)).value = some m') :
    ∃ entries, subscribed protobuf uri m.streams response = some entries ∧
      m'.Watching rx m.streams ∧ m'.Served m.streams entries := by
  have ready : m.poll rx = .ok (.ready response) := by
    rw [poll, h.answered]
    rfl
  have closed : m.closed m.streams = false := by
    cases gone : m.closed m.streams with
    | false => rfl
    | true => exact absurd (reached.made.closed _ gone) (Nat.lt_irrefl _)
  rcases poll_subscriber_cases returned with
    ⟨_, absent | waits⟩ | ⟨uri', mapped, ⟨⟨_, failed⟩, _⟩ | ⟨response', entries, resolved, parsed, rfl⟩⟩
  · rw [h.subscriber] at absent
    cases absent
  · rw [ready] at waits
    cases waits
  · rw [ready] at failed
    cases failed
  · rw [h.subscriber] at mapped
    cases mapped
    rw [ready] at resolved
    cases resolved
    exact ⟨entries, parsed, ⟨Function.update_self .., Nat.lt_succ_self _⟩, closed,
      fun entry member => ⟨subscribed_tx parsed entry member, List.mem_append_right _ member⟩⟩

theorem Watching.step (h : m.Watching rx tx) (reached : m.Reached build)
    (returned : (m.step build protobuf a).value = some m') : m'.Watching rx tx := by
  have made := reached.made.subscribers rx (by rw [h.subscriber]; nofun)
  have step := step_streams returned
  refine ⟨?_, Nat.lt_of_lt_of_le h.made step.streams⟩
  rcases step.subscribers rx with same | ⟨new, _⟩ | ⟨rfl, _⟩
  · exact same.trans h.subscriber
  · exact absurd made (Nat.not_lt.mpr new)
  · have panics : (m.poll_subscriber protobuf rx).value = none := by
      rw [poll_subscriber, h.subscriber]
      rfl
    exact nomatch panics.symm.trans returned

theorem Served.step (h : m.Served tx entries) (kept : a ≠ .drop_receiver tx)
    (returned : (m.step build protobuf a).value = some m') : m'.Served tx entries := by
  have step := step_streams returned
  constructor
  · cases gone : m'.closed tx with
    | false => rfl
    | true =>
      rcases step.closed tx gone with old | ⟨dropped, _⟩
      · exact absurd (old.symm.trans h.1) nofun
      · exact absurd dropped kept
  · intro entry member
    obtain ⟨own, there⟩ := h.2 entry member
    exact ⟨own, step.kept entry there (by rw [own]; exact h.1)⟩

/-- A run from the acknowledgement on: the future waits until it is polled, then
it is a new stream, and its entries are there as long as its receiver is. -/
theorem Waiting.run {actions : List Action} (h : m.Waiting rx uri response)
    (reached : m.Reached build)
    (returned : (Call.run (MercuryManager.step build protobuf) m actions).value = some m') :
    (.poll_subscriber rx ∉ actions → m'.Waiting rx uri response) ∧
    (.poll_subscriber rx ∈ actions → ∃ tx entries, m.streams ≤ tx ∧
      subscribed protobuf uri tx response = some entries ∧ m'.Watching rx tx ∧
      (.drop_receiver tx ∉ actions → m'.Served tx entries)) := by
  have all : m'.Reached build ∧ m.streams ≤ m'.streams ∧
      (.poll_subscriber rx ∉ actions → m'.Waiting rx uri response) ∧
      (.poll_subscriber rx ∈ actions → ∃ tx entries, m.streams ≤ tx ∧
        subscribed protobuf uri tx response = some entries ∧ m'.Watching rx tx ∧
        (.drop_receiver tx ∉ actions → m'.Served tx entries)) := by
    refine Call.run_induction (P := fun as _ m' => m'.Reached build ∧ m.streams ≤ m'.streams ∧
      (.poll_subscriber rx ∉ as → m'.Waiting rx uri response) ∧
      (.poll_subscriber rx ∈ as → ∃ tx entries, m.streams ≤ tx ∧
        subscribed protobuf uri tx response = some entries ∧ m'.Watching rx tx ∧
        (.drop_receiver tx ∉ as → m'.Served tx entries)))
      ⟨reached, Nat.le_refl _, fun _ => h, nofun⟩ ?_ returned
    rintro as _ m1 ⟨reached, grown, unpolled, polled⟩ a m2 returned
    refine ⟨step_reached reached returned, Nat.le_trans grown (step_streams returned).streams,
      fun never => ?_, fun member => ?_⟩
    · rw [List.mem_append, List.mem_singleton, not_or] at never
      exact (unpolled never.1).unpolled reached (fun same => never.2 same.symm) returned
    · by_cases before : .poll_subscriber rx ∈ as
      · obtain ⟨tx, entries, above, parsed, watching, served⟩ := polled before
        refine ⟨tx, entries, above, parsed, watching.step reached returned, fun kept => ?_⟩
        rw [List.mem_append, List.mem_singleton, not_or] at kept
        exact (served kept.1).step (fun same => kept.2 same.symm) returned
      · rw [List.mem_append, List.mem_singleton] at member
        have now := member.resolve_left before
        subst now
        obtain ⟨entries, parsed, watching, served⟩ := (unpolled before).polled reached returned
        exact ⟨m1.streams, entries, grown, parsed, watching, fun _ => served⟩
  exact all.2.2

theorem Watching.run {actions : List Action} (h : m.Watching rx tx) (reached : m.Reached build)
    (returned : (Call.run (MercuryManager.step build protobuf) m actions).value = some m') :
    m'.Watching rx tx :=
  (Call.run_induction (P := fun _ _ m' => m'.Reached build ∧ m'.Watching rx tx) ⟨reached, h⟩
    (fun _ _ _ h _ _ returned => ⟨step_reached h.1 returned, h.2.step h.1 returned⟩) returned).2

theorem acknowledged_waits {cmd : UInt8} {data : Bytes} (reached : m.Reached build)
    (mapped : m.subscribers rx = some (.mapped uri))
    (acknowledged : .complete rx (.ok response) ∈ (m.dispatch protobuf cmd data).log)
    (returned : (m.dispatch protobuf cmd data).value = some m') : m'.Waiting rx uri response := by
  obtain ⟨answered, absent, _⟩ := dispatch_completes reached.keyed acknowledged returned
  refine ⟨?_, answered, absent⟩
  obtain ⟨_, _, _, _, _, _, _, _, _, rfl⟩ := dispatch_returns returned
  exact mapped

end MercuryManager

open MercuryManager (run step)

variable {build : Build} {protobuf : Protobuf}

/-- After the acknowledgement of a subscription an event that it watches reaches
the stream which it resolves to exactly if the owner of its future has polled it
between the two dispatches. -/
theorem event_delivered_iff {before middle later : List Action} {cmd : UInt8}
    {data last : Bytes} {rx stream : Nat} {uri watched : String} {response event : MercuryResponse}
    {entries : List (String × Nat)} {m0 m1 m2 : MercuryManager}
    (subscribing : (run build protobuf before).value = some m0)
    (mapped : m0.subscribers rx = some (.mapped uri))
    (acknowledged : .complete rx (.ok response) ∈ (m0.dispatch protobuf cmd data).log)
    (arriving : (run build protobuf (before ++ .dispatch cmd data :: middle)).value = some m1)
    (finishes : m1.Finishes protobuf last event) (success : event.status_code < 400)
    (whole : (run build protobuf
      (before ++ .dispatch cmd data :: middle ++ .dispatch 0xb5 last :: later)).value = some m2)
    (resolves : m2.subscribers rx = some (.resolved (some stream)))
    (parsed : MercuryManager.subscribed protobuf uri stream response = some entries)
    (subscribed : (watched, stream) ∈ entries) (watches : starts_with event.uri watched = true)
    (held : .drop_receiver stream ∉ middle) :
    .send stream event ∈ (m1.dispatch protobuf 0xb5 last).log ↔ .poll_subscriber rx ∈ middle := by
  have reached0 := MercuryManager.run_reached subscribing
  have reached1 := MercuryManager.run_reached arriving
  rw [run, Call.run_append] at arriving whole
  obtain ⟨_, again, onwards⟩ := Call.bind_returns.mp arriving
  cases again.symm.trans subscribing
  obtain ⟨m, dispatched, passed⟩ := Call.bind_returns.mp onwards
  have waiting := MercuryManager.acknowledged_waits reached0 mapped acknowledged dispatched
  have unpolled_or_polled :=
    waiting.run (MercuryManager.step_reached reached0 dispatched) passed
  obtain ⟨_, again, rest⟩ := Call.bind_returns.mp whole
  rw [Call.run_append] at again
  cases again.symm.trans arriving
  constructor
  · intro sent
    by_contra never
    obtain ⟨_, _, _, member, _⟩ := (MercuryManager.event_sent finishes success).mp sent
    have made := reached1.made.entries _ member
    have late := (unpolled_or_polled.1 never).run reached1 rest
    by_cases polled : .poll_subscriber rx ∈ Action.dispatch 0xb5 last :: later
    · obtain ⟨tx, _, above, _, watching, _⟩ := late.2 polled
      cases watching.subscriber.symm.trans resolves
      exact Nat.not_lt.mpr above made
    · cases (late.1 polled).subscriber.symm.trans resolves
  · intro polled
    obtain ⟨tx, entries', _, parsed', watching, served⟩ := unpolled_or_polled.2 polled
    cases (watching.run reached1 rest).subscriber.symm.trans resolves
    cases parsed'.symm.trans parsed
    obtain ⟨opened, there⟩ := served held
    exact (MercuryManager.event_sent finishes success).mpr
      ⟨rfl, opened, watched, (there _ subscribed).2, watches⟩

/-! One subscription and one event, in two orders. -/

def subscribe_u : Action := .subscribe "u" true
def acknowledgement : Bytes := (Packet.carrying (be 8 0) (.final, [ok_header])).encode
def event_u : Bytes := (Packet.carrying [9] (.final, [ok_uri_header, [7]])).encode

theorem finishes_event_u {m : MercuryManager} (free : m.pending [9] = none) :
    m.Finishes messages event_u ⟨"u", 200, [[7]]⟩ :=
  ⟨.carrying [9] (.final, [ok_uri_header, [7]]), .empty, none, rfl, rfl,
    MercuryManager.found_event free, rfl⟩

theorem event_after_poll_delivered : ∃ m1,
    (run .release messages ([subscribe_u] ++ .dispatch 0xb3 acknowledgement ::
      [.poll_subscriber 0])).value = some m1 ∧
    (.send 0 ⟨"u", 200, [[7]]⟩ ∈ (m1.dispatch messages 0xb5 event_u).log ↔
      .poll_subscriber 0 ∈ [Action.poll_subscriber 0]) := by
  have acknowledged : .complete 0 (.ok ⟨"", 200, []⟩) ∈
      ((run .release messages [subscribe_u]).value.map fun m =>
        (m.dispatch messages 0xb3 acknowledgement).log).getD [] := by decide
  have whole : (run .release messages ([subscribe_u] ++ .dispatch 0xb3 acknowledgement ::
      [.poll_subscriber 0] ++ [.dispatch 0xb5 event_u])).value = some _ := rfl
  exact ⟨_, rfl, event_delivered_iff rfl rfl acknowledged rfl (finishes_event_u rfl) (by decide)
    whole rfl rfl (.head _) (by decide) (by decide)⟩

/-- An event between the acknowledgement and the poll is lost. -/
theorem event_before_poll_lost : ∃ m1 m2,
    .complete 0 (.ok ⟨"", 200, []⟩) ∈ (run .release messages
      [subscribe_u, .dispatch 0xb3 acknowledgement]).log ∧
    (run .release messages [subscribe_u, .dispatch 0xb3 acknowledgement]).value = some m1 ∧
    m1.Finishes messages event_u ⟨"u", 200, [[7]]⟩ ∧
    (run .release messages [subscribe_u, .dispatch 0xb3 acknowledgement,
      .dispatch 0xb5 event_u, .poll_subscriber 0]).value = some m2 ∧
    m2.subscribers 0 = some (.resolved (some 0)) ∧ ("u", 0) ∈ m2.subscriptions ∧
    .send 0 ⟨"u", 200, [[7]]⟩ ∉ (run .release messages [subscribe_u,
      .dispatch 0xb3 acknowledgement, .dispatch 0xb5 event_u, .poll_subscriber 0]).log :=
  ⟨_, _, by decide, rfl, finishes_event_u rfl, rfl, rfl, .head _, by decide⟩

end ConnectScrobbler.Mercury
