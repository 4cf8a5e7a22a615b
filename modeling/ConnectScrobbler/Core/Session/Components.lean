import ConnectScrobbler.Core.AudioKey.Request
import ConnectScrobbler.Core.Session
import ConnectScrobbler.Lib.Projection
import ConnectScrobbler.Metadata.Cover

/-! A session with all that is asked for over it, `core/src/session.rs`: packets come in for its managers,
and keys, covers and Mercury are asked for, in any order. -/
namespace ConnectScrobbler

open Call (Projects)
open Mercury (MercuryManager)

structure Components where
  keys : AudioKeys
  covers : Covers
  mercury : MercuryManager
  country : String

inductive ComponentEffect where
  | dispatch (e : SessionEffect)
  | keys (e : KeyEffect)
  | covers (e : CoverEffect)
  | mercury (e : Mercury.Effect)
  deriving DecidableEq, Repr

/-- A packet is dispatched, or one of the managers is called. `connected` says whether the session still
takes packets. -/
inductive ComponentAction where
  | packet (cmd : UInt8) (data : Bytes) (connected : Bool)
  | key (track : SpotifyId) (file : FileId) (connected : Bool)
  | cover (file : FileId) (connected : Bool)
  | own_cover (k : Nat) (action : CoverOwner)
  | request (req : MercuryRequest) (connected : Bool)
  | subscribe (uri : String) (connected : Bool)
  | poll_subscriber (rx : Nat)
  | drop_receiver (stream : Nat)
  deriving DecidableEq

namespace Components

def new : Components := ⟨.new, .new, .new, ""⟩

def session (connected : Bool) (c : Components) : Session where
  mercury := c.mercury
  channel := c.covers.manager
  audio_key := c.keys.manager
  country := c.country
  connected

def put_session (s : Session) (c : Components) : Components where
  keys := { c.keys with manager := s.audio_key }
  covers := { c.covers with manager := s.channel }
  mercury := s.mercury
  country := s.country

section Step

variable (build : Build) (warns : Bool) (protobuf : Protobuf)

def call_keys (c : Components) (action : KeyAction) : Call ComponentEffect Components := do
  let keys ← (c.keys.step build warns action).within .keys
  return { c with keys }

def call_covers (c : Components) (action : CoverAction) : Call ComponentEffect Components := do
  let covers ← (c.covers.step build action).within .covers
  return { c with covers }

def call_mercury (c : Components) (action : Mercury.Action) : Call ComponentEffect Components := do
  let mercury ← (c.mercury.step build protobuf action).within .mercury
  return { c with mercury }

def step (c : Components) : ComponentAction → Call ComponentEffect Components
  | .packet cmd data connected => do
    let s ← ((c.session connected).dispatch warns protobuf cmd data).within .dispatch
    return c.put_session s
  | .key track file connected => c.call_keys build warns (.request track file connected)
  | .cover file connected => c.call_covers build (.get file connected)
  | .own_cover k action => c.call_covers build (.own k action)
  | .request req connected => c.call_mercury build protobuf (.request req connected)
  | .subscribe uri connected => c.call_mercury build protobuf (.subscribe uri connected)
  | .poll_subscriber rx => c.call_mercury build protobuf (.poll_subscriber rx)
  | .drop_receiver stream => c.call_mercury build protobuf (.drop_receiver stream)

def run (actions : List ComponentAction) : Call ComponentEffect Components :=
  Call.run (step build warns protobuf) .new actions

end Step

end Components

/-! What concerns each of the managers. -/
namespace ComponentAction

def of_keys : ComponentAction → Option KeyAction
  | .packet cmd data _ => if cmd = 0xd ∨ cmd = 0xe then some (.dispatch cmd data) else none
  | .key track file connected => some (.request track file connected)
  | _ => none

def of_covers : ComponentAction → Option CoverAction
  | .packet cmd data _ => if cmd = 0x9 ∨ cmd = 0xa then some (.dispatch cmd data) else none
  | .cover file connected => some (.get file connected)
  | .own_cover k action => some (.own k action)
  | _ => none

def of_mercury : ComponentAction → Option Mercury.Action
  | .packet cmd data _ => if 0xb2 ≤ cmd ∧ cmd ≤ 0xb6 then some (.dispatch cmd data) else none
  | .request req connected => some (.request req connected)
  | .subscribe uri connected => some (.subscribe uri connected)
  | .poll_subscriber rx => some (.poll_subscriber rx)
  | .drop_receiver stream => some (.drop_receiver stream)
  | _ => none

/-- The answer to a ping. -/
def pong : ComponentAction → Option (UInt8 × Bytes)
  | .packet cmd data _ => if cmd = 0x4 then some (0x49, data) else none
  | _ => none

def country : ComponentAction → Option String
  | .packet cmd data _ => if cmd = 0x1b then Session.from_utf8 data else none
  | _ => none

/-- A ping can be answered, and a country be read. -/
def Fine : ComponentAction → Prop
  | .packet cmd data connected =>
    (cmd = 0x4 → connected = true) ∧ (cmd = 0x1b → Session.from_utf8 data ≠ none)
  | _ => True

end ComponentAction

namespace ComponentEffect

def of_keys : ComponentEffect → Option KeyEffect
  | .dispatch (.audio_key e) => some (.answer e)
  | .keys e => some e
  | _ => none

def of_covers : ComponentEffect → Option CoverEffect
  | .dispatch (.channel e) => some (.channel e)
  | .covers e => some e
  | _ => none

def of_mercury : ComponentEffect → Option Mercury.Effect
  | .dispatch (.mercury e) | .mercury e => some e
  | _ => none

def pong : ComponentEffect → Option (UInt8 × Bytes)
  | .dispatch (.send_packet cmd data) => some (cmd, data)
  | _ => none

end ComponentEffect

/-- The effects of a dispatched packet, as those of a manager. -/
def KeyEffect.dispatched : KeyEffect → ComponentEffect
  | .answer e => .dispatch (.audio_key e)
  | .send_packet cmd data => .keys (.send_packet cmd data)

def CoverEffect.dispatched : CoverEffect → ComponentEffect
  | .channel e => .dispatch (.channel e)
  | .send_packet cmd data => .covers (.send_packet cmd data)
  | .yield k y => .covers (.yield k y)

namespace Components

variable {build : Build} {warns : Bool} {protobuf : Protobuf} {c c' : Components} {a : ComponentAction}

/-- What an action comes to: a step of one of the managers, or what the session does by itself. -/
inductive Turn (build : Build) (warns : Bool) (protobuf : Protobuf) (c : Components) (a : ComponentAction) :
    Prop where
  | keys (b : KeyAction) (tag : KeyEffect → ComponentEffect) (concerns : a.of_keys = some b)
      (others : a.of_covers = none ∧ a.of_mercury = none ∧ a.pong = none ∧ a.country = none)
      (fine : a.Fine)
      (tagged : ∀ e, (tag e).of_keys = some e ∧ (tag e).of_covers = none ∧ (tag e).of_mercury = none ∧
        (tag e).pong = none)
      (same : c.step build warns protobuf a =
        ⟨(c.keys.step build warns b).log.map tag, (c.keys.step build warns b).value.map fun keys =>
          { c with keys }⟩)
  | covers (b : CoverAction) (tag : CoverEffect → ComponentEffect) (concerns : a.of_covers = some b)
      (others : a.of_keys = none ∧ a.of_mercury = none ∧ a.pong = none ∧ a.country = none) (fine : a.Fine)
      (tagged : ∀ e, (tag e).of_covers = some e ∧ (tag e).of_keys = none ∧ (tag e).of_mercury = none ∧
        (tag e).pong = none)
      (same : c.step build warns protobuf a =
        ⟨(c.covers.step build b).log.map tag, (c.covers.step build b).value.map fun covers =>
          { c with covers }⟩)
  | mercury (b : Mercury.Action) (tag : Mercury.Effect → ComponentEffect) (concerns : a.of_mercury = some b)
      (others : a.of_keys = none ∧ a.of_covers = none ∧ a.pong = none ∧ a.country = none) (fine : a.Fine)
      (tagged : ∀ e, (tag e).of_mercury = some e ∧ (tag e).of_keys = none ∧ (tag e).of_covers = none ∧
        (tag e).pong = none)
      (same : c.step build warns protobuf a =
        ⟨(c.mercury.step build protobuf b).log.map tag,
          (c.mercury.step build protobuf b).value.map fun mercury => { c with mercury }⟩)
  | own (others : a.of_keys = none ∧ a.of_covers = none ∧ a.of_mercury = none) (fine : a.Fine)
      (same : c.step build warns protobuf a =
        ⟨a.pong.toList.map fun p => .dispatch (.send_packet p.1 p.2),
          some { c with country := a.country.getD c.country }⟩)
  | stop (others : a.of_keys = none ∧ a.of_covers = none ∧ a.of_mercury = none) (bad : ¬ a.Fine)
      (same : c.step build warns protobuf a = ⟨[], none⟩)

theorem keys_turn {a : ComponentAction} {b : KeyAction} (concerns : a.of_keys = some b)
    (others : a.of_covers = none ∧ a.of_mercury = none ∧ a.pong = none ∧ a.country = none) (fine : a.Fine)
    (same : c.step build warns protobuf a = c.call_keys build warns b) : c.Turn build warns protobuf a := by
  refine .keys b .keys concerns others fine (fun _ => ⟨rfl, rfl, rfl, rfl⟩) ?_
  rw [same, call_keys, Call.within_put]

theorem covers_turn {a : ComponentAction} {b : CoverAction} (concerns : a.of_covers = some b)
    (others : a.of_keys = none ∧ a.of_mercury = none ∧ a.pong = none ∧ a.country = none) (fine : a.Fine)
    (same : c.step build warns protobuf a = c.call_covers build b) : c.Turn build warns protobuf a := by
  refine .covers b .covers concerns others fine (fun _ => ⟨rfl, rfl, rfl, rfl⟩) ?_
  rw [same, call_covers, Call.within_put]

theorem mercury_turn {a : ComponentAction} {b : Mercury.Action} (concerns : a.of_mercury = some b)
    (others : a.of_keys = none ∧ a.of_covers = none ∧ a.pong = none ∧ a.country = none) (fine : a.Fine)
    (same : c.step build warns protobuf a = c.call_mercury build protobuf b) :
    c.Turn build warns protobuf a := by
  refine .mercury b .mercury concerns others fine (fun _ => ⟨rfl, rfl, rfl, rfl⟩) ?_
  rw [same, call_mercury, Call.within_put]

theorem packet_covers {cmd : UInt8} (is : cmd = 0x9 ∨ cmd = 0xa) (c : Components) (data : Bytes)
    (connected : Bool) : c.Turn build warns protobuf (.packet cmd data connected) := by
  have others : cmd ≠ 0x4 ∧ cmd ≠ 0x1b ∧ ¬ (cmd = 0xd ∨ cmd = 0xe) ∧ ¬ (0xb2 ≤ cmd ∧ cmd ≤ 0xb6) := by
    rcases is with rfl | rfl <;> decide
  obtain ⟨ping, country, keys, mercury⟩ := others
  refine .covers (.dispatch cmd data) CoverEffect.dispatched (if_pos is)
    ⟨if_neg keys, if_neg mercury, if_neg ping, if_neg country⟩
    ⟨fun same => absurd same ping, fun same => absurd same country⟩ ?_ ?_
  · intro e
    cases e <;> exact ⟨rfl, rfl, rfl, rfl⟩
  · have not_pong : cmd ≠ 0x4a := by rcases is with rfl | rfl <;> decide
    simp only [step, Session.dispatch, if_neg ping, if_neg not_pong, if_neg country, if_pos is, Covers.step,
      Call.within_put, List.map_map, Option.map_map]
    rfl

theorem packet_keys {cmd : UInt8} (is : cmd = 0xd ∨ cmd = 0xe) (c : Components) (data : Bytes)
    (connected : Bool) : c.Turn build warns protobuf (.packet cmd data connected) := by
  have others : cmd ≠ 0x4 ∧ cmd ≠ 0x1b ∧ ¬ (cmd = 0x9 ∨ cmd = 0xa) ∧ ¬ (0xb2 ≤ cmd ∧ cmd ≤ 0xb6) := by
    rcases is with rfl | rfl <;> decide
  obtain ⟨ping, country, covers, mercury⟩ := others
  refine .keys (.dispatch cmd data) KeyEffect.dispatched (if_pos is)
    ⟨if_neg covers, if_neg mercury, if_neg ping, if_neg country⟩
    ⟨fun same => absurd same ping, fun same => absurd same country⟩ ?_ ?_
  · intro e
    cases e <;> exact ⟨rfl, rfl, rfl, rfl⟩
  · have not_pong : cmd ≠ 0x4a := by rcases is with rfl | rfl <;> decide
    simp only [step, Session.dispatch, if_neg ping, if_neg not_pong, if_neg country, if_neg covers, if_pos is,
      AudioKeys.step, Call.within_put, List.map_map, Option.map_map]
    rfl

theorem packet_mercury {cmd : UInt8} (is : 0xb2 ≤ cmd ∧ cmd ≤ 0xb6) (c : Components) (data : Bytes)
    (connected : Bool) : c.Turn build warns protobuf (.packet cmd data connected) := by
  have apart {other : UInt8} (below : other < 0xb2) : cmd ≠ other := by
    rintro rfl
    exact absurd is.1 (UInt8.not_le.mpr below)
  have ping : cmd ≠ 0x4 := apart (by decide)
  have country : cmd ≠ 0x1b := apart (by decide)
  have covers : ¬ (cmd = 0x9 ∨ cmd = 0xa) := not_or.mpr ⟨apart (by decide), apart (by decide)⟩
  have keys : ¬ (cmd = 0xd ∨ cmd = 0xe) := not_or.mpr ⟨apart (by decide), apart (by decide)⟩
  refine .mercury (.dispatch cmd data) (fun e => .dispatch (.mercury e)) (if_pos is)
    ⟨if_neg keys, if_neg covers, if_neg ping, if_neg country⟩
    ⟨fun same => absurd same ping, fun same => absurd same country⟩ (fun _ => ⟨rfl, rfl, rfl, rfl⟩) ?_
  have not_pong : cmd ≠ 0x4a := apart (by decide)
  simp only [step, Session.dispatch, if_neg ping, if_neg not_pong, if_neg country, if_neg covers, if_neg keys,
    if_pos is, MercuryManager.step, Call.within_put, List.map_map, Option.map_map]
  rfl

theorem packet_turn (c : Components) (cmd : UInt8) (data : Bytes) (connected : Bool) :
    c.Turn build warns protobuf (.packet cmd data connected) := by
  by_cases ping : cmd = 0x4
  · subst ping
    cases connected with
    | true => exact .own ⟨rfl, rfl, rfl⟩ ⟨fun _ => rfl, fun same => absurd same (by decide)⟩ rfl
    | false => exact .stop ⟨rfl, rfl, rfl⟩ (fun fine => Bool.false_ne_true (fine.1 rfl)) rfl
  by_cases country : cmd = 0x1b
  · subst country
    have dispatched : c.step build warns protobuf (.packet 0x1b data connected) =
        ⟨[], (Session.from_utf8 data).map fun country => { c with country }⟩ := by
      cases read : Session.from_utf8 data with
      | none => simp [step, Session.dispatch, read, Call.within]
      | some country =>
        simp [step, Session.dispatch, read, Call.within]
        rfl
    have told : (ComponentAction.packet 0x1b data connected).country = Session.from_utf8 data := rfl
    cases read : Session.from_utf8 data with
    | none =>
      rw [read] at dispatched
      exact .stop ⟨rfl, rfl, rfl⟩ (fun fine => fine.2 rfl read) dispatched
    | some country =>
      rw [read] at dispatched told
      have there : Session.from_utf8 data ≠ none := by
        rw [read]
        exact Option.some_ne_none country
      refine .own ⟨rfl, rfl, rfl⟩ ⟨fun same => absurd same (by decide), fun _ => there⟩ ?_
      rw [dispatched, told]
      rfl
  by_cases covers : cmd = 0x9 ∨ cmd = 0xa
  · exact packet_covers covers c data connected
  by_cases keys : cmd = 0xd ∨ cmd = 0xe
  · exact packet_keys keys c data connected
  by_cases mercury : 0xb2 ≤ cmd ∧ cmd ≤ 0xb6
  · exact packet_mercury mercury c data connected
  have pong : (ComponentAction.packet cmd data connected).pong = none := if_neg ping
  have told : (ComponentAction.packet cmd data connected).country = none := if_neg country
  refine .own ⟨if_neg keys, if_neg covers, if_neg mercury⟩
    ⟨fun same => absurd same ping, fun same => absurd same country⟩ ?_
  rw [pong, told]
  simp only [step, Session.dispatch, if_neg ping, if_neg country, if_neg covers, if_neg keys, if_neg mercury,
    ite_self]
  rfl

theorem turn (c : Components) (a : ComponentAction) : c.Turn build warns protobuf a := by
  cases a with
  | packet cmd data connected => exact c.packet_turn cmd data connected
  | key => exact keys_turn rfl ⟨rfl, rfl, rfl, rfl⟩ trivial rfl
  | cover | own_cover => exact covers_turn rfl ⟨rfl, rfl, rfl, rfl⟩ trivial rfl
  | request | subscribe | poll_subscriber | drop_receiver =>
    exact mercury_turn rfl ⟨rfl, rfl, rfl, rfl⟩ trivial rfl

/-- What the session does by itself is not of any manager. -/
theorem own_apart {T P : Type} {view : Components → T} {obs : ComponentEffect → Option P}
    (same : c.step build warns protobuf a = ⟨a.pong.toList.map fun p => .dispatch (.send_packet p.1 p.2),
      some { c with country := a.country.getD c.country }⟩)
    (silent : ∀ cmd data, obs (.dispatch (.send_packet cmd data)) = none)
    (kept : ∀ country, view { c with country } = view c) :
    (∀ e ∈ (c.step build warns protobuf a).log, obs e = none) ∧
      ∀ c', (c.step build warns protobuf a).value = some c' → view c' = view c := by
  let x : Call (UInt8 × Bytes) String := ⟨a.pong.toList, some (a.country.getD c.country)⟩
  have whole : c.step build warns protobuf a = ⟨x.log.map fun p => .dispatch (.send_packet p.1 p.2),
      x.value.map fun country => { c with country }⟩ := same
  exact Call.apart whole (fun p => silent p.1 p.2) kept

theorem stop_apart {T P : Type} {view : Components → T} {obs : ComponentEffect → Option P}
    (same : c.step build warns protobuf a = ⟨[], none⟩) :
    (∀ e ∈ (c.step build warns protobuf a).log, obs e = none) ∧
      ∀ c', (c.step build warns protobuf a).value = some c' → view c' = view c := by
  rw [same]
  exact ⟨nofun, nofun⟩

theorem keys_projects (build : Build) (warns : Bool) (protobuf : Protobuf) :
    Projects (step build warns protobuf) (AudioKeys.step build warns) Components.keys ComponentAction.of_keys
      ComponentEffect.of_keys := by
  apply Projects.of_cases
  intro c a
  cases @turn build warns protobuf c a with
  | keys b tag concerns _ _ tagged same =>
    exact .inl ⟨b, tag, _, concerns, fun e => (tagged e).1, fun _ => rfl, same⟩
  | covers b tag _ others _ tagged same =>
    exact .inr ⟨others.1, Call.apart same (fun e => (tagged e).2.1) fun _ => rfl⟩
  | mercury b tag _ others _ tagged same =>
    exact .inr ⟨others.1, Call.apart same (fun e => (tagged e).2.1) fun _ => rfl⟩
  | own others _ same => exact .inr ⟨others.1, own_apart same (fun _ _ => rfl) fun _ => rfl⟩
  | stop others _ same => exact .inr ⟨others.1, stop_apart same⟩

theorem covers_projects (build : Build) (warns : Bool) (protobuf : Protobuf) :
    Projects (step build warns protobuf) (Covers.step build) Components.covers ComponentAction.of_covers
      ComponentEffect.of_covers := by
  apply Projects.of_cases
  intro c a
  cases @turn build warns protobuf c a with
  | covers b tag concerns _ _ tagged same =>
    exact .inl ⟨b, tag, _, concerns, fun e => (tagged e).1, fun _ => rfl, same⟩
  | keys b tag _ others _ tagged same =>
    exact .inr ⟨others.1, Call.apart same (fun e => (tagged e).2.1) fun _ => rfl⟩
  | mercury b tag _ others _ tagged same =>
    exact .inr ⟨others.2.1, Call.apart same (fun e => (tagged e).2.2.1) fun _ => rfl⟩
  | own others _ same => exact .inr ⟨others.2.1, own_apart same (fun _ _ => rfl) fun _ => rfl⟩
  | stop others _ same => exact .inr ⟨others.2.1, stop_apart same⟩

theorem mercury_projects (build : Build) (warns : Bool) (protobuf : Protobuf) :
    Projects (step build warns protobuf) (MercuryManager.step build protobuf) Components.mercury
      ComponentAction.of_mercury ComponentEffect.of_mercury := by
  apply Projects.of_cases
  intro c a
  cases @turn build warns protobuf c a with
  | mercury b tag concerns _ _ tagged same =>
    exact .inl ⟨b, tag, _, concerns, fun e => (tagged e).1, fun _ => rfl, same⟩
  | keys b tag _ others _ tagged same =>
    exact .inr ⟨others.2.1, Call.apart same (fun e => (tagged e).2.2.1) fun _ => rfl⟩
  | covers b tag _ others _ tagged same =>
    exact .inr ⟨others.2.1, Call.apart same (fun e => (tagged e).2.2.1) fun _ => rfl⟩
  | own others _ same => exact .inr ⟨others.2.2, own_apart same (fun _ _ => rfl) fun _ => rfl⟩
  | stop others _ same => exact .inr ⟨others.2.2, stop_apart same⟩

/-- An action goes on exactly if it does for the manager that it concerns. -/
theorem step_goes_on (c : Components) (a : ComponentAction) :
    (c.step build warns protobuf a).value ≠ none ↔
      (∀ b, a.of_keys = some b → (c.keys.step build warns b).value ≠ none) ∧
      (∀ b, a.of_covers = some b → (c.covers.step build b).value ≠ none) ∧
      (∀ b, a.of_mercury = some b → (c.mercury.step build protobuf b).value ≠ none) ∧ a.Fine := by
  cases @turn build warns protobuf c a with
  | keys b tag concerns others fine tagged same =>
    rw [same, concerns, others.1, others.2.1]
    simp [fine]
  | covers b tag concerns others fine tagged same =>
    rw [same, concerns, others.1, others.2.1]
    simp [fine]
  | mercury b tag concerns others fine tagged same =>
    rw [same, concerns, others.1, others.2.1]
    simp [fine]
  | own others fine same =>
    rw [same, others.1, others.2.1, others.2.2]
    simp [fine]
  | stop others bad same =>
    rw [same, others.1, others.2.1, others.2.2]
    simp [bad]

/-- A call of a manager neither answers a ping nor tells the country. -/
theorem not_own (apart : (∀ e ∈ (c.step build warns protobuf a).log, e.pong = none) ∧
      ∀ c', (c.step build warns protobuf a).value = some c' → c'.country = c.country)
    (others : a.pong = none ∧ a.country = none)
    (returned : (c.step build warns protobuf a).value = some c') :
    (c.step build warns protobuf a).log.filterMap ComponentEffect.pong = a.pong.toList ∧
      c'.country = a.country.getD c.country := by
  rw [others.1, others.2]
  exact ⟨List.filterMap_eq_nil_iff.mpr apart.1, apart.2 c' returned⟩

/-- What the session does by itself. -/
theorem step_own (returned : (c.step build warns protobuf a).value = some c') :
    (c.step build warns protobuf a).log.filterMap ComponentEffect.pong = a.pong.toList ∧
      c'.country = a.country.getD c.country := by
  cases @turn build warns protobuf c a with
  | keys b tag _ others _ tagged same =>
    exact not_own (Call.apart same (fun e => (tagged e).2.2.2) fun _ => rfl) others.2.2 returned
  | covers b tag _ others _ tagged same =>
    exact not_own (Call.apart same (fun e => (tagged e).2.2.2) fun _ => rfl) others.2.2 returned
  | mercury b tag _ others _ tagged same =>
    exact not_own (Call.apart same (fun e => (tagged e).2.2.2) fun _ => rfl) others.2.2 returned
  | own others _ same =>
    rw [same] at returned ⊢
    cases returned
    refine ⟨?_, rfl⟩
    rw [List.filterMap_map]
    exact List.filterMap_some
  | stop others _ same =>
    rw [same] at returned
    cases returned

theorem run_own {actions : List ComponentAction}
    (returned : (run build warns protobuf actions).value = some c) :
    (run build warns protobuf actions).log.filterMap ComponentEffect.pong =
        actions.filterMap ComponentAction.pong ∧
      c.country = (actions.filterMap ComponentAction.country).getLastD "" := by
  refine Call.run_induction (P := fun actions log c =>
    log.filterMap ComponentEffect.pong = actions.filterMap ComponentAction.pong ∧
      c.country = (actions.filterMap ComponentAction.country).getLastD "") ⟨rfl, rfl⟩ ?_ returned
  rintro actions log c ⟨pongs, country⟩ a c' stepped
  obtain ⟨pong, told⟩ := step_own stepped
  rw [List.filterMap_append, List.filterMap_append, List.filterMap_append, pongs, pong, told, country]
  constructor
  · cases here : a.pong <;> simp [here]
  · cases read : a.country <;> simp [read]

theorem run_goes_on (build : Build) (warns : Bool) (protobuf : Protobuf) (actions : List ComponentAction) :
    (run build warns protobuf actions).value ≠ none ↔
      (AudioKeys.run build warns (actions.filterMap ComponentAction.of_keys)).value ≠ none ∧
      (Covers.run build (actions.filterMap ComponentAction.of_covers)).value ≠ none ∧
      (MercuryManager.run build protobuf (actions.filterMap ComponentAction.of_mercury)).value ≠ none ∧
      ∀ a ∈ actions, a.Fine := by
  induction actions using List.reverseRecOn with
  | nil => simp [run, AudioKeys.run, Covers.run, MercuryManager.run]
  | append_singleton actions a ih =>
    cases returned : (run build warns protobuf actions).value with
    | none =>
      have stopped : (run build warns protobuf (actions ++ [a])).value = none := by
        rw [run, Call.run_snoc, Call.bind_value, ← run, returned, Option.bind_none]
      rw [returned] at ih
      constructor
      · exact fun goes_on => absurd stopped goes_on
      · rintro ⟨keys, covers, mercury, fine⟩
        rw [List.filterMap_append] at keys covers mercury
        have early := ih.mpr ⟨Call.run_before keys, Call.run_before covers, Call.run_before mercury,
          fun b member => fine b (List.mem_append_left _ member)⟩
        exact absurd rfl early
    | some c =>
      have goes_on : (run build warns protobuf actions).value ≠ none := by
        rw [returned]
        exact Option.some_ne_none c
      have fine := (ih.mp goes_on).2.2.2
      have stepped : (run build warns protobuf (actions ++ [a])).value =
          (c.step build warns protobuf a).value := by
        rw [run, Call.run_snoc_returned returned]
      have keys := (keys_projects build warns protobuf).goes_on returned a
      have covers := (covers_projects build warns protobuf).goes_on returned a
      have mercury := (mercury_projects build warns protobuf).goes_on returned a
      rw [stepped, step_goes_on, ← keys, ← covers, ← mercury]
      simp only [List.mem_append, List.mem_singleton]
      constructor
      · rintro ⟨keys, covers, mercury, here⟩
        refine ⟨keys, covers, mercury, ?_⟩
        rintro b (member | rfl)
        · exact fine b member
        · exact here
      · rintro ⟨keys, covers, mercury, all⟩
        exact ⟨keys, covers, mercury, all a (.inr rfl)⟩

/-- The managers of a session do not meet. Whatever is asked for and whatever comes in, in any order, a run
of the session is a run of each of them by what concerns it, with the same log; it panics exactly if one
of these does, a ping meets a connection that is gone or a country cannot be read. Every ping is answered
in order, and the country is the one that was told last. -/
theorem components_apart (build : Build) (warns : Bool) (protobuf : Protobuf) (actions : List ComponentAction) :
    ((run build warns protobuf actions).value ≠ none ↔
      (AudioKeys.run build warns (actions.filterMap ComponentAction.of_keys)).value ≠ none ∧
      (Covers.run build (actions.filterMap ComponentAction.of_covers)).value ≠ none ∧
      (MercuryManager.run build protobuf (actions.filterMap ComponentAction.of_mercury)).value ≠ none ∧
      ∀ a ∈ actions, a.Fine) ∧
    ∀ c, (run build warns protobuf actions).value = some c →
      AudioKeys.run build warns (actions.filterMap ComponentAction.of_keys) =
        ⟨(run build warns protobuf actions).log.filterMap ComponentEffect.of_keys, some c.keys⟩ ∧
      Covers.run build (actions.filterMap ComponentAction.of_covers) =
        ⟨(run build warns protobuf actions).log.filterMap ComponentEffect.of_covers, some c.covers⟩ ∧
      MercuryManager.run build protobuf (actions.filterMap ComponentAction.of_mercury) =
        ⟨(run build warns protobuf actions).log.filterMap ComponentEffect.of_mercury, some c.mercury⟩ ∧
      (run build warns protobuf actions).log.filterMap ComponentEffect.pong =
        actions.filterMap ComponentAction.pong ∧
      c.country = (actions.filterMap ComponentAction.country).getLastD "" := by
  refine ⟨run_goes_on build warns protobuf actions, ?_⟩
  intro c returned
  obtain ⟨pongs, country⟩ := run_own returned
  exact ⟨(keys_projects build warns protobuf).run returned,
    (covers_projects build warns protobuf).run returned,
    (mercury_projects build warns protobuf).run returned, pongs, country⟩

/-- A key, a cover and an answer of Mercury are asked for; a ping, the country and the key come in. -/
def four_at_once : List ComponentAction :=
  [.key ⟨.zero⟩ ⟨List.replicate 20 11, rfl⟩ true, .packet 0x4 [1, 2, 3, 4] true,
    .cover ⟨List.replicate 20 12, rfl⟩ true, .packet 0x1b [0x53, 0x45] true, .request ⟨.GET, "u", none, []⟩ true,
    .packet 0xd (Bytes.be 4 0 ++ List.replicate 16 13) true]

theorem components_apart_four : ∃ c, (run .debug true Mercury.messages four_at_once).value = some c ∧
    (run .debug true Mercury.messages four_at_once).log.filterMap ComponentEffect.pong =
      [(0x49, [1, 2, 3, 4])] ∧
    c.country = "SE" ∧ AudioKeyFuture.poll c.keys.manager ⟨0⟩ = .ok (.ready ⟨List.replicate 16 13, rfl⟩) := by
  obtain ⟨goes_on, apart⟩ := components_apart .debug true Mercury.messages four_at_once
  have fine : ∀ a ∈ four_at_once, a.Fine := by
    have told : Session.from_utf8 [0x53, 0x45] ≠ none := by decide
    simp [four_at_once, ComponentAction.Fine, told]
  obtain ⟨c, returned⟩ := Option.ne_none_iff_exists'.mp (goes_on.mpr ⟨by decide, by decide, by decide, fine⟩)
  obtain ⟨keys, _, _, pongs, country⟩ := apart c returned
  have key : (AudioKeys.run .debug true (four_at_once.filterMap ComponentAction.of_keys)).value.map
      (fun keys => AudioKeyFuture.poll keys.manager ⟨0⟩) =
        some (.ok (.ready ⟨List.replicate 16 13, rfl⟩)) := by
    decide
  rw [keys] at key
  exact ⟨c, returned, pongs, country, Option.some.inj key⟩

end Components

end ConnectScrobbler
