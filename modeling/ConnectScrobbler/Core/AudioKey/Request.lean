import ConnectScrobbler.Core.Session.Robust
import ConnectScrobbler.Core.Util.SpotifyId.Codec
import ConnectScrobbler.Lib.Numbered
import ConnectScrobbler.Metadata

/-! The requests for keys, `core/src/audio_key.rs`: what becomes of each future in a run of requests
and packets. -/
namespace ConnectScrobbler

open Bytes (be read_be)

/-- The manager and how many requests have been made; a oneshot is named by the number of its request. -/
structure AudioKeys where
  manager : AudioKeyManager
  made : Nat

inductive KeyEffect where
  | answer (e : AudioKeyEffect)
  | send_packet (cmd : UInt8) (data : Bytes)
  deriving DecidableEq, Repr

/-- `connected` says whether the session still takes packets. -/
inductive KeyAction where
  | request (track : SpotifyId) (file : FileId) (connected : Bool)
  | dispatch (cmd : UInt8) (data : Bytes)
  deriving DecidableEq

structure AudioKeyFuture where
  receiver : Nat
  deriving DecidableEq, Repr

/-- `AudioKeyFuture::poll`, by what its oneshot says. -/
def AudioKeyFuture.settle {T : Type} (receiver : Oneshot (Except AudioKeyError T)) : Poll T AudioKeyError :=
  match receiver.poll with
  | .ok (.ready (.ok value)) => .ok (.ready value)
  | .ok (.ready (.error err)) => .error err
  | .ok .notReady => .ok .notReady
  | .error () => .error {}

def AudioKeyFuture.poll (m : AudioKeyManager) (f : AudioKeyFuture) : Poll AudioKey AudioKeyError :=
  settle (m.oneshots f.receiver)

namespace AudioKeyManager

/-- `pending.insert`: a sender that was there is dropped. -/
def insert (seq : BitVec 32) (tx : Nat) (m : AudioKeyManager) : Call AudioKeyEffect AudioKeyManager := do
  let m ← match m.pending seq with
    | some replaced => m.cancel replaced
    | none => pure m
  return { m with pending := Function.update m.pending seq (some tx) }

/-- The data of the packet that asks for a key. -/
def key_request (seq : BitVec 32) (track : SpotifyId) (file : FileId) : Bytes :=
  file.bytes ++ track.to_raw ++ be 4 seq.toNat ++ be 2 0x0000

def send_key_request (connected : Bool) (seq : BitVec 32) (track : SpotifyId) (file : FileId) :
    Call KeyEffect Unit :=
  if connected then Call.emit (.send_packet 0xc (key_request seq track file)) else Call.panic

end AudioKeyManager

namespace AudioKeys

def new : AudioKeys := ⟨.new, 0⟩

def request (build : Build) (connected : Bool) (track : SpotifyId) (file : FileId) (s : AudioKeys) :
    Call KeyEffect (AudioKeyFuture × AudioKeys) := do
  let tx := s.made
  let m := { s.manager with oneshots := Function.update s.manager.oneshots tx .waiting }
  let (seq, sequence) ← Call.unwrap (m.sequence.get build)
  let m ← ({ m with sequence }.insert seq tx).within .answer
  AudioKeyManager.send_key_request connected seq track file
  return (⟨tx⟩, ⟨m, tx + 1⟩)

def step (build : Build) (warns : Bool) (s : AudioKeys) : KeyAction → Call KeyEffect AudioKeys
  | .request track file connected => do
    let (_, s) ← s.request build connected track file
    return s
  | .dispatch cmd data => do
    let manager ← (s.manager.dispatch warns cmd data).within .answer
    return { s with manager }

def run (build : Build) (warns : Bool) (actions : List KeyAction) : Call KeyEffect AudioKeys :=
  Call.run (step build warns) .new actions

end AudioKeys

/-! What a request comes to. -/

/-- The packets that a log has sent. -/
def KeyEffect.sent : List KeyEffect → List (UInt8 × Bytes)
  | [] => []
  | .send_packet cmd data :: log => (cmd, data) :: sent log
  | .answer _ :: log => sent log

namespace KeyAction

/-- The requests among the actions: the track and the file of each. -/
def requests : List KeyAction → List (SpotifyId × FileId)
  | [] => []
  | .request track file _ :: actions => (track, file) :: requests actions
  | .dispatch _ _ :: actions => requests actions

end KeyAction

/-- What a packet says to the request that it names. -/
def key_outcome (packet : UInt8 × Bytes) : Oneshot (Except AudioKeyError AudioKey) :=
  if packet.1 = 0xd then
    match AudioKey.copy_from_slice (packet.2.drop 4) with
    | some key => .complete (.ok key)
    | none => .canceled
  else if packet.1 = 0xe then .complete (.error {})
  else .canceled

/-- Keys as parties with a number each. -/
def key_kind : Numbered.Kind (Oneshot (Except AudioKeyError AudioKey)) (UInt8 × Bytes) Empty where
  new := .waiting
  deliver _ packet := key_outcome packet
  keeps _ := false
  replace _ := .canceled
  act _ := nofun

namespace KeyAction

open Numbered (Turn)

def turn : KeyAction → Turn 32 (UInt8 × Bytes) Empty
  | .request _ _ _ => .enter
  | .dispatch cmd data => .message (AudioKeyManager.seq_of data) (cmd, data)

theorem entered_turns (actions : List KeyAction) :
    Numbered.entered (actions.map turn) = (requests actions).length := by
  induction actions with
  | nil => rfl
  | cons action actions ih => cases action <;> simp [turn, Numbered.entered, requests, ih]

/-- What befalls a request: the packets that name it, until it loses its number. -/
def life (k : Nat) (actions : List KeyAction) : List (Numbered.Happening (UInt8 × Bytes) Empty) :=
  Numbered.life k 0 (actions.map turn)

end KeyAction

namespace AudioKeys

open Numbered (Table)

variable {build : Build} {warns : Bool} {s s' : AudioKeys}

/-- The table behind the manager. -/
def table (s : AudioKeys) : Table 32 (Oneshot (Except AudioKeyError AudioKey)) :=
  ⟨s.manager.pending, s.made, s.manager.oneshots⟩

def Counts (s : AudioKeys) : Prop := s.manager.sequence = ⟨BitVec.ofNat 32 s.made⟩

theorem insert_eq (seq : BitVec 32) (tx : Nat) (m : AudioKeyManager) : ∃ log,
    m.insert seq tx = ⟨log, some { m with
      pending := Function.update m.pending seq (some tx)
      oneshots := match m.pending seq with
        | some replaced => Function.update m.oneshots replaced .canceled
        | none => m.oneshots }⟩ := by
  unfold AudioKeyManager.insert
  cases m.pending seq with
  | some replaced => exact ⟨[.cancel replaced], rfl⟩
  | none => exact ⟨[], rfl⟩

theorem sent_answers (log : List AudioKeyEffect) (rest : List KeyEffect) :
    KeyEffect.sent (log.map .answer ++ rest) = KeyEffect.sent rest := by
  induction log with
  | nil => rfl
  | cons e log ih => exact ih

/-- After a request: the oneshots are those of before, but for its own and the one that has lost its
number. -/
def asked (seq : BitVec 32) (sequence : SeqGenerator 32) (s : AudioKeys) : AudioKeys where
  made := s.made + 1
  manager := {
    sequence
    pending := Function.update s.manager.pending seq (some s.made)
    oneshots := match s.manager.pending seq with
      | some replaced =>
        Function.update (Function.update s.manager.oneshots s.made .waiting) replaced .canceled
      | none => Function.update s.manager.oneshots s.made .waiting }

theorem request_eq {seq : BitVec 32} {sequence : SeqGenerator 32} (connected : Bool) (track : SpotifyId)
    (file : FileId) (next : s.manager.sequence.get build = some (seq, sequence)) :
    ∃ log : List AudioKeyEffect, s.request build connected track file =
      if connected then ⟨log.map .answer ++ [.send_packet 0xc (AudioKeyManager.key_request seq track file)],
        some (⟨s.made⟩, s.asked seq sequence)⟩
      else ⟨log.map .answer, none⟩ := by
  obtain ⟨log, inserted⟩ := insert_eq seq s.made { s.manager with
    oneshots := Function.update s.manager.oneshots s.made .waiting
    sequence }
  refine ⟨log, ?_⟩
  cases connected <;>
    simp [request, next, inserted, Call.within, AudioKeyManager.send_key_request, asked]

theorem request_spec {connected : Bool} {track : SpotifyId} {file : FileId} (counts : s.Counts)
    (sound : Numbered.Sound s.table)
    (returned : (s.step build warns (.request track file connected)).value = some s') :
    s'.Counts ∧ s'.table = s.table.step key_kind (KeyAction.request track file connected).turn ∧
      KeyEffect.sent (s.step build warns (.request track file connected)).log =
        [(0xc, AudioKeyManager.key_request (BitVec.ofNat 32 s.made) track file)] := by
  obtain ⟨⟨future, t⟩, requested, done⟩ := Call.bind_returns.mp returned
  obtain ⟨⟨seq, sequence⟩, got, _⟩ := Call.bind_returns.mp requested
  obtain ⟨rfl, rfl, _⟩ := SeqGenerator.get_counts (by decide) (counts ▸ got)
  obtain ⟨log, request⟩ := request_eq connected track file got
  cases connected with
  | false =>
    rw [request] at requested
    cases requested
  | true =>
    rw [step, request, if_pos rfl, Call.bind_some] at returned ⊢
    cases returned
    refine ⟨rfl, ?_, by simp [sent_answers, KeyEffect.sent]⟩
    have older : s.manager.pending (BitVec.ofNat 32 s.made) ≠ some s.made := by
      intro own
      exact Nat.lt_irrefl _ (sound _ _ own).2.1
    simp only [table, asked, Numbered.Table.step, KeyAction.turn, Numbered.Table.lose, key_kind]
    cases replaced : s.manager.pending (BitVec.ofNat 32 s.made) with
    | none => rfl
    | some old =>
      have other : old ≠ s.made := fun same => older (replaced.trans (congrArg some same))
      simp only [Function.update_comm other]

theorem dispatch_spec {cmd : UInt8} {data : Bytes} (counts : s.Counts)
    (returned : (s.step build warns (.dispatch cmd data)).value = some s') :
    s'.Counts ∧ s'.table = s.table.step key_kind (KeyAction.dispatch cmd data).turn ∧
      KeyEffect.sent (s.step build warns (.dispatch cmd data)).log = [] := by
  have quiet : KeyEffect.sent (s.step build warns (.dispatch cmd data)).log = [] := by
    rw [step, Call.bind_pure_log, Call.within_log, ← List.append_nil (List.map _ _), sent_answers]
    rfl
  obtain ⟨m, dispatched, done⟩ := Call.bind_returns.mp returned
  cases done
  replace dispatched : (s.manager.dispatch warns cmd data).value = some m := dispatched
  by_cases enough : 4 ≤ data.length
  · rw [AudioKeyManager.dispatch_eq warns cmd s.manager enough] at dispatched
    simp only [table, Numbered.Table.step, KeyAction.turn, key_kind]
    cases pending : s.manager.pending (AudioKeyManager.seq_of data) with
    | none =>
      rw [pending] at dispatched
      cases dispatched
      refine ⟨counts, ?_, quiet⟩
      simp only [AudioKeyManager.remove_free pending]
    | some sender =>
      rw [pending] at dispatched
      dsimp only at dispatched
      simp only [key_outcome]
      split at dispatched
      · rename_i key
        subst key
        obtain ⟨value, copied, completed⟩ := Call.bind_returns.mp dispatched
        replace copied : AudioKey.copy_from_slice (data.drop 4) = some value := copied
        cases completed
        simp only [copied, Bool.false_eq_true, if_true, if_false]
        exact ⟨counts, rfl, quiet⟩
      · rename_i other
        split at dispatched
        · rename_i error
          subst error
          split at dispatched
          · cases dispatched
          · cases dispatched
            simp only [other, Bool.false_eq_true, if_true, if_false]
            exact ⟨counts, rfl, quiet⟩
        · rename_i unknown
          cases dispatched
          simp only [other, unknown, Bool.false_eq_true, if_false]
          exact ⟨counts, rfl, quiet⟩
  · rw [AudioKeyManager.dispatch, Bytes.drain_to, if_neg enough] at dispatched
    cases dispatched

/-- The packets that ask for these keys, one after the other. -/
def asks (requests : List (SpotifyId × FileId)) : List (UInt8 × Bytes) :=
  requests.mapIdx fun k asked => (0xc, AudioKeyManager.key_request (BitVec.ofNat 32 k) asked.1 asked.2)

theorem asks_snoc (requests : List (SpotifyId × FileId)) (track : SpotifyId) (file : FileId) :
    asks (requests ++ [(track, file)]) = asks requests ++
      [(0xc, AudioKeyManager.key_request (BitVec.ofNat 32 requests.length) track file)] :=
  List.mapIdx_concat

theorem sent_append (one other : List KeyEffect) :
    KeyEffect.sent (one ++ other) = KeyEffect.sent one ++ KeyEffect.sent other := by
  induction one with
  | nil => rfl
  | cons e one ih => cases e <;> simp [KeyEffect.sent, ih]

theorem requests_append (one other : List KeyAction) :
    KeyAction.requests (one ++ other) = KeyAction.requests one ++ KeyAction.requests other := by
  induction one with
  | nil => rfl
  | cons action one ih => cases action <;> simp [KeyAction.requests, ih]

/-- A run of the manager is a run of the table. -/
structure Tabled (actions : List KeyAction) (log : List KeyEffect) (s : AudioKeys) : Prop where
  counts : s.Counts
  table : s.table = (Table.new .waiting).run key_kind (actions.map KeyAction.turn)
  sent : KeyEffect.sent log = asks (KeyAction.requests actions)

theorem Tabled.made {actions : List KeyAction} {log : List KeyEffect} (tabled : Tabled actions log s) :
    s.made = (KeyAction.requests actions).length := by
  have made := Numbered.table_made key_kind .waiting (actions.map KeyAction.turn)
  rwa [← tabled.table, KeyAction.entered_turns] at made

theorem Tabled.step {actions : List KeyAction} {log : List KeyEffect} {action : KeyAction}
    (tabled : Tabled actions log s) (returned : (s.step build warns action).value = some s') :
    Tabled (actions ++ [action]) (log ++ (s.step build warns action).log) s' := by
  have sound : Numbered.Sound s.table := by
    rw [tabled.table]
    exact (Numbered.isolated key_kind .waiting (actions.map KeyAction.turn)).1
  have grows : (Table.new .waiting).run key_kind ((actions ++ [action]).map KeyAction.turn) =
      s.table.step key_kind action.turn := by
    rw [List.map_append, tabled.table, Table.run, List.foldl_append]
    rfl
  cases action with
  | request track file connected =>
    obtain ⟨counts, table, sent⟩ := request_spec tabled.counts sound returned
    refine ⟨counts, table.trans grows.symm, ?_⟩
    rw [sent_append, tabled.sent, sent, tabled.made, requests_append, ← asks_snoc]
    rfl
  | dispatch cmd data =>
    obtain ⟨counts, table, sent⟩ := dispatch_spec tabled.counts returned
    refine ⟨counts, table.trans grows.symm, ?_⟩
    rw [sent_append, tabled.sent, sent, requests_append, KeyAction.requests, KeyAction.requests,
      List.append_nil, List.append_nil]

theorem run_tabled {actions : List KeyAction} (returned : (run build warns actions).value = some s) :
    Tabled actions (run build warns actions).log s :=
  Call.run_induction ⟨rfl, rfl, rfl⟩ (fun _ _ _ tabled _ _ returned => tabled.step returned) returned

/-- However requests and packets are interleaved, each future is decided by the first thing that befalls
it, a packet with its own number or the loss of the number; the requests go out in order. -/
theorem keys_isolated {actions : List KeyAction} (returned : (run build warns actions).value = some s) :
    s.made = (KeyAction.requests actions).length ∧
    KeyEffect.sent (run build warns actions).log = asks (KeyAction.requests actions) ∧
    ∀ k < s.made, AudioKeyFuture.poll s.manager ⟨k⟩ = match KeyAction.life k actions with
      | [] => .ok .notReady
      | .said packet :: _ => AudioKeyFuture.settle (key_outcome packet)
      | .lost :: _ => .error {}
      | .did g :: _ => g.elim := by
  have tabled := run_tabled returned
  refine ⟨tabled.made, tabled.sent, fun k made => ?_⟩
  have entered : k < Numbered.entered (actions.map KeyAction.turn) := by
    rw [KeyAction.entered_turns, ← tabled.made]
    exact made
  have lives := Numbered.table_lives key_kind .waiting (actions.map KeyAction.turn) entered
  rw [← tabled.table, Numbered.lived_once fun _ => rfl] at lives
  have polled : AudioKeyFuture.poll s.manager ⟨k⟩ = AudioKeyFuture.settle (s.table.parties k) := rfl
  rw [polled, lives, KeyAction.life]
  cases Numbered.life k 0 (actions.map KeyAction.turn) with
  | nil => rfl
  | cons happening rest =>
    cases happening with
    | said packet => rfl
    | lost => rfl
    | did g => exact g.elim

/-- Two requests, answered the other way round and once more. -/
def two_requests : List KeyAction :=
  let file : FileId := ⟨List.replicate 20 5, rfl⟩
  [.request ⟨.zero⟩ file true, .request ⟨.zero⟩ file true,
    .dispatch 0xd (be 4 1 ++ List.replicate 16 7), .dispatch 0xe (be 4 0 ++ [0, 1]),
    .dispatch 0xd (be 4 1 ++ List.replicate 16 9)]

theorem keys_isolated_two : ∃ s, (run .debug true two_requests).value = some s ∧ s.made = 2 ∧
    AudioKeyFuture.poll s.manager ⟨0⟩ = .error {} ∧
    AudioKeyFuture.poll s.manager ⟨1⟩ = .ok (.ready ⟨List.replicate 16 7, rfl⟩) := by
  have there : (run .debug true two_requests).value.isSome = true := by decide
  obtain ⟨s, returned⟩ := Option.isSome_iff_exists.mp there
  obtain ⟨made, _, polled⟩ := keys_isolated returned
  have both : s.made = 2 := made
  refine ⟨s, returned, both, (polled 0 (by omega)).trans ?_, (polled 1 (by omega)).trans ?_⟩
  · rfl
  · rfl

end AudioKeys

end ConnectScrobbler
