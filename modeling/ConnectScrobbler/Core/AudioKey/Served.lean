import ConnectScrobbler.Core.AudioKey.Request

/-! Keys from a server that answers each request as the request asks. Its answers come in any order, any
number of times, and whenever they like. -/
namespace ConnectScrobbler

open Bytes (be drain_to read_be)

/-- Which keys the server gives out, and what it says when it refuses one. -/
structure KeyServer where
  keys : SpotifyId → FileId → Option AudioKey
  code : UInt8 × UInt8

namespace KeyServer

/-- The command of an answer, and its data behind the number of the request. -/
def reply (server : KeyServer) (track : SpotifyId) (file : FileId) : UInt8 × Bytes :=
  match server.keys track file with
  | some key => (0xd, key.bytes)
  | none => (0xe, [server.code.1, server.code.2])

/-- A request is read in the order in which it is written; the answer repeats its number. -/
def answer (server : KeyServer) (packet : UInt8 × Bytes) : Option (UInt8 × Bytes) :=
  if packet.1 = 0xc then do
    let (file, data) ← drain_to 20 packet.2
    let (track, data) ← drain_to 16 data
    let (seq, _) ← drain_to 4 data
    let file ← FileId.clone_from_slice file
    let track ← SpotifyId.from_raw track
    let (cmd, data) := server.reply track file
    return (cmd, seq ++ data)
  else none

/-- What the future of a request is to come to. -/
def verdict (server : KeyServer) (track : SpotifyId) (file : FileId) : Except AudioKeyError AudioKey :=
  match server.keys track file with
  | some key => .ok key
  | none => .error {}

end KeyServer

/-- The client, and the packets that it has sent. -/
structure KeyWorld where
  keys : AudioKeys
  sent : List (UInt8 × Bytes)

inductive KeyTurn where
  | request (track : SpotifyId) (file : FileId)
  | answer (i : Nat)
  deriving DecidableEq

namespace KeyWorld

variable (build : Build) (warns : Bool) (server : KeyServer)

/-- The server may answer any packet that has been sent. -/
def step (world : KeyWorld) : KeyTurn → Call KeyEffect KeyWorld
  | .request track file => do
    let (keys, log) ← (world.keys.step build warns (.request track file true)).listen
    return ⟨keys, world.sent ++ KeyEffect.sent log⟩
  | .answer i =>
    match world.sent[i]?.bind server.answer with
    | some (cmd, data) => do
      let keys ← world.keys.step build warns (.dispatch cmd data)
      return { world with keys }
    | none => return world

def run (turns : List KeyTurn) : Call KeyEffect KeyWorld :=
  Call.run (step build warns server) ⟨.new, []⟩ turns

end KeyWorld

namespace KeyTurn

def asked : List KeyTurn → List (SpotifyId × FileId)
  | [] => []
  | .request track file :: turns => (track, file) :: asked turns
  | .answer _ :: turns => asked turns

/-- The server has answered a request that had been made. -/
def Answered (turns : List KeyTurn) (k : Nat) : Prop :=
  ∃ before after, turns = before ++ .answer k :: after ∧ k < (asked before).length

theorem asked_append (one other : List KeyTurn) : asked (one ++ other) = asked one ++ asked other := by
  induction one with
  | nil => rfl
  | cons turn one ih => cases turn <;> simp [asked, ih]

theorem answered_snoc {turns : List KeyTurn} {turn : KeyTurn} {k : Nat} :
    Answered (turns ++ [turn]) k ↔ Answered turns k ∨ turn = .answer k ∧ k < (asked turns).length := by
  constructor
  · rintro ⟨before, after, cut, made⟩
    rcases List.eq_nil_or_concat after with rfl | ⟨after, last, rfl⟩
    · obtain ⟨rfl, same⟩ := List.append_inj' cut rfl
      exact .inr ⟨List.head_eq_of_cons_eq same, made⟩
    · rw [List.concat_eq_append, ← List.cons_append, ← List.append_assoc] at cut
      exact .inl ⟨before, after, (List.append_inj' cut rfl).1, made⟩
  · rintro (⟨before, after, rfl, made⟩ | ⟨rfl, made⟩)
    · exact ⟨before, after ++ [turn], by simp, made⟩
    · exact ⟨turns, [], rfl, made⟩

theorem Answered.made {turns : List KeyTurn} {k : Nat} (answered : Answered turns k) :
    k < (asked turns).length := by
  obtain ⟨before, after, rfl, made⟩ := answered
  rw [asked_append, List.length_append]
  omega

end KeyTurn

open AudioKeyManager (key_request seq_of)

theorem seq_of_be (seq : BitVec 32) (data : Bytes) : seq_of (be 4 seq.toNat ++ data) = seq := by
  have small : seq.toNat < 256 ^ 4 := seq.isLt
  have front : (be 4 seq.toNat ++ data).take 4 = be 4 seq.toNat :=
    List.take_left' (Bytes.length_be 4 _)
  rw [seq_of, front, Bytes.read_be_be_of_lt small, BitVec.ofNat_toNat, BitVec.setWidth_eq]

namespace KeyServer

variable (server : KeyServer) (track : SpotifyId) (file : FileId)

theorem answer_request (seq : BitVec 32) : server.answer (0xc, key_request seq track file) =
    some ((server.reply track file).1, be 4 seq.toNat ++ (server.reply track file).2) := by
  have whole : FileId.clone_from_slice file.bytes = some file := dif_pos file.length
  simp only [answer, if_true, key_request, List.append_assoc, Bytes.drain_to_append file.length,
    Bytes.drain_to_append track.to_raw_length, Bytes.drain_to_append (Bytes.length_be 4 _), whole,
    SpotifyId.from_raw_to_raw, Option.bind_eq_bind, Option.bind_some]
  rfl

theorem reply_answers : (server.reply track file).1 = 0xd ∨ (server.reply track file).1 = 0xe := by
  unfold reply
  split
  · exact .inl rfl
  · exact .inr rfl

theorem reply_whole (seq : BitVec 32) :
    AudioKeyManager.Whole (server.reply track file).1 (be 4 seq.toNat ++ (server.reply track file).2) := by
  unfold reply AudioKeyManager.Whole
  split
  · rename_i key found
    rw [if_pos rfl, List.length_append, Bytes.length_be, key.length]
  · dsimp only
    rw [if_neg (by decide), List.length_append, Bytes.length_be]
    simp

theorem reply_outcome (seq : BitVec 32) :
    key_outcome ((server.reply track file).1, be 4 seq.toNat ++ (server.reply track file).2) =
      .complete (server.verdict track file) := by
  have behind (data : Bytes) : (be 4 seq.toNat ++ data).drop 4 = data :=
    List.drop_left' (Bytes.length_be 4 _)
  unfold reply verdict key_outcome
  split
  · rename_i key found
    have copied : AudioKey.copy_from_slice key.bytes = some key := dif_pos key.length
    simp only [if_true, behind, copied]
  · rfl

end KeyServer

namespace KeyWorld

open AudioKeys (asks)
open KeyTurn (asked Answered answered_snoc)

variable {build : Build} {warns : Bool} {server : KeyServer}

/-- Each future is settled once it is answered, and its number is its own until then. -/
structure Served (server : KeyServer) (turns : List KeyTurn) (world : KeyWorld) : Prop where
  counts : world.keys.Counts
  sound : Numbered.Sound world.keys.table
  made : world.keys.made = (asked turns).length
  sent : world.sent = asks (asked turns)
  answered : ∀ k track file, (asked turns)[k]? = some (track, file) → Answered turns k →
    world.keys.manager.oneshots k = .complete (server.verdict track file)
  unanswered : ∀ k < world.keys.made, ¬ Answered turns k →
    world.keys.manager.oneshots k = .waiting ∧ world.keys.manager.pending (BitVec.ofNat 32 k) = some k

theorem request_returns (build : Build) (warns : Bool) {s : AudioKeys} (counts : s.Counts)
    (few : s.made + 1 < 2 ^ 32)
    (track : SpotifyId) (file : FileId) :
    ∃ s', (s.step build warns (.request track file true)).value = some s' := by
  have next : s.manager.sequence.get build =
      some (BitVec.ofNat 32 s.made, ⟨BitVec.ofNat 32 (s.made + 1)⟩) := by
    rw [show s.manager.sequence = ⟨BitVec.ofNat 32 s.made⟩ from counts, SeqGenerator.get_next build few]
  obtain ⟨log, request⟩ := AudioKeys.request_eq true track file next
  exact ⟨_, by rw [AudioKeys.step, request, if_pos rfl]; rfl⟩

theorem Served.request {turns : List KeyTurn} {world : KeyWorld} (served : Served server turns world)
    (track : SpotifyId) (file : FileId) (few : world.keys.made + 1 < 2 ^ 32) :
    ∃ world', (world.step build warns server (.request track file)).value = some world' ∧
      Served server (turns ++ [.request track file]) world' := by
  obtain ⟨keys, returned⟩ := request_returns build warns served.counts few track file
  obtain ⟨counts, table, sent⟩ := AudioKeys.request_spec served.counts served.sound returned
  have vacant : world.keys.manager.pending (BitVec.ofNat 32 world.keys.made) = none :=
    Numbered.vacant served.sound (Nat.lt_of_succ_lt few)
  have slots : keys.manager.pending =
      Function.update world.keys.manager.pending (BitVec.ofNat 32 world.keys.made) (some world.keys.made) :=
    congrArg Numbered.Table.slots table
  have made : keys.made = world.keys.made + 1 := congrArg Numbered.Table.made table
  have parties : keys.manager.oneshots =
      Function.update world.keys.manager.oneshots world.keys.made .waiting := by
    have parties : keys.manager.oneshots = Function.update (world.keys.table.lose key_kind) _ _ :=
      congrArg Numbered.Table.parties table
    rw [parties, Numbered.Table.lose]
    simp only [AudioKeys.table, vacant]
    rfl
  have same (k : Nat) : Answered (turns ++ [.request track file]) k ↔ Answered turns k := by
    rw [answered_snoc]
    simp
  have more : asked (turns ++ [.request track file]) = asked turns ++ [(track, file)] :=
    KeyTurn.asked_append turns _
  refine ⟨⟨keys, world.sent ++ KeyEffect.sent (world.keys.step build warns (.request track file true)).log⟩,
    by simp [step, Call.listen, returned], counts, ?_, ?_, ?_, ?_, ?_⟩
  · rw [table]
    exact served.sound.step key_kind _
  · rw [made, more, List.length_append, served.made]
    rfl
  · rw [sent, more, AudioKeys.asks_snoc, served.sent, served.made]
  · intro k track' file' there answered
    have earlier := ((same k).mp answered).made
    rw [more, List.getElem?_append_left earlier] at there
    rw [parties, Function.update_of_ne (by rw [served.made]; omega)]
    exact served.answered k track' file' there ((same k).mp answered)
  · intro k young unanswered
    rw [parties, slots]
    by_cases new : k = world.keys.made
    · rw [new, Function.update_self, Function.update_self]
      exact ⟨rfl, rfl⟩
    · have older : k < world.keys.made := by
        have young : k < keys.made := young
        omega
      have other : BitVec.ofNat 32 k ≠ BitVec.ofNat 32 world.keys.made :=
        fun same => new (Numbered.number_inj (by omega) (by omega) same)
      rw [Function.update_of_ne new, Function.update_of_ne other]
      exact served.unanswered k older fun answered => unanswered ((same k).mpr answered)

/-- The answer to a request is dispatched: it settles the future, or it comes once more. -/
theorem dispatch_answer (build : Build) (warns : Bool) (server : KeyServer) {s : AudioKeys} (counts : s.Counts)
    (sound : Numbered.Sound s.table)
    (few : s.made < 2 ^ 32) {i : Nat} (made : i < s.made) (track : SpotifyId) (file : FileId) :
    ∃ s', (s.step build warns (.dispatch (server.reply track file).1
        (be 4 (BitVec.ofNat 32 i).toNat ++ (server.reply track file).2))).value = some s' ∧
      s'.Counts ∧ Numbered.Sound s'.table ∧ s'.made = s.made ∧
      (s.manager.pending (BitVec.ofNat 32 i) = some i →
        s'.manager.oneshots i = .complete (server.verdict track file)) ∧
      (s'.manager.oneshots i = s.manager.oneshots i ∨
        s'.manager.oneshots i = .complete (server.verdict track file)) ∧
      ∀ k < s.made, k ≠ i → s'.manager.oneshots k = s.manager.oneshots k ∧
        s'.manager.pending (BitVec.ofNat 32 k) = s.manager.pending (BitVec.ofNat 32 k) := by
  have enough : 4 ≤ (be 4 (BitVec.ofNat 32 i).toNat ++ (server.reply track file).2).length := by
    rw [List.length_append, Bytes.length_be]
    omega
  obtain ⟨m, dispatched⟩ := @AudioKeyManager.dispatch_whole warns _ _ s.manager
    (server.reply_answers track file) enough (server.reply_whole track file _)
  have returned : (s.step build warns (.dispatch (server.reply track file).1
      (be 4 (BitVec.ofNat 32 i).toNat ++ (server.reply track file).2))).value = some { s with manager := m } :=
    Call.bind_returns.mpr ⟨m, dispatched, rfl⟩
  obtain ⟨counts', table, _⟩ := AudioKeys.dispatch_spec counts returned
  have sound' := sound.step key_kind (KeyAction.dispatch (server.reply track file).1
    (be 4 (BitVec.ofNat 32 i).toNat ++ (server.reply track file).2)).turn
  rw [← table] at sound'
  refine ⟨_, returned, counts', sound', rfl, ?_⟩
  simp only [Numbered.Table.step, KeyAction.turn, seq_of_be] at table
  cases there : s.manager.pending (BitVec.ofNat 32 i) with
  | none =>
    have there : s.table.slots (BitVec.ofNat 32 i) = none := there
    rw [there] at table
    have pending : m.pending = s.manager.pending := congrArg Numbered.Table.slots table
    have oneshots : m.oneshots = s.manager.oneshots := congrArg Numbered.Table.parties table
    dsimp only
    rw [pending, oneshots]
    exact ⟨by simp, .inl rfl, fun _ _ _ => ⟨rfl, rfl⟩⟩
  | some j =>
    obtain ⟨same, older, _⟩ := sound _ _ there
    have older : j < s.made := older
    obtain rfl : i = j := Numbered.number_inj (by omega) (by omega) same
    have there : s.table.slots (BitVec.ofNat 32 i) = some i := there
    rw [there] at table
    have pending : m.pending = Function.update s.manager.pending (BitVec.ofNat 32 i) none :=
      congrArg Numbered.Table.slots table
    have oneshots : m.oneshots =
        Function.update s.manager.oneshots i (.complete (server.verdict track file)) := by
      rw [← server.reply_outcome track file (BitVec.ofNat 32 i)]
      exact congrArg Numbered.Table.parties table
    dsimp only
    rw [pending, oneshots, Function.update_self]
    refine ⟨fun _ => rfl, .inr rfl, fun k young other => ?_⟩
    have number : BitVec.ofNat 32 k ≠ BitVec.ofNat 32 i :=
      fun same => other (Numbered.number_inj (by omega) (by omega) same)
    rw [Function.update_of_ne other, Function.update_of_ne number]
    exact ⟨rfl, rfl⟩

theorem Served.answer {turns : List KeyTurn} {world : KeyWorld} (served : Served server turns world)
    (few : world.keys.made < 2 ^ 32) (i : Nat) :
    ∃ world', (world.step build warns server (.answer i)).value = some world' ∧
      Served server (turns ++ [.answer i]) world' := by
  have same : asked (turns ++ [.answer i]) = asked turns := by
    rw [KeyTurn.asked_append]
    exact List.append_nil _
  have there : world.sent[i]? = (asked turns)[i]?.map fun asked =>
      (0xc, key_request (BitVec.ofNat 32 i) asked.1 asked.2) := by
    rw [served.sent, asks, List.getElem?_mapIdx]
  cases request : (asked turns)[i]? with
  | none =>
    rw [request, Option.map_none] at there
    have other (k : Nat) : Answered (turns ++ [.answer i]) k ↔ Answered turns k := by
      rw [answered_snoc, or_iff_left]
      rintro ⟨own, made⟩
      cases own
      exact Nat.not_le_of_lt made (List.getElem?_eq_none_iff.mp request)
    refine ⟨world, by simp [step, there], served.counts, served.sound, same ▸ served.made,
      same ▸ served.sent, ?_, ?_⟩
    · intro k track file asked answered
      exact served.answered k track file (same ▸ asked) ((other k).mp answered)
    · intro k young unanswered
      exact served.unanswered k young fun answered => unanswered ((other k).mpr answered)
  | some asked' =>
    obtain ⟨track, file⟩ := asked'
    have made : i < world.keys.made := by
      rw [served.made]
      exact (List.getElem?_eq_some_iff.mp request).1
    obtain ⟨keys, returned, counts, sound, still, settles, keeps, others⟩ :=
      dispatch_answer build warns server served.counts served.sound few
        made track file
    rw [request, Option.map_some] at there
    refine ⟨⟨keys, world.sent⟩, ?_, counts, sound, ?_, ?_, ?_, ?_⟩
    · simp only [step, there, Option.bind_some, server.answer_request]
      exact Call.bind_returns.mpr ⟨keys, returned, rfl⟩
    · rw [same]
      exact still.trans served.made
    · rw [same]
      exact served.sent
    · intro k track' file' asked answered
      rw [same] at asked
      by_cases own : k = i
      · subst own
        cases request.symm.trans asked
        by_cases before : Answered turns k
        · have settled := served.answered k track file request before
          exact keeps.elim (fun kept => kept.trans settled) id
        · exact settles (served.unanswered k made before).2
      · have before : Answered turns k := by
          rw [answered_snoc] at answered
          exact answered.resolve_right fun now => own (KeyTurn.answer.inj now.1).symm
        have young : k < world.keys.made := served.made ▸ before.made
        rw [(others k young own).1]
        exact served.answered k track' file' asked before
    · intro k young unanswered
      have young : k < world.keys.made := still ▸ young
      rw [answered_snoc, not_or] at unanswered
      have other : k ≠ i := by
        rintro rfl
        exact unanswered.2 ⟨rfl, served.made ▸ young⟩
      rw [(others k young other).1, (others k young other).2]
      exact served.unanswered k young unanswered.1

theorem run_served (build : Build) (warns : Bool) (server : KeyServer) {turns : List KeyTurn}
    (few : (asked turns).length < 2 ^ 32) :
    ∃ world, (run build warns server turns).value = some world ∧ Served server turns world := by
  induction turns using List.reverseRecOn with
  | nil => exact ⟨_, rfl, rfl, nofun, rfl, rfl, nofun, nofun⟩
  | append_singleton turns turn ih =>
    rw [KeyTurn.asked_append, List.length_append] at few
    obtain ⟨world, returned, served⟩ := ih (by omega)
    have made := served.made
    have next : ∃ world', (world.step build warns server turn).value = some world' ∧
        Served server (turns ++ [turn]) world' := by
      cases turn with
      | request track file =>
        have one : (asked [.request track file]).length = 1 := rfl
        exact served.request track file (by omega)
      | answer i => exact served.answer (by omega) i
    obtain ⟨world', stepped, served'⟩ := next
    refine ⟨world', ?_, served'⟩
    rw [run, Call.run_snoc]
    exact Call.bind_returns.mpr ⟨world, returned, stepped⟩

/-- While the numbers last, no order of requests and answers makes the client panic: each future waits
until its own request is answered and then has the key of its own file and track, or is refused. -/
theorem keys_served (build : Build) (warns : Bool) (server : KeyServer) (turns : List KeyTurn)
    (few : (asked turns).length < 2 ^ 32) :
    ∃ world, (run build warns server turns).value = some world ∧
      ∀ k track file, (asked turns)[k]? = some (track, file) →
        (Answered turns k →
          AudioKeyFuture.poll world.keys.manager ⟨k⟩ = (server.verdict track file).map .ready) ∧
        (¬ Answered turns k → AudioKeyFuture.poll world.keys.manager ⟨k⟩ = .ok .notReady) := by
  obtain ⟨world, returned, served⟩ := run_served build warns server few
  refine ⟨world, returned, fun k track file asked => ⟨fun answered => ?_, fun unanswered => ?_⟩⟩
  · rw [AudioKeyFuture.poll, served.answered k track file asked answered]
    cases server.verdict track file <;> rfl
  · have young : k < world.keys.made := by
      rw [served.made]
      exact (List.getElem?_eq_some_iff.mp asked).1
    rw [AudioKeyFuture.poll, (served.unanswered k young unanswered).1]
    rfl

/-- A server that has one key and refuses the rest. -/
def one_key : KeyServer where
  keys track _ := if track = ⟨.zero⟩ then some ⟨List.replicate 16 7, rfl⟩ else none
  code := (0, 1)

def three_requests : List KeyTurn :=
  let file : FileId := ⟨List.replicate 20 6, rfl⟩
  [.request ⟨.zero⟩ file, .request ⟨.from_parts 0 1⟩ file, .request ⟨.zero⟩ file, .answer 1, .answer 0, .answer 1]

theorem keys_served_three : ∃ world, (run .debug true one_key three_requests).value = some world ∧
    AudioKeyFuture.poll world.keys.manager ⟨0⟩ = .ok (.ready ⟨List.replicate 16 7, rfl⟩) ∧
    AudioKeyFuture.poll world.keys.manager ⟨1⟩ = .error {} ∧
    AudioKeyFuture.poll world.keys.manager ⟨2⟩ = .ok .notReady := by
  obtain ⟨world, returned, served⟩ := keys_served .debug true one_key three_requests (by decide)
  refine ⟨world, returned, ((served 0 _ _ rfl).1 ?_).trans ?_, ((served 1 _ _ rfl).1 ?_).trans ?_,
    (served 2 _ _ rfl).2 ?_⟩
  · exact ⟨three_requests.take 4, three_requests.drop 5, rfl, by decide⟩
  · rfl
  · exact ⟨three_requests.take 3, three_requests.drop 4, rfl, by decide⟩
  · rfl
  · rintro ⟨before, after, cut, _⟩
    have member : KeyTurn.answer 2 ∈ three_requests := by
      rw [cut]
      simp
    exact absurd member (by decide)

end KeyWorld

end ConnectScrobbler
