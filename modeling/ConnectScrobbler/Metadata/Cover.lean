import ConnectScrobbler.Core.Channel.Split
import ConnectScrobbler.Core.Channel.Allocate
import ConnectScrobbler.Lib.Numbered
import ConnectScrobbler.Metadata

/-! The images of covers, `metadata/src/cover.rs`, each of them read from a channel of its own. -/
namespace ConnectScrobbler

open Bytes (be drain_to read_be)

/-- What the owner of a cover has: the half for the chunks, until it has come to its end. -/
structure Cover where
  channel : Channel
  ended : Bool
  deriving DecidableEq, Repr

inductive CoverOwner where
  | poll | drop
  deriving DecidableEq, Repr

namespace Cover

def new : Cover := ⟨.new, false⟩

/-- The owner stops polling when the end of the stream has been given. A poll after that, where the source
panics, does nothing here. -/
def poll (c : Cover) : Call Split.Yield Cover :=
  if c.ended then return c
  else do
    match ← Call.unwrap (ChannelData.poll false c.channel) with
    | (.ok .notReady, channel) => return { c with channel }
    | (.ok (.ready item), channel) => do
      Call.emit (.data item)
      return ⟨channel, item.isNone⟩
    | (.error _, channel) => do
      Call.emit .error
      return { c with channel }

/-- Both halves are dropped, and with them the receiving end. -/
def drop (c : Cover) : Cover := ⟨{ c.channel with receiver := c.channel.receiver.close }, true⟩

def own (c : Cover) : CoverOwner → Call Split.Yield Cover
  | .poll => c.poll
  | .drop => return c.drop

end Cover

/-- All covers that have been asked for. The receiving end of a cover is with the manager. -/
structure Covers where
  manager : ChannelManager
  states : Nat → ChannelState
  ended : Nat → Bool

inductive CoverEffect where
  | channel (e : ChannelEffect)
  | send_packet (cmd : UInt8) (data : Bytes)
  | yield (cover : Nat) (y : Split.Yield)
  deriving DecidableEq, Repr

/-- `connected` says whether the session still takes packets. -/
inductive CoverAction where
  | get (file : FileId) (connected : Bool)
  | dispatch (cmd : UInt8) (data : Bytes)
  | own (cover : Nat) (action : CoverOwner)
  deriving DecidableEq

namespace Covers

def new : Covers := ⟨.new, fun _ => .Header [], fun _ => false⟩

def cover (k : Nat) (s : Covers) : Cover := ⟨⟨s.manager.receivers k, s.states k⟩, s.ended k⟩

def put (k : Nat) (c : Cover) (s : Covers) : Covers where
  manager := { s.manager with receivers := Function.update s.manager.receivers k c.channel.receiver }
  states := Function.update s.states k c.channel.state
  ended := Function.update s.ended k c.ended

/-- The data of the packet that asks for a file. -/
def cover_request (channel_id : BitVec 16) (file : FileId) : Bytes :=
  be 2 channel_id.toNat ++ be 2 0 ++ file.bytes

/-- `cover::get`: the half for the headers is dropped at once. -/
def get (build : Build) (connected : Bool) (file : FileId) (s : Covers) : Call CoverEffect (Nat × Covers) := do
  let ((channel_id, data), manager) ← (s.manager.allocate build).within .channel
  let s := { s with manager, states := Function.update s.states data (.Header []) }
  if connected then
    Call.emit (.send_packet 0x19 (cover_request channel_id file))
    return (data, s)
  else Call.panic

/-- The owners have the covers that there are. -/
def step (build : Build) (s : Covers) : CoverAction → Call CoverEffect Covers
  | .get file connected => do
    let (_, s) ← s.get build connected file
    return s
  | .dispatch cmd data => do
    let manager ← (s.manager.dispatch cmd data).within .channel
    return { s with manager }
  | .own k action =>
    if k < s.manager.made then do
      let c ← ((s.cover k).own action).within (.yield k)
      return s.put k c
    else return s

def run (build : Build) (actions : List CoverAction) : Call CoverEffect Covers :=
  Call.run (step build) .new actions

end Covers

/-- What the owner of a cover has heard. -/
def CoverEffect.yields (k : Nat) : List CoverEffect → List Split.Yield
  | [] => []
  | .yield other y :: log => (if other = k then [y] else []) ++ yields k log
  | .channel _ :: log | .send_packet _ _ :: log => yields k log

/-- The packets that have been sent. -/
def CoverEffect.sent : List CoverEffect → List (UInt8 × Bytes)
  | [] => []
  | .send_packet cmd data :: log => (cmd, data) :: sent log
  | .channel _ :: log | .yield _ _ :: log => sent log

/-! A cover alone. -/

open Numbered (Happening Table Turn)

def Cover.meet (c : Cover) : Happening (UInt8 × Bytes) CoverOwner → Call Split.Yield Cover
  | .said packet => return { c with channel.receiver := c.channel.receiver.send packet }
  | .lost => return { c with channel.receiver := c.channel.receiver.drop_sender }
  | .did action => c.own action

/-- Covers as parties with a number each; what a party has come to is all that its owner has heard and
the cover as it is. -/
def cover_kind : Numbered.Kind (Call Split.Yield Cover) (UInt8 × Bytes) CoverOwner where
  new := return .new
  deliver x packet := x >>= fun c => c.meet (.said packet)
  keeps _ := true
  replace x := x >>= fun c => c.meet .lost
  act x action := x >>= fun c => c.meet (.did action)

namespace CoverAction

def turn : CoverAction → Option (Turn 16 (UInt8 × Bytes) CoverOwner)
  | .get _ _ => some .enter
  | .dispatch cmd data =>
    (drain_to 2 data).map fun (id, data) => .message (BitVec.ofNat 16 (read_be id)) (cmd, data)
  | .own k action => some (.own k action)

/-- What befalls a cover: the packets with its id while it has it, and what its owner does. -/
def life (k : Nat) (actions : List CoverAction) : List (Happening (UInt8 × Bytes) CoverOwner) :=
  Numbered.life k 0 (actions.filterMap turn)

def requests : List CoverAction → List FileId
  | [] => []
  | .get file _ :: actions => file :: requests actions
  | .dispatch _ _ :: actions | .own _ _ :: actions => requests actions

end CoverAction

namespace CoverEffect

theorem yields_append (k : Nat) (one other : List CoverEffect) :
    yields k (one ++ other) = yields k one ++ yields k other := by
  induction one with
  | nil => rfl
  | cons e one ih => cases e <;> simp [yields, ih]

theorem sent_append (one other : List CoverEffect) : sent (one ++ other) = sent one ++ sent other := by
  induction one with
  | nil => rfl
  | cons e one ih => cases e <;> simp [sent, ih]

theorem quiet (log : List ChannelEffect) :
    (∀ k, yields k (log.map .channel) = []) ∧ sent (log.map .channel) = [] := by
  induction log with
  | nil => exact ⟨fun _ => rfl, rfl⟩
  | cons e log ih => exact ih

theorem yields_own (k : Nat) (log : List Split.Yield) : yields k (log.map (.yield k)) = log := by
  induction log with
  | nil => rfl
  | cons y log ih => simp [yields, ih]

theorem yields_other {k other : Nat} (apart : other ≠ k) (log : List Split.Yield) :
    yields k (log.map (.yield other)) = [] := by
  induction log with
  | nil => rfl
  | cons y log ih => simp [yields, apart, ih]

theorem sent_yields (k : Nat) (log : List Split.Yield) : sent (log.map (.yield k)) = [] := by
  induction log with
  | nil => rfl
  | cons y log ih => exact ih

end CoverEffect

open CoverEffect (yields sent yields_append sent_append)

namespace Covers

variable {build : Build} {log : List CoverEffect} {s s' : Covers}

/-- The table behind the manager. -/
def table (log : List CoverEffect) (s : Covers) : Table 16 (Call Split.Yield Cover) :=
  ⟨s.manager.channels, s.manager.made, fun k => ⟨yields k log, some (s.cover k)⟩⟩

def Counts (s : Covers) : Prop := s.manager.sequence = ⟨BitVec.ofNat 16 s.manager.made⟩

/-- A cover that there is not yet. -/
def Fresh (log : List CoverEffect) (s : Covers) : Prop :=
  ∀ k, s.manager.made ≤ k → yields k log = [] ∧ s.ended k = false

theorem table_eq {t : Table 16 (Call Split.Yield Cover)} (slots : s.manager.channels = t.slots)
    (made : s.manager.made = t.made)
    (parties : ∀ k, (⟨yields k log, some (s.cover k)⟩ : Call Split.Yield Cover) = t.parties k) :
    s.table log = t := by
  obtain ⟨_, _, _⟩ := t
  rw [table, Table.mk.injEq]
  exact ⟨slots, made, funext parties⟩

/-- The manager after an allocation. -/
def given (seq : BitVec 16) (sequence : SeqGenerator 16) (m : ChannelManager) : ChannelManager :=
  { sequence
    channels := Function.update m.channels seq (some m.made)
    made := m.made + 1
    receivers := Function.update (m.replace (m.channels seq)) m.made .new }

/-- A cover more. -/
def asked (seq : BitVec 16) (sequence : SeqGenerator 16) (s : Covers) : Covers :=
  ⟨given seq sequence s.manager, Function.update s.states s.manager.made (.Header []), s.ended⟩

theorem get_eq {seq : BitVec 16} {sequence : SeqGenerator 16} (connected : Bool) (file : FileId)
    (next : s.manager.sequence.get build = some (seq, sequence)) :
    ∃ log : List ChannelEffect, s.get build connected file =
      if connected then ⟨log.map .channel ++ [.send_packet 0x19 (cover_request seq file)],
        some (s.manager.made, s.asked seq sequence)⟩
      else ⟨log.map .channel, none⟩ := by
  refine ⟨[.insert seq s.manager.made (s.manager.channels seq)], ?_⟩
  cases connected <;> simp [get, ChannelManager.allocate, next, Call.within, given, asked]

theorem get_spec {file : FileId} {connected : Bool} (counts : s.Counts) (fresh : s.Fresh log)
    (returned : (s.step build (.get file connected)).value = some s') :
    s'.Counts ∧ s'.table (log ++ (s.step build (.get file connected)).log) =
        (s.table log).step cover_kind .enter ∧
      sent (s.step build (.get file connected)).log =
        [(0x19, cover_request (BitVec.ofNat 16 s.manager.made) file)] := by
  obtain ⟨⟨k, t⟩, got, done⟩ := Call.bind_returns.mp returned
  obtain ⟨⟨⟨seq, channel⟩, m⟩, allocated, _⟩ := Call.bind_returns.mp got
  replace allocated : (s.manager.allocate build).value = some ((seq, channel), m) := allocated
  obtain ⟨⟨seq', sequence⟩, next, _⟩ := Call.bind_returns.mp allocated
  obtain ⟨rfl, rfl, _⟩ := SeqGenerator.get_counts (by decide) (counts ▸ next)
  obtain ⟨early, gets⟩ := get_eq connected file next
  cases connected with
  | false =>
    rw [gets] at got
    cases got
  | true =>
    have stepped : s.step build (.get file true) = ⟨early.map .channel ++
        [.send_packet 0x19 (cover_request (BitVec.ofNat 16 s.manager.made) file)],
        some (s.asked (BitVec.ofNat 16 s.manager.made) ⟨BitVec.ofNat 16 (s.manager.made + 1)⟩)⟩ := by
      rw [step, gets]
      simp
    rw [stepped] at returned ⊢
    cases returned
    have silent (k : Nat) : yields k
        (early.map .channel ++ [.send_packet 0x19 (cover_request (BitVec.ofNat 16 s.manager.made) file)]) =
          [] := by
      rw [yields_append, (CoverEffect.quiet early).1]
      rfl
    refine ⟨rfl, table_eq rfl rfl fun j => ?_, by rw [sent_append, (CoverEffect.quiet early).2]; rfl⟩
    simp only [Table.step, cover_kind]
    rw [yields_append, silent, List.append_nil]
    by_cases own : j = s.manager.made
    · obtain ⟨unheard, going⟩ := fresh j (Nat.le_of_eq own.symm)
      subst own
      have new : (s.table log).made = s.manager.made := rfl
      rw [new, Function.update_self, unheard]
      simp [cover, asked, given, going, Cover.new, Channel.new]
    · have other : (s.table log).made = s.manager.made := rfl
      rw [other, Function.update_of_ne own, Table.lose]
      cases replaced : (s.table log).slots (BitVec.ofNat 16 (s.table log).made) with
      | none =>
        replace replaced : s.manager.channels (BitVec.ofNat 16 s.manager.made) = none := replaced
        simp [table, cover, asked, given, replaced, ChannelManager.replace, own]
      | some old =>
        replace replaced : s.manager.channels (BitVec.ofNat 16 s.manager.made) = some old := replaced
        by_cases lost : j = old
        · subst lost
          simp [table, cover, asked, given, replaced, ChannelManager.replace, own, Cover.meet]
        · simp [table, cover, asked, given, replaced, ChannelManager.replace, own, lost]

/-- The receiving end that has the id gets the packet, if it still takes any. -/
theorem dispatch_value {m : ChannelManager} {data id rest : Bytes} (cmd : UInt8)
    (drained : drain_to 2 data = some (id, rest)) : (m.dispatch cmd data).value =
      some (match m.channels (BitVec.ofNat 16 (read_be id)) with
        | some k =>
          { m with receivers := Function.update m.receivers k ((m.receivers k).send (cmd, rest)) }
        | none => m) := by
  rw [ChannelManager.dispatch, drained]
  simp only [Call.unwrap_eq, Call.bind_some]
  cases m.channels (BitVec.ofNat 16 (read_be id)) with
  | none => rfl
  | some k =>
    simp only [ChannelManager.send]
    split
    · rfl
    · rename_i closed
      have lost : (m.receivers k).send (cmd, rest) = m.receivers k := if_neg closed
      simp only [lost, Function.update_eq_self]
      rfl

theorem dispatch_spec (log : List CoverEffect) {cmd : UInt8} {data : Bytes} (counts : s.Counts)
    (returned : (s.step build (.dispatch cmd data)).value = some s') :
    s'.Counts ∧ sent (s.step build (.dispatch cmd data)).log = [] ∧
      ∃ turn, (CoverAction.dispatch cmd data).turn = some turn ∧
        s'.table (log ++ (s.step build (.dispatch cmd data)).log) =
          (s.table log).step cover_kind turn := by
  simp only [step] at returned ⊢
  obtain ⟨m, dispatched, done⟩ := Call.bind_returns.mp returned
  cases done
  replace dispatched : (s.manager.dispatch cmd data).value = some m := dispatched
  rw [Call.bind_pure_log, Call.within_log]
  cases drained : drain_to 2 data with
  | none =>
    rw [ChannelManager.dispatch, drained] at dispatched
    cases dispatched
  | some pair =>
    obtain ⟨id, rest⟩ := pair
    have number : (CoverAction.dispatch cmd data).turn =
        some (.message (BitVec.ofNat 16 (read_be id)) (cmd, rest)) := by
      simp [CoverAction.turn, drained]
    have after := Option.some.inj (dispatched.symm.trans (dispatch_value cmd drained))
    have silent (j : Nat) : yields j (log ++ (s.manager.dispatch cmd data).log.map .channel) = yields j log := by
      rw [yields_append, (CoverEffect.quiet _).1, List.append_nil]
    cases there : s.manager.channels (BitVec.ofNat 16 (read_be id)) with
    | none =>
      have stepped : (s.table log).step cover_kind (.message (BitVec.ofNat 16 (read_be id)) (cmd, rest)) =
          s.table log := by
        simp only [Table.step, table, there]
      rw [there] at after
      subst after
      refine ⟨counts, (CoverEffect.quiet _).2, _, number, ?_⟩
      rw [stepped]
      exact table_eq rfl rfl fun j => by rw [silent]; rfl
    | some k =>
      have stepped : (s.table log).step cover_kind (.message (BitVec.ofNat 16 (read_be id)) (cmd, rest)) =
          { s.table log with
            parties := Function.update (s.table log).parties k
              (cover_kind.deliver ((s.table log).parties k) (cmd, rest)) } := by
        simp only [Table.step, table, there, cover_kind, if_true]
      rw [there] at after
      subst after
      refine ⟨counts, (CoverEffect.quiet _).2, _, number, ?_⟩
      rw [stepped]
      refine table_eq rfl rfl fun j => ?_
      rw [silent]
      by_cases own : j = k
      · subst own
        simp [table, cover_kind, cover, Cover.meet]
      · simp [table, cover, own]

theorem own_spec (log : List CoverEffect) {k : Nat} {action : CoverOwner} (counts : s.Counts)
    (returned : (s.step build (.own k action)).value = some s') :
    s'.Counts ∧ sent (s.step build (.own k action)).log = [] ∧
      s'.table (log ++ (s.step build (.own k action)).log) =
        (s.table log).step cover_kind (.own k action) := by
  by_cases there : k < s.manager.made
  · simp only [step, if_pos there] at returned ⊢
    obtain ⟨c, came, done⟩ := Call.bind_returns.mp returned
    cases done
    have came : ((s.cover k).own action).value = some c := came
    rw [Call.bind_pure_log, Call.within_log]
    have stepped : (s.table log).step cover_kind (.own k action) =
        { s.table log with
          parties := Function.update (s.table log).parties k
            (cover_kind.act ((s.table log).parties k) action) } := if_pos there
    rw [stepped]
    refine ⟨counts, CoverEffect.sent_yields k _, table_eq rfl rfl fun j => ?_⟩
    simp only [table, cover_kind, Cover.meet]
    by_cases same : j = k
    · subst same
      rw [Function.update_self, yields_append, CoverEffect.yields_own, Call.bind_some, came]
      simp [put, cover]
    · rw [Function.update_of_ne same, yields_append, CoverEffect.yields_other (Ne.symm same),
        List.append_nil]
      simp [put, cover, same]
  · simp only [step, if_neg there] at returned ⊢
    cases returned
    have stepped : (s.table log).step cover_kind (.own k action) = s.table log := if_neg there
    rw [stepped, Call.pure_eq, List.append_nil]
    exact ⟨counts, rfl, rfl⟩

/-- The packets that ask for these files, one after the other. -/
def asks (requests : List FileId) : List (UInt8 × Bytes) :=
  requests.mapIdx fun k file => (0x19, cover_request (BitVec.ofNat 16 k) file)

theorem requests_append (one other : List CoverAction) :
    CoverAction.requests (one ++ other) = CoverAction.requests one ++ CoverAction.requests other := by
  induction one with
  | nil => rfl
  | cons action one ih => cases action <;> simp [CoverAction.requests, ih]

/-- A run of the covers is a run of the table. -/
structure Tabled (actions : List CoverAction) (log : List CoverEffect) (s : Covers) : Prop where
  counts : s.Counts
  table : s.table log = (Table.new cover_kind.new).run cover_kind (actions.filterMap CoverAction.turn)
  sent : sent log = asks (CoverAction.requests actions)

variable {actions : List CoverAction}

theorem entered_turns (actions : List CoverAction) :
    Numbered.entered (actions.filterMap CoverAction.turn) = (CoverAction.requests actions).length := by
  induction actions with
  | nil => rfl
  | cons action actions ih =>
    cases action with
    | get file connected => simp [CoverAction.turn, Numbered.entered, CoverAction.requests, ih]
    | dispatch cmd data =>
      cases read : drain_to 2 data <;>
        simp [CoverAction.turn, Numbered.entered, CoverAction.requests, read, ih]
    | own k action => simp [CoverAction.turn, Numbered.entered, CoverAction.requests, ih]

theorem Tabled.made (tabled : Tabled actions log s) :
    s.manager.made = (CoverAction.requests actions).length := by
  have made := Numbered.table_made cover_kind cover_kind.new (actions.filterMap CoverAction.turn)
  rwa [← tabled.table, entered_turns] at made

theorem Tabled.fresh (tabled : Tabled actions log s) : s.Fresh log := by
  intro k early
  rw [tabled.made, ← entered_turns] at early
  have party := Numbered.table_before cover_kind cover_kind.new (actions.filterMap CoverAction.turn) early
  rw [← tabled.table] at party
  have party : (⟨yields k log, some (s.cover k)⟩ : Call Split.Yield Cover) = ⟨[], some .new⟩ := party
  rw [Call.mk.injEq, Option.some.injEq] at party
  exact ⟨party.1, congrArg Cover.ended party.2⟩

theorem Tabled.step {action : CoverAction} (tabled : Tabled actions log s)
    (returned : (s.step build action).value = some s') :
    Tabled (actions ++ [action]) (log ++ (s.step build action).log) s' := by
  have grows {turn : Turn 16 (UInt8 × Bytes) CoverOwner} (own : action.turn = some turn) :
      (Table.new cover_kind.new).run cover_kind ((actions ++ [action]).filterMap CoverAction.turn) =
        (s.table log).step cover_kind turn := by
    rw [List.filterMap_append, tabled.table, Table.run, List.foldl_append, List.filterMap_cons, own]
    rfl
  cases action with
  | get file connected =>
    obtain ⟨counts, table, sent⟩ := get_spec tabled.counts tabled.fresh returned
    refine ⟨counts, table.trans (grows rfl).symm, ?_⟩
    rw [sent_append, tabled.sent, sent, tabled.made, requests_append]
    exact List.mapIdx_concat.symm
  | dispatch cmd data =>
    obtain ⟨counts, sent, turn, own, table⟩ := dispatch_spec log tabled.counts returned
    refine ⟨counts, table.trans (grows own).symm, ?_⟩
    rw [sent_append, tabled.sent, sent, requests_append, CoverAction.requests, CoverAction.requests,
      List.append_nil, List.append_nil]
  | own k action =>
    obtain ⟨counts, sent, table⟩ := own_spec log tabled.counts returned
    refine ⟨counts, table.trans (grows rfl).symm, ?_⟩
    rw [sent_append, tabled.sent, sent, requests_append, CoverAction.requests, CoverAction.requests,
      List.append_nil, List.append_nil]

theorem run_tabled (returned : (run build actions).value = some s) :
    Tabled actions (run build actions).log s :=
  Call.run_induction ⟨rfl, rfl, rfl⟩ (fun _ _ _ tabled _ _ returned => tabled.step returned) returned

theorem met (happenings : List (Happening (UInt8 × Bytes) CoverOwner)) (x : Call Split.Yield Cover) :
    happenings.foldl (Numbered.meet cover_kind) x = x >>= fun c => Call.run Cover.meet c happenings := by
  induction happenings generalizing x with
  | nil =>
    obtain ⟨log, value⟩ := x
    cases value <;> simp
  | cons happening happenings ih =>
    have first : Numbered.meet cover_kind x happening = x >>= fun c => c.meet happening := by
      cases happening <;> rfl
    rw [List.foldl_cons, ih, first, Call.bind_assoc]
    rfl

/-- However the packets of all channels and the polls of all owners are interleaved, what the owner of a
cover hears and what becomes of its channel are what its own packets and polls make of them alone. -/
theorem covers_isolated (returned : (run build actions).value = some s) :
    s.manager.made = (CoverAction.requests actions).length ∧
    sent (run build actions).log = asks (CoverAction.requests actions) ∧
    ∀ k < s.manager.made, Call.run Cover.meet .new (CoverAction.life k actions) =
      ⟨yields k (run build actions).log, some (s.cover k)⟩ := by
  have tabled := run_tabled returned
  refine ⟨tabled.made, tabled.sent, fun k made => ?_⟩
  rw [tabled.made, ← entered_turns] at made
  have lives := Numbered.table_lives cover_kind cover_kind.new (actions.filterMap CoverAction.turn) made
  rw [← tabled.table, (Numbered.lived_keeps (fun _ => rfl) k _).1, met] at lives
  exact lives.symm

/-- Two covers are asked for; the second comes, the first is refused. -/
def two_covers : List CoverAction :=
  let file : FileId := ⟨List.replicate 20 8, rfl⟩
  [.get file true, .get file true, .dispatch 0x9 [0, 1, 0, 0], .dispatch 0xa [0, 0, 0, 5],
    .dispatch 0x9 [0, 1, 7]]

theorem covers_isolated_two : ∃ s,
    (run .debug (two_covers ++ [.own 1 .poll])).value = some s ∧
      yields 1 (run .debug (two_covers ++ [.own 1 .poll])).log = [.data (some [7])] := by
  have chunk : ChannelData.poll_loop ⟨⟨[(0x9, [0, 0]), (0x9, [7])], true, true⟩, .Header []⟩ =
      some (.ok (.ready (some [7])), ⟨⟨[], true, true⟩, .Data⟩) :=
    ChannelData.poll_loop_data (by decide)
  obtain ⟨before, reached⟩ : ∃ before, (run .debug two_covers).value = some before := ⟨_, rfl⟩
  have cover : before.cover 1 = ⟨⟨⟨[(0x9, [0, 0]), (0x9, [7])], true, true⟩, .Header []⟩, false⟩ := by
    cases reached
    rfl
  have made : 1 < before.manager.made := by
    cases reached
    decide
  have polled : (before.step .debug (.own 1 .poll)).value =
      some (before.put 1 ⟨⟨⟨[], true, true⟩, .Data⟩, false⟩) := by
    simp [step, made, cover, Cover.own, Cover.poll, ChannelData.poll, chunk, Call.within]
  have returned : (run .debug (two_covers ++ [.own 1 .poll])).value =
      some (before.put 1 ⟨⟨⟨[], true, true⟩, .Data⟩, false⟩) := by
    rw [run, Call.run_snoc]
    exact Call.bind_returns.mpr ⟨before, reached, polled⟩
  obtain ⟨_, _, alone⟩ := covers_isolated returned
  have heard := congrArg Call.log (alone 1 made)
  refine ⟨_, returned, heard.symm.trans ?_⟩
  have life : CoverAction.life 1 (two_covers ++ [.own 1 .poll]) =
      [.said (0x9, [0, 0]), .said (0x9, [7]), .did .poll] := by decide
  rw [life]
  simp [Call.run, Cover.meet, Cover.new, Channel.new, Receiver.new, Receiver.send, Cover.own, Cover.poll,
    ChannelData.poll, chunk]

end Covers

end ConnectScrobbler
