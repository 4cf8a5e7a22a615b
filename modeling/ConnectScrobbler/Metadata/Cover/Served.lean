import ConnectScrobbler.Metadata.Cover

/-! Covers from a server that sends on each channel the file that was asked for on it. It may send the
packets of different channels in any order. -/
namespace ConnectScrobbler

open Bytes (be drain_to read_be)
open Channel (Playing)
open CoverEffect (yields sent yields_append sent_append)
open Covers (cover_request)

/-- How the server reads a request: the id to answer under and what is to be sent. -/
def serve (content : FileId → Content) (packet : UInt8 × Bytes) : Option (Bytes × List Bytes) :=
  if packet.1 = 0x19 then do
    let (id, data) ← drain_to 2 packet.2
    let (_, data) ← drain_to 2 data
    let file ← FileId.clone_from_slice data
    return (id, (content file).packets)
  else none

/-- The client, and what the server has still to send for each request. -/
structure CoverWorld where
  covers : Covers
  left : List (Bytes × List Bytes)

inductive CoverTurn where
  | get (file : FileId)
  | arrive (i : Nat)
  | poll (cover : Nat)
  deriving DecidableEq

namespace CoverWorld

variable (build : Build) (content : FileId → Content)

def step (world : CoverWorld) : CoverTurn → Call CoverEffect CoverWorld
  | .get file => do
    let (covers, log) ← (world.covers.step build (.get file true)).listen
    return ⟨covers, world.left ++ (sent log).filterMap (serve content)⟩
  | .arrive i =>
    match world.left[i]? with
    | some (id, packet :: rest) => do
      let covers ← world.covers.step build (.dispatch 0x9 (id ++ packet))
      return ⟨covers, world.left.set i (id, rest)⟩
    | some (_, []) | none => return world
  | .poll k => do
    let covers ← world.covers.step build (.own k .poll)
    return { world with covers }

def run (turns : List CoverTurn) : Call CoverEffect CoverWorld :=
  Call.run (step build content) ⟨.new, []⟩ turns

end CoverWorld

namespace CoverTurn

def asked : List CoverTurn → List FileId
  | [] => []
  | .get file :: turns => file :: asked turns
  | .arrive _ :: turns | .poll _ :: turns => asked turns

/-- How many packets of a cover may have arrived: only what was asked for comes. -/
def arrivals (k : Nat) : (made : Nat) → List CoverTurn → Nat
  | _, [] => 0
  | made, .get _ :: turns => arrivals k (made + 1) turns
  | made, .arrive i :: turns => (if i = k ∧ k < made then 1 else 0) + arrivals k made turns
  | made, .poll _ :: turns => arrivals k made turns

theorem asked_append (one other : List CoverTurn) : asked (one ++ other) = asked one ++ asked other := by
  induction one with
  | nil => rfl
  | cons turn one ih => cases turn <;> simp [asked, ih]

theorem arrivals_append (k made : Nat) (one other : List CoverTurn) :
    arrivals k made (one ++ other) = arrivals k made one + arrivals k (made + (asked one).length) other := by
  induction one generalizing made with
  | nil => simp [arrivals, asked]
  | cons turn one ih =>
    cases turn with
    | get file => simp only [List.cons_append, arrivals, asked, ih, List.length_cons, Nat.add_assoc, Nat.add_comm 1]
    | arrive i => simp only [List.cons_append, arrivals, asked, ih, Nat.add_assoc]
    | poll other => simp only [List.cons_append, arrivals, asked, ih]

theorem arrivals_early {k made : Nat} {turns : List CoverTurn} (early : made + (asked turns).length ≤ k) :
    arrivals k made turns = 0 := by
  induction turns generalizing made with
  | nil => rfl
  | cons turn turns ih =>
    cases turn with
    | get file =>
      simp only [asked, List.length_cons] at early
      rw [arrivals]
      exact ih (by omega)
    | arrive i =>
      simp only [asked] at early
      rw [arrivals, if_neg (fun there => absurd there.2 (by omega)), ih early]
    | poll other => exact ih early

end CoverTurn

/-! One cover while its packets arrive. -/

/-- What its owner is to hear. -/
def told (chunks : List Bytes) : List Split.Yield := chunks.map (fun chunk => .data (some chunk)) ++ [.data none]

/-- What the owner of a cover has still to hear. -/
inductive Watching (left : List Bytes) (c : Cover) : List Split.Yield → Prop
  | going {events : List ChannelEvent} (opened : c.ended = false) (playing : Playing left c.channel events) :
      Watching left c (told (chunks_of events))
  | gone (ended : c.ended = true) : Watching left c []

variable {left : List Bytes} {c : Cover} {later : List Split.Yield}

theorem Watching.arrive {packet : Bytes} (watching : Watching (packet :: left) c later) :
    Watching left { c with channel.receiver := c.channel.receiver.send (0x9, packet) } later := by
  cases watching with
  | going opened playing => exact .going opened (Split.arrives playing)
  | gone ended => exact .gone ended

theorem Watching.poll (watching : Watching left c later) :
    ∃ c' rest, c.poll.value = some c' ∧ Watching left c' rest ∧ later = c.poll.log ++ rest ∧
      (left = [] → rest.length = later.length - 1) := by
  cases watching with
  | gone ended =>
    have polled : c.poll = ⟨[], some c⟩ := if_pos ended
    rw [polled]
    exact ⟨c, [], rfl, .gone ended, rfl, fun _ => rfl⟩
  | @going events opened playing =>
    have outcome := data_outcome playing
    generalize there : ChannelData.poll_loop c.channel = result at outcome
    generalize chunks_of events = chunks at outcome ⊢
    cases outcome with
    | @waits events' channel coming playing' same =>
      have polled : c.poll = ⟨[], some { c with channel }⟩ := by
        simp [Cover.poll, opened, ChannelData.poll, there]
      rw [polled, ← same]
      exact ⟨_, _, rfl, .going opened playing', rfl, fun none => absurd none coming⟩
    | @data data events' channel playing' same =>
      have polled : c.poll = ⟨[.data (some data)], some ⟨channel, false⟩⟩ := by
        simp [Cover.poll, opened, ChannelData.poll, there]
      rw [polled, ← same]
      exact ⟨_, _, rfl, .going rfl playing', rfl, fun _ => rfl⟩
    | @through channel none_left closed =>
      have polled : c.poll = ⟨[.data none], some ⟨channel, true⟩⟩ := by
        simp [Cover.poll, opened, ChannelData.poll, there]
      rw [polled, none_left]
      exact ⟨_, [], rfl, .gone rfl, rfl, fun _ => rfl⟩

namespace CoverWorld

open CoverTurn (asked arrivals)

variable {build : Build} {content : FileId → Content} {turns : List CoverTurn} {log : List CoverEffect}
  {world : CoverWorld}

/-- The packets that are still to come for a cover are those behind the ones that have come, under its
own id, and its owner has heard what is not still to be heard. -/
structure Attended (content : FileId → Content) (turns : List CoverTurn) (log : List CoverEffect)
    (world : CoverWorld) (k : Nat) (file : FileId) : Prop where
  left : world.left[k]? =
    some (be 2 (BitVec.ofNat 16 k).toNat, (content file).packets.drop (arrivals k 0 turns))
  watching : ∃ later, Watching ((content file).packets.drop (arrivals k 0 turns)) (world.covers.cover k) later ∧
    yields k log ++ later = told (content file).chunks
  own : world.covers.manager.channels (BitVec.ofNat 16 k) = some k

structure Served (content : FileId → Content) (turns : List CoverTurn) (log : List CoverEffect)
    (world : CoverWorld) : Prop where
  counts : world.covers.Counts
  fresh : world.covers.Fresh log
  sound : Numbered.Sound (world.covers.table log)
  made : world.covers.manager.made = (asked turns).length
  length : world.left.length = (asked turns).length
  attended : ∀ k file, (asked turns)[k]? = some file → Attended content turns log world k file

theorem get_returns (build : Build) {s : Covers} (counts : s.Counts) (few : s.manager.made + 1 < 2 ^ 16)
    (file : FileId) :
    ∃ s', (s.step build (.get file true)).value = some s' := by
  have next : s.manager.sequence.get build =
      some (BitVec.ofNat 16 s.manager.made, ⟨BitVec.ofNat 16 (s.manager.made + 1)⟩) := by
    rw [show s.manager.sequence = ⟨BitVec.ofNat 16 s.manager.made⟩ from counts,
      SeqGenerator.get_next build few]
  obtain ⟨log, gets⟩ := Covers.get_eq true file next
  exact ⟨_, by rw [Covers.step, gets, if_pos rfl]; rfl⟩

theorem serve_request (content : FileId → Content) (id : BitVec 16) (file : FileId) :
    serve content (0x19, cover_request id file) = some (be 2 id.toNat, (content file).packets) := by
  have whole : FileId.clone_from_slice file.bytes = some file := dif_pos file.length
  simp only [serve, if_true, cover_request, List.append_assoc, Bytes.drain_to_append (Bytes.length_be 2 _),
    whole, Option.bind_eq_bind, Option.bind_some]
  rfl

theorem Watching.start (content : Content) :
    Watching content.packets .new (told content.chunks) := by
  rw [← Split.chunks_of_events content]
  exact .going rfl ⟨rfl, rfl, by simp [Cover.new, Channel.new, Receiver.new], content.plays⟩

/-- A cover more leaves those that there are as they are, while the ids last. -/
theorem get_frame {s s' : Covers} {file : FileId} (counts : s.Counts) (fresh : s.Fresh log)
    (sound : Numbered.Sound (s.table log)) (few : s.manager.made < 2 ^ 16)
    (returned : (s.step build (.get file true)).value = some s') :
    s'.manager.made = s.manager.made + 1 ∧
      s'.manager.channels =
        Function.update s.manager.channels (BitVec.ofNat 16 s.manager.made) (some s.manager.made) ∧
      (∀ j, j ≠ s.manager.made → yields j (log ++ (s.step build (.get file true)).log) = yields j log ∧
        s'.cover j = s.cover j) ∧
      yields s.manager.made (log ++ (s.step build (.get file true)).log) = [] ∧
      s'.cover s.manager.made = .new := by
  obtain ⟨_, table, _⟩ := Covers.get_spec counts fresh returned
  have free : (s.table log).slots (BitVec.ofNat 16 (s.table log).made) = none := Numbered.vacant sound few
  have parties (j : Nat) :
      (⟨yields j (log ++ (s.step build (.get file true)).log), some (s'.cover j)⟩ : Call Split.Yield Cover) =
        Function.update (s.table log).parties s.manager.made (pure .new) j := by
    have parties : (s'.table (log ++ (s.step build (.get file true)).log)).parties j =
        Function.update ((s.table log).lose cover_kind) s.manager.made cover_kind.new j := by
      rw [table]
      rfl
    rw [Numbered.Table.lose, free] at parties
    exact parties
  refine ⟨congrArg Numbered.Table.made table, congrArg Numbered.Table.slots table, fun j other => ?_, ?_⟩
  · have same := parties j
    rw [Function.update_of_ne other] at same
    exact ⟨congrArg Call.log same, Option.some.inj (congrArg Call.value same)⟩
  · have new := parties s.manager.made
    rw [Function.update_self] at new
    exact ⟨congrArg Call.log new, Option.some.inj (congrArg Call.value new)⟩

theorem Served.get (served : Served content turns log world) (file : FileId)
    (few : world.covers.manager.made + 1 < 2 ^ 16) :
    ∃ world', (world.step build content (.get file)).value = some world' ∧
      Served content (turns ++ [.get file]) (log ++ (world.step build content (.get file)).log) world' := by
  obtain ⟨covers, returned⟩ := get_returns build served.counts few file
  obtain ⟨counts, table, sent_one⟩ := Covers.get_spec served.counts served.fresh returned
  obtain ⟨made, channels, others, unheard, new⟩ :=
    get_frame served.counts served.fresh served.sound (Nat.lt_of_succ_lt few) returned
  have stepped : world.step build content (.get file) =
      ⟨(world.covers.step build (.get file true)).log, some ⟨covers, world.left ++
        [(be 2 (BitVec.ofNat 16 world.covers.manager.made).toNat, (content file).packets)]⟩⟩ := by
    simp [step, Call.listen, returned, sent_one, serve_request]
  have more : asked (turns ++ [.get file]) = asked turns ++ [file] := CoverTurn.asked_append turns _
  have same (k : Nat) : arrivals k 0 (turns ++ [.get file]) = arrivals k 0 turns := by
    rw [CoverTurn.arrivals_append]
    rfl
  rw [stepped]
  refine ⟨_, rfl, counts, ?_, ?_, ?_, ?_, ?_⟩
  · intro k late
    rw [made] at late
    have other : k ≠ world.covers.manager.made := by omega
    obtain ⟨heard, still⟩ := others k other
    obtain ⟨before, going⟩ := served.fresh k (by omega)
    exact ⟨heard.trans before, (congrArg Cover.ended still).trans going⟩
  · rw [table]
    exact served.sound.step cover_kind _
  · rw [made, more, List.length_append, served.made]
    rfl
  · rw [more, List.length_append, List.length_append, served.length]
    rfl
  · intro k asked_for there
    have numbers : (asked turns).length < 2 ^ 16 := by
      rw [← served.made]
      omega
    rw [more] at there
    by_cases young : k < (asked turns).length
    · rw [List.getElem?_append_left young] at there
      obtain ⟨left, ⟨later, watching, heard⟩, own⟩ := served.attended k asked_for there
      obtain ⟨silent, still⟩ := others k (by rw [served.made]; omega)
      have apart : BitVec.ofNat 16 k ≠ BitVec.ofNat 16 world.covers.manager.made := by
        intro shared
        have := Numbered.number_inj (by omega) (Nat.lt_of_succ_lt few) shared
        rw [served.made] at this
        omega
      constructor
      · rw [same, List.getElem?_append_left (by rw [served.length]; exact young)]
        exact left
      · rw [same]
        refine ⟨later, still ▸ watching, ?_⟩
        rw [silent]
        exact heard
      · rw [channels, Function.update_of_ne apart]
        exact own
    · have last : k = (asked turns).length := by
        have := (List.getElem?_eq_some_iff.mp there).1
        rw [List.length_append, List.length_singleton] at this
        omega
      subst last
      rw [List.getElem?_concat_length] at there
      cases there
      have none_yet : arrivals (asked turns).length 0 turns = 0 := CoverTurn.arrivals_early (by omega)
      rw [← served.made] at none_yet ⊢
      constructor
      · rw [same, none_yet, served.made, ← served.length]
        simp
      · rw [same, none_yet, List.drop_zero]
        exact ⟨_, new ▸ Watching.start (content file), by rw [unheard, List.nil_append]⟩
      · rw [channels, Function.update_self]

/-- A turn that concerns one cover. -/
theorem Served.touch (served : Served content turns log world) {turn : CoverTurn} {i : Nat}
    {world' : CoverWorld} {log' : List CoverEffect} (no_more : asked [turn] = [])
    (counts : world'.covers.Counts) (made : world'.covers.manager.made = world.covers.manager.made)
    (channels : world'.covers.manager.channels = world.covers.manager.channels)
    (length : world'.left.length = world.left.length) (within : i < world.covers.manager.made)
    (others : ∀ j, j ≠ i → yields j (log ++ log') = yields j log ∧
      world'.covers.cover j = world.covers.cover j ∧ world'.left[j]? = world.left[j]? ∧
      arrivals j 0 (turns ++ [turn]) = arrivals j 0 turns)
    (own : ∀ file, Attended content turns log world i file →
      Attended content (turns ++ [turn]) (log ++ log') world' i file) :
    Served content (turns ++ [turn]) (log ++ log') world' := by
  have same : asked (turns ++ [turn]) = asked turns := by
    rw [CoverTurn.asked_append, no_more, List.append_nil]
  constructor
  · exact counts
  · intro k late
    rw [made] at late
    obtain ⟨silent, still, _⟩ := others k (by omega)
    obtain ⟨before, going⟩ := served.fresh k late
    exact ⟨silent.trans before, (congrArg Cover.ended still).trans going⟩
  · intro number k found
    replace found : world'.covers.manager.channels number = some k := found
    rw [channels] at found
    have here := served.sound number k found
    rw [show (world'.covers.table (log ++ log')).made = (world.covers.table log).made from made]
    exact here
  · rw [made, same, served.made]
  · rw [length, same, served.length]
  · intro k file there
    rw [same] at there
    have before := served.attended k file there
    by_cases mine : k = i
    · subst mine
      exact own file before
    · obtain ⟨silent, still, left, count⟩ := others k mine
      obtain ⟨later, watching, heard⟩ := before.watching
      constructor
      · rw [left, count]
        exact before.left
      · rw [count, still, silent]
        exact ⟨later, watching, heard⟩
      · rw [channels]
        exact before.own

/-- Nothing arrives: nothing has been asked for, or everything has come. -/
theorem Served.nothing (served : Served content turns log world) {turn : CoverTurn}
    (no_more : asked [turn] = [])
    (none_left : ∀ k file, Attended content turns log world k file →
      (content file).packets.drop (arrivals k 0 (turns ++ [turn])) =
        (content file).packets.drop (arrivals k 0 turns)) :
    Served content (turns ++ [turn]) (log ++ []) world := by
  have same : asked (turns ++ [turn]) = asked turns := by
    rw [CoverTurn.asked_append, no_more, List.append_nil]
  rw [List.append_nil]
  refine ⟨served.counts, served.fresh, served.sound, same ▸ served.made, same ▸ served.length, ?_⟩
  intro k file there
  have before := served.attended k file (same ▸ there)
  have left := none_left k file before
  exact ⟨left ▸ before.left, left ▸ before.watching, before.own⟩

theorem arrivals_snoc (k i : Nat) (turns : List CoverTurn) : arrivals k 0 (turns ++ [.arrive i]) =
    arrivals k 0 turns + if i = k ∧ k < (asked turns).length then 1 else 0 := by
  rw [CoverTurn.arrivals_append, Nat.zero_add]
  rfl

theorem Served.arrive (served : Served content turns log world) (i : Nat) :
    ∃ world', (world.step build content (.arrive i)).value = some world' ∧
      Served content (turns ++ [.arrive i]) (log ++ (world.step build content (.arrive i)).log) world' := by
  cases request : (asked turns)[i]? with
  | none =>
    have late := List.getElem?_eq_none_iff.mp request
    have stepped : world.step build content (.arrive i) = ⟨[], some world⟩ := by
      have none_there : world.left[i]? = none := List.getElem?_eq_none_iff.mpr (served.length ▸ late)
      simp [step, none_there]
    rw [stepped]
    refine ⟨world, rfl, served.nothing rfl fun k file _ => ?_⟩
    rw [arrivals_snoc, if_neg (fun there => absurd there.2 (by omega)), Nat.add_zero]
  | some file =>
    have within := (List.getElem?_eq_some_iff.mp request).1
    have attended := served.attended i file request
    have left := attended.left
    cases rest : (content file).packets.drop (arrivals i 0 turns) with
    | nil =>
      rw [rest] at left
      have stepped : world.step build content (.arrive i) = ⟨[], some world⟩ := by
        simp [step, left]
      rw [stepped]
      refine ⟨world, rfl, served.nothing rfl fun k file' before => ?_⟩
      rw [arrivals_snoc]
      split
      · rename_i own
        obtain ⟨rfl, _⟩ := own
        have same := before.left.symm.trans attended.left
        rw [Option.some.injEq, Prod.mk.injEq, rest] at same
        rw [← List.drop_drop, same.2]
        rfl
      · rfl
    | cons packet rest' =>
      rw [rest] at left
      have drained : drain_to 2 (be 2 (BitVec.ofNat 16 i).toNat ++ packet) =
          some (be 2 (BitVec.ofNat 16 i).toNat, packet) := Bytes.drain_to_append (Bytes.length_be 2 _) packet
      have number : BitVec.ofNat 16 (read_be (be 2 (BitVec.ofNat 16 i).toNat)) = BitVec.ofNat 16 i := by
        rw [Bytes.read_be_be_of_lt (BitVec.ofNat 16 i).isLt, BitVec.ofNat_toNat, BitVec.setWidth_eq]
      have dispatched := Covers.dispatch_value (m := world.covers.manager) 0x9 drained
      rw [number, attended.own] at dispatched
      obtain ⟨quiet, dispatched⟩ := Call.eq_of_returned dispatched
      have stepped : world.step build content (.arrive i) = ⟨quiet.map .channel,
          some ⟨{ world.covers with manager := { world.covers.manager with
            receivers := Function.update world.covers.manager.receivers i
              ((world.covers.manager.receivers i).send (0x9, packet)) } },
            world.left.set i (be 2 (BitVec.ofNat 16 i).toNat, rest')⟩⟩ := by
        simp only [step, left, Covers.step, dispatched, Call.within, Call.bind_some, Call.pure_eq,
          List.append_nil]
      have silent (j : Nat) : yields j (log ++ quiet.map .channel) = yields j log := by
        rw [yields_append, (CoverEffect.quiet quiet).1, List.append_nil]
      have one_more : arrivals i 0 (turns ++ [.arrive i]) = arrivals i 0 turns + 1 := by
        rw [arrivals_snoc, if_pos ⟨rfl, within⟩]
      have behind : (content file).packets.drop (arrivals i 0 turns + 1) = rest' := by
        rw [← List.drop_drop, rest]
        rfl
      rw [stepped]
      refine ⟨_, rfl, served.touch (i := i) rfl served.counts rfl rfl (List.length_set ..)
        (served.made ▸ within) ?_ ?_⟩
      · intro j other
        refine ⟨silent j, ?_, List.getElem?_set_ne (Ne.symm other), ?_⟩
        · simp [Covers.cover, other]
        · rw [arrivals_snoc, if_neg (fun there => other there.1.symm), Nat.add_zero]
      · intro file' before
        have same := before.left.symm.trans attended.left
        rw [Option.some.injEq, Prod.mk.injEq, rest] at same
        have behind' : (content file').packets.drop (arrivals i 0 turns + 1) = rest' := by
          rw [← List.drop_drop, same.2]
          rfl
        obtain ⟨later, watching, heard⟩ := before.watching
        rw [same.2] at watching
        constructor
        · rw [one_more, behind', List.getElem?_set_self (by rw [served.length]; exact within)]
        · rw [one_more, behind', silent]
          refine ⟨later, ?_, heard⟩
          have next := watching.arrive
          simpa [Covers.cover] using next
        · exact before.own

theorem Served.poll (served : Served content turns log world) (k : Nat) :
    ∃ world', (world.step build content (.poll k)).value = some world' ∧
      Served content (turns ++ [.poll k]) (log ++ (world.step build content (.poll k)).log) world' := by
  have same (j : Nat) : arrivals j 0 (turns ++ [.poll k]) = arrivals j 0 turns := by
    rw [CoverTurn.arrivals_append]
    rfl
  by_cases young : k < world.covers.manager.made
  · have within : k < (asked turns).length := served.made ▸ young
    obtain ⟨later, watching, _⟩ := (served.attended k _ (List.getElem?_eq_getElem within)).watching
    obtain ⟨c, _, polled, _⟩ := watching.poll
    have stepped : world.step build content (.poll k) =
        ⟨(world.covers.cover k).poll.log.map (.yield k), some { world with covers := world.covers.put k c }⟩ := by
      simp [step, Covers.step, young, Cover.own, Call.within, polled]
    rw [stepped]
    refine ⟨_, rfl, served.touch (i := k) rfl served.counts rfl rfl rfl young ?_ ?_⟩
    · intro j other
      refine ⟨?_, ?_, rfl, same j⟩
      · rw [yields_append, CoverEffect.yields_other (Ne.symm other), List.append_nil]
      · simp [Covers.cover, Covers.put, other]
    · intro file before
      obtain ⟨later, watching, heard⟩ := before.watching
      obtain ⟨c', rest, polled', watching', said, _⟩ := watching.poll
      cases polled.symm.trans polled'
      have here : (world.covers.put k c).cover k = c := by simp [Covers.cover, Covers.put]
      constructor
      · rw [same]
        exact before.left
      · rw [same, here, yields_append, CoverEffect.yields_own]
        exact ⟨rest, watching', by rw [List.append_assoc, ← said]; exact heard⟩
      · exact before.own
  · have stepped : world.step build content (.poll k) = ⟨[], some world⟩ := by
      simp [step, Covers.step, young]
    rw [stepped]
    exact ⟨world, rfl, served.nothing rfl fun j _ _ => by rw [same]⟩

theorem run_snoc (returned : (run build content turns).value = some world) (turn : CoverTurn) :
    run build content (turns ++ [turn]) = ⟨(run build content turns).log ++
      (world.step build content turn).log, (world.step build content turn).value⟩ :=
  Call.run_snoc_returned returned turn

theorem run_served (build : Build) (content : FileId → Content) (turns : List CoverTurn)
    (few : (asked turns).length < 2 ^ 16) :
    ∃ world, (run build content turns).value = some world ∧
      Served content turns (run build content turns).log world := by
  induction turns using List.reverseRecOn with
  | nil => exact ⟨_, rfl, rfl, fun _ _ => ⟨rfl, rfl⟩, nofun, rfl, rfl, nofun⟩
  | append_singleton turns turn ih =>
    rw [CoverTurn.asked_append, List.length_append] at few
    obtain ⟨world, returned, served⟩ := ih (by omega)
    have next : ∃ world', (world.step build content turn).value = some world' ∧ Served content
        (turns ++ [turn]) ((run build content turns).log ++ (world.step build content turn).log) world' := by
      cases turn with
      | get file =>
        have one : (asked [.get file]).length = 1 := rfl
        have made := served.made
        exact served.get file (by omega)
      | arrive i => exact served.arrive i
      | poll k => exact served.poll k
    obtain ⟨world', stepped, served'⟩ := next
    rw [run_snoc returned]
    exact ⟨world', stepped, served'⟩

theorem asked_polls (n k : Nat) : asked (List.replicate n (.poll k)) = [] := by
  induction n with
  | zero => rfl
  | succ n ih => exact ih

theorem arrivals_polls (n k made other : Nat) : arrivals other made (List.replicate n (.poll k)) = 0 := by
  induction n with
  | zero => rfl
  | succ n ih => exact ih

/-- Once all packets of a cover have arrived, every poll tells its owner one thing more. -/
theorem heard_more (build : Build) {k : Nat} {file : FileId} (few : (asked turns).length < 2 ^ 16)
    (there : (asked turns)[k]? = some file)
    (arrived : (content file).packets.length ≤ arrivals k 0 turns) (n : Nat) :
    min (told (content file).chunks).length n ≤
      (yields k (run build content (turns ++ List.replicate n (.poll k))).log).length := by
  induction n with
  | zero => simp
  | succ n ih =>
    have same : asked (turns ++ List.replicate n (.poll k)) = asked turns := by
      rw [CoverTurn.asked_append, asked_polls, List.append_nil]
    have count : arrivals k 0 (turns ++ List.replicate n (.poll k)) = arrivals k 0 turns := by
      rw [CoverTurn.arrivals_append, arrivals_polls, Nat.add_zero]
    obtain ⟨world, returned, served⟩ :=
      run_served build content (turns ++ List.replicate n (.poll k)) (by rw [same]; exact few)
    have attended := served.attended k file (by rw [same]; exact there)
    obtain ⟨later, watching, heard⟩ := attended.watching
    rw [count, List.drop_eq_nil_of_le arrived] at watching
    obtain ⟨c, rest, polled, _, said, shorter⟩ := watching.poll
    have shorter := shorter rfl
    have young : k < world.covers.manager.made := by
      rw [served.made, same]
      exact (List.getElem?_eq_some_iff.mp there).1
    have stepped : (world.step build content (.poll k)).log =
        (world.covers.cover k).poll.log.map (.yield k) := by
      simp [step, Covers.step, young, Cover.own, Call.within, polled]
    rw [List.replicate_succ', ← List.append_assoc, run_snoc returned, stepped, yields_append,
      CoverEffect.yields_own, List.length_append, ← heard, List.length_append]
    rw [← heard, List.length_append] at ih
    have lengths := congrArg List.length said
    rw [List.length_append] at lengths
    omega

/-- While the ids last, no order of requests, packets and polls makes the client panic: each owner hears
the chunks of its own file in order and then their end, and all of that if it polls on once they
have come. -/
theorem covers_served (build : Build) (content : FileId → Content) (turns : List CoverTurn)
    (few : (asked turns).length < 2 ^ 16) :
    (∃ world, (run build content turns).value = some world) ∧
    ∀ k file, (asked turns)[k]? = some file →
      yields k (run build content turns).log <+: told (content file).chunks ∧
      ((content file).packets.length ≤ arrivals k 0 turns →
        ∀ n, (told (content file).chunks).length ≤ n →
          yields k (run build content (turns ++ List.replicate n (.poll k))).log =
            told (content file).chunks) := by
  obtain ⟨world, returned, served⟩ := run_served build content turns few
  refine ⟨⟨world, returned⟩, fun k file there => ⟨?_, fun arrived n enough => ?_⟩⟩
  · obtain ⟨later, _, heard⟩ := (served.attended k file there).watching
    exact ⟨later, heard⟩
  · have same : asked (turns ++ List.replicate n (.poll k)) = asked turns := by
      rw [CoverTurn.asked_append, asked_polls, List.append_nil]
    obtain ⟨after, _, served'⟩ := run_served build content
      (turns ++ List.replicate n (.poll k)) (by rw [same]; exact few)
    obtain ⟨later, _, heard⟩ := (served'.attended k file (by rw [same]; exact there)).watching
    have long := heard_more build few there arrived n
    apply List.IsPrefix.eq_of_length ⟨later, heard⟩
    have short := congrArg List.length heard
    rw [List.length_append] at short
    omega

/-- Two covers at once: the second comes, the first has only begun to. -/
def both_at_once : List CoverTurn :=
  let file : FileId := ⟨List.replicate 20 9, rfl⟩
  [.get file, .get file, .arrive 1, .poll 1, .arrive 0, .poll 0, .arrive 1, .poll 0, .arrive 1]

theorem covers_served_both :
    (∃ world, (run .debug (fun _ => Split.one_chunk) both_at_once).value = some world) ∧
    yields 0 (run .debug (fun _ => Split.one_chunk) both_at_once).log <+: told [[7]] ∧
    yields 1 (run .debug (fun _ => Split.one_chunk) (both_at_once ++ List.replicate 2 (.poll 1))).log =
      told [[7]] := by
  obtain ⟨returned, heard⟩ := covers_served .debug (fun _ => Split.one_chunk) both_at_once (by decide)
  refine ⟨returned, (heard 0 _ rfl).1, (heard 1 _ rfl).2 (by decide) 2 (by decide)⟩

end CoverWorld

end ConnectScrobbler
