import ConnectScrobbler.Core.Channel

/-! Which ids `allocate` gives out, and whose packets `dispatch` queues where. -/
namespace ConnectScrobbler

open Bytes (be drain_to read_be)

namespace ChannelManager

inductive Action where
  | allocate
  | dispatch (cmd : UInt8) (data : Bytes)
  | close (channel : Nat)
  deriving DecidableEq, Repr

def step (build : Build) (m : ChannelManager) : Action → Call ChannelEffect ChannelManager
  | .allocate => do
    let (_, m) ← m.allocate build
    return m
  | .dispatch cmd data => m.dispatch cmd data
  | .close channel => return m.close channel

def run (build : Build) (actions : List Action) : Call ChannelEffect ChannelManager :=
  Call.run (step build) .new actions

/-- A channel that has been allocated and is neither dropped nor at its end. -/
def Open (channel : Nat) (m : ChannelManager) : Prop :=
  channel < m.made ∧ (m.receivers channel).taking = true

instance {channel : Nat} {m : ChannelManager} : Decidable (m.Open channel) :=
  inferInstanceAs (Decidable (_ ∧ _))

/-- The number has its id to itself: a debug build has not come to the last one, and no
open channel is a whole round of numbers older. -/
def Free (build : Build) (m : ChannelManager) : Prop :=
  (build = .debug → m.made % 2 ^ 16 + 1 < 2 ^ 16) ∧
    ∀ channel, channel % 2 ^ 16 = m.made % 2 ^ 16 → ¬ m.Open channel

/-- What an action is asked to find: an allocation a free id. -/
def Spaced (build : Build) (m : ChannelManager) : Action → Prop
  | .allocate => m.Free build
  | .dispatch _ _ | .close _ => True

def id_of (channel : Nat) : BitVec 16 := BitVec.ofNat 16 channel

theorem id_of_eq {channel other : Nat} : id_of channel = id_of other ↔
    channel % 2 ^ 16 = other % 2 ^ 16 := by
  rw [id_of, id_of, ← BitVec.toNat_inj, BitVec.toNat_ofNat, BitVec.toNat_ofNat]

/-- Ids count up, and the map leads from the id of an open channel to its own sender. -/
structure Numbered (log : List ChannelEffect) (m : ChannelManager) : Prop where
  sequence : m.sequence = ⟨id_of m.made⟩
  given : ∀ id channel replaced, .insert id channel replaced ∈ log →
    id = id_of channel ∧ channel < m.made
  logged : ∀ channel < m.made, ∃ replaced, .insert (id_of channel) channel replaced ∈ log
  mapped : ∀ id channel, m.channels id = some channel → id = id_of channel ∧ channel < m.made
  connected : ∀ channel, m.Open channel →
    m.channels (id_of channel) = some channel ∧ (m.receivers channel).connected = true

theorem numbered_new : Numbered [] .new := by
  constructor
  · rfl
  · simp
  · simp [new]
  · simp [new]
  · intro channel there
    cases there.1

variable {build : Build} {log : List ChannelEffect} {m : ChannelManager}

/-- The manager after an allocation of a free id. -/
def allocated (m : ChannelManager) : ChannelManager :=
  { sequence := ⟨id_of (m.made + 1)⟩
    channels := Function.update m.channels (id_of m.made) (some m.made)
    made := m.made + 1
    receivers := Function.update (m.replace (m.channels (id_of m.made))) m.made .new }

theorem next_id (numbered : Numbered log m) (free : m.Free build) :
    m.sequence.get build = some (id_of m.made, ⟨id_of (m.made + 1)⟩) := by
  have next : build.add (id_of m.made) 1 = some (id_of m.made + 1) := by
    apply if_neg
    rintro ⟨debug, wraps⟩
    have small := free.1 debug
    have one : (1 : BitVec 16).toNat = 1 := rfl
    rw [id_of, BitVec.toNat_ofNat, one] at wraps
    omega
  have sum : id_of m.made + 1 = id_of (m.made + 1) := by
    simp [id_of, BitVec.ofNat_add]
  rw [numbered.sequence, SeqGenerator.get, Seq.next, next, sum]
  rfl

theorem allocate_eq (numbered : Numbered log m) (free : m.Free build) :
    m.allocate build = ⟨[.insert (id_of m.made) m.made (m.channels (id_of m.made))],
      some ((id_of m.made, m.made), m.allocated)⟩ := by
  rw [allocate, next_id numbered free]
  rfl

theorem step_allocate (numbered : Numbered log m) (free : m.Free build) :
    m.step build .allocate =
      ⟨[.insert (id_of m.made) m.made (m.channels (id_of m.made))], some m.allocated⟩ := by
  rw [step, allocate_eq numbered free]
  rfl

theorem replace_taking (replaced : Option Nat) (channel : Nat) :
    (m.replace replaced channel).taking = (m.receivers channel).taking := by
  cases replaced with
  | none => rfl
  | some other =>
    by_cases same : channel = other
    · subst same
      simp [replace]
    · simp [replace, same]

theorem replace_other {replaced : Option Nat} {channel : Nat} (other : replaced ≠ some channel) :
    m.replace replaced channel = m.receivers channel := by
  cases replaced with
  | none => rfl
  | some old =>
    have differs : channel ≠ old := by
      rintro rfl
      exact other rfl
    simp [replace, differs]

theorem open_allocated {channel : Nat} :
    m.allocated.Open channel ↔ m.Open channel ∨ channel = m.made := by
  by_cases new : channel = m.made
  · subst new
    simp [Open, allocated, Receiver.new]
  · have older : channel < m.made + 1 ↔ channel < m.made := by omega
    simp [Open, allocated, replace_taking, new, older]

/-- No open channel's sender is replaced. -/
theorem Numbered.replaces (numbered : Numbered log m) (free : m.Free build) {channel : Nat}
    (replaced : m.channels (id_of m.made) = some channel) : ¬ m.Open channel :=
  free.2 channel (id_of_eq.mp (numbered.mapped _ _ replaced).1.symm)

theorem Numbered.allocated (numbered : Numbered log m) (free : m.Free build) :
    Numbered (log ++ [.insert (id_of m.made) m.made (m.channels (id_of m.made))]) m.allocated := by
  constructor
  · rfl
  · intro id channel replaced member
    rcases List.mem_append.mp member with early | late
    · obtain ⟨rfl, older⟩ := numbered.given id channel replaced early
      exact ⟨rfl, Nat.lt_succ_of_lt older⟩
    · cases List.mem_singleton.mp late
      exact ⟨rfl, Nat.lt_succ_self _⟩
  · intro channel below
    rcases Nat.lt_succ_iff_lt_or_eq.mp below with older | rfl
    · obtain ⟨replaced, member⟩ := numbered.logged channel older
      exact ⟨replaced, List.mem_append_left _ member⟩
    · exact ⟨_, List.mem_append_right _ (.head _)⟩
  · intro id channel there
    by_cases new : id = id_of m.made
    · subst new
      simp only [ChannelManager.allocated, Function.update_self, Option.some.injEq] at there
      subst there
      exact ⟨rfl, Nat.lt_succ_self _⟩
    · simp only [ChannelManager.allocated, Function.update_of_ne new] at there
      obtain ⟨own, older⟩ := numbered.mapped id channel there
      exact ⟨own, Nat.lt_succ_of_lt older⟩
  · intro channel there
    rcases open_allocated.mp there with older | rfl
    · obtain ⟨kept, connected⟩ := numbered.connected channel older
      have apart : id_of channel ≠ id_of m.made := fun same =>
        free.2 channel (id_of_eq.mp same) older
      have own : m.channels (id_of m.made) ≠ some channel := fun replaced =>
        numbered.replaces free replaced older
      have new : channel ≠ m.made := Nat.ne_of_lt older.1
      simp [ChannelManager.allocated, Function.update_of_ne apart, Function.update_of_ne new,
        replace_other own, kept, connected]
    · simp [ChannelManager.allocated, Receiver.new]

/-- A queue may change, and a receiver be closed. -/
theorem Numbered.updated (numbered : Numbered log m) {channel : Nat}
    {receiver : Receiver (UInt8 × Bytes)}
    (connected : receiver.connected = (m.receivers channel).connected)
    (taking : receiver.taking = true → (m.receivers channel).taking = true)
    {later : List ChannelEffect} (quiet : ∀ id channel replaced, .insert id channel replaced ∉ later) :
    Numbered (log ++ later) { m with receivers := Function.update m.receivers channel receiver } := by
  constructor
  · exact numbered.sequence
  · intro id channel replaced member
    rcases List.mem_append.mp member with early | late
    · exact numbered.given id channel replaced early
    · exact absurd late (quiet id channel replaced)
  · intro channel below
    obtain ⟨replaced, member⟩ := numbered.logged channel below
    exact ⟨replaced, List.mem_append_left _ member⟩
  · exact numbered.mapped
  · rintro other ⟨below, there⟩
    by_cases same : other = channel
    · subst same
      simp only [Function.update_self] at there ⊢
      obtain ⟨kept, before⟩ := numbered.connected other ⟨below, taking there⟩
      exact ⟨kept, connected.trans before⟩
    · simp only [Function.update_of_ne same] at there ⊢
      exact numbered.connected other ⟨below, there⟩

theorem Numbered.close (numbered : Numbered log m) (channel : Nat) :
    Numbered (log ++ []) (m.close channel) := by
  apply numbered.updated
  · simp
  · simp
  · simp

theorem Numbered.sent (numbered : Numbered log m) (channel : Nat) (packet : UInt8 × Bytes) :
    Numbered (log ++ [.queue channel packet]) { m with
      receivers := Function.update m.receivers channel ((m.receivers channel).send packet) } := by
  apply numbered.updated
  · simp
  · simp
  · simp

theorem Numbered.unchanged (numbered : Numbered log m) : Numbered (log ++ []) m := by
  rw [List.append_nil]
  exact numbered

theorem Numbered.dispatched (numbered : Numbered log m) {cmd : UInt8} {data : Bytes}
    {t : ChannelManager} (returned : (m.dispatch cmd data).value = some t) :
    Numbered (log ++ (m.dispatch cmd data).log) t := by
  unfold dispatch at returned ⊢
  cases drained : drain_to 2 data with
  | none =>
    rw [drained] at returned
    cases returned
  | some read =>
    obtain ⟨front, rest⟩ := read
    simp only [drained, Call.unwrap_eq, Call.bind_some, List.nil_append] at returned ⊢
    cases there : m.channels (BitVec.ofNat 16 (read_be front)) with
    | none =>
      simp only [there] at returned ⊢
      cases returned
      exact numbered.unchanged
    | some channel =>
      simp only [there, send] at returned ⊢
      split at returned
      · rename_i taking
        simp only [if_pos taking] at returned ⊢
        cases returned
        exact numbered.sent channel (cmd, rest)
      · rename_i closed
        simp only [if_neg closed] at returned ⊢
        cases returned
        exact numbered.unchanged

theorem Numbered.step (numbered : Numbered log m) {action : Action} (spaced : m.Spaced build action)
    {t : ChannelManager} (returned : (m.step build action).value = some t) :
    Numbered (log ++ (m.step build action).log) t := by
  cases action with
  | allocate =>
    rw [step_allocate numbered spaced] at returned ⊢
    cases returned
    exact numbered.allocated spaced
  | dispatch cmd data => exact numbered.dispatched returned
  | close channel =>
    cases returned
    exact numbered.close channel

theorem dispatch_open (numbered : Numbered log m) {channel : Nat} (there : m.Open channel)
    (cmd : UInt8) (rest : Bytes) :
    m.dispatch cmd (be 2 (id_of channel).toNat ++ rest) = ⟨[.queue channel (cmd, rest)], some { m with
      receivers :=
        Function.update m.receivers channel ((m.receivers channel).send (cmd, rest)) }⟩ := by
  have id : BitVec.ofNat 16 (read_be (be 2 (id_of channel).toNat)) = id_of channel := by
    rw [Bytes.read_be_be_of_lt (id_of channel).isLt, BitVec.ofNat_toNat, BitVec.setWidth_eq]
  rw [dispatch, Bytes.drain_to_append (Bytes.length_be 2 _)]
  simp only [Call.unwrap_eq, Call.bind_some, List.nil_append, id, (numbered.connected channel there).1,
    send, if_pos there.2]
  rfl

/-- `allocate` returns an id that no open channel holds, and replaces the sender of none. -/
def Grants (build : Build) (log : List ChannelEffect) (m : ChannelManager) : Prop :=
  ∃ id replaced m', m.allocate build = ⟨[.insert id m.made replaced], some ((id, m.made), m')⟩ ∧
    (∀ channel other, .insert id channel other ∈ log → ¬ m.Open channel) ∧
    ∀ channel, replaced = some channel → ¬ m.Open channel

theorem grants_iff_free (numbered : Numbered log m) : m.Grants build log ↔ m.Free build := by
  constructor
  · rintro ⟨id, replaced, m', allocates, unheld, _⟩
    have got : ∃ sequence, m.sequence.get build = some (id, sequence) := by
      cases next : m.sequence.get build with
      | none =>
        rw [allocate, next] at allocates
        cases allocates
      | some pair =>
        rw [allocate, next] at allocates
        cases allocates
        exact ⟨_, rfl⟩
    obtain ⟨sequence, got⟩ := got
    rw [numbered.sequence] at got
    obtain ⟨next, added, done⟩ := Option.bind_eq_some_iff.mp got
    cases done
    obtain ⟨_, small⟩ := Build.add_returns added
    constructor
    · intro debug
      have one : (1 : BitVec 16).toNat = 1 := rfl
      have below := small debug
      rw [one, id_of, BitVec.toNat_ofNat] at below
      exact below
    · intro channel same there
      obtain ⟨other, member⟩ := numbered.logged channel there.1
      rw [id_of_eq.mpr same] at member
      exact unheld channel other member there
  · intro free
    refine ⟨_, _, _, allocate_eq numbered free, ?_, ?_⟩
    · intro channel other member
      exact free.2 channel (id_of_eq.mp (numbered.given _ _ _ member).1.symm)
    · intro channel replaced
      exact numbered.replaces free replaced

theorem numbered_run {actions : List Action}
    (spaced : Call.Meets (step build) (Spaced build) .new actions) {m : ChannelManager}
    (reached : (run build actions).value = some m) : Numbered (run build actions).log m :=
  spaced.induction numbered_new (fun _ _ numbered _ met _ returned => numbered.step met returned)
    reached

/-- As long as every allocation finds its id free, ids are not shared: open channels have
different ones, a packet for one of them is queued there and nowhere else, and the
next allocation goes well just where its id is free again. -/
theorem ids_unshared {actions : List Action}
    (spaced : Call.Meets (step build) (Spaced build) .new actions) {before after : List Action}
    (cut : actions = before ++ after) {m : ChannelManager}
    (reached : (run build before).value = some m) :
    (∀ id channel replaced, .insert id channel replaced ∈ (run build before).log → m.Open channel →
      (∀ other others, .insert id other others ∈ (run build before).log → m.Open other →
        other = channel) ∧
      (m.receivers channel).connected = true ∧
      ∀ cmd rest, m.dispatch cmd (be 2 id.toNat ++ rest) =
        ⟨[.queue channel (cmd, rest)], some { m with
          receivers :=
            Function.update m.receivers channel ((m.receivers channel).send (cmd, rest)) }⟩) ∧
    (m.Grants build (run build before).log ↔ m.Free build) ∧
    ∀ rest, after = .allocate :: rest → m.Grants build (run build before).log := by
  subst cut
  have numbered := numbered_run spaced.initial reached
  refine ⟨?_, grants_iff_free numbered, ?_⟩
  · intro id channel replaced member there
    obtain ⟨rfl, _⟩ := numbered.given id channel replaced member
    obtain ⟨own, connected⟩ := numbered.connected channel there
    refine ⟨?_, connected, dispatch_open numbered there⟩
    intro other others found there
    have same := (numbered.connected other there).1
    rw [← (numbered.given _ other others found).1, own] at same
    cases same
    rfl
  · rintro rest rfl
    exact (grants_iff_free numbered).mpr (spaced before .allocate rest rfl m reached)

theorem two_unshared : ∃ m, (run .debug [.allocate, .allocate]).value = some m ∧
    m.dispatch 0x9 [0, 1, 7] = ⟨[.queue 1 (0x9, [7])], some { m with
      receivers := Function.update m.receivers 1 ((m.receivers 1).send (0x9, [7])) }⟩ := by
  have young (m : ChannelManager) (few : m.made < 2) : m.Spaced .debug .allocate := by
    constructor
    · omega
    · intro channel same there
      have older := there.1
      omega
  have spaced : Call.Meets (step .debug) (Spaced .debug) .new [.allocate, .allocate] := by
    apply Call.meets_cons (young _ (by decide))
    rintro _ ⟨⟩
    apply Call.meets_cons (young _ (by decide))
    rintro _ ⟨⟩
    exact Call.meets_nil _ _ _
  obtain ⟨m, reached⟩ : ∃ m, (run .debug [.allocate, .allocate]).value = some m := ⟨_, rfl⟩
  obtain ⟨held, _⟩ := ids_unshared spaced (List.append_nil _).symm reached
  refine ⟨m, reached, ?_⟩
  obtain ⟨_, _, queued⟩ := held 1 1 none (by decide) (by cases reached; decide)
  exact queued 0x9 [7]

/-- One round of numbers, in a release build, with every channel open. -/
theorem round_open (n : Nat) (within : n ≤ 2 ^ 16) :
    ∃ m, (run .release (List.replicate n .allocate)).value = some m ∧ m.made = n ∧
      Numbered (run .release (List.replicate n .allocate)).log m ∧ ∀ channel < n, m.Open channel := by
  induction n with
  | zero => exact ⟨_, rfl, rfl, numbered_new, by simp⟩
  | succ n ih =>
    obtain ⟨m, reached, made, numbered, opened⟩ := ih (by omega)
    have free : m.Free .release := by
      constructor
      · simp
      · intro channel same there
        have older := there.1
        omega
    have next := Call.run_snoc_returned reached .allocate
    rw [← List.replicate_succ', step_allocate numbered free] at next
    refine ⟨m.allocated, ?_, ?_, ?_, ?_⟩
    · rw [run, next]
    · rw [← made]
      rfl
    · rw [run, next]
      exact numbered.allocated free
    · intro channel below
      rcases Nat.lt_succ_iff_lt_or_eq.mp below with older | rfl
      · exact open_allocated.mpr (.inl (opened channel older))
      · exact open_allocated.mpr (.inr made.symm)

theorem second_round_shared :
    ∃ m, (run .release (List.replicate (2 ^ 16) .allocate)).value = some m ∧
      ¬ m.Grants .release (run .release (List.replicate (2 ^ 16) .allocate)).log := by
  obtain ⟨m, reached, made, numbered, opened⟩ := round_open (2 ^ 16) (Nat.le_refl _)
  refine ⟨m, reached, fun grants => ?_⟩
  have free := (grants_iff_free numbered).mp grants
  exact free.2 0 (by simp [made]) (opened 0 (by decide))

end ChannelManager

end ConnectScrobbler
