import ConnectScrobbler.Core.Mercury.Entries

/-! The sink of `core/src/mercury/sender.rs`: each item is a request of its own, and the
answers are awaited in the order of the requests. -/
namespace ConnectScrobbler.Mercury

/-- What a sender does to the outside, and the answers it finds. -/
inductive SenderEffect where
  | mercury (e : Effect)
  | request (item : Bytes) (task : Nat)
  | answer (task : Nat) (result : Except MercuryError MercuryResponse)
  deriving DecidableEq, Repr

def MercuryManager.send (build : Build) (protobuf : Protobuf) (connected : Bool) (uri : String)
    (data : Bytes) (m : MercuryManager) : Call Effect (Nat × MercuryManager) :=
  m.request build protobuf connected ⟨.SEND, uri, none, [data]⟩

structure MercurySender where
  uri : String
  pending : List Nat
  deriving DecidableEq, Repr

namespace MercurySender

def new (uri : String) : MercurySender := ⟨uri, []⟩

def start_send (build : Build) (protobuf : Protobuf) (connected : Bool) (item : Bytes)
    (m : MercuryManager) (s : MercurySender) : Call SenderEffect (MercurySender × MercuryManager) := do
  let (task, m) ← (m.send build protobuf connected s.uri item).within .mercury
  Call.emit (.request item task)
  return ({ s with pending := s.pending ++ [task] }, m)

/-- The loop of `poll_complete`, by what is pending. -/
def flush (m : MercuryManager) : List Nat → Call SenderEffect (Poll Unit MercuryError × List Nat)
  | [] => return (.ok (.ready ()), [])
  | task :: pending =>
    match m.poll task with
    | .ok (.ready value) => do
      Call.emit (.answer task (.ok value))
      flush m pending
    | .ok .notReady => return (.ok .notReady, task :: pending)
    | .error err => do
      Call.emit (.answer task (.error err))
      return (.error err, task :: pending)

def poll_complete (m : MercuryManager) (s : MercurySender) :
    Call SenderEffect (Poll Unit MercuryError × MercurySender) := do
  let (result, pending) ← flush m s.pending
  return (result, { s with pending })

end MercurySender

variable {build : Build} {protobuf : Protobuf} {connected : Bool} {m m' : MercuryManager}

theorem MercuryManager.insert_goes_on (seq : Bytes) (pending : MercuryPending) (m : MercuryManager) :
    ∃ m', (m.insert seq pending).value = some m' := by
  unfold insert
  cases (m.pending seq).bind (·.callback) with
  | none => exact ⟨_, rfl⟩
  | some callback => exact ⟨_, rfl⟩

/-- There are numbers for so many more requests, and the session takes their packets. -/
def MercuryManager.Takes (build : Build) (connected : Bool) (n : Nat) (m : MercuryManager) : Prop :=
  n = 0 ∨ connected = true ∧ (build = .debug → m.sequence.value.toNat + n < 2 ^ 64)

theorem MercuryManager.takes_one : m.Takes build connected 1 ↔
    connected = true ∧ build.add m.sequence.value 1 ≠ none := by
  have one : (1 : BitVec 64).toNat = 1 := rfl
  rw [Takes, Ne, Build.add_stops, one, not_and, Nat.not_le]
  simp only [one_ne_zero, false_or]

theorem MercuryManager.takes_more {n : Nat} (next : m'.sequence.value = m.sequence.value + 1)
    (one : m.Takes build connected 1) :
    m.Takes build connected (n + 1) ↔ m'.Takes build connected n := by
  obtain ⟨open_, counts⟩ := one.resolve_left (by decide)
  have value : build = .debug → m'.sequence.value.toNat = m.sequence.value.toNat + 1 := by
    intro debug
    have fits := counts debug
    rw [next, BitVec.toNat_add]
    exact Nat.mod_eq_of_lt fits
  simp only [Takes, open_, true_and, Nat.add_eq_zero_iff, one_ne_zero, and_false, false_or]
  constructor
  · intro more
    right
    intro debug
    have room := more debug
    rw [value debug]
    omega
  · intro rest debug
    have fits := counts debug
    rcases rest with rfl | rest
    · exact fits
    · have room := rest debug
      rw [value debug] at room
      omega

theorem MercuryManager.Takes.first {n : Nat} (more : m.Takes build connected (n + 1)) :
    m.Takes build connected 1 := by
  obtain ⟨open_, counts⟩ := more.resolve_left (by omega)
  refine .inr ⟨open_, fun debug => ?_⟩
  have room := counts debug
  omega

theorem MercuryRequest.encode_one (build : Build) (protobuf : Protobuf) (uri : String)
    (data seq : Bytes) : ∃ packet,
    MercuryRequest.encode build protobuf ⟨.SEND, uri, none, [data]⟩ seq = some packet := by
  have two : build.add (1 : BitVec 16) (MercuryRequest.as_u16 1) = some 2 := by
    rw [Build.add_fits build (by decide)]
    rfl
  simp only [MercuryRequest.encode, List.length_singleton, two]
  exact ⟨_, rfl⟩

theorem MercuryManager.send_returns {uri : String} {data : Bytes} :
    (m.send build protobuf connected uri data).value ≠ none ↔ m.Takes build connected 1 := by
  rw [takes_one]
  constructor
  · intro returns
    obtain ⟨⟨task, m'⟩, returned⟩ := Option.ne_none_iff_exists'.mp returns
    obtain ⟨⟨seq, m1⟩, numbered, returned⟩ := Call.bind_returns.mp returned
    obtain ⟨v, sequence, counted, _⟩ := next_seq_returns numbered
    obtain ⟨next, added, _⟩ := Option.bind_eq_some_iff.mp counted
    obtain ⟨m2, _, returned⟩ := Call.bind_returns.mp returned
    obtain ⟨packet, _, returned⟩ := Call.bind_returns.mp returned
    obtain ⟨_, sent, _⟩ := Call.bind_returns.mp returned
    unfold send_packet at sent
    split at sent
    · rename_i open_
      exact ⟨open_, by rw [← Seq.next, added]; simp⟩
    · cases sent
  · rintro ⟨rfl, numbered⟩
    obtain ⟨next, added⟩ := Option.ne_none_iff_exists'.mp numbered
    have counted : (m.channel.2.next_seq build).value =
        some (Bytes.be 8 m.sequence.value.toNat, { m.channel.2 with sequence := ⟨next⟩ }) := by
      have same : m.channel.2.sequence = m.sequence := rfl
      rw [next_seq, SeqGenerator.get, Seq.next, same, added]
      rfl
    obtain ⟨m2, inserted⟩ := insert_goes_on (Bytes.be 8 m.sequence.value.toNat)
      ⟨[], none, some m.channel.1⟩ { m.channel.2 with sequence := ⟨next⟩ }
    obtain ⟨packet, encoded⟩ :=
      MercuryRequest.encode_one build protobuf uri data (Bytes.be 8 m.sequence.value.toNat)
    apply Option.ne_none_iff_exists'.mpr
    refine ⟨(m.channel.1, m2), Call.bind_returns.mpr ⟨_, counted, ?_⟩⟩
    refine Call.bind_returns.mpr ⟨m2, inserted, ?_⟩
    exact Call.bind_returns.mpr ⟨packet, encoded, rfl⟩

theorem MercuryManager.send_counts {uri : String} {data : Bytes} {task : Nat}
    (returned : (m.send build protobuf connected uri data).value = some (task, m')) :
    m'.sequence.value = m.sequence.value + 1 := by
  obtain ⟨v, sequence, oneshots, counted, rfl, rfl⟩ := request_returns returned
  obtain ⟨next, added, done⟩ := Option.bind_eq_some_iff.mp counted
  cases done
  exact (Build.add_returns added).1

theorem MercurySender.start_send_value {item : Bytes} {s : MercurySender} :
    (s.start_send build protobuf connected item m).value =
      (m.send build protobuf connected s.uri item).value.map
        fun (task, m) => ({ s with pending := s.pending ++ [task] }, m) := by
  rw [start_send, Call.bind_value, Call.within_value]
  cases (m.send build protobuf connected s.uri item).value <;> rfl

end ConnectScrobbler.Mercury
