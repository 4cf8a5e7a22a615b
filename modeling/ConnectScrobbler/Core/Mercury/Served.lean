import ConnectScrobbler.Core.Lengths
import ConnectScrobbler.Core.Mercury.Reassembly

/-! Requests that a server answers, each in packets of its own and at a pace of its own. -/
namespace ConnectScrobbler.Mercury

open Bytes (be)
open MercuryPending (of)
open Packet (parse take_in)

/-- How a server reads the header of a request and what it responds with, cut into packets. -/
structure MercuryServer (protobuf : Protobuf) where
  read_uri : Bytes → Option String
  respond : String → MercuryResponse
  header : String → Header
  header_data : String → Bytes
  cut : String → List (Ending × List Bytes)
  parses : ∀ uri, protobuf.parse_header (header_data uri) = some (header uri)
  tells : ∀ uri, (respond uri).uri = (header uri).get_uri ∧
    (respond uri).status_code = (header uri).get_status_code
  whole : ∀ uri, Fragmentation (header_data uri :: (respond uri).payload) (cut uri)
  fits : ∀ uri, ∀ fragment ∈ cut uri,
    fragment.2.length < 2 ^ 16 ∧ ∀ chunk ∈ fragment.2, chunk.length < 2 ^ 16

/-- `MercuryManager::get`. -/
def MercuryManager.get (build : Build) (protobuf : Protobuf) (connected : Bool) (uri : String)
    (m : MercuryManager) : Call Effect (Nat × MercuryManager) :=
  m.request build protobuf connected ⟨.GET, uri, none, []⟩

namespace MercuryServer

variable {protobuf : Protobuf}

/-- The sequence and the URI of a request. -/
def asked (data : Bytes) (server : MercuryServer protobuf) : Option (Bytes × String) := do
  let p ← parse data
  let header ← p.chunks.head?
  let uri ← server.read_uri header
  return (p.seq, uri)

/-- The server reads the request for this URI, which has room in a packet. -/
structure Reads (uri : String) (server : MercuryServer protobuf) : Prop where
  header_fits : (protobuf.write_header (MercuryRequest.header ⟨.GET, uri, none, []⟩)).length < 2 ^ 16
  read : server.read_uri (protobuf.write_header (MercuryRequest.header ⟨.GET, uri, none, []⟩)) = some uri

/-- The data of the next packet of a response. -/
def packet (seq : Bytes) (uri : String) (said : Nat) (server : MercuryServer protobuf) : Option Bytes :=
  (server.cut uri)[said]?.map fun fragment => (Packet.carrying seq fragment).encode

theorem asked_get {server : MercuryServer protobuf} {uri : String} (reads : server.Reads uri)
    {seq : Bytes} (short : seq.length < 2 ^ 16) :
    server.asked ((MercuryRequest.packet protobuf ⟨.GET, uri, none, []⟩ seq).encode) = some (seq, uri) := by
  have fits : (MercuryRequest.packet protobuf ⟨.GET, uri, none, []⟩ seq).Fits := by
    refine ⟨short, by simp [MercuryRequest.packet], ?_⟩
    simp only [MercuryRequest.packet, List.mem_singleton, forall_eq]
    exact reads.header_fits
  rw [asked, Packet.parse_encode_iff.mpr fits]
  simp only [MercuryRequest.packet, Option.bind_eq_bind, Option.bind_some, List.head?_cons, reads.read]
  rfl

theorem cut_nonempty (server : MercuryServer protobuf) (uri : String) : 0 < (server.cut uri).length := by
  obtain ⟨fragments, chunks, cut, _⟩ := (server.whole uri).endings
  simp [cut]

end MercuryServer

namespace MercuryManager

variable {build : Build} {protobuf : Protobuf} {server : MercuryServer protobuf} {uris : List String}
  {said : Nat → Nat} {m : MercuryManager}

/-- The requests with these URIs have been made, and so many packets have been dispatched of each response. -/
structure Serving (build : Build) (server : MercuryServer protobuf) (uris : List String) (said : Nat → Nat)
    (m : MercuryManager) : Prop where
  numbered : m.Numbered build uris.length
  few : uris.length < 2 ^ 64
  unsaid : ∀ i, uris.length ≤ i → said i = 0
  vacant : ∀ i, uris.length ≤ i → i < 2 ^ 64 → m.pending (be 8 i) = none
  waits : ∀ i uri, uris[i]? = some uri → said i < (server.cut uri).length →
    m.oneshots i = .waiting ∧ m.pending (be 8 i) =
      some (of (((server.cut uri).take (said i)).foldl Fragmentation.take_in .empty) (some i))
  answered : ∀ i uri, uris[i]? = some uri → (server.cut uri).length ≤ said i →
    m.oneshots i = .complete (answer (server.respond uri))

theorem Serving.start (build : Build) (server : MercuryServer protobuf) :
    MercuryManager.new.Serving build server [] fun _ => 0 :=
  ⟨⟨rfl, rfl, fun _ => by decide⟩, by decide, fun _ _ => rfl, fun _ _ _ => rfl, nofun, nofun⟩

theorem number_ne {i k : Nat} (small : i < 2 ^ 64) (small' : k < 2 ^ 64) (other : i ≠ k) : be 8 i ≠ be 8 k := by
  rcases Nat.lt_or_gt_of_ne other with below | above
  · exact be_ne below (by omega)
  · exact (be_ne above (by omega)).symm

/-- A request takes the next number, and its packet is one that the server reads. -/
theorem Serving.get (sized : protobuf.Sized) (serving : m.Serving build server uris said)
    (few : uris.length + 1 < 2 ^ 64) (uri : String) :
    ∃ m' data, m.get build protobuf true uri =
        ⟨[.insert (be 8 uris.length) (some uris.length), .send_packet 0xb2 data], some (uris.length, m')⟩ ∧
      m'.Serving build server (uris ++ [uri]) said ∧
      (server.Reads uri → server.asked data = some (be 8 uris.length, uri)) := by
  obtain ⟨sequence, channels, _⟩ := serving.numbered
  let data := (MercuryRequest.packet protobuf ⟨.GET, uri, none, []⟩ (be 8 uris.length)).encode
  let m' : MercuryManager := { m with
    sequence := ⟨BitVec.ofNat 64 (uris.length + 1)⟩
    channels := uris.length + 1
    oneshots := Function.update m.oneshots uris.length .waiting
    pending := Function.update m.pending (be 8 uris.length) (some ⟨[], none, some uris.length⟩) }
  have free := serving.vacant uris.length (Nat.le_refl _) (by omega)
  have encoded :
      MercuryRequest.encode build protobuf ⟨.GET, uri, none, []⟩ (be 8 uris.length) = some data := by
    have one : build.add 1 (MercuryRequest.as_u16 0) = some 1 := by cases build <;> rfl
    rw [MercuryRequest.encode_eq build sized, List.length_nil, one]
    rfl
  have requested : m.get build protobuf true uri =
      ⟨[.insert (be 8 uris.length) (some uris.length), .send_packet 0xb2 data], some (uris.length, m')⟩ := by
    let opened : MercuryManager := { m with
      sequence := ⟨BitVec.ofNat 64 (uris.length + 1)⟩
      channels := uris.length + 1
      oneshots := Function.update m.oneshots uris.length .waiting }
    have made : m.channel = (uris.length, { opened with sequence := m.sequence }) := by
      simp only [channel, channels, opened]
    have counted : MercuryManager.next_seq build { opened with sequence := m.sequence } =
        ⟨[], some (be 8 uris.length, opened)⟩ := by
      rw [next_seq, sequence, SeqGenerator.get_next build few, ← be_ofNat uris.length]
      rfl
    have inserted := @insert_free opened _ free ⟨[], none, some uris.length⟩
    have sent : send_packet true MercuryMethod.GET.command data = ⟨[.send_packet 0xb2 data], some ()⟩ := rfl
    unfold MercuryManager.get request
    simp only [made, counted, inserted, encoded, sent, Call.bind_some, Call.unwrap_eq, Call.pure_eq]
    rfl
  refine ⟨m', data, requested, ?_, fun reads => MercuryServer.asked_get reads ?_⟩
  · constructor
    · rw [List.length_append]
      exact ⟨rfl, rfl, fun _ => few⟩
    · rw [List.length_append]
      exact few
    · intro i above
      rw [List.length_append] at above
      exact serving.unsaid i (Nat.le_of_succ_le above)
    · intro i above small
      rw [List.length_append] at above
      have other : be 8 i ≠ be 8 uris.length := number_ne small (by omega) (Nat.ne_of_gt above)
      exact (Function.update_of_ne other ..).trans (serving.vacant i (Nat.le_of_succ_le above) small)
    · intro i other there short
      rcases Nat.lt_trichotomy i uris.length with below | rfl | above
      · rw [List.getElem?_append_left below] at there
        obtain ⟨waiting, entry⟩ := serving.waits i other there short
        have key : be 8 i ≠ be 8 uris.length := number_ne (by omega) (by omega) (by omega)
        exact ⟨(Function.update_of_ne (Nat.ne_of_lt below) ..).trans waiting,
          (Function.update_of_ne key ..).trans entry⟩
      · rw [serving.unsaid uris.length (Nat.le_refl _)]
        exact ⟨Function.update_self .., Function.update_self ..⟩
      · rw [List.getElem?_eq_none (by simp; omega)] at there
        cases there
    · intro i other there full
      have below : i < uris.length := by
        by_contra above
        rw [serving.unsaid i (Nat.le_of_not_lt above)] at full
        exact absurd (server.cut_nonempty other) (Nat.not_lt.mpr full)
      rw [List.getElem?_append_left below] at there
      exact (Function.update_of_ne (Nat.ne_of_lt below) ..).trans (serving.answered i other there full)
  · rw [Bytes.length_be]
    decide

/-- One packet more of one response; the others are as they were. -/
theorem Serving.moved (serving : m.Serving build server uris said) {m' : MercuryManager} {i : Nat}
    {uri : String} {entry : Option MercuryPending} (there : uris[i]? = some uri)
    (numbered : m'.Numbered build uris.length)
    (pending : m'.pending = Function.update m.pending (be 8 i) entry)
    (others : ∀ k, k ≠ i → m'.oneshots k = m.oneshots k)
    (waits : said i + 1 < (server.cut uri).length → m'.oneshots i = .waiting ∧ entry =
      some (of (((server.cut uri).take (said i + 1)).foldl Fragmentation.take_in .empty) (some i)))
    (answered : (server.cut uri).length ≤ said i + 1 →
      m'.oneshots i = .complete (answer (server.respond uri))) :
    m'.Serving build server uris (Function.update said i (said i + 1)) := by
  have below : i < uris.length := (List.getElem?_eq_some_iff.mp there).1
  have few := serving.few
  constructor
  · exact numbered
  · exact few
  · intro k above
    rw [Function.update_of_ne (by omega)]
    exact serving.unsaid k above
  · intro k above small
    have key : be 8 k ≠ be 8 i := number_ne small (by omega) (by omega)
    rw [pending, Function.update_of_ne key]
    exact serving.vacant k above small
  · intro k other asked short
    by_cases own : k = i
    · subst own
      cases there.symm.trans asked
      rw [Function.update_self] at short ⊢
      rw [pending, Function.update_self]
      exact waits short
    · rw [Function.update_of_ne own] at short ⊢
      obtain ⟨waiting, held⟩ := serving.waits k other asked short
      have known : k < uris.length := (List.getElem?_eq_some_iff.mp asked).1
      have key : be 8 k ≠ be 8 i := number_ne (by omega) (by omega) own
      rw [pending, Function.update_of_ne key]
      exact ⟨(others k own).trans waiting, held⟩
  · intro k other asked full
    by_cases own : k = i
    · subst own
      cases there.symm.trans asked
      rw [Function.update_self] at full
      exact answered full
    · rw [Function.update_of_ne own] at full
      exact (others k own).trans (serving.answered k other asked full)

/-- The next packet of a response is dispatched; the last one is the answer. -/
theorem Serving.packet (serving : m.Serving build server uris said) {i : Nat} {uri : String} {data : Bytes}
    (there : uris[i]? = some uri) (next : server.packet (be 8 i) uri (said i) = some data) :
    ∃ m', (m.dispatch protobuf 0xb2 data).value = some m' ∧
      m'.Serving build server uris (Function.update said i (said i + 1)) := by
  obtain ⟨fragment, found, rfl⟩ := Option.map_eq_some_iff.mp next
  have below : i < uris.length := (List.getElem?_eq_some_iff.mp there).1
  have short : said i < (server.cut uri).length := (List.getElem?_eq_some_iff.mp found).1
  obtain ⟨waiting, entry⟩ := serving.waits i uri there short
  obtain ⟨count_fits, chunks_fit⟩ := server.fits uri fragment (List.mem_of_getElem? found)
  have parsed : parse (Packet.carrying (be 8 i) fragment).encode = some (.carrying (be 8 i) fragment) :=
    Packet.parse_encode_iff.mpr ⟨by rw [Packet.carrying, Bytes.length_be]; decide, count_fits, chunks_fit⟩
  have taken : (server.cut uri).take (said i + 1) = (server.cut uri).take (said i) ++ [fragment] := by
    rw [List.take_add_one, found]
    rfl
  have later : ((server.cut uri).take (said i + 1)).foldl Fragmentation.take_in .empty =
      take_in (((server.cut uri).take (said i)).foldl Fragmentation.take_in .empty)
        (.carrying (be 8 i) fragment) := by
    rw [taken, List.foldl_append, take_in_carrying]
    rfl
  obtain ⟨fragments, chunks, cut, more⟩ := (server.whole uri).endings
  have sizes := congrArg List.length cut
  rw [List.length_append, List.length_singleton] at sizes
  rcases Nat.lt_or_ge (said i) fragments.length with early | late
  · -- A packet that is not the last one is kept in the entry.
    have inside : fragment ∈ fragments := by
      rw [cut, List.getElem?_append_left early] at found
      exact List.mem_of_getElem? found
    have flags : (Packet.carrying (be 8 i) fragment).flags ≠ 1 :=
      flags_before_last (cut ▸ server.whole uri) _ (List.mem_map_of_mem inside)
    have held := @found_of_pending m 0xb2 _ _ entry
    have dispatched := @dispatch_more protobuf m 0xb2 _ _ _ _ parsed held flags
    refine ⟨_, congrArg Call.value dispatched, serving.moved there (serving.numbered.kept rfl rfl) rfl
      (fun _ _ => rfl) (fun _ => ⟨waiting, ?_⟩) (fun full => ?_)⟩
    · rw [later]
    · omega
  · have last : fragment = (.final, chunks) := by
      rw [cut, show said i = fragments.length by omega, List.getElem?_concat_length] at found
      exact (Option.some.inj found).symm
    subst last
    have before : (server.cut uri).take (said i) = fragments := by
      rw [cut, show said i = fragments.length by omega, List.take_left]
    obtain ⟨told, status⟩ := server.tells uri
    have response : (of (take_in (((server.cut uri).take (said i)).foldl Fragmentation.take_in .empty)
        (.carrying (be 8 i) (.final, chunks))) (some i)).response protobuf = some (server.respond uri) := by
      rw [before, ← foldl_carrying (be 8 i), response_last (cut ▸ server.whole uri) (server.parses uri),
        ← told, ← status]
    have held := @found_of_pending m 0xb2 _ _ entry
    have dispatched := @dispatch_final protobuf m 0xb2 _ _ _ _ parsed held rfl
    rw [complete_request_answers response rfl (by decide)] at dispatched
    refine ⟨_, congrArg Call.value dispatched, serving.moved there (serving.numbered.kept rfl rfl) rfl
      (fun k other => Function.update_of_ne other ..) (fun short => ?_) (fun _ => Function.update_self ..)⟩
    omega

end MercuryManager

end ConnectScrobbler.Mercury
