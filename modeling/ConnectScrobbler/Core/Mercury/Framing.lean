import ConnectScrobbler.Core.Lengths

/-! What `encode` of a request puts together, `dispatch` takes apart again. -/
namespace ConnectScrobbler.Mercury

open Bytes (be)
open MercuryPending (of)

namespace Packet

/-- The chunks at the front of the data, with what follows them. -/
def split_chunks : (left : Nat) → Bytes → Option (List Bytes × Bytes)
  | 0, data => some ([], data)
  | left + 1, data => do
    let (chunk, data) ← parse_part data
    let (chunks, data) ← split_chunks left data
    return (chunk :: chunks, data)

/-- The packet that `dispatch` reads, with the bytes that it leaves unread. -/
def split (data : Bytes) : Option (Packet × Bytes) := do
  let (seq, flags, count, data) ← head data
  let (chunks, data) ← split_chunks count data
  return (⟨seq, flags, chunks⟩, data)

theorem read_chunks_eq (left : Nat) (data : Bytes) :
    read_chunks left data = (split_chunks left data).map (·.1) := by
  induction left generalizing data with
  | zero => rfl
  | succ left ih =>
    simp only [read_chunks, split_chunks, ih]
    cases parse_part data with
    | none => rfl
    | some read =>
      simp only [Option.bind_eq_bind, Option.bind_some]
      cases split_chunks left read.2 <;> rfl

theorem parse_eq (data : Bytes) : parse data = (split data).map (·.1) := by
  simp only [parse, split]
  cases head data with
  | none => rfl
  | some opened =>
    simp only [Option.bind_eq_bind, Option.bind_some, read_chunks_eq]
    cases split_chunks opened.2.2.1 opened.2.2.2 <;> rfl

theorem split_chunks_append {chunks : List Bytes} (fits : ∀ chunk ∈ chunks, chunk.length < 2 ^ 16)
    (rest : Bytes) : split_chunks chunks.length
      ((chunks.flatMap fun chunk => be 2 chunk.length ++ chunk) ++ rest) = some (chunks, rest) := by
  induction chunks with
  | nil => rfl
  | cons chunk chunks ih =>
    rw [List.flatMap_cons, List.append_assoc, List.length_cons, split_chunks,
      parse_part_append (fits chunk (by simp))]
    simp only [Option.bind_eq_bind, Option.bind_some, ih fun other member => fits other (by simp [member])]
    rfl

theorem split_encode {p : Packet} (fits : p.Fits) (rest : Bytes) :
    split (p.encode ++ rest) = some (p, rest) := by
  simp only [split, head_encode fits, Option.bind_eq_bind, Option.bind_some,
    split_chunks_append fits.2.2]
  rfl

/-- What a new entry is after a final packet: the chunks are its parts. -/
theorem take_in_final {seq chunk : Bytes} {chunks : List Bytes} :
    take_in .empty ⟨seq, 1, chunk :: chunks⟩ = ⟨chunk :: chunks, none⟩ := by
  rw [take_in]
  exact Assembly.feed_whole .empty chunk chunks

end Packet

variable {protobuf : Protobuf} {req : MercuryRequest} {seq : Bytes}

/-- The header of a request has its URI, its method and its content type. -/
theorem header_fields (req : MercuryRequest) : req.header.uri = some req.uri ∧
    req.header.method = some req.method.to_string ∧ req.header.content_type = req.content_type := by
  obtain ⟨method, uri, content_type, payload⟩ := req
  cases content_type <;> exact ⟨rfl, rfl, rfl⟩

/-- Requests within the limits of the length fields are read back whole, and nothing is left over;
so are they by `dispatch` into an entry that has nothing yet. -/
theorem request_round_trip (build : Build) (sized : protobuf.Sized)
    (inverted : protobuf.parse_header (protobuf.write_header req.header) = some req.header)
    (seq_fits : seq.length ≤ 65535) (header_fits : (protobuf.write_header req.header).length ≤ 65535)
    (parts_fit : ∀ part ∈ req.payload, part.length ≤ 65535) (few : req.payload.length ≤ 65534) :
    ∃ data header_data header, req.encode build protobuf seq = some data ∧
      Packet.split data = some (⟨seq, 1, header_data :: req.payload⟩, []) ∧
      protobuf.parse_header header_data = some header ∧ header.uri = some req.uri ∧
      header.method = some req.method.to_string ∧ header.content_type = req.content_type ∧
      ∀ (m : MercuryManager) cmd callback, m.found cmd seq = some ⟨[], none, callback⟩ →
        m.receive cmd data = ⟨[.receive cmd data],
          some (m.remove seq, some ⟨cmd, seq, 1, ⟨header_data :: req.payload, none, callback⟩⟩)⟩ := by
  have fits : (req.packet protobuf seq).Fits := by
    refine ⟨by simp only [MercuryRequest.packet]; omega, ?_, ?_⟩
    · simp only [MercuryRequest.packet, List.length_cons]
      omega
    · intro chunk member
      cases member with
      | head => omega
      | tail _ member => exact Nat.lt_succ_of_le (parts_fit chunk member)
  have encoded : req.encode build protobuf seq = some (req.packet protobuf seq).encode := by
    have counted : req.encode build protobuf seq ≠ none := by
      rw [Ne, MercuryRequest.encode_fails build sized]
      rintro ⟨_, last⟩
      omega
    rw [MercuryRequest.encode_eq build sized] at counted ⊢
    cases added : build.add 1 (MercuryRequest.as_u16 req.payload.length) with
    | none =>
      rw [added] at counted
      exact absurd rfl counted
    | some count => rfl
  have whole : Packet.split (req.packet protobuf seq).encode = some (req.packet protobuf seq, []) := by
    have read := Packet.split_encode fits []
    rwa [List.append_nil] at read
  have parsed : Packet.parse (req.packet protobuf seq).encode = some (req.packet protobuf seq) := by
    rw [Packet.parse_eq, whole]
    rfl
  obtain ⟨uri, method, content_type⟩ := header_fields req
  refine ⟨_, _, _, encoded, whole, inverted, uri, method, content_type, ?_⟩
  intro m cmd callback entry
  have received := @MercuryManager.receive_entry m cmd _ _ .empty callback parsed entry
  rw [received]
  simp only [MercuryRequest.packet, Packet.take_in_final]
  rfl

/-- The messages with the parser of the header of one request. -/
def sending : Protobuf :=
  { messages with
    parse_header := fun bytes =>
      if bytes = [0x0a, 1, 0x75, 0x1a, 4, 0x53, 0x45, 0x4e, 0x44] then
        some { Header.new with uri := some "u", method := some "SEND" }
      else messages.parse_header bytes }

def send_two : MercuryRequest := ⟨.SEND, "u", none, [[], [1, 2]]⟩

theorem send_two_round_trip :
    ∃ data header_data header, send_two.encode .debug sending [3] = some data ∧
      Packet.split data = some (⟨[3], 1, header_data :: [[], [1, 2]]⟩, []) ∧
      sending.parse_header header_data = some header ∧ header.uri = some "u" ∧
      header.method = some "SEND" ∧ header.content_type = none := by
  obtain ⟨data, header_data, header, encoded, whole, parsed, uri, method, content_type, _⟩ :=
    @request_round_trip sending send_two [3] .debug (fun _ => rfl) (by decide) (by decide) (by decide)
      (by decide) (by decide)
  exact ⟨data, header_data, header, encoded, whole, parsed, uri, method, content_type⟩

end ConnectScrobbler.Mercury
