import ConnectScrobbler.Core.Mercury
import ConnectScrobbler.Lib.Reassembly

/-! What `dispatch` reads of a packet, apart from what it does with it: a sequence,
flags and chunks. The loop over the chunks is the reassembly of the library. -/
namespace ConnectScrobbler.Mercury

open Bytes (be read_be drain_to)

structure Packet where
  seq : Bytes
  flags : UInt8
  chunks : List Bytes
  deriving DecidableEq, Repr

namespace Packet

def head (data : Bytes) : Option (Bytes × UInt8 × Nat × Bytes) := do
  let (seq_len, data) ← drain_to 2 data
  let (seq, data) ← drain_to (read_be seq_len) data
  let (flags, data) ← drain_to 1 data
  let (count, data) ← drain_to 2 data
  return (seq, flags.headD 0, read_be count, data)

def read_chunks : (left : Nat) → Bytes → Option (List Bytes)
  | 0, _ => some []
  | left + 1, data => do
    let (chunk, data) ← parse_part data
    let chunks ← read_chunks left data
    return chunk :: chunks

def parse (data : Bytes) : Option Packet := do
  let (seq, flags, count, data) ← head data
  let chunks ← read_chunks count data
  return ⟨seq, flags, chunks⟩

def encode (p : Packet) : Bytes :=
  be 2 p.seq.length ++ p.seq ++ [p.flags] ++ be 2 p.chunks.length ++
    p.chunks.flatMap fun chunk => be 2 chunk.length ++ chunk

def Fits (p : Packet) : Prop :=
  p.seq.length < 2 ^ 16 ∧ p.chunks.length < 2 ^ 16 ∧ ∀ chunk ∈ p.chunks, chunk.length < 2 ^ 16

theorem parse_part_append {chunk : Bytes} (fits : chunk.length < 2 ^ 16) (rest : Bytes) :
    parse_part (be 2 chunk.length ++ chunk ++ rest) = some (chunk, rest) := by
  rw [parse_part, List.append_assoc, Bytes.drain_to_append (Bytes.length_be 2 _)]
  show drain_to (read_be (be 2 chunk.length)) (chunk ++ rest) = _
  rw [Bytes.read_be_be_of_lt fits, Bytes.drain_to_append rfl]

theorem read_chunks_append {chunks : List Bytes} (fits : ∀ chunk ∈ chunks, chunk.length < 2 ^ 16)
    (rest : Bytes) :
    read_chunks chunks.length
      ((chunks.flatMap fun chunk => be 2 chunk.length ++ chunk) ++ rest) = some chunks := by
  induction chunks with
  | nil => rfl
  | cons chunk chunks ih =>
    rw [List.flatMap_cons, List.append_assoc, List.length_cons, read_chunks,
      parse_part_append (fits chunk (.head _))]
    simp only [Option.bind_eq_bind, Option.bind_some,
      ih fun chunk member => fits chunk (.tail _ member)]
    rfl

theorem head_encode {p : Packet} (fits : p.Fits) (rest : Bytes) :
    head (p.encode ++ rest) = some (p.seq, p.flags, p.chunks.length,
      (p.chunks.flatMap fun chunk => be 2 chunk.length ++ chunk) ++ rest) := by
  obtain ⟨seq, flags, chunks⟩ := p
  obtain ⟨seq_fits, count_fits, _⟩ := fits
  simp only [head, encode, List.append_assoc]
  rw [Bytes.drain_to_append (Bytes.length_be 2 _)]
  simp only [Option.bind_eq_bind, Option.bind_some]
  rw [Bytes.read_be_be_of_lt seq_fits, Bytes.drain_to_append rfl]
  simp only [Option.bind_some]
  rw [Bytes.drain_to_append (show [flags].length = 1 from rfl)]
  simp only [Option.bind_some]
  rw [Bytes.drain_to_append (Bytes.length_be 2 _)]
  have counted : read_be (be 2 chunks.length) = chunks.length := Bytes.read_be_be_of_lt count_fits
  simp only [Option.bind_some, counted]
  rfl

theorem parse_encode {p : Packet} (fits : p.Fits) (rest : Bytes) :
    parse (p.encode ++ rest) = some p := by
  simp only [parse, head_encode fits, Option.bind_eq_bind, Option.bind_some,
    read_chunks_append fits.2.2]
  rfl

theorem parse_head {data : Bytes} {p : Packet} (parsed : parse data = some p) :
    ∃ count rest, head data = some (p.seq, p.flags, count, rest) := by
  obtain ⟨⟨seq, flags, count, rest⟩, opened, parsed⟩ := Option.bind_eq_some_iff.mp parsed
  obtain ⟨chunks, _, done⟩ := Option.bind_eq_some_iff.mp parsed
  cases done
  exact ⟨count, rest, opened⟩

def take_in (x : Assembly UInt8) (p : Packet) : Assembly UInt8 :=
  x.feed (p.flags = 2) p.chunks

end Packet

namespace MercuryPending

def of (x : Assembly UInt8) (callback : Option Nat) : MercuryPending :=
  ⟨x.parts, x.carried, callback⟩

theorem of_inj {x y : Assembly UInt8} {c d : Option Nat} : of x c = of y d ↔ x = y ∧ c = d := by
  obtain ⟨parts, carried⟩ := x
  obtain ⟨parts', carried'⟩ := y
  simp [of, and_assoc]

theorem add_part_of (x : Assembly UInt8) (callback : Option Nat) (flags : UInt8) (last : Bool)
    (part : Bytes) : (of x callback).add_part flags last part =
      of (x.add (last && flags == 2) part) callback := by
  obtain ⟨parts, carried⟩ := x
  unfold add_part Assembly.add
  cases last && flags == 2 <;> cases carried <;> rfl

/-- The loop takes in the chunks. -/
theorem read_parts_of (flags : UInt8) (left : Nat) (data : Bytes) (x : Assembly UInt8)
    (callback : Option Nat) : (of x callback).read_parts flags left data =
      (Packet.read_chunks left data).map fun chunks => of (x.feed (flags = 2) chunks) callback := by
  induction left generalizing data x with
  | zero => rfl
  | succ left ih =>
    rw [read_parts, Packet.read_chunks]
    cases parsed : parse_part data with
    | none => rfl
    | some read =>
      obtain ⟨part, rest⟩ := read
      simp only [Option.bind_eq_bind, Option.bind_some, add_part_of, ih]
      cases later : Packet.read_chunks left rest with
      | none => rfl
      | some chunks =>
        cases left with
        | zero => cases later; rfl
        | succ left =>
          cases chunks with
          | nil =>
            obtain ⟨_, _, rest⟩ := Option.bind_eq_some_iff.mp later
            obtain ⟨_, _, done⟩ := Option.bind_eq_some_iff.mp rest
            cases done
          | cons next chunks => rfl

end MercuryPending

namespace MercuryManager

open Packet (head)

theorem receive_eq (cmd : UInt8) (data : Bytes) (m : MercuryManager) :
    m.receive cmd data = (do
      Call.emit (.receive cmd data)
      let (seq, flags, count, rest) ← Call.unwrap (head data)
      match m.found cmd seq with
      | some pending => do
        let pending ← Call.unwrap (pending.read_parts flags count rest)
        return (m.remove seq, some ⟨cmd, seq, flags, pending⟩)
      | none => do
        Call.emit (.ignore_seq seq cmd)
        return (m.remove seq, none)) := by
  unfold receive head
  cases drain_to 2 data with
  | none => rfl
  | some read =>
    obtain ⟨seq_len, data⟩ := read
    cases first : drain_to (read_be seq_len) data with
    | none => simp [first]
    | some read =>
      obtain ⟨seq, data⟩ := read
      cases second : drain_to 1 data with
      | none => simp [first, second]
      | some read =>
        obtain ⟨flags, data⟩ := read
        cases third : drain_to 2 data with
        | none => simp [first, second, third]
        | some read =>
          simp only [Call.unwrap_eq, Call.bind_some, first, second, third, Option.bind_eq_bind,
            Option.bind_some, List.nil_append]
          rfl

end MercuryManager

end ConnectScrobbler.Mercury
