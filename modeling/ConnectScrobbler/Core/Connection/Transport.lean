import ConnectScrobbler.Core.Connection.Hostile
import ConnectScrobbler.Core.Connection.Stream
import ConnectScrobbler.Lib.Forward
import ConnectScrobbler.Lib.Framed

/-! The `Transport` of `core/src/connection/mod.rs`, a connection that is framed by one packet codec
for both directions. -/
namespace ConnectScrobbler

open Bytes (be)

structure Transport (S : Type) where
  codec : APCodec S
  rd : Bytes
  is_readable : Bool
  eof : Bool
  upstream : List (Reading UInt8)
  wr : Bytes
  sent : Bytes
  downstream : List Write

namespace Transport

variable {S : Type}

/-- `connection.framed(codec)`. -/
def framed (codec : APCodec S) (upstream : List (Reading UInt8)) (downstream : List Write) : Transport S :=
  { codec
    rd := []
    is_readable := false
    eof := false
    upstream
    wr := []
    sent := []
    downstream }

def stream (t : Transport S) : Framed (APCodec S) UInt8 := ⟨t.codec, t.rd, t.is_readable, t.eof, t.upstream⟩

def sink (t : Transport S) : FramedSink (APCodec S) UInt8 := ⟨t.codec, t.wr, t.sent, t.downstream⟩

def put_stream (f : Framed (APCodec S) UInt8) (t : Transport S) : Transport S :=
  { t with codec := f.codec, rd := f.rd, is_readable := f.is_readable, eof := f.eof, upstream := f.upstream }

def put_sink (f : FramedSink (APCodec S) UInt8) (t : Transport S) : Transport S :=
  { t with codec := f.codec, wr := f.wr, sent := f.sent, downstream := f.downstream }

end Transport

namespace APCodec

variable {S : Type} {build : Build} {shannon : Cipher S} {key : Bytes} {last : Nat} {codec : APCodec S}
  {items : List (UInt8 × Bytes)}

/-! The two halves of a codec do not touch each other. -/

/-- A codec that encodes as the first one does and decodes as the second one does. -/
def join (encoding decoding : APCodec S) : APCodec S :=
  { decoding with encode_nonce := encoding.encode_nonce, encode_cipher := encoding.encode_cipher }

@[simp] theorem join_self (codec : APCodec S) : codec.join codec = codec := rfl

@[simp] theorem join_join_left (a b c : APCodec S) : (a.join b).join c = a.join c := rfl

@[simp] theorem join_join_right (a b c : APCodec S) : a.join (b.join c) = a.join c := rfl

theorem encode_join (build : Build) (shannon : Cipher S) (item : UInt8 × Bytes) (buf : Bytes)
    (a b : APCodec S) : (a.join b).encode build shannon item buf =
      (a.encode build shannon item buf).map fun (buf, codec) => (buf, codec.join b) := by
  rw [encode_eq, encode_eq, Option.map_map]
  rfl

theorem decode_header_join (build : Build) (shannon : Cipher S) (buf : Bytes) (a b : APCodec S) :
    (a.join b).decode_header build shannon buf =
      (b.decode_header build shannon buf).map fun (codec, buf) => (a.join codec, buf) := by
  cases ready : b.decode_state with
  | Payload cmd size =>
    have same : (a.join b).decode_state = .Payload cmd size := ready
    rw [decode_header_payload ready, decode_header_payload same]
    rfl
  | Header =>
    have same : (a.join b).decode_state = .Header := ready
    simp only [decode_header, ready, same]
    split
    · cases Bytes.drain_to HEADER_SIZE buf with
      | none => rfl
      | some drained =>
        simp only [join, Option.bind_eq_bind, Option.bind_some]
        cases build.add b.decode_nonce 1 with
        | none => rfl
        | some nonce =>
          simp only [Option.bind_some]
          cases (shannon.decrypt drained.1 (shannon.nonce b.decode_nonce b.decode_cipher)).1.head? <;> rfl
    · rfl

theorem decode_payload_join (shannon : Cipher S) (buf : Bytes) (a b : APCodec S) :
    (a.join b).decode_payload shannon buf =
      (b.decode_payload shannon buf).map fun (result, codec, buf) => (result, a.join codec, buf) := by
  cases ready : b.decode_state with
  | Header =>
    have same : (a.join b).decode_state = .Header := ready
    simp only [decode_payload, ready, same]
    rfl
  | Payload cmd size =>
    have same : (a.join b).decode_state = .Payload cmd size := ready
    simp only [decode_payload, ready, same]
    split
    · cases Bytes.drain_to (size + MAC_SIZE) buf <;> rfl
    · rfl

theorem attempt_join (build : Build) (shannon : Cipher S) (buf : Bytes) (a b : APCodec S) :
    attempt build shannon (a.join b) buf =
      (attempt build shannon b buf).map fun (result, codec, buf) => (result, a.join codec, buf) := by
  rw [attempt, attempt, decode, decode, decode_header_join]
  cases b.decode_header build shannon buf with
  | none => rfl
  | some opened => exact decode_payload_join shannon opened.2 a opened.1

/-! `encode` as an encoder. -/

def encoder (build : Build) (shannon : Cipher S) : Encoder (APCodec S) UInt8 (UInt8 × Bytes) where
  encode item buf codec := codec.encode build shannon item buf
  appends item buf codec := by
    rw [encode_eq, encode_eq, Option.map_map]
    rfl

theorem encode_all_join (build : Build) (shannon : Cipher S) (items : List (UInt8 × Bytes)) (buf : Bytes)
    (a b : APCodec S) : (encoder build shannon).encode_all items (buf, a.join b) =
      ((encoder build shannon).encode_all items (buf, a)).map fun (buf, codec) => (buf, codec.join b) := by
  induction items generalizing buf a with
  | nil => rfl
  | cons item items ih =>
    show ((a.join b).encode build shannon item buf).bind _ = ((a.encode build shannon item buf).bind _).map _
    rw [encode_join]
    cases a.encode build shannon item buf with
    | none => rfl
    | some out => exact ih out.1 out.2

/-- A call that is expected to follow what a peer sends. -/
theorem attempt_expects (build : Build) (lawful : shannon.Lawful) (few : last < 2 ^ 32) {buf future : Bytes}
    (expects : Expects shannon key last codec (buf ++ future) items) :
    ∃ item codec' buf' rest, attempt build shannon codec buf = some (.ok item, codec', buf') ∧
      items = item.toList ++ rest ∧ Expects shannon key last codec' (buf' ++ future) rest ∧
      (future = [] → items ≠ [] → item ≠ none) := by
  obtain ⟨item, codec', buf', rest, called, first, later⟩ :=
    (read_follows build key lawful few).call codec buf future items expects
  refine ⟨item, codec', buf', rest, ?_, first, later, ?_⟩
  · unfold read at called
    split at called
    · rename_i decoded
      cases called
      exact decoded
    · cases called
  · intro all some missing
    subst all missing
    rw [List.append_nil] at expects
    obtain ⟨item, items, rfl⟩ := List.exists_cons_of_ne_nil some
    exact (read_follows build key lawful few).complete codec buf item items expects codec' buf' called

/-- Whatever part of what a peer sends is there, the first of its packets are found in it. -/
theorem drain_expects (build : Build) (lawful : shannon.Lawful) (sliced : shannon.Sliced)
    (few : last < 2 ^ 32) {codec : APCodec S} {buf future : Bytes} {items : List (UInt8 × Bytes)}
    (expects : Expects shannon key last codec (buf ++ future) items) :
    ∃ found rest codec' buf', (incremental build sliced).drain codec buf =
        ⟨found, some (.ok (codec', buf'))⟩ ∧ items = found ++ rest ∧
      Expects shannon key last codec' (buf' ++ future) rest ∧ (future = [] → rest = []) := by
  obtain ⟨item, codec1, buf1, rest, called, first, later, given⟩ := attempt_expects build lawful few expects
  cases item with
  | none =>
    refine ⟨[], items, codec1, buf1, Incremental.drain_waits called, rfl, first ▸ later, ?_⟩
    intro all
    by_contra some
    exact given all some rfl
  | some item =>
    have shorter := (incremental build sliced).consumes called
    obtain ⟨found, rest, codec', buf', drained, whole, expects, all⟩ :=
      drain_expects build lawful sliced few later
    refine ⟨item :: found, rest, codec', buf', ?_, ?_, expects, all⟩
    · rw [Incremental.drain_yields (d := incremental build sliced) called, drained]
    · rw [first, whole]
      rfl
termination_by buf.length

end APCodec

namespace Transport

open APCodec (incremental encoder)

variable {S : Type} {build : Build} {shannon : Cipher S} {sliced : shannon.Sliced}
  {first second third : Transport S} {sent sent' got got' : List (UInt8 × Bytes)}

/-- What a transport holds and is going to hold, when so much more comes. -/
def pending (build : Build) (sliced : shannon.Sliced) (t : Transport S) (more : Bytes) :
    Call (UInt8 × Bytes) (Except MacError Unit) :=
  (incremental build sliced).finds t.codec (t.rd ++ more)

/-- Between two states of a transport these packets were encoded, and those decoded. -/
structure Conversed (build : Build) (sliced : shannon.Sliced) (sent got : List (UInt8 × Bytes))
    (first second : Transport S) : Prop where
  reads : ∃ before, first.upstream = before ++ second.upstream ∧
    ∀ more, first.pending build sliced (before.flatMap Reading.bytes ++ more) =
      ⟨got ++ (second.pending build sliced more).log, (second.pending build sliced more).value⟩
  writes : ∃ codec, (encoder build shannon).encode_all sent (first.sent ++ first.wr, first.codec) =
    some (second.sent ++ second.wr, codec) ∧ second.codec = codec.join second.codec

theorem pending_join (build : Build) (sliced : shannon.Sliced) (t : Transport S) (codec : APCodec S)
    (more : Bytes) :
    { t with codec := codec.join t.codec }.pending build sliced more = t.pending build sliced more :=
  Incremental.finds_map (incremental build sliced)
    (fun decoding buf => APCodec.attempt_join build shannon buf codec decoding) t.codec (t.rd ++ more)

theorem Conversed.refl (t : Transport S) : Conversed build sliced [] [] t t :=
  ⟨⟨[], rfl, fun _ => rfl⟩, t.codec, rfl, rfl⟩

theorem Conversed.trans (one : Conversed build sliced sent got first second)
    (other : Conversed build sliced sent' got' second third) :
    Conversed build sliced (sent ++ sent') (got ++ got') first third := by
  obtain ⟨before, whole, reads⟩ := one.reads
  obtain ⟨later, rest, goes_on⟩ := other.reads
  obtain ⟨codec, encoded, joined⟩ := one.writes
  obtain ⟨codec', encoded', joined'⟩ := other.writes
  refine ⟨⟨before ++ later, by rw [whole, rest, List.append_assoc], fun more => ?_⟩, ?_⟩
  · rw [List.flatMap_append, List.append_assoc, reads, goes_on, List.append_assoc]
  · rw [joined, APCodec.encode_all_join] at encoded'
    obtain ⟨⟨bytes, last⟩, next, same⟩ := Option.map_eq_some_iff.mp encoded'
    obtain ⟨rfl, rfl⟩ := Prod.mk.inj same
    refine ⟨last, ?_, joined'⟩
    unfold Encoder.encode_all at encoded next ⊢
    rw [List.foldlM_append, encoded]
    exact next

/-- Reading alone. -/
theorem Conversed.read {result : Async (Option (UInt8 × Bytes))} {f : Framed (APCodec S) UInt8}
    (polled : first.stream.poll (incremental build sliced).decode = some (.ok result, f)) :
    Conversed build sliced [] (Framed.given result) first (first.put_stream f) := by
  obtain ⟨before, whole, drained⟩ := Framed.poll_reads polled
  refine ⟨⟨before, whole, fun more => Incremental.finds_more (drained more)⟩, first.codec, rfl, ?_⟩
  have kept := Framed.poll_map (fun codec rd => APCodec.attempt_join build shannon rd first.codec codec)
    first.stream
  have polled : first.stream.poll (APCodec.attempt build shannon) = some (.ok result, f) := polled
  rw [show first.stream.map first.codec.join = first.stream from rfl, polled] at kept
  exact congrArg (fun polled => polled.2.codec) (Option.some.inj kept)

/-- Writing alone. -/
theorem Conversed.write {f : FramedSink (APCodec S) UInt8}
    (encoded : (encoder build shannon).encode_all sent (first.sent ++ first.wr, first.codec) =
      some (f.sent ++ f.wr, f.codec)) : Conversed build sliced sent [] first (first.put_sink f) := by
  have joined : f.codec = f.codec.join first.codec := by
    rw [← APCodec.join_self first.codec, APCodec.encode_all_join] at encoded
    obtain ⟨_, _, same⟩ := Option.map_eq_some_iff.mp encoded
    rw [← (Prod.mk.inj same).2]
    rfl
  refine ⟨⟨[], rfl, fun more => ?_⟩, f.codec, encoded, rfl⟩
  have blind := pending_join build sliced first f.codec more
  rw [← joined] at blind
  exact blind.symm

end Transport

end ConnectScrobbler
