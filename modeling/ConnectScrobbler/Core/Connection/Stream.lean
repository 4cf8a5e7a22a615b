import ConnectScrobbler.Core.Connection.Codec
import ConnectScrobbler.Lib.Decoder
import ConnectScrobbler.Lib.Shannon

/-! What one side encodes, the other decodes, whatever the chunks in which it arrives. -/
namespace ConnectScrobbler

open Bytes (be read_be drain_to)
open Input (arrivals)

namespace APCodec

variable {S : Type} {build : Build} {shannon : Cipher S} {key : Bytes}

def plain (item : UInt8 × Bytes) : Bytes :=
  item.1 :: be 2 (BitVec.ofNat 16 item.2.length).toNat ++ item.2

def wire (shannon : Cipher S) (n : BitVec 32) (e : S) (item : UInt8 × Bytes) : Bytes × S :=
  let (encrypted, e) := shannon.encrypt (plain item) (shannon.nonce n e)
  let (mac, e) := shannon.finish MAC_SIZE e
  (encrypted ++ mac, e)

theorem wire_bytes (n : BitVec 32) (e : S) (item : UInt8 × Bytes) :
    (wire shannon n e item).1 = (shannon.encrypt (plain item) (shannon.nonce n e)).1 ++
      (shannon.finish MAC_SIZE (shannon.encrypt (plain item) (shannon.nonce n e)).2).1 := rfl

def wires (shannon : Cipher S) : BitVec 32 → S → List (UInt8 × Bytes) → Bytes
  | _, _, [] => []
  | n, e, item :: items => (wire shannon n e item).1 ++ wires shannon (n + 1) (wire shannon n e item).2 items

theorem encode_eq (item : UInt8 × Bytes) (buf : Bytes) (codec : APCodec S) :
    codec.encode build shannon item buf = (build.add codec.encode_nonce 1).map fun encode_nonce =>
      (buf ++ (wire shannon codec.encode_nonce codec.encode_cipher item).1,
        { codec with
          encode_nonce, encode_cipher := (wire shannon codec.encode_nonce codec.encode_cipher item).2 }) := by
  unfold encode
  cases build.add codec.encode_nonce 1 with
  | none => rfl
  | some encode_nonce =>
    have written : buf ++ [item.1] ++ be 2 (BitVec.ofNat 16 item.2.length).toNat ++ item.2 =
        buf ++ plain item := by simp [plain]
    simp only [written, List.drop_left, List.take_left, Option.map_some, wire]
    simp

theorem encode_appends {item : UInt8 × Bytes} {buf buf' : Bytes} {codec codec' : APCodec S}
    (returned : codec.encode build shannon item buf = some (buf', codec')) : buf <+: buf' := by
  rw [encode_eq] at returned
  obtain ⟨_, _, done⟩ := Option.map_eq_some_iff.mp returned
  cases done
  exact List.prefix_append ..

theorem encode_all_cons (item : UInt8 × Bytes) (items : List (UInt8 × Bytes)) (buf : Bytes)
    (codec : APCodec S) : encode_all build shannon (item :: items) (buf, codec) =
      (codec.encode build shannon item buf).bind (encode_all build shannon items) := rfl

theorem encode_all_eq (build : Build) {items : List (UInt8 × Bytes)} {codec : APCodec S}
    (buf : Bytes) (few : codec.encode_nonce.toNat + items.length < 2 ^ 32) :
    ∃ codec', encode_all build shannon items (buf, codec) =
        some (buf ++ wires shannon codec.encode_nonce codec.encode_cipher items, codec') ∧
      codec'.encode_nonce.toNat = codec.encode_nonce.toNat + items.length := by
  induction items generalizing buf codec with
  | nil => exact ⟨codec, by simp [encode_all, wires], rfl⟩
  | cons item items ih =>
    rw [List.length_cons] at few
    have one : (1 : BitVec 32).toNat = 1 := rfl
    have next : (codec.encode_nonce + 1).toNat = codec.encode_nonce.toNat + 1 := by
      rw [BitVec.toNat_add, one, Nat.mod_eq_of_lt (by omega)]
    obtain ⟨codec', rest, counted⟩ := @ih
      { codec with
        encode_nonce := codec.encode_nonce + 1
        encode_cipher := (wire shannon codec.encode_nonce codec.encode_cipher item).2 }
      (buf ++ (wire shannon codec.encode_nonce codec.encode_cipher item).1)
      (by simp only [next]; omega)
    refine ⟨codec', ?_, ?_⟩
    · rw [encode_all_cons, encode_eq, Build.add_fits _ (by rw [one]; omega), Option.map_some,
        Option.bind_some, wires, ← List.append_assoc]
      exact rest
    · simp only [next] at counted
      rw [counted, List.length_cons]
      omega

/-- What a decoder has still to read, and what it will make of it. -/
inductive Expects (shannon : Cipher S) (key : Bytes) (last : Nat) :
    APCodec S → Bytes → List (UInt8 × Bytes) → Prop
  | header {codec : APCodec S} {e : S} {items : List (UInt8 × Bytes)}
      (ready : codec.decode_state = .Header) (sender : Cipher.Keyed shannon key e)
      (receiver : Cipher.Keyed shannon key codec.decode_cipher)
      (fits : ∀ item ∈ items, item.2.length < 2 ^ 16)
      (counted : codec.decode_nonce.toNat + items.length = last) :
      Expects shannon key last codec (wires shannon codec.decode_nonce e items) items
  | payload {codec : APCodec S} {e d : S} {n : BitVec 32} {item : UInt8 × Bytes}
      {items : List (UInt8 × Bytes)} {front back : Bytes}
      (opened : codec.decode_state = .Payload item.1 item.2.length)
      (sender : Cipher.Keyed shannon key e) (receiver : Cipher.Keyed shannon key d)
      (cut : (shannon.encrypt (plain item) (shannon.nonce n e)).1 = front ++ back)
      (length : front.length = HEADER_SIZE)
      (begun : codec.decode_cipher = (shannon.decrypt front (shannon.nonce n d)).2)
      (next : codec.decode_nonce = n + 1) (fits : ∀ item ∈ items, item.2.length < 2 ^ 16)
      (counted : codec.decode_nonce.toNat + items.length = last) :
      Expects shannon key last codec
        (back ++ (shannon.finish MAC_SIZE (shannon.encrypt (plain item) (shannon.nonce n e)).2).1 ++
          wires shannon (n + 1) (wire shannon n e item).2 items)
        (item :: items)

variable {last : Nat} {codec : APCodec S} {items : List (UInt8 × Bytes)}

theorem wire_keyed {e : S} (sender : Cipher.Keyed shannon key e) (n : BitVec 32)
    (item : UInt8 × Bytes) : Cipher.Keyed shannon key (wire shannon n e item).2 :=
  .finish _ (.encrypt _ (.nonce _ sender))

theorem read_size {payload : Bytes} (fits : payload.length < 2 ^ 16) :
    read_be (be 2 (BitVec.ofNat 16 payload.length).toNat) = payload.length := by
  rw [BitVec.toNat_ofNat, Nat.mod_eq_of_lt fits, Bytes.read_be_be_of_lt fits]

theorem encrypted_cut (lawful : shannon.Lawful) (n : BitVec 32) (e : S) (item : UInt8 × Bytes) :
    ∃ front back, (shannon.encrypt (plain item) (shannon.nonce n e)).1 = front ++ back ∧
      front.length = HEADER_SIZE ∧ back.length = item.2.length := by
  have size := lawful.length_encrypt (plain item) (shannon.nonce n e)
  simp only [plain, List.length_append, List.length_cons, Bytes.length_be] at size
  refine ⟨_, _, (List.take_append_drop HEADER_SIZE _).symm, ?_, ?_⟩
  · rw [List.length_take, HEADER_SIZE, plain, size]
    omega
  · rw [List.length_drop, HEADER_SIZE, plain, size]
    omega

theorem next_nonce (build : Build) {n : BitVec 32} {more : Nat} (counted : n.toNat + (more + 1) = last)
    (few : last < 2 ^ 32) : build.add n 1 = some (n + 1) ∧ (n + 1).toNat + more = last := by
  have one : (1 : BitVec 32).toNat = 1 := rfl
  refine ⟨Build.add_fits build (by rw [one]; omega), ?_⟩
  rw [BitVec.toNat_add, one, Nat.mod_eq_of_lt (by omega)]
  omega

theorem decode_header_there (lawful : shannon.Lawful) (rest : Bytes) {e : S} {item : UInt8 × Bytes}
    {front back : Bytes} {n : BitVec 32} (ready : codec.decode_state = .Header)
    (sender : Cipher.Keyed shannon key e) (receiver : Cipher.Keyed shannon key codec.decode_cipher)
    (fits : item.2.length < 2 ^ 16) (added : build.add codec.decode_nonce 1 = some n)
    (cut : (shannon.encrypt (plain item) (shannon.nonce codec.decode_nonce e)).1 = front ++ back)
    (length : front.length = HEADER_SIZE) :
    codec.decode_header build shannon (front ++ rest) = some ({ codec with
      decode_nonce := n
      decode_cipher :=
        (shannon.decrypt front (shannon.nonce codec.decode_nonce codec.decode_cipher)).2
      decode_state := .Payload item.1 item.2.length }, rest) := by
  have there : (front ++ rest).length ≥ HEADER_SIZE := by
    rw [List.length_append, length]
    exact Nat.le_add_right ..
  have whole : item.1 :: be 2 (BitVec.ofNat 16 item.2.length).toNat ++ item.2 = plain item := rfl
  have decrypted := (lawful.decrypt_two sender receiver codec.decode_nonce
    (a := item.1 :: be 2 (BitVec.ofNat 16 item.2.length).toNat) (whole ▸ cut)
    (by rw [length, List.length_cons, Bytes.length_be]; rfl)).1
  simp only [decode_header, ready, if_pos there, Bytes.drain_to_append length, added,
    Option.bind_eq_bind, Option.bind_some, decrypted, List.head?_cons, List.drop_one,
    List.tail_cons, read_size fits]
  rfl

theorem decode_header_expects (build : Build) (lawful : shannon.Lawful) (few : last < 2 ^ 32) {buf future : Bytes}
    (expects : Expects shannon key last codec (buf ++ future) items) :
    ∃ codec' buf', codec.decode_header build shannon buf = some (codec', buf') ∧
      Expects shannon key last codec' (buf' ++ future) items ∧
      (future = [] → items ≠ [] → codec'.decode_state ≠ .Header) := by
  generalize bytes : buf ++ future = all at expects
  cases expects with
  | payload opened sender receiver cut length begun next fits counted =>
    refine ⟨codec, buf, ?_, ?_, fun _ _ header => nomatch opened.symm.trans header⟩
    · rw [decode_header, opened]
      rfl
    · rw [bytes]
      exact .payload opened sender receiver cut length begun next fits counted
  | header ready sender receiver fits counted =>
    rename_i e
    by_cases there : buf.length ≥ HEADER_SIZE
    · cases items with
      | nil =>
        rw [(List.append_eq_nil_iff.mp bytes).1] at there
        exact absurd there (by decide)
      | cons item items =>
        obtain ⟨added, counted⟩ := next_nonce build counted few
        obtain ⟨fit, fits⟩ := List.forall_mem_cons.mp fits
        obtain ⟨front, back, cut, length, _⟩ := encrypted_cut lawful codec.decode_nonce e item
        have short : (buf.take HEADER_SIZE).length = HEADER_SIZE := by
          rw [List.length_take]
          exact Nat.min_eq_left there
        have split := bytes
        rw [← List.take_append_drop HEADER_SIZE buf, wires, wire_bytes, cut, List.append_assoc,
          List.append_assoc, List.append_assoc] at split
        obtain ⟨taken, later⟩ := List.append_inj split (short.trans length.symm)
        have step := decode_header_there lawful (buf.drop HEADER_SIZE) ready sender receiver fit
          added cut length
        rw [← taken, List.take_append_drop, taken] at step
        refine ⟨_, _, step, ?_, fun _ _ => nofun⟩
        rw [later, ← List.append_assoc]
        exact .payload rfl sender receiver cut length rfl rfl fits counted
    · refine ⟨codec, buf, ?_, ?_, fun none some _ => there ?_⟩
      · rw [decode_header, ready]
        exact if_neg there
      · rw [bytes]
        exact .header ready sender receiver fits counted
      · obtain ⟨item, items, rfl⟩ := List.exists_cons_of_ne_nil some
        obtain ⟨front, back, cut, length, _⟩ := encrypted_cut lawful codec.decode_nonce e item
        rw [none, List.append_nil, wires, wire_bytes, cut] at bytes
        rw [bytes, ← length, List.append_assoc, List.append_assoc, List.length_append]
        exact Nat.le_add_right ..

theorem decode_payload_there (lawful : shannon.Lawful) (rest : Bytes) {e d : S}
    {item : UInt8 × Bytes} {front back : Bytes} {n : BitVec 32}
    (opened : codec.decode_state = .Payload item.1 item.2.length)
    (sender : Cipher.Keyed shannon key e) (receiver : Cipher.Keyed shannon key d)
    (cut : (shannon.encrypt (plain item) (shannon.nonce n e)).1 = front ++ back)
    (length : front.length = HEADER_SIZE)
    (begun : codec.decode_cipher = (shannon.decrypt front (shannon.nonce n d)).2) :
    ∃ cipher, Cipher.Keyed shannon key cipher ∧ codec.decode_payload shannon (back ++
      (shannon.finish MAC_SIZE (shannon.encrypt (plain item) (shannon.nonce n e)).2).1 ++ rest) =
      some (.ok (some item), { codec with decode_cipher := cipher, decode_state := .Header }, rest) := by
  obtain ⟨front', back', cut', length', size⟩ := encrypted_cut lawful n e item
  obtain ⟨rfl, rfl⟩ := List.append_inj (cut'.symm.trans cut) (length'.trans length.symm)
  have decrypted := (lawful.decrypt_two sender receiver n
    (a := item.1 :: be 2 (BitVec.ofNat 16 item.2.length).toNat) (b := item.2) cut
    (by rw [length, List.length_cons, Bytes.length_be]; rfl)).2
  have accepted := lawful.accepts_two sender receiver n MAC_SIZE cut
  generalize made : (shannon.finish MAC_SIZE (shannon.encrypt (plain item) (shannon.nonce n e)).2).1
    = tag at accepted ⊢
  have tag_size : tag.length = MAC_SIZE := by rw [← made, lawful.length_finish]
  have drained : drain_to (item.2.length + MAC_SIZE) (back' ++ tag ++ rest) =
      some (back' ++ tag, rest) :=
    Bytes.drain_to_append (by rw [List.length_append, size, tag_size]) rest
  have there : (back' ++ tag ++ rest).length ≥ item.2.length + MAC_SIZE := by
    rw [List.length_append, List.length_append, size, tag_size]
    exact Nat.le_add_right ..
  refine ⟨_, .check_mac tag (.decrypt back' (.decrypt front' (.nonce n receiver))), ?_⟩
  have own : (back' ++ tag).take item.2.length = back' := List.take_left' size
  have after : (back' ++ tag).drop item.2.length = tag := List.drop_left' size
  simp only [decode_payload, opened, if_pos there, drained, Option.bind_eq_bind, Option.bind_some,
    own, after, begun, decrypted, List.take_left, List.drop_left, accepted, if_true]
  rfl

theorem decode_payload_expects (lawful : shannon.Lawful) {buf future : Bytes}
    (expects : Expects shannon key last codec (buf ++ future) items) :
    ∃ item codec' buf' rest, codec.decode_payload shannon buf = some (.ok item, codec', buf') ∧
      items = item.toList ++ rest ∧ Expects shannon key last codec' (buf' ++ future) rest ∧
      (future = [] → codec.decode_state ≠ .Header → item ≠ none) := by
  generalize bytes : buf ++ future = all at expects
  cases expects with
  | header ready sender receiver fits counted =>
    refine ⟨none, codec, buf, items, ?_, rfl, ?_, fun _ due => absurd ready due⟩
    · rw [decode_payload, ready]
      rfl
    · rw [bytes]
      exact .header ready sender receiver fits counted
  | payload opened sender receiver cut length begun next fits counted =>
    rename_i e d n item items front back
    obtain ⟨front', back', cut', length', size⟩ := encrypted_cut lawful n e item
    obtain ⟨rfl, rfl⟩ := List.append_inj (cut'.symm.trans cut) (length'.trans length.symm)
    have mac_size := lawful.length_finish MAC_SIZE
      (shannon.encrypt (plain item) (shannon.nonce n e)).2
    have due : (back' ++ (shannon.finish MAC_SIZE
        (shannon.encrypt (plain item) (shannon.nonce n e)).2).1).length = item.2.length + MAC_SIZE := by
      rw [List.length_append, size, mac_size]
    by_cases there : buf.length ≥ item.2.length + MAC_SIZE
    · have split := bytes
      rw [← List.take_append_drop (item.2.length + MAC_SIZE) buf, List.append_assoc] at split
      obtain ⟨taken, later⟩ := List.append_inj split
        (by rw [List.length_take, due]; exact Nat.min_eq_left there)
      obtain ⟨cipher, keyed, step⟩ := decode_payload_there lawful
        (buf.drop (item.2.length + MAC_SIZE)) opened sender receiver cut length begun
      rw [← taken, List.take_append_drop] at step
      refine ⟨some item, _, _, items, step, rfl, ?_, fun _ _ => nofun⟩
      rw [later, ← next]
      exact .header rfl (wire_keyed sender n item) keyed fits counted
    · refine ⟨none, codec, buf, item :: items, ?_, rfl, ?_, fun none _ _ => there ?_⟩
      · rw [decode_payload, opened]
        exact if_neg there
      · rw [bytes]
        exact .payload opened sender receiver cut length begun next fits counted
      · rw [none, List.append_nil] at bytes
        rw [bytes, List.length_append, due]
        exact Nat.le_add_right ..

/-- `decode` as a stream decoder: an error ends the stream, as a panic does. -/
def read (build : Build) (shannon : Cipher S) : Decode (APCodec S) UInt8 (UInt8 × Bytes) :=
  fun codec buf =>
    match codec.decode build shannon buf with
    | some (.ok item, codec, buf) => some (item, codec, buf)
    | _ => none

theorem read_follows (build : Build) (key : Bytes) (lawful : shannon.Lawful) (few : last < 2 ^ 32) :
    (read build shannon).Follows (Expects shannon key last) := by
  have halves : ∀ codec buf future items, Expects shannon key last codec (buf ++ future) items →
      ∃ item codec' buf' rest, read build shannon codec buf = some (item, codec', buf') ∧
        items = item.toList ++ rest ∧ Expects shannon key last codec' (buf' ++ future) rest ∧
        (future = [] → items ≠ [] → item ≠ none) := by
    intro codec buf future items expects
    obtain ⟨codec1, buf1, header, expects1, due⟩ :=
      decode_header_expects build lawful few expects
    obtain ⟨item, codec2, buf2, rest, payload, first, expects2, given⟩ :=
      decode_payload_expects lawful expects1
    refine ⟨item, codec2, buf2, rest, ?_, first, expects2,
      fun none some => given none (due none some)⟩
    simp only [read, decode, header, Option.bind_eq_bind, Option.bind_some, payload]
  constructor
  · intro codec buf future items expects
    obtain ⟨item, codec', buf', rest, called, first, expects, _⟩ :=
      halves codec buf future items expects
    exact ⟨item, codec', buf', rest, called, first, expects⟩
  · intro codec buf item items expects
    rw [← List.append_nil buf] at expects
    obtain ⟨got, _, _, _, called, _, _, given⟩ := halves codec buf [] (item :: items) expects
    intro codec' buf' none
    cases called.symm.trans none
    exact given rfl nofun rfl

theorem Expects.done {buf : Bytes} (expects : Expects shannon key last codec buf []) :
    buf = [] ∧ codec.decode_state = .Header ∧ codec.decode_nonce.toNat = last := by
  cases expects with
  | header ready sender receiver fits counted => exact ⟨rfl, ready, counted⟩

end APCodec

open APCodec (encode_all read)

variable {S : Type}

/-- Packets that are encoded one after the other come out of the decoder as they
went in, however their bytes arrive and however often the decoder is called:
never more than the next ones, and all of them once they had enough calls. -/
theorem packets_round_trip {build : Build} {shannon : Cipher S} {key send_key recv_key : Bytes}
    {items : List (UInt8 × Bytes)} (lawful : shannon.Lawful) (few : items.length < 2 ^ 32)
    (fits : ∀ item ∈ items, item.2.length ≤ 65535) (earlier : Bytes) :
    (∀ codec item buf buf' codec',
      APCodec.encode build shannon item buf codec = some (buf', codec') → buf <+: buf') ∧
    ∃ bytes encoder, encode_all build shannon items (earlier, .new shannon key recv_key) =
        some (earlier ++ bytes, encoder) ∧
      ∀ inputs, arrivals inputs = bytes → ∃ yielded rest decoder buf,
        Call.run (read build shannon).step (.new shannon send_key key, []) inputs =
          ⟨yielded, some (decoder, buf)⟩ ∧
        items = yielded ++ rest ∧
        ∀ calls, rest.length ≤ calls → ∃ decoder,
          Call.run (read build shannon).step (.new shannon send_key key, [])
            (inputs ++ List.replicate calls .decode) = ⟨items, some (decoder, [])⟩ ∧
          decoder.decode_state = .Header ∧ decoder.decode_nonce = encoder.encode_nonce := by
  refine ⟨fun _ _ _ _ _ => APCodec.encode_appends, ?_⟩
  have start : (APCodec.new shannon key recv_key).encode_nonce.toNat + items.length < 2 ^ 32 := by
    rw [APCodec.new]
    simpa using few
  obtain ⟨encoder, encoded, counted⟩ := APCodec.encode_all_eq build earlier start
  refine ⟨_, encoder, encoded, fun inputs all => ?_⟩
  have follows := APCodec.read_follows build key lawful few
  have expects : APCodec.Expects shannon key items.length (.new shannon send_key key)
      ([] ++ (arrivals inputs ++ [])) items := by
    rw [all, List.append_nil, List.nil_append]
    exact .header rfl .new .new (fun item member => Nat.lt_succ_of_le (fits item member))
      (Nat.zero_add _)
  obtain ⟨yielded, rest, decoder, buf, ran, whole, expects⟩ := follows.run expects
  refine ⟨yielded, rest, decoder, buf, ran, whole, fun calls enough => ?_⟩
  rw [List.append_nil] at expects
  obtain ⟨decoder', buf', drained, expects⟩ := follows.drain expects enough
  obtain ⟨rfl, header, last⟩ := expects.done
  refine ⟨decoder', ?_, header, ?_⟩
  · rw [Call.run_append, ran, Call.bind_some, drained, whole]
  · apply BitVec.eq_of_toNat_eq
    rw [last, counted]
    exact (Nat.zero_add _).symm

/-- Two packets, the second one empty, that arrive in two pieces of which the first
ends in a header. -/
theorem two_packets_round_trip : ∃ bytes encoder,
    encode_all .debug Shannon.cipher [(0xab, [1, 2, 3]), (0x4, [])]
      ([7], .new Shannon.cipher [1, 2, 3, 4, 5] [6]) = some ([7] ++ bytes, encoder) ∧
    ∃ decoder, Call.run (read .debug Shannon.cipher).step
        (.new Shannon.cipher [7] [1, 2, 3, 4, 5], [])
        ([.arrive (bytes.take 2), .decode, .arrive (bytes.drop 2)] ++ List.replicate 2 .decode) =
      ⟨[(0xab, [1, 2, 3]), (0x4, [])], some (decoder, [])⟩ ∧
      decoder.decode_state = .Header ∧ decoder.decode_nonce = encoder.encode_nonce := by
  obtain ⟨_, bytes, encoder, encoded, decodes⟩ := @packets_round_trip _ .debug _
    [1, 2, 3, 4, 5] [7] [6] [(0xab, [1, 2, 3]), (0x4, [])] Shannon.lawful (by decide) (by decide) [7]
  obtain ⟨yielded, rest, _, _, _, whole, drained⟩ :=
    decodes [.arrive (bytes.take 2), .decode, .arrive (bytes.drop 2)] (by simp [arrivals])
  refine ⟨bytes, encoder, encoded, drained 2 ?_⟩
  have sizes := congrArg List.length whole
  rw [List.length_append] at sizes
  simp only [List.length_cons, List.length_nil] at sizes
  omega

end ConnectScrobbler
