import ConnectScrobbler.Core.Connection.Codec
import ConnectScrobbler.Lib.Incremental
import ConnectScrobbler.Lib.Shannon

/-! What the packet codec makes of a stream, whatever its bytes are and however they are cut. -/
namespace ConnectScrobbler

open Bytes (read_be drain_to)

namespace APCodec

variable {S : Type} {build : Build} {shannon : Cipher S} {codec codec' : APCodec S} {buf buf' : Bytes}

/-! The header: once it has been taken, the call is one for the payload. -/

theorem decode_header_payload {cmd : UInt8} {size : Nat}
    (opened : codec.decode_state = .Payload cmd size) (buf : Bytes) :
    codec.decode_header build shannon buf = some (codec, buf) := by
  rw [decode_header, opened]
  rfl

theorem decode_header_short (ready : codec.decode_state = .Header) (short : buf.length < HEADER_SIZE) :
    codec.decode_header build shannon buf = some (codec, buf) := by
  rw [decode_header, ready]
  exact if_neg (Nat.not_le.mpr short)

/-- The codec once it has decrypted a header. -/
def opened (shannon : Cipher S) (header : Bytes) (next : BitVec 32) (codec : APCodec S) : APCodec S :=
  let (header, cipher) := shannon.decrypt header (shannon.nonce codec.decode_nonce codec.decode_cipher)
  { codec with
    decode_nonce := next
    decode_cipher := cipher
    decode_state := .Payload (header.headD 0) (read_be (header.drop 1)) }

theorem decode_header_long (sliced : shannon.Sliced) (ready : codec.decode_state = .Header)
    (long : HEADER_SIZE ≤ buf.length) : codec.decode_header build shannon buf =
      (build.add codec.decode_nonce 1).map fun next =>
        (codec.opened shannon (buf.take HEADER_SIZE) next, buf.drop HEADER_SIZE) := by
  have size := sliced.length_decrypt (buf.take HEADER_SIZE)
    (shannon.nonce codec.decode_nonce codec.decode_cipher)
  rw [List.length_take_of_le long] at size
  rw [decode_header, ready]
  simp only [if_pos long, Bytes.drain_to_there long, Option.bind_eq_bind, Option.bind_some]
  cases build.add codec.decode_nonce 1 with
  | none => rfl
  | some next =>
    obtain ⟨cmd, rest, decrypted⟩ := List.exists_cons_of_length_eq_add_one size
    simp only [Option.bind_some, Option.map_some, opened, decrypted, List.head?_cons, List.headD_cons]
    rfl

/-! The payload. -/

theorem decode_payload_short {cmd : UInt8} {size : Nat} (opened : codec.decode_state = .Payload cmd size)
    (short : buf.length < size + MAC_SIZE) :
    codec.decode_payload shannon buf = some (.ok none, codec, buf) := by
  rw [decode_payload, opened]
  exact if_neg (Nat.not_le.mpr short)

/-- The MAC in front of a buffer, behind a payload. -/
def mac_at (size : Nat) (buf : Bytes) : Bytes := (buf.drop size).take MAC_SIZE

/-- What comes of a payload with its MAC, and the codec afterwards. -/
def closed (shannon : Cipher S) (cmd : UInt8) (size : Nat) (buf : Bytes) (codec : APCodec S) :
    Except MacError (Option (UInt8 × Bytes)) × APCodec S :=
  let (payload, cipher) := shannon.decrypt (buf.take size) codec.decode_cipher
  let (accepted, cipher) := shannon.check_mac (mac_at size buf) cipher
  (if accepted then .ok (some (cmd, payload)) else .error {},
    { codec with decode_cipher := cipher, decode_state := .Header })

theorem decode_payload_long (sliced : shannon.Sliced) {cmd : UInt8} {size : Nat}
    (opened : codec.decode_state = .Payload cmd size) (long : size + MAC_SIZE ≤ buf.length) :
    codec.decode_payload shannon buf = some ((codec.closed shannon cmd size buf).1,
      (codec.closed shannon cmd size buf).2, buf.drop (size + MAC_SIZE)) := by
  have payload : (buf.take (size + MAC_SIZE)).take size = buf.take size := by
    rw [List.take_take, Nat.min_eq_left (Nat.le_add_right _ _)]
  have decrypted := sliced.length_decrypt (buf.take size) codec.decode_cipher
  rw [List.length_take_of_le (by omega)] at decrypted
  have mac : (buf.take (size + MAC_SIZE)).drop size = mac_at size buf := by
    rw [mac_at, List.drop_take, Nat.add_sub_cancel_left]
  rw [decode_payload, opened]
  simp only [if_pos long, Bytes.drain_to_there long, Option.bind_eq_bind, Option.bind_some, payload, mac,
    closed, List.drop_left' decrypted, List.take_left' decrypted]
  rfl

theorem closed_more {cmd : UInt8} {size : Nat} (long : size + MAC_SIZE ≤ buf.length) (more : Bytes) :
    codec.closed shannon cmd size (buf ++ more) = codec.closed shannon cmd size buf := by
  have payload : (buf ++ more).take size = buf.take size :=
    List.take_append_of_le_length (by omega)
  have mac : mac_at size (buf ++ more) = mac_at size buf := by
    rw [mac_at, mac_at, List.drop_append_of_le_length (by omega),
      List.take_append_of_le_length (by rw [List.length_drop]; omega)]
  simp only [closed, payload, mac]

/-- `decode` as a decoder of a stream. -/
def attempt (build : Build) (shannon : Cipher S) (codec : APCodec S) (buf : Bytes) :
    Option (Except MacError (Option (UInt8 × Bytes)) × APCodec S × Bytes) :=
  codec.decode build shannon buf

theorem attempt_payload {cmd : UInt8} {size : Nat} (opened : codec.decode_state = .Payload cmd size)
    (buf : Bytes) : attempt build shannon codec buf = codec.decode_payload shannon buf := by
  rw [attempt, decode, decode_header_payload opened]
  rfl

theorem attempt_short (ready : codec.decode_state = .Header) (short : buf.length < HEADER_SIZE) :
    attempt build shannon codec buf = some (.ok none, codec, buf) := by
  rw [attempt, decode, decode_header_short ready short]
  show codec.decode_payload shannon buf = _
  rw [decode_payload, ready]
  rfl

theorem attempt_long (build : Build) (sliced : shannon.Sliced) (ready : codec.decode_state = .Header)
    (long : HEADER_SIZE ≤ buf.length) : attempt build shannon codec buf =
      (build.add codec.decode_nonce 1).bind fun next =>
        attempt build shannon (codec.opened shannon (buf.take HEADER_SIZE) next) (buf.drop HEADER_SIZE) := by
  rw [attempt, decode, decode_header_long sliced ready long]
  cases build.add codec.decode_nonce 1 with
  | none => rfl
  | some next =>
    rw [Option.bind_some, attempt_payload rfl]
    rfl

theorem payload_settled (build : Build) (sliced : shannon.Sliced) {cmd : UInt8} {size : Nat}
    (opened : codec.decode_state = .Payload cmd size) (buf : Bytes) :
    Settled (attempt build shannon) codec buf := by
  by_cases short : buf.length < size + MAC_SIZE
  · refine .waits codec buf ?_ fun more => rfl
    rw [attempt_payload opened, decode_payload_short opened short]
  · have long : size + MAC_SIZE ≤ buf.length := Nat.not_lt.mp short
    have same (more : Bytes) : attempt build shannon codec (buf ++ more) =
        some ((codec.closed shannon cmd size buf).1, (codec.closed shannon cmd size buf).2,
          buf.drop (size + MAC_SIZE) ++ more) := by
      rw [attempt_payload opened, decode_payload_long sliced opened (by simp; omega), closed_more long,
        List.drop_append_of_le_length long]
    have shorter : (buf.drop (size + MAC_SIZE)).length < buf.length := by
      rw [List.length_drop, MAC_SIZE]
      rw [MAC_SIZE] at long
      omega
    cases result : (codec.closed shannon cmd size buf).1 with
    | error e =>
      rw [result] at same
      exact .fails e _ _ same
    | ok item =>
      rw [result] at same
      cases item with
      | some item => exact .yields item _ _ shorter same
      | none =>
        unfold closed at result
        dsimp only at result
        split at result <;> cases result

theorem attempt_settled (build : Build) (sliced : shannon.Sliced) (codec : APCodec S) (buf : Bytes) :
    Settled (attempt build shannon) codec buf := by
  cases ready : codec.decode_state with
  | Payload cmd size => exact payload_settled build sliced ready buf
  | Header =>
    by_cases short : buf.length < HEADER_SIZE
    · exact .waits codec buf (attempt_short ready short) fun more => rfl
    · have long : HEADER_SIZE ≤ buf.length := Nat.not_lt.mp short
      have more_long (more : Bytes) : HEADER_SIZE ≤ (buf ++ more).length := by
        rw [List.length_append]
        omega
      cases added : build.add codec.decode_nonce 1 with
      | none =>
        refine .stops fun more => ?_
        rw [attempt_long build sliced ready (more_long more), added]
        rfl
      | some next =>
        have step (more : Bytes) : attempt build shannon codec (buf ++ more) =
            attempt build shannon (codec.opened shannon (buf.take HEADER_SIZE) next)
              (buf.drop HEADER_SIZE ++ more) := by
          rw [attempt_long build sliced ready (more_long more), added, List.take_append_of_le_length long,
            List.drop_append_of_le_length long]
          rfl
        have due : (codec.opened shannon (buf.take HEADER_SIZE) next).decode_state = .Payload _ _ := rfl
        cases payload_settled build sliced due (buf.drop HEADER_SIZE) with
        | stops same => exact .stops fun more => (step more).trans (same more)
        | fails e codec' buf' same => exact .fails e codec' buf' fun more => (step more).trans (same more)
        | yields item codec' buf' shorter same =>
          refine .yields item codec' buf' ?_ fun more => (step more).trans (same more)
          rw [List.length_drop] at shorter
          omega
        | waits codec' buf' called same =>
          have here := step []
          rw [List.append_nil, List.append_nil] at here
          exact .waits codec' buf' (here.trans called) fun more => (step more).trans (same more)

def incremental (build : Build) (sliced : shannon.Sliced) :
    Incremental (APCodec S) UInt8 (UInt8 × Bytes) MacError :=
  ⟨attempt build shannon, attempt_settled build sliced⟩

/-! One decoder for the whole stream: it looks at whole packets only and decrypts each at once. -/

/-- How a stream ends: without a further packet, with one that is refused, or at the last nonce. -/
inductive Ending (S : Type) where
  | waiting (nonce : BitVec 32) (cipher : S) (rest : Bytes)
  | refused
  | stopped

def payload_size (shannon : Cipher S) (n : BitVec 32) (d : S) (stream : Bytes) : Nat :=
  read_be ((shannon.decrypt (stream.take HEADER_SIZE) (shannon.nonce n d)).1.drop 1)

def reference (build : Build) (shannon : Cipher S) (n : BitVec 32) (d : S) (stream : Bytes) :
    List (UInt8 × Bytes) × Ending S :=
  if stream.length < HEADER_SIZE then ([], .waiting n d stream)
  else
    match build.add n 1 with
    | none => ([], .stopped)
    | some next =>
      let size := payload_size shannon n d stream
      if _short : stream.length < HEADER_SIZE + (size + MAC_SIZE) then ([], .waiting n d stream)
      else
        let (message, cipher) := shannon.decrypt (stream.take (HEADER_SIZE + size)) (shannon.nonce n d)
        let (accepted, cipher) := shannon.check_mac (mac_at (HEADER_SIZE + size) stream) cipher
        if accepted then
          let (packets, ending) :=
            reference build shannon next cipher (stream.drop (HEADER_SIZE + (size + MAC_SIZE)))
          ((message.headD 0, message.drop HEADER_SIZE) :: packets, ending)
        else ([], .refused)
termination_by stream.length
decreasing_by
  rw [List.length_drop]
  unfold HEADER_SIZE at *
  omega

/-- Where the codec stands at the end of a stream: if the header of the next packet is there, then
it has been taken and decrypted. -/
def stands (shannon : Cipher S) (codec : APCodec S) :
    Ending S → Option (Except MacError (APCodec S × Bytes))
  | .stopped => none
  | .refused => some (.error {})
  | .waiting n d rest =>
    let between := { codec with decode_nonce := n, decode_cipher := d, decode_state := .Header }
    some (.ok (if rest.length < HEADER_SIZE then (between, rest)
      else (between.opened shannon (rest.take HEADER_SIZE) (n + 1), rest.drop HEADER_SIZE)))

variable {stream : Bytes}

theorem between_self (ready : codec.decode_state = .Header) : { codec with
    decode_nonce := codec.decode_nonce
    decode_cipher := codec.decode_cipher
    decode_state := .Header } = codec := by
  rw [← ready]

/-- The codec checks the packet that the reference decrypts at once. -/
theorem closed_opened (sliced : shannon.Sliced) (codec : APCodec S) (next : BitVec 32) (size : Nat)
    (long : HEADER_SIZE ≤ stream.length) :
    (codec.opened shannon (stream.take HEADER_SIZE) next).closed shannon
        ((shannon.decrypt (stream.take HEADER_SIZE)
          (shannon.nonce codec.decode_nonce codec.decode_cipher)).1.headD 0) size
        (stream.drop HEADER_SIZE) =
      let (message, cipher) := shannon.decrypt (stream.take (HEADER_SIZE + size))
        (shannon.nonce codec.decode_nonce codec.decode_cipher)
      let (accepted, cipher) := shannon.check_mac (mac_at (HEADER_SIZE + size) stream) cipher
      (if accepted then .ok (some (message.headD 0, message.drop HEADER_SIZE)) else .error {},
        { codec with decode_nonce := next, decode_cipher := cipher, decode_state := .Header }) := by
  have cut : stream.take (HEADER_SIZE + size) =
      stream.take HEADER_SIZE ++ (stream.drop HEADER_SIZE).take size := List.take_add
  have mac : mac_at size (stream.drop HEADER_SIZE) = mac_at (HEADER_SIZE + size) stream := by
    rw [mac_at, mac_at, List.drop_drop]
  have length := sliced.length_decrypt (stream.take HEADER_SIZE)
    (shannon.nonce codec.decode_nonce codec.decode_cipher)
  rw [List.length_take_of_le long] at length
  obtain ⟨cmd, rest, decrypted⟩ := List.exists_cons_of_length_eq_add_one length
  have tail : (cmd :: rest).length = HEADER_SIZE := by rw [← decrypted, length]
  simp only [closed, opened, mac, cut, sliced.append, decrypted, List.headD_cons, List.cons_append]
  rw [← List.cons_append, List.drop_left' tail]

theorem drain_reference (build : Build) (sliced : shannon.Sliced) (codec : APCodec S)
    (ready : codec.decode_state = .Header) (stream : Bytes) :
    (incremental build sliced).drain codec stream =
      ⟨(reference build shannon codec.decode_nonce codec.decode_cipher stream).1,
        stands shannon codec
          (reference build shannon codec.decode_nonce codec.decode_cipher stream).2⟩ := by
  rw [reference]
  split
  · rename_i short
    rw [Incremental.drain_waits (d := incremental build sliced) (attempt_short ready short)]
    simp only [stands, if_pos short, between_self ready]
  · rename_i long
    have long : HEADER_SIZE ≤ stream.length := Nat.not_lt.mp long
    have called := attempt_long build sliced ready long
    split
    · rename_i added
      rw [added] at called
      rw [Incremental.drain_stops (d := incremental build sliced) called]
      rfl
    · rename_i next added
      have wrapped : next = codec.decode_nonce + 1 := (Build.add_returns added).1
      have due : (codec.opened shannon (stream.take HEADER_SIZE) next).decode_state = .Payload
        ((shannon.decrypt (stream.take HEADER_SIZE)
          (shannon.nonce codec.decode_nonce codec.decode_cipher)).1.headD 0)
        (payload_size shannon codec.decode_nonce codec.decode_cipher stream) := rfl
      have rest_length : (stream.drop HEADER_SIZE).length = stream.length - HEADER_SIZE :=
        List.length_drop
      rw [added, Option.bind_some, attempt_payload due] at called
      dsimp only
      split
      · rename_i short
        rw [decode_payload_short due (by omega)] at called
        rw [Incremental.drain_waits (d := incremental build sliced) called]
        simp only [stands, if_neg (Nat.not_lt.mpr long), between_self ready, wrapped]
      · rename_i whole
        have checked := closed_opened sliced codec next
          (payload_size shannon codec.decode_nonce codec.decode_cipher stream) long
        rw [decode_payload_long sliced due (by omega), checked, List.drop_drop] at called
        dsimp only at called
        split
        · rename_i accepted
          rw [if_pos accepted] at called
          rw [Incremental.drain_yields (d := incremental build sliced) called,
            drain_reference build sliced _ rfl]
          rfl
        · rename_i refused
          rw [if_neg refused] at called
          rw [Incremental.drain_fails (d := incremental build sliced) called]
          rfl
termination_by stream.length
decreasing_by
  rw [List.length_drop]
  unfold HEADER_SIZE at *
  omega

/-- A nonce is used up for each packet. -/
theorem reference_counts {n m : BitVec 32} {d e : S} {stream rest : Bytes}
    {packets : List (UInt8 × Bytes)}
    (found : reference build shannon n d stream = (packets, .waiting m e rest)) :
    m = n + BitVec.ofNat 32 packets.length := by
  rw [reference] at found
  split at found
  · cases found
    exact (BitVec.add_zero n).symm
  · split at found
    · cases found
    · rename_i next added
      obtain ⟨rfl, _⟩ := Build.add_returns added
      dsimp only at found
      split at found
      · cases found
        exact (BitVec.add_zero n).symm
      · split at found
        · obtain ⟨rfl, later⟩ := Prod.mk.inj found
          have counted := reference_counts (Prod.ext rfl later)
          rw [counted, List.length_cons, BitVec.ofNat_add, BitVec.add_assoc,
            BitVec.add_comm (BitVec.ofNat 32 _)]
          rfl
        · cases found
termination_by stream.length
decreasing_by
  rw [List.length_drop]
  unfold HEADER_SIZE at *
  omega

/-- A payload comes back after its MAC was accepted. -/
theorem payload_accepted (sliced : shannon.Sliced) {cmd : UInt8} {payload : Bytes}
    (decoded : codec.decode build shannon buf = some (.ok (some (cmd, payload)), codec', buf')) :
    ∃ opened data mac, codec.decode_header build shannon buf = some (opened, data ++ mac ++ buf') ∧
      opened.decode_state = .Payload cmd data.length ∧ mac.length = MAC_SIZE ∧
      payload = (shannon.decrypt data opened.decode_cipher).1 ∧
      (shannon.check_mac mac (shannon.decrypt data opened.decode_cipher).2).1 = true := by
  obtain ⟨⟨opened, rest⟩, header, decoded⟩ := Option.bind_eq_some_iff.mp decoded
  cases due : opened.decode_state with
  | Header =>
    dsimp only at decoded
    rw [decode_payload, due] at decoded
    cases decoded
  | Payload cmd' size =>
    dsimp only at decoded
    by_cases short : rest.length < size + MAC_SIZE
    · rw [decode_payload_short due short] at decoded
      cases decoded
    · have long : size + MAC_SIZE ≤ rest.length := Nat.not_lt.mp short
      rw [decode_payload_long sliced due long] at decoded
      have front : (rest.take size).length = size := List.length_take_of_le (by omega)
      have mac_length : (mac_at size rest).length = MAC_SIZE := by
        rw [mac_at, List.length_take_of_le (by rw [List.length_drop]; omega)]
      have cut : rest.take size ++ mac_at size rest ++ rest.drop (size + MAC_SIZE) = rest := by
        rw [mac_at, ← List.drop_drop, List.append_assoc, List.take_append_drop, List.take_append_drop]
      simp only [closed] at decoded
      split at decoded
      · rename_i accepted
        cases decoded
        exact ⟨opened, rest.take size, mac_at size rest, by rw [header, cut], by rw [due, front],
          mac_length, rfl, accepted⟩
      · cases decoded

end APCodec

open APCodec (incremental reference stands)

/-- However a stream is cut into chunks, the codec takes from it the packets that one decoder for
the whole stream finds, up to the first MAC that is refused, and it stands where that one does:
each packet has used up one nonce. A payload comes back only after its MAC was accepted, and a call
that gives nothing leaves the codec to go on exactly where it stopped. -/
theorem decode_hostile {S : Type} (build : Build) {shannon : Cipher S} (sliced : shannon.Sliced)
    (send_key recv_key : Bytes) :
    (∀ chunks, (incremental build sliced).feed (.new shannon send_key recv_key, []) chunks =
      ⟨(reference build shannon 0 (shannon.new recv_key) chunks.flatten).1,
        stands shannon (.new shannon send_key recv_key)
          (reference build shannon 0 (shannon.new recv_key) chunks.flatten).2⟩) ∧
    (∀ stream n d rest, (reference build shannon 0 (shannon.new recv_key) stream).2 = .waiting n d rest →
      n = BitVec.ofNat 32 (reference build shannon 0 (shannon.new recv_key) stream).1.length) ∧
    (∀ (codec : APCodec S) buf cmd payload codec' buf',
      codec.decode build shannon buf = some (.ok (some (cmd, payload)), codec', buf') →
      ∃ opened data mac, codec.decode_header build shannon buf = some (opened, data ++ mac ++ buf') ∧
        opened.decode_state = .Payload cmd data.length ∧ mac.length = MAC_SIZE ∧
        payload = (shannon.decrypt data opened.decode_cipher).1 ∧
        (shannon.check_mac mac (shannon.decrypt data opened.decode_cipher).2).1 = true) ∧
    ∀ (codec : APCodec S) buf codec' buf',
      codec.decode build shannon buf = some (.ok none, codec', buf') →
      ∀ more, codec.decode build shannon (buf ++ more) = codec'.decode build shannon (buf' ++ more) := by
  refine ⟨?_, ?_, fun _ _ _ _ _ _ => APCodec.payload_accepted sliced, ?_⟩
  · intro chunks
    have waits : (incremental build sliced).decode (.new shannon send_key recv_key) [] =
        some (.ok none, .new shannon send_key recv_key, []) := APCodec.attempt_short rfl (by decide)
    rw [Incremental.feed_eq waits, List.nil_append, APCodec.drain_reference build sliced _ rfl]
    rfl
  · intro stream n d rest waits
    exact (APCodec.reference_counts (Prod.ext rfl waits)).trans (BitVec.zero_add _)
  · intro codec buf codec' buf' called more
    exact (incremental build sliced).resumes called more

/-- A stream that was never encrypted, cut in the middle of a header. -/
theorem decode_hostile_garbage :
    (incremental .debug Shannon.sliced).feed (.new Shannon.cipher [7] [1, 2, 3, 4, 5], [])
        [[0xff, 0], [1, 2, 3, 4, 5, 6, 7], []] =
      ⟨(reference .debug Shannon.cipher 0 (Shannon.cipher.new [1, 2, 3, 4, 5])
          [0xff, 0, 1, 2, 3, 4, 5, 6, 7]).1,
        stands Shannon.cipher (.new Shannon.cipher [7] [1, 2, 3, 4, 5])
          (reference .debug Shannon.cipher 0 (Shannon.cipher.new [1, 2, 3, 4, 5])
            [0xff, 0, 1, 2, 3, 4, 5, 6, 7]).2⟩ :=
  (decode_hostile .debug Shannon.sliced [7] [1, 2, 3, 4, 5]).1 [[0xff, 0], [1, 2, 3, 4, 5, 6, 7], []]

end ConnectScrobbler
