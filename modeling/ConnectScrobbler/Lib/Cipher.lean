import ConnectScrobbler.Lib.Bytes

/-! Stream ciphers that authenticate what they encrypt. A cipher object has a key,
is given a nonce for each message and then works on the message in slices. -/

structure Cipher (S : Type) where
  new : Bytes → S
  nonce : BitVec 32 → S → S
  encrypt : Bytes → S → Bytes × S
  decrypt : Bytes → S → Bytes × S
  finish : Nat → S → Bytes × S
  check_mac : Bytes → S → Bool × S

namespace Cipher

variable {S : Type} {cipher : Cipher S} {key : Bytes}

/-- A cipher object made with this key, whatever was done with it since. -/
inductive Keyed (cipher : Cipher S) (key : Bytes) : S → Prop
  | new : Keyed cipher key (cipher.new key)
  | nonce {s : S} (n : BitVec 32) : Keyed cipher key s → Keyed cipher key (cipher.nonce n s)
  | encrypt {s : S} (data : Bytes) : Keyed cipher key s → Keyed cipher key (cipher.encrypt data s).2
  | decrypt {s : S} (data : Bytes) : Keyed cipher key s → Keyed cipher key (cipher.decrypt data s).2
  | finish {s : S} (size : Nat) : Keyed cipher key s → Keyed cipher key (cipher.finish size s).2
  | check_mac {s : S} (mac : Bytes) :
      Keyed cipher key s → Keyed cipher key (cipher.check_mac mac s).2

def decrypt_all (cipher : Cipher S) : List Bytes → S → Bytes × S
  | [], s => ([], s)
  | slice :: slices, s =>
    let (first, s) := cipher.decrypt slice s
    let (rest, s) := cipher.decrypt_all slices s
    (first ++ rest, s)

/-- Encryption and decryption work in place. With the same key and nonce decrypting
consecutive slices inverts encrypting the whole, and the MAC that is accepted
then is exactly the one that was made. -/
structure Lawful (cipher : Cipher S) : Prop where
  length_encrypt : ∀ data s, (cipher.encrypt data s).1.length = data.length
  length_decrypt : ∀ data s, (cipher.decrypt data s).1.length = data.length
  length_finish : ∀ size s, (cipher.finish size s).1.length = size
  inverts : ∀ key e d n data slices, Keyed cipher key e → Keyed cipher key d →
    (cipher.encrypt data (cipher.nonce n e)).1 = slices.flatten →
    (cipher.decrypt_all slices (cipher.nonce n d)).1 = data
  accepts : ∀ key e d n data slices mac, Keyed cipher key e → Keyed cipher key d →
    (cipher.encrypt data (cipher.nonce n e)).1 = slices.flatten →
    ((cipher.check_mac mac (cipher.decrypt_all slices (cipher.nonce n d)).2).1 = true ↔
      mac = (cipher.finish mac.length (cipher.encrypt data (cipher.nonce n e)).2).1)

theorem Lawful.decrypt_two (lawful : cipher.Lawful) {e d : S} (sender : Keyed cipher key e)
    (receiver : Keyed cipher key d) (n : BitVec 32) {a b front back : Bytes}
    (cut : (cipher.encrypt (a ++ b) (cipher.nonce n e)).1 = front ++ back)
    (length : front.length = a.length) :
    (cipher.decrypt front (cipher.nonce n d)).1 = a ∧
      (cipher.decrypt back (cipher.decrypt front (cipher.nonce n d)).2).1 = b := by
  have whole := lawful.inverts key e d n (a ++ b) [front, back] sender receiver (by simpa using cut)
  simp only [decrypt_all, List.append_nil] at whole
  exact List.append_inj whole ((lawful.length_decrypt ..).trans length)

theorem Lawful.accepts_two (lawful : cipher.Lawful) {e d : S} (sender : Keyed cipher key e)
    (receiver : Keyed cipher key d) (n : BitVec 32) (size : Nat) {data front back : Bytes}
    (cut : (cipher.encrypt data (cipher.nonce n e)).1 = front ++ back) :
    (cipher.check_mac (cipher.finish size (cipher.encrypt data (cipher.nonce n e)).2).1
      (cipher.decrypt back (cipher.decrypt front (cipher.nonce n d)).2).2).1 = true := by
  have accepted := lawful.accepts key e d n data [front, back]
    (cipher.finish size (cipher.encrypt data (cipher.nonce n e)).2).1 sender receiver
    (by simpa using cut)
  rw [lawful.length_finish] at accepted
  exact accepted.mpr rfl

/-- Decryption works in place, and on consecutive slices as on their concatenation. -/
structure Sliced (cipher : Cipher S) : Prop where
  length_decrypt : ∀ data s, (cipher.decrypt data s).1.length = data.length
  append : ∀ front back s, cipher.decrypt (front ++ back) s =
    ((cipher.decrypt front s).1 ++ (cipher.decrypt back (cipher.decrypt front s).2).1,
      (cipher.decrypt back (cipher.decrypt front s).2).2)

/-! Ciphers that work byte by byte: a state gives the next byte of the key stream
and takes in a byte of the message. -/

section Bytewise

variable (pad : S → UInt8) (absorb : UInt8 → S → S)

def encrypt_bytes : Bytes → S → Bytes × S
  | [], s => ([], s)
  | byte :: data, s =>
    let (rest, t) := encrypt_bytes data (absorb byte s)
    ((byte ^^^ pad s) :: rest, t)

def decrypt_bytes : Bytes → S → Bytes × S
  | [], s => ([], s)
  | byte :: data, s =>
    let (rest, t) := decrypt_bytes data (absorb (byte ^^^ pad s) s)
    ((byte ^^^ pad s) :: rest, t)

variable {pad absorb}

theorem length_encrypt_bytes (data : Bytes) (s : S) :
    (encrypt_bytes pad absorb data s).1.length = data.length := by
  induction data generalizing s with
  | nil => rfl
  | cons byte data ih => exact congrArg Nat.succ (ih _)

theorem length_decrypt_bytes (data : Bytes) (s : S) :
    (decrypt_bytes pad absorb data s).1.length = data.length := by
  induction data generalizing s with
  | nil => rfl
  | cons byte data ih => exact congrArg Nat.succ (ih _)

theorem decrypt_bytes_append (front back : Bytes) (s : S) :
    decrypt_bytes pad absorb (front ++ back) s =
      ((decrypt_bytes pad absorb front s).1 ++
          (decrypt_bytes pad absorb back (decrypt_bytes pad absorb front s).2).1,
        (decrypt_bytes pad absorb back (decrypt_bytes pad absorb front s).2).2) := by
  induction front generalizing s with
  | nil => rfl
  | cons byte front ih => simp only [List.cons_append, decrypt_bytes, ih]

theorem sliced_of_bytes (decrypts : cipher.decrypt = decrypt_bytes pad absorb) : cipher.Sliced := by
  constructor
  · intro data s
    rw [decrypts, length_decrypt_bytes]
  · intro front back s
    rw [decrypts, decrypt_bytes_append]

theorem decrypt_encrypt_bytes (data : Bytes) (s : S) :
    decrypt_bytes pad absorb (encrypt_bytes pad absorb data s).1 s =
      (data, (encrypt_bytes pad absorb data s).2) := by
  induction data generalizing s with
  | nil => rfl
  | cons byte data ih =>
    simp only [encrypt_bytes, decrypt_bytes, UInt8.xor_assoc, UInt8.xor_self, UInt8.xor_zero, ih]

theorem encrypt_bytes_keeps {α : Type} {f : S → α} (keeps : ∀ byte s, f (absorb byte s) = f s)
    (data : Bytes) (s : S) : f (encrypt_bytes pad absorb data s).2 = f s := by
  induction data generalizing s with
  | nil => rfl
  | cons byte data ih => exact (ih _).trans (keeps byte s)

theorem decrypt_bytes_keeps {α : Type} {f : S → α} (keeps : ∀ byte s, f (absorb byte s) = f s)
    (data : Bytes) (s : S) : f (decrypt_bytes pad absorb data s).2 = f s := by
  induction data generalizing s with
  | nil => rfl
  | cons byte data ih => exact (ih _).trans (keeps _ s)

/-- A bytewise cipher whose MAC is checked by making it again is lawful, if a nonce
leaves nothing of the earlier messages. -/
theorem lawful_of_bytes (encrypts : cipher.encrypt = encrypt_bytes pad absorb)
    (decrypts : cipher.decrypt = decrypt_bytes pad absorb)
    (length_finish : ∀ size s, (cipher.finish size s).1.length = size)
    (checks : ∀ mac s, (cipher.check_mac mac s).1 = (mac == (cipher.finish mac.length s).1))
    (renewed : ∀ key e d n, Keyed cipher key e → Keyed cipher key d →
      cipher.nonce n d = cipher.nonce n e) : cipher.Lawful := by
  have slices : ∀ slices s, cipher.decrypt_all slices s = cipher.decrypt slices.flatten s := by
    intro slices
    induction slices with
    | nil => intro s; rw [decrypts]; rfl
    | cons slice slices ih =>
      intro s
      rw [List.flatten_cons, decrypts, decrypt_bytes_append, ← decrypts]
      simp only [decrypt_all, ih]
  have same : ∀ key e d n data list, Keyed cipher key e → Keyed cipher key d →
      (cipher.encrypt data (cipher.nonce n e)).1 = List.flatten list →
      cipher.decrypt_all list (cipher.nonce n d) =
        (data, (cipher.encrypt data (cipher.nonce n e)).2) := by
    intro key e d n data list sender receiver cut
    rw [slices, renewed key e d n sender receiver, ← cut, encrypts, decrypts, decrypt_encrypt_bytes]
  refine ⟨?_, ?_, length_finish, ?_, ?_⟩
  · intro data s
    rw [encrypts, length_encrypt_bytes]
  · intro data s
    rw [decrypts, length_decrypt_bytes]
  · intro key e d n data list sender receiver cut
    rw [same key e d n data list sender receiver cut]
  · intro key e d n data list mac sender receiver cut
    rw [same key e d n data list sender receiver cut, checks, beq_iff_eq]

end Bytewise

end Cipher
