import ConnectScrobbler.Core.Authentication
import ConnectScrobbler.Lib.Aes
import ConnectScrobbler.Lib.Base64
import ConnectScrobbler.Lib.Pbkdf2
import Mathlib.Data.Nat.Bitwise

/-! The blob as another device writes it, and that it is read back. -/
namespace ConnectScrobbler

/-- What is decoded is what was encoded, and the hashes are of their sizes. -/
structure Crypto.Inverts (crypto : Crypto) (ecb_encrypt : Bytes → Bytes → Bytes)
    (base64_encode : Bytes → String) : Prop where
  length_sha1 : ∀ data, (crypto.sha1 data).length = 20
  length_pbkdf2 : ∀ secret salt iterations size,
    (crypto.pbkdf2 secret salt iterations size).length = size
  length_ecb : ∀ key data, 16 ∣ data.length → (ecb_encrypt key data).length = data.length
  ecb : ∀ key data, key.length = 24 → 16 ∣ data.length →
    crypto.ecb_decrypt key (ecb_encrypt key data) = some data
  base64 : ∀ data, crypto.base64_decode (base64_encode data) = some data

namespace Credentials

open Bytes (drain_to)

/-! The record, with numbers of up to fifteen bits. -/

def write_int (n : Nat) : Bytes :=
  if n < 0x80 then [UInt8.ofNat n] else [UInt8.ofNat (n % 0x80 + 0x80), UInt8.ofNat (n / 0x80)]

def write_bytes (data : Bytes) : Bytes := write_int data.length ++ data

theorem read_u8_cons (byte : UInt8) (rest : Bytes) : read_u8 (byte :: rest) = some (byte, rest) := by
  simp [read_u8, drain_to]

/-- The high bit of a first byte says that there is a second one. -/
theorem high_bit (byte : UInt8) : byte.toUInt32 &&& 0x80 = 0 ↔ byte.toNat < 0x80 := by
  have bit : byte.toNat &&& 0x80 = (byte.toNat.testBit 7).toNat * 0x80 := Nat.and_two_pow byte.toNat 7
  have size := byte.toNat_lt
  rw [← UInt32.toNat_inj, UInt32.toNat_and, UInt8.toNat_toUInt32]
  rw [Nat.testBit_eq_decide_div_mod_eq] at bit
  by_cases below : byte.toNat < 0x80
  · have zero : byte.toNat / 2 ^ 7 = 0 := by omega
    rw [zero] at bit
    exact iff_of_true bit below
  · have one : byte.toNat / 2 ^ 7 = 1 := by omega
    rw [one] at bit
    apply iff_of_false _ below
    intro none
    have same := bit.symm.trans none
    contradiction

/-- The bits of the second byte go above the lower seven of the first. -/
theorem join_bits (lo hi : UInt8) :
    ((lo.toUInt32 &&& (0x7f : UInt32)) ||| (hi.toUInt32 <<< 7)).toNat =
      lo.toNat % 0x80 + hi.toNat * 0x80 := by
  have low : lo.toNat &&& 0x7f = lo.toNat % 0x80 := Nat.and_two_pow_sub_one_eq_mod lo.toNat 7
  have small : lo.toNat % 0x80 < 2 ^ 7 := Nat.mod_lt _ (by decide)
  have size := hi.toNat_lt
  have shifted : hi.toNat <<< 7 = hi.toNat * 0x80 := Nat.shiftLeft_eq hi.toNat 7
  have fits : hi.toNat <<< 7 % 2 ^ 32 = hi.toNat <<< 7 := Nat.mod_eq_of_lt (by omega)
  have seven : (7 : UInt32).toNat % 32 = 7 := rfl
  rw [UInt32.toNat_or, UInt32.toNat_and, UInt32.toNat_shiftLeft, UInt8.toNat_toUInt32,
    UInt8.toNat_toUInt32, seven, fits]
  calc lo.toNat &&& 0x7f ||| hi.toNat <<< 7
      = hi.toNat <<< 7 ||| lo.toNat % 0x80 := by rw [Nat.or_comm, low]
    _ = hi.toNat <<< 7 + lo.toNat % 0x80 := (Nat.shiftLeft_add_eq_or_of_lt small _).symm
    _ = lo.toNat % 0x80 + hi.toNat * 0x80 := by rw [shifted, Nat.add_comm]

theorem read_int_write {n : Nat} (small : n < 2 ^ 15) (rest : Bytes) :
    read_int (write_int n ++ rest) = some (UInt32.ofNat n, rest) := by
  unfold write_int
  split
  · rename_i below
    have byte : (UInt8.ofNat n).toNat = n := by rw [UInt8.toNat_ofNat']; omega
    have alone := (high_bit (UInt8.ofNat n)).mpr (by omega)
    have same : (UInt8.ofNat n).toUInt32 = UInt32.ofNat n := by
      rw [← UInt32.toNat_inj, UInt8.toNat_toUInt32, byte, UInt32.toNat_ofNat']
      omega
    rw [same] at alone
    rw [List.singleton_append, read_int, read_u8_cons]
    simp only [Option.bind_eq_bind, Option.bind_some, same, if_pos alone]
  · have lo : (UInt8.ofNat (n % 0x80 + 0x80)).toNat = n % 0x80 + 0x80 := by
      rw [UInt8.toNat_ofNat']; omega
    have hi : (UInt8.ofNat (n / 0x80)).toNat = n / 0x80 := by rw [UInt8.toNat_ofNat']; omega
    have more := mt (high_bit (UInt8.ofNat (n % 0x80 + 0x80))).mp (by omega)
    have same : ((UInt8.ofNat (n % 0x80 + 0x80)).toUInt32 &&& (0x7f : UInt32)) |||
        ((UInt8.ofNat (n / 0x80)).toUInt32 <<< 7) = UInt32.ofNat n := by
      rw [← UInt32.toNat_inj, join_bits, lo, hi, UInt32.toNat_ofNat']
      omega
    rw [List.cons_append, List.singleton_append, read_int, read_u8_cons]
    simp only [Option.bind_eq_bind, Option.bind_some, if_neg more, read_u8_cons, same]

theorem read_bytes_write {data : Bytes} (short : data.length < 2 ^ 15) (rest : Bytes) :
    read_bytes (write_bytes data ++ rest) = some (data, rest) := by
  have length : (UInt32.ofNat data.length).toNat = data.length := by
    rw [UInt32.toNat_ofNat']
    omega
  rw [write_bytes, List.append_assoc, read_bytes, read_int_write short]
  simp only [Option.bind_eq_bind, Option.bind_some, length]
  exact Bytes.drain_to_append rfl rest

theorem from_i32_value (auth_type : AuthenticationType) :
    AuthenticationType.from_i32 (UInt32.ofNat auth_type.value).toInt32.toInt = some auth_type := by
  cases auth_type <;> rfl

/-- The bytes that are encrypted: each part after a tag, and padding behind. -/
structure Record where
  tag : UInt8
  skipped : Bytes
  type_tag : UInt8
  auth_type : AuthenticationType
  data_tag : UInt8
  auth_data : Bytes
  padding : Bytes
  deriving DecidableEq, Repr

def Record.write (r : Record) : Bytes :=
  r.tag :: write_bytes r.skipped ++ r.type_tag :: write_int r.auth_type.value ++
    r.data_tag :: write_bytes r.auth_data ++ r.padding

/-! The encryption of a record. -/

variable {crypto : Crypto} {ecb_encrypt : Bytes → Bytes → Bytes} {base64_encode : Bytes → String}

/-- The key of the documentation: a hash, and the length of what it is a hash of. -/
def documented_key (crypto : Crypto) (username device_id : String) : Bytes :=
  let base_key := crypto.pbkdf2 (crypto.sha1 (as_bytes device_id)) (as_bytes username) 0x100 20
  crypto.sha1 base_key ++ Bytes.be 4 base_key.length

/-- The record as a blob for a user and a device. -/
def write_blob (crypto : Crypto) (ecb_encrypt : Bytes → Bytes → Bytes) (base64_encode : Bytes → String)
    (username device_id : String) (r : Record) : String :=
  let data := Chain.chain 16 (r.write.length / 16) (List.replicate 16 0) r.write
  base64_encode (ecb_encrypt (documented_key crypto username device_id) data)

theorem blob_key_documented (inverts : crypto.Inverts ecb_encrypt base64_encode)
    (username device_id : String) :
    blob_key crypto username device_id = documented_key crypto username device_id := by
  rw [blob_key, documented_key, inverts.length_pbkdf2]

theorem length_documented_key (inverts : crypto.Inverts ecb_encrypt base64_encode)
    (username device_id : String) : (documented_key crypto username device_id).length = 24 := by
  rw [documented_key, List.length_append, inverts.length_sha1, Bytes.length_be]

/-- The loop of the source takes the chain off blocks that it works on in place. -/
theorem decrypt_blob_chained (inverts : crypto.Inverts ecb_encrypt base64_encode) {key data : Bytes}
    (sized : key.length = 24) (whole : 16 ∣ data.length) (some_block : data ≠ []) :
    decrypt_blob crypto key
      (ecb_encrypt key (Chain.chain 16 (data.length / 16) (List.replicate 16 0) data)) = some data := by
  obtain ⟨blocks, length⟩ := whole
  have zeros : (List.replicate 16 (0 : UInt8)).length = 16 := List.length_replicate
  have chained := Chain.length_chain zeros length
  have positive := List.length_pos_iff.mpr some_block
  have count : data.length / 16 = blocks := by omega
  have back := Chain.unchain_chain zeros length
  have long : 16 ≤ (Chain.chain 16 blocks (List.replicate 16 0) data).length := by omega
  have undone := Chain.undo_all long
  rw [back] at undone
  rw [decrypt_blob, count, inverts.ecb key _ sized ⟨blocks, chained⟩,
    inverts.length_ecb key _ ⟨blocks, chained⟩]
  simp only [Option.bind_eq_bind, Option.bind_some, if_neg (Nat.not_lt.mpr long)]
  exact undone

/-- A blob that was made from a record gives its user the credentials in it. -/
theorem with_blob_write_blob (inverts : crypto.Inverts ecb_encrypt base64_encode)
    (username device_id : String) {r : Record} (skipped : r.skipped.length < 2 ^ 15)
    (auth_data : r.auth_data.length < 2 ^ 15) (whole : 16 ∣ r.write.length) :
    with_blob crypto username (write_blob crypto ecb_encrypt base64_encode username device_id r)
      device_id = some ⟨username, r.auth_type, r.auth_data⟩ := by
  have there : r.write ≠ [] := by simp [Record.write]
  have opened := decrypt_blob_chained inverts (length_documented_key inverts username device_id) whole there
  have small : r.auth_type.value < 2 ^ 15 := by cases r.auth_type <;> decide
  rw [with_blob, write_blob, inverts.base64, blob_key_documented inverts]
  simp only [Option.bind_eq_bind, Option.bind_some, opened]
  simp only [Record.write, List.cons_append, List.append_assoc, read_u8_cons, Option.bind_some,
    read_bytes_write skipped, read_int_write small, from_i32_value, read_bytes_write auth_data]

def crates : Crypto := ⟨Sha1.sha1, Sha1.pbkdf2, Aes.ecb_decrypt, Base64.decode⟩

theorem crates_invert : crates.Inverts Aes.ecb_encrypt Base64.encode where
  length_sha1 := Sha1.length_sha1
  length_pbkdf2 := Sha1.length_pbkdf2
  length_ecb key _ whole := Aes.length_ecb_encrypt key whole
  ecb key _ _ whole := Aes.ecb_decrypt_encrypt key whole
  base64 := Base64.decode_encode

/-- Data of 130 bytes, whose length takes two bytes to write. -/
def stored_record : Record :=
  ⟨0x49, [0x61, 0x62, 0x63, 0x64], 0x50, .AUTHENTICATION_STORED_SPOTIFY_CREDENTIALS, 0x51,
    List.replicate 130 0xab, [3, 3, 3]⟩

theorem with_blob_stored_record :
    with_blob crates "alice"
      (write_blob crates Aes.ecb_encrypt Base64.encode "alice" "scrobbler" stored_record) "scrobbler" =
      some ⟨"alice", .AUTHENTICATION_STORED_SPOTIFY_CREDENTIALS, List.replicate 130 0xab⟩ :=
  with_blob_write_blob crates_invert "alice" "scrobbler" (r := stored_record)
    (by simp [stored_record]) (by simp [stored_record])
    (by simp [Record.write, write_bytes, write_int, AuthenticationType.value, stored_record])

end Credentials

end ConnectScrobbler
