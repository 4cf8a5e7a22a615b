import ConnectScrobbler.Lib.Bytes

/-! AES with any list of round keys, its key schedule for 192 bits, and blocks that are
encrypted each on its own. -/
namespace Aes

/-! Bytes as polynomials over two elements. -/

/-- Times the unknown; a bit that goes out at the top comes back at the places of `0x1b`. -/
def xtime (x : UInt8) : UInt8 :=
  x <<< 1 ^^^ (x >>> 7 ^^^ x >>> 7 <<< 1 ^^^ x >>> 7 <<< 3 ^^^ x >>> 7 <<< 4)

def sbox : List (List Nat) := [
  [0x63, 0x7c, 0x77, 0x7b, 0xf2, 0x6b, 0x6f, 0xc5, 0x30, 0x01, 0x67, 0x2b, 0xfe, 0xd7, 0xab, 0x76],
  [0xca, 0x82, 0xc9, 0x7d, 0xfa, 0x59, 0x47, 0xf0, 0xad, 0xd4, 0xa2, 0xaf, 0x9c, 0xa4, 0x72, 0xc0],
  [0xb7, 0xfd, 0x93, 0x26, 0x36, 0x3f, 0xf7, 0xcc, 0x34, 0xa5, 0xe5, 0xf1, 0x71, 0xd8, 0x31, 0x15],
  [0x04, 0xc7, 0x23, 0xc3, 0x18, 0x96, 0x05, 0x9a, 0x07, 0x12, 0x80, 0xe2, 0xeb, 0x27, 0xb2, 0x75],
  [0x09, 0x83, 0x2c, 0x1a, 0x1b, 0x6e, 0x5a, 0xa0, 0x52, 0x3b, 0xd6, 0xb3, 0x29, 0xe3, 0x2f, 0x84],
  [0x53, 0xd1, 0x00, 0xed, 0x20, 0xfc, 0xb1, 0x5b, 0x6a, 0xcb, 0xbe, 0x39, 0x4a, 0x4c, 0x58, 0xcf],
  [0xd0, 0xef, 0xaa, 0xfb, 0x43, 0x4d, 0x33, 0x85, 0x45, 0xf9, 0x02, 0x7f, 0x50, 0x3c, 0x9f, 0xa8],
  [0x51, 0xa3, 0x40, 0x8f, 0x92, 0x9d, 0x38, 0xf5, 0xbc, 0xb6, 0xda, 0x21, 0x10, 0xff, 0xf3, 0xd2],
  [0xcd, 0x0c, 0x13, 0xec, 0x5f, 0x97, 0x44, 0x17, 0xc4, 0xa7, 0x7e, 0x3d, 0x64, 0x5d, 0x19, 0x73],
  [0x60, 0x81, 0x4f, 0xdc, 0x22, 0x2a, 0x90, 0x88, 0x46, 0xee, 0xb8, 0x14, 0xde, 0x5e, 0x0b, 0xdb],
  [0xe0, 0x32, 0x3a, 0x0a, 0x49, 0x06, 0x24, 0x5c, 0xc2, 0xd3, 0xac, 0x62, 0x91, 0x95, 0xe4, 0x79],
  [0xe7, 0xc8, 0x37, 0x6d, 0x8d, 0xd5, 0x4e, 0xa9, 0x6c, 0x56, 0xf4, 0xea, 0x65, 0x7a, 0xae, 0x08],
  [0xba, 0x78, 0x25, 0x2e, 0x1c, 0xa6, 0xb4, 0xc6, 0xe8, 0xdd, 0x74, 0x1f, 0x4b, 0xbd, 0x8b, 0x8a],
  [0x70, 0x3e, 0xb5, 0x66, 0x48, 0x03, 0xf6, 0x0e, 0x61, 0x35, 0x57, 0xb9, 0x86, 0xc1, 0x1d, 0x9e],
  [0xe1, 0xf8, 0x98, 0x11, 0x69, 0xd9, 0x8e, 0x94, 0x9b, 0x1e, 0x87, 0xe9, 0xce, 0x55, 0x28, 0xdf],
  [0x8c, 0xa1, 0x89, 0x0d, 0xbf, 0xe6, 0x42, 0x68, 0x41, 0x99, 0x2d, 0x0f, 0xb0, 0x54, 0xbb, 0x16]]

def inv_sbox : List (List Nat) := [
  [0x52, 0x09, 0x6a, 0xd5, 0x30, 0x36, 0xa5, 0x38, 0xbf, 0x40, 0xa3, 0x9e, 0x81, 0xf3, 0xd7, 0xfb],
  [0x7c, 0xe3, 0x39, 0x82, 0x9b, 0x2f, 0xff, 0x87, 0x34, 0x8e, 0x43, 0x44, 0xc4, 0xde, 0xe9, 0xcb],
  [0x54, 0x7b, 0x94, 0x32, 0xa6, 0xc2, 0x23, 0x3d, 0xee, 0x4c, 0x95, 0x0b, 0x42, 0xfa, 0xc3, 0x4e],
  [0x08, 0x2e, 0xa1, 0x66, 0x28, 0xd9, 0x24, 0xb2, 0x76, 0x5b, 0xa2, 0x49, 0x6d, 0x8b, 0xd1, 0x25],
  [0x72, 0xf8, 0xf6, 0x64, 0x86, 0x68, 0x98, 0x16, 0xd4, 0xa4, 0x5c, 0xcc, 0x5d, 0x65, 0xb6, 0x92],
  [0x6c, 0x70, 0x48, 0x50, 0xfd, 0xed, 0xb9, 0xda, 0x5e, 0x15, 0x46, 0x57, 0xa7, 0x8d, 0x9d, 0x84],
  [0x90, 0xd8, 0xab, 0x00, 0x8c, 0xbc, 0xd3, 0x0a, 0xf7, 0xe4, 0x58, 0x05, 0xb8, 0xb3, 0x45, 0x06],
  [0xd0, 0x2c, 0x1e, 0x8f, 0xca, 0x3f, 0x0f, 0x02, 0xc1, 0xaf, 0xbd, 0x03, 0x01, 0x13, 0x8a, 0x6b],
  [0x3a, 0x91, 0x11, 0x41, 0x4f, 0x67, 0xdc, 0xea, 0x97, 0xf2, 0xcf, 0xce, 0xf0, 0xb4, 0xe6, 0x73],
  [0x96, 0xac, 0x74, 0x22, 0xe7, 0xad, 0x35, 0x85, 0xe2, 0xf9, 0x37, 0xe8, 0x1c, 0x75, 0xdf, 0x6e],
  [0x47, 0xf1, 0x1a, 0x71, 0x1d, 0x29, 0xc5, 0x89, 0x6f, 0xb7, 0x62, 0x0e, 0xaa, 0x18, 0xbe, 0x1b],
  [0xfc, 0x56, 0x3e, 0x4b, 0xc6, 0xd2, 0x79, 0x20, 0x9a, 0xdb, 0xc0, 0xfe, 0x78, 0xcd, 0x5a, 0xf4],
  [0x1f, 0xdd, 0xa8, 0x33, 0x88, 0x07, 0xc7, 0x31, 0xb1, 0x12, 0x10, 0x59, 0x27, 0x80, 0xec, 0x5f],
  [0x60, 0x51, 0x7f, 0xa9, 0x19, 0xb5, 0x4a, 0x0d, 0x2d, 0xe5, 0x7a, 0x9f, 0x93, 0xc9, 0x9c, 0xef],
  [0xa0, 0xe0, 0x3b, 0x4d, 0xae, 0x2a, 0xf5, 0xb0, 0xc8, 0xeb, 0xbb, 0x3c, 0x83, 0x53, 0x99, 0x61],
  [0x17, 0x2b, 0x04, 0x7e, 0xba, 0x77, 0xd6, 0x26, 0xe1, 0x69, 0x14, 0x63, 0x55, 0x21, 0x0c, 0x7d]]

def look_up (table : List (List Nat)) (x : UInt8) : UInt8 :=
  UInt8.ofNat ((table.getD (x.toNat / 16) []).getD (x.toNat % 16) 0)

def sub_byte (x : UInt8) : UInt8 := look_up sbox x

def inv_sub_byte (x : UInt8) : UInt8 := look_up inv_sbox x

theorem inv_sub_byte_sub_byte (x : UInt8) : inv_sub_byte (sub_byte x) = x := by
  have checked : ((List.range 256).all fun n =>
      inv_sub_byte (sub_byte (UInt8.ofNat n)) == UInt8.ofNat n) = true := by decide +kernel
  have here := List.all_eq_true.mp checked x.toNat (List.mem_range.mpr x.toNat_lt)
  rw [UInt8.ofNat_toNat] at here
  exact eq_of_beq here

theorem xtime_xor (x y : UInt8) : xtime (x ^^^ y) = xtime x ^^^ xtime y := by
  simp only [xtime, UInt8.shiftLeft_xor, UInt8.shiftRight_xor]
  ac_rfl

theorem xor_left_self (x y : UInt8) : x ^^^ (x ^^^ y) = y := by
  rw [← UInt8.xor_assoc, UInt8.xor_self, UInt8.zero_xor]

theorem xor_left_comm (x y z : UInt8) : x ^^^ (y ^^^ z) = y ^^^ (x ^^^ z) := by ac_rfl

/-! A block is four columns of four bytes. -/

structure Column where
  a : UInt8
  b : UInt8
  c : UInt8
  d : UInt8
  deriving DecidableEq, Repr

namespace Column

def map (f : UInt8 → UInt8) (x : Column) : Column := ⟨f x.a, f x.b, f x.c, f x.d⟩

def add (x y : Column) : Column := ⟨x.a ^^^ y.a, x.b ^^^ y.b, x.c ^^^ y.c, x.d ^^^ y.d⟩

def bytes (x : Column) : Bytes := [x.a, x.b, x.c, x.d]

def of (data : Bytes) : Column := ⟨data.getD 0 0, data.getD 1 0, data.getD 2 0, data.getD 3 0⟩

def rotate (x : Column) : Column := ⟨x.b, x.c, x.d, x.a⟩

def sum (x : Column) : UInt8 := x.a ^^^ x.b ^^^ x.c ^^^ x.d

/-- Twice a byte, three times the next one and once the others. -/
def mix (x : Column) : Column :=
  ⟨x.a ^^^ x.sum ^^^ xtime (x.a ^^^ x.b), x.b ^^^ x.sum ^^^ xtime (x.b ^^^ x.c),
    x.c ^^^ x.sum ^^^ xtime (x.c ^^^ x.d), x.d ^^^ x.sum ^^^ xtime (x.d ^^^ x.a)⟩

/-- Five times a byte and four times the one two places away. -/
def add_far (x : Column) : Column :=
  let even := xtime (xtime (x.a ^^^ x.c))
  let odd := xtime (xtime (x.b ^^^ x.d))
  ⟨x.a ^^^ even, x.b ^^^ odd, x.c ^^^ even, x.d ^^^ odd⟩

/-- The inverse is a product of these two. -/
def inv_mix (x : Column) : Column := x.add_far.mix

theorem add_add (x y : Column) : (x.add y).add y = x := by
  simp only [add, UInt8.xor_assoc, UInt8.xor_self, UInt8.xor_zero]

theorem map_map {f g : UInt8 → UInt8} (back : ∀ x, g (f x) = x) (x : Column) :
    (x.map f).map g = x := by
  simp only [map, back]

theorem mix_rotate (x : Column) : x.rotate.mix = x.mix.rotate := by
  have sum : x.b ^^^ x.c ^^^ x.d ^^^ x.a = x.a ^^^ x.b ^^^ x.c ^^^ x.d := by ac_rfl
  simp only [rotate, mix, Column.sum, sum]

theorem add_far_rotate (x : Column) : x.rotate.add_far = x.add_far.rotate := by
  simp only [rotate, add_far, UInt8.xor_comm x.c x.a]

theorem sum_add_far (x : Column) : x.add_far.sum = x.sum := by
  simp only [add_far, sum]
  generalize xtime (xtime (x.a ^^^ x.c)) = even, xtime (xtime (x.b ^^^ x.d)) = odd
  simp only [UInt8.xor_comm, xor_left_comm, xor_left_self]

theorem sum_mix (x : Column) : x.mix.sum = x.sum := by
  simp only [mix, sum, xtime_xor, UInt8.xor_assoc]
  generalize xtime x.a = a', xtime x.b = b', xtime x.c = c', xtime x.d = d'
  simp only [UInt8.xor_comm, xor_left_comm, xor_left_self, UInt8.xor_self, UInt8.xor_zero]

theorem far_mix (x : Column) : x.mix.a ^^^ x.mix.c = x.a ^^^ x.c ^^^ xtime x.sum := by
  simp only [mix, sum, xtime_xor, UInt8.xor_assoc]
  generalize xtime x.a = a', xtime x.b = b', xtime x.c = c', xtime x.d = d'
  simp only [UInt8.xor_comm, xor_left_comm, xor_left_self, UInt8.xor_self, UInt8.xor_zero]

theorem next_mix (x : Column) : x.mix.a ^^^ x.mix.b = x.a ^^^ x.b ^^^ xtime (x.a ^^^ x.c) := by
  simp only [mix, sum, xtime_xor, UInt8.xor_assoc]
  generalize xtime x.a = a', xtime x.b = b', xtime x.c = c'
  simp only [UInt8.xor_comm, xor_left_comm, xor_left_self, UInt8.xor_self, UInt8.xor_zero]

theorem next_add_far (x : Column) :
    x.add_far.a ^^^ x.add_far.b = x.a ^^^ x.b ^^^ xtime (xtime x.sum) := by
  simp only [add_far, sum, xtime_xor, UInt8.xor_assoc]
  ac_rfl

theorem first_inv_mix (x : Column) : x.mix.inv_mix.a = x.a := by
  have even : x.mix.add_far.a = x.mix.a ^^^ xtime (xtime (x.a ^^^ x.c ^^^ xtime x.sum)) := by
    rw [← far_mix]
    rfl
  have next := next_add_far x.mix
  rw [sum_mix, next_mix] at next
  have cancel : ∀ p s u v, p ^^^ s ^^^ xtime v ^^^ xtime (xtime (u ^^^ xtime s)) ^^^ s ^^^
      xtime (v ^^^ xtime u ^^^ xtime (xtime s)) = p := by
    intro p s u v
    simp only [xtime_xor, UInt8.xor_assoc]
    generalize xtime v = v', xtime (xtime u) = u', xtime (xtime (xtime s)) = s'
    simp only [xor_left_comm, UInt8.xor_self, UInt8.xor_zero]
  calc x.mix.inv_mix.a
      = x.mix.add_far.a ^^^ x.mix.add_far.sum ^^^ xtime (x.mix.add_far.a ^^^ x.mix.add_far.b) := rfl
    _ = x.a ^^^ x.sum ^^^ xtime (x.a ^^^ x.b) ^^^ xtime (xtime (x.a ^^^ x.c ^^^ xtime x.sum)) ^^^
        x.sum ^^^ xtime (x.a ^^^ x.b ^^^ xtime (x.a ^^^ x.c) ^^^ xtime (xtime x.sum)) := by
      rw [next, even, sum_add_far, sum_mix]
      rfl
    _ = x.a := cancel x.a x.sum (x.a ^^^ x.c) (x.a ^^^ x.b)

/-- Each byte is the first one of the column turned to it. -/
theorem inv_mix_mix (x : Column) : x.mix.inv_mix = x := by
  have turned : ∀ y : Column, y.mix.inv_mix.rotate = y.rotate.mix.inv_mix := by
    intro y
    rw [inv_mix, inv_mix, mix_rotate, add_far_rotate, mix_rotate]
  have a := first_inv_mix x
  have b := first_inv_mix x.rotate
  have c := first_inv_mix x.rotate.rotate
  have d := first_inv_mix x.rotate.rotate.rotate
  rw [← turned] at b
  rw [← turned, ← turned] at c
  rw [← turned, ← turned, ← turned] at d
  generalize x.mix.inv_mix = y at a b c d
  obtain ⟨p, q, r, s⟩ := y
  cases a
  cases b
  cases c
  cases d
  rfl

theorem bytes_of {data : Bytes} (long : 4 ≤ data.length) : (of data).bytes = data.take 4 := by
  match data with
  | a :: b :: c :: d :: rest => rfl

end Column

structure State where
  p : Column
  q : Column
  r : Column
  s : Column
  deriving DecidableEq, Repr

namespace State

def map (f : Column → Column) (x : State) : State := ⟨f x.p, f x.q, f x.r, f x.s⟩

def add (x y : State) : State := ⟨x.p.add y.p, x.q.add y.q, x.r.add y.r, x.s.add y.s⟩

def bytes (x : State) : Bytes := x.p.bytes ++ x.q.bytes ++ x.r.bytes ++ x.s.bytes

def of (data : Bytes) : State :=
  ⟨.of data, .of (data.drop 4), .of (data.drop 8), .of (data.drop 12)⟩

def shift (x : State) : State :=
  ⟨⟨x.p.a, x.q.b, x.r.c, x.s.d⟩, ⟨x.q.a, x.r.b, x.s.c, x.p.d⟩,
    ⟨x.r.a, x.s.b, x.p.c, x.q.d⟩, ⟨x.s.a, x.p.b, x.q.c, x.r.d⟩⟩

def inv_shift (x : State) : State :=
  ⟨⟨x.p.a, x.s.b, x.r.c, x.q.d⟩, ⟨x.q.a, x.p.b, x.s.c, x.r.d⟩,
    ⟨x.r.a, x.q.b, x.p.c, x.s.d⟩, ⟨x.s.a, x.r.b, x.q.c, x.p.d⟩⟩

def sub (x : State) : State := x.map (.map sub_byte)

def inv_sub (x : State) : State := x.map (.map inv_sub_byte)

theorem inv_sub_sub (x : State) : x.sub.inv_sub = x := by
  simp only [sub, inv_sub, map, Column.map_map inv_sub_byte_sub_byte]

theorem inv_shift_shift (x : State) : x.shift.inv_shift = x := rfl

theorem add_add (x y : State) : (x.add y).add y = x := by
  simp only [add, Column.add_add]

theorem inv_mix_mix (x : State) : (x.map .mix).map .inv_mix = x := by
  simp only [map, Column.inv_mix_mix]

theorem of_bytes (x : State) (rest : Bytes) : of (x.bytes ++ rest) = x := rfl

theorem drop_bytes (x : State) (rest : Bytes) : (x.bytes ++ rest).drop 16 = rest := rfl

theorem length_bytes (x : State) : x.bytes.length = 16 := rfl

theorem bytes_of {data : Bytes} (long : 16 ≤ data.length) : (of data).bytes = data.take 16 := by
  have q : 4 ≤ (data.drop 4).length := by rw [List.length_drop]; omega
  have r : 4 ≤ (data.drop 8).length := by rw [List.length_drop]; omega
  have s : 4 ≤ (data.drop 12).length := by rw [List.length_drop]; omega
  simp only [bytes, of, Column.bytes_of (Nat.le_trans (by decide) long), Column.bytes_of q,
    Column.bytes_of r, Column.bytes_of s]
  rw [← List.take_add, ← List.take_add, ← List.take_add]

end State

/-- The last round mixes no columns. -/
def rounds : List State → State → State
  | [], x => x
  | [key], x => x.sub.shift.add key
  | key :: next :: keys, x => rounds (next :: keys) ((x.sub.shift.map .mix).add key)

def inv_rounds : List State → State → State
  | [], x => x
  | [key], x => (x.add key).inv_shift.inv_sub
  | key :: next :: keys, x =>
    (((inv_rounds (next :: keys) x).add key).map .inv_mix).inv_shift.inv_sub

theorem inv_rounds_rounds (keys : List State) (x : State) : inv_rounds keys (rounds keys x) = x := by
  induction keys, x using rounds.induct with
  | case1 x => rfl
  | case2 key x =>
    rw [rounds, inv_rounds, State.add_add, State.inv_shift_shift, State.inv_sub_sub]
  | case3 key next keys x ih =>
    rw [rounds, inv_rounds, ih, State.add_add, State.inv_mix_mix, State.inv_shift_shift,
      State.inv_sub_sub]

def encrypt_block : List State → State → State
  | [], x => x
  | key :: keys, x => rounds keys (x.add key)

def decrypt_block : List State → State → State
  | [], x => x
  | key :: keys, x => (inv_rounds keys x).add key

theorem decrypt_encrypt_block (keys : List State) (x : State) :
    decrypt_block keys (encrypt_block keys x) = x := by
  cases keys with
  | nil => rfl
  | cons key keys => rw [encrypt_block, decrypt_block, inv_rounds_rounds, State.add_add]

/-! The round keys of a key of 192 bits. -/

/-- The words from number `i` on; the last six are kept, the oldest first. -/
def words : (left i : Nat) → (rcon : UInt8) → List Column → List Column
  | 0, _, _, _ => []
  | left + 1, i, rcon, last =>
    let newest := last.getD 5 (.of [])
    let oldest := last.getD 0 (.of [])
    if i % 6 = 0 then
      let word := oldest.add ((newest.rotate.map sub_byte).add ⟨rcon, 0, 0, 0⟩)
      word :: words left (i + 1) (xtime rcon) (last.drop 1 ++ [word])
    else
      let word := oldest.add newest
      word :: words left (i + 1) rcon (last.drop 1 ++ [word])

def states : List Column → List State
  | p :: q :: r :: s :: rest => ⟨p, q, r, s⟩ :: states rest
  | _ => []

def expand (key : Bytes) : List State :=
  let first := [0, 4, 8, 12, 16, 20].map fun i => Column.of (key.drop i)
  states (first ++ words 46 6 1 first)

/-! Blocks one after the other, without padding. -/

def ecb (f : State → State) : (blocks : Nat) → Bytes → Bytes
  | 0, _ => []
  | blocks + 1, data => (f (.of data)).bytes ++ ecb f blocks (data.drop 16)

theorem length_ecb (f : State → State) (blocks : Nat) (data : Bytes) :
    (ecb f blocks data).length = 16 * blocks := by
  induction blocks generalizing data with
  | zero => rfl
  | succ blocks ih =>
    rw [ecb, List.length_append, State.length_bytes, ih]
    omega

theorem ecb_ecb {f g : State → State} (back : ∀ x, g (f x) = x) {blocks : Nat} {data : Bytes}
    (whole : data.length = 16 * blocks) : ecb g blocks (ecb f blocks data) = data := by
  induction blocks generalizing data with
  | zero => exact (List.length_eq_zero_iff.mp whole).symm
  | succ blocks ih =>
    have rest : (data.drop 16).length = 16 * blocks := by
      rw [List.length_drop]
      omega
    rw [ecb, ecb, State.of_bytes, State.drop_bytes, back, ih rest, State.bytes_of (by omega),
      List.take_append_drop]

def ecb_encrypt (key data : Bytes) : Bytes :=
  ecb (encrypt_block (expand key)) (data.length / 16) data

def ecb_decrypt (key data : Bytes) : Option Bytes :=
  if data.length % 16 = 0 then some (ecb (decrypt_block (expand key)) (data.length / 16) data)
  else none

theorem length_ecb_encrypt (key : Bytes) {data : Bytes} (whole : 16 ∣ data.length) :
    (ecb_encrypt key data).length = data.length := by
  rw [ecb_encrypt, length_ecb]
  omega

theorem ecb_decrypt_encrypt (key : Bytes) {data : Bytes} (whole : 16 ∣ data.length) :
    ecb_decrypt key (ecb_encrypt key data) = some data := by
  have length := length_ecb_encrypt key whole
  rw [ecb_decrypt, length, if_pos (Nat.mod_eq_zero_of_dvd whole), ecb_encrypt,
    ecb_ecb (decrypt_encrypt_block (expand key)) (by omega)]

example : ecb_encrypt ((List.range 24).map UInt8.ofNat)
    ((List.range 16).map fun n => UInt8.ofNat (0x11 * n)) =
    [0xdd, 0xa9, 0x7c, 0xa4, 0x86, 0x4c, 0xdf, 0xe0, 0x6e, 0xaf, 0x70, 0xa0, 0xec, 0x0d, 0x71,
      0x91] := by
  decide +kernel

end Aes
