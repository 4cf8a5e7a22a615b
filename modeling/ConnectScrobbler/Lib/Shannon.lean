import ConnectScrobbler.Lib.Cipher
import Mathlib.Data.BitVec
import Mathlib.Data.Nat.Fib.Basic

/-! The Shannon stream cipher, byte by byte: a register of sixteen words that is
cycled once for each word of the message, and that takes the message in together
with a checksum register for the MAC. -/

structure Shannon where
  r : Vector (BitVec 32) 16
  crc : Vector (BitVec 32) 16
  init_r : Vector (BitVec 32) 16
  konst : BitVec 32
  sbuf : BitVec 32
  mbuf : BitVec 32
  nbuf : Nat
  deriving DecidableEq, Repr

namespace Shannon

def INITKONST : BitVec 32 := 0x6996c53a

def sbox (w : BitVec 32) : BitVec 32 :=
  let w := w ^^^ (w.rotateLeft 5 ||| w.rotateLeft 7)
  w ^^^ (w.rotateLeft 19 ||| w.rotateLeft 22)

def sbox2 (w : BitVec 32) : BitVec 32 :=
  let w := w ^^^ (w.rotateLeft 7 ||| w.rotateLeft 22)
  w ^^^ (w.rotateLeft 5 ||| w.rotateLeft 19)

def shift (r : Vector (BitVec 32) 16) (w : BitVec 32) : Vector (BitVec 32) 16 :=
  .ofFn fun i => if h : i.val + 1 < 16 then r[i.val + 1] else w

def cycle (s : Shannon) : Shannon :=
  let t := s.r[12] ^^^ s.r[13] ^^^ s.konst
  let r := shift s.r (sbox t ^^^ s.r[0].rotateLeft 1)
  let t := sbox2 (r[2] ^^^ r[15])
  let r := r.set 0 (r[0] ^^^ t)
  { s with r, sbuf := t ^^^ r[8] ^^^ r[12] }

def add_key (w : BitVec 32) (s : Shannon) : Shannon :=
  { s with r := s.r.set 13 (s.r[13] ^^^ w) }

/-- Take a word of the message into both registers. -/
def mac_func (w : BitVec 32) (s : Shannon) : Shannon :=
  { s with crc := shift s.crc (s.crc[0] ^^^ s.crc[2] ^^^ s.crc[15] ^^^ w) }.add_key w

def diffuse : Nat → Shannon → Shannon
  | 0, s => s
  | rounds + 1, s => diffuse rounds s.cycle

/-- A little-endian word, padded with zeros. -/
def word (bytes : Bytes) : BitVec 32 :=
  bytes.foldr (fun byte w => w <<< 8 ||| byte.toBitVec.setWidth 32) 0

def load_words : Bytes → Shannon → Shannon
  | [], s => s
  | a :: b :: c :: d :: rest, s => load_words rest (s.add_key (word [a, b, c, d])).cycle
  | extra, s => (s.add_key (word extra)).cycle

/-- Fold a key into the register, its length too, and make that irreversible. -/
def load_key (key : Bytes) (s : Shannon) : Shannon :=
  let s := ((load_words key s).add_key (BitVec.ofNat 32 key.length)).cycle
  let s := { s with crc := s.r }
  let s := diffuse 16 s
  { s with r := .ofFn fun i => s.r[i] ^^^ s.crc[i] }

/-- A state with this register; the buffers hold nothing that is read. -/
def fresh (r : Vector (BitVec 32) 16) : Shannon :=
  { r, crc := r, init_r := r, konst := INITKONST, sbuf := 0, mbuf := 0, nbuf := 0 }

def fibonacci : Vector (BitVec 32) 16 := .ofFn fun i => BitVec.ofNat 32 (Nat.fib (i.val + 1))

def new (key : Bytes) : Shannon :=
  let s := load_key key (fresh fibonacci)
  { s with konst := s.r[0], init_r := s.r }

def nonce (n : BitVec 32) (s : Shannon) : Shannon :=
  let s := load_key (Bytes.be 4 n.toNat) (fresh s.init_r)
  { s with konst := s.r[0] }

def fill (s : Shannon) : Shannon :=
  if s.nbuf = 0 then { s.cycle with mbuf := 0, nbuf := 32 } else s

def pad (s : Shannon) : UInt8 :=
  ⟨(s.fill.sbuf >>> (32 - s.fill.nbuf)).setWidth 8⟩

def absorb (byte : UInt8) (s : Shannon) : Shannon :=
  let s := s.fill
  let s := { s with
    mbuf := s.mbuf ^^^ (byte.toBitVec.setWidth 32 <<< (32 - s.nbuf)), nbuf := s.nbuf - 8 }
  if s.nbuf = 0 then s.mac_func s.mbuf else s

/-- The bytes of the stream from here on, `offset` bytes into a word. -/
def stream : (offset left : Nat) → Shannon → Bytes × Shannon
  | _, 0, s => ([], s)
  | offset, left + 1, s =>
    let s := if offset % 4 = 0 then s.cycle else s
    let (rest, t) := stream (offset + 1) left s
    (⟨(s.sbuf >>> (8 * (offset % 4))).setWidth 8⟩ :: rest, t)

def finish (size : Nat) (s : Shannon) : Bytes × Shannon :=
  let s := if s.nbuf ≠ 0 then s.mac_func s.mbuf else s
  let s := s.cycle.add_key (INITKONST ^^^ (BitVec.ofNat 32 s.nbuf <<< 3))
  let s := { s with nbuf := 0, r := .ofFn fun i => s.r[i] ^^^ s.crc[i] }
  stream 0 size (diffuse 16 s)

def cipher : Cipher Shannon where
  new := new
  nonce := nonce
  encrypt := Cipher.encrypt_bytes pad absorb
  decrypt := Cipher.decrypt_bytes pad absorb
  finish := finish
  check_mac mac s :=
    let (actual, s) := finish mac.length s
    (mac == actual, s)

@[simp] theorem cycle_init (s : Shannon) : s.cycle.init_r = s.init_r := by
  simp only [cycle]

@[simp] theorem add_key_init (w : BitVec 32) (s : Shannon) : (s.add_key w).init_r = s.init_r := by
  simp only [add_key]

@[simp] theorem mac_func_init (w : BitVec 32) (s : Shannon) : (s.mac_func w).init_r = s.init_r := by
  simp only [mac_func, add_key_init]

@[simp] theorem diffuse_init (rounds : Nat) (s : Shannon) : (diffuse rounds s).init_r = s.init_r := by
  induction rounds generalizing s with
  | zero => rfl
  | succ rounds ih => rw [diffuse, ih, cycle_init]

@[simp] theorem load_words_init (key : Bytes) (s : Shannon) :
    (load_words key s).init_r = s.init_r := by
  fun_induction load_words key s with
  | case1 => rfl
  | case2 _ _ _ _ _ _ ih => rw [ih, cycle_init, add_key_init]
  | case3 => rw [cycle_init, add_key_init]

theorem load_key_init (key : Bytes) (s : Shannon) : (load_key key s).init_r = s.init_r := by
  simp only [load_key, diffuse_init, cycle_init, add_key_init, load_words_init]

theorem nonce_init (n : BitVec 32) (s : Shannon) : (nonce n s).init_r = s.init_r := by
  simp only [nonce, load_key_init, fresh]

theorem fill_init (s : Shannon) : s.fill.init_r = s.init_r := by
  unfold fill
  split
  · simp only [cycle_init]
  · rfl

theorem absorb_init (byte : UInt8) (s : Shannon) : (absorb byte s).init_r = s.init_r := by
  simp only [absorb]
  split
  · rw [mac_func_init, fill_init]
  · exact fill_init s

theorem stream_init (offset left : Nat) (s : Shannon) : (stream offset left s).2.init_r = s.init_r := by
  induction left generalizing offset s with
  | zero => rfl
  | succ left ih =>
    simp only [stream, ih]
    split
    · exact cycle_init s
    · rfl

theorem finish_init (size : Nat) (s : Shannon) : (finish size s).2.init_r = s.init_r := by
  simp only [finish, stream_init, diffuse_init, add_key_init, cycle_init]
  split
  · exact mac_func_init _ s
  · rfl

theorem length_stream (offset left : Nat) (s : Shannon) : (stream offset left s).1.length = left := by
  induction left generalizing offset s with
  | zero => rfl
  | succ left ih => exact congrArg Nat.succ (ih _ _)

/-- Only the key decides what a nonce starts from. -/
theorem keyed_init {key : Bytes} {s : Shannon} (keyed : Cipher.Keyed cipher key s) :
    s.init_r = (new key).init_r := by
  induction keyed with
  | new => rfl
  | nonce n _ ih => exact (nonce_init n _).trans ih
  | encrypt data _ ih => exact (Cipher.encrypt_bytes_keeps (f := init_r) absorb_init data _).trans ih
  | decrypt data _ ih => exact (Cipher.decrypt_bytes_keeps (f := init_r) absorb_init data _).trans ih
  | finish size _ ih => exact (finish_init size _).trans ih
  | check_mac mac _ ih => exact (finish_init mac.length _).trans ih

theorem lawful : cipher.Lawful := by
  refine Cipher.lawful_of_bytes rfl rfl (fun _ _ => length_stream ..) (fun _ _ => rfl) ?_
  intro key e d n sender receiver
  show nonce n d = nonce n e
  rw [nonce, nonce, keyed_init sender, keyed_init receiver]

theorem sliced : cipher.Sliced := Cipher.sliced_of_bytes rfl

end Shannon
