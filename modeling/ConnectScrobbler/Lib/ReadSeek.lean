import ConnectScrobbler.Lib.Bytes
import ConnectScrobbler.Lib.Call
import Mathlib.Data.BitVec

/-! Byte streams that are read from a position which can be moved, and the one that
holds its bytes in memory. -/

/-- Where to move: from the start, from the end or from the current position. -/
inductive SeekFrom where
  | Start (n : BitVec 64) | End (n : BitVec 64) | Current (n : BitVec 64)
  deriving DecidableEq, Repr

inductive SeekError where
  | InvalidInput
  deriving DecidableEq, Repr

/-- What `Read` and `Seek` ask of a stream; no result is a panic. -/
structure ReadSeek (T : Type) where
  read : T → (length : Nat) → Option (Except SeekError Bytes × T)
  seek : T → SeekFrom → Option (Except SeekError (BitVec 64) × T)

namespace ReadSeek

inductive Request where
  | read (length : Nat) | seek (pos : SeekFrom)
  deriving DecidableEq, Repr

inductive Outcome where
  | read (result : Except SeekError Bytes) | seek (result : Except SeekError (BitVec 64))
  deriving DecidableEq, Repr

variable {T : Type}

def answer {R : Type} (outcome : R → Outcome) : Option (R × T) → Call Outcome T
  | none => ⟨[], none⟩
  | some (result, t) => ⟨[outcome result], some t⟩

def serve (io : ReadSeek T) (t : T) : Request → Call Outcome T
  | .read length => answer .read (io.read t length)
  | .seek pos => answer .seek (io.seek t pos)

@[simp] theorem answer_none {R : Type} (outcome : R → Outcome) :
    answer outcome (none : Option (R × T)) = ⟨[], none⟩ := rfl

@[simp] theorem answer_some {R : Type} (outcome : R → Outcome) (reply : R × T) :
    answer outcome (some reply) = ⟨[outcome reply.1], some reply.2⟩ := rfl

@[simp] theorem serve_read (io : ReadSeek T) (t : T) (length : Nat) :
    io.serve t (.read length) = answer .read (io.read t length) := rfl

@[simp] theorem serve_seek (io : ReadSeek T) (t : T) (pos : SeekFrom) :
    io.serve t (.seek pos) = answer .seek (io.seek t pos) := rfl

/-- A request has one outcome, or none if it panics. -/
theorem serve_cases (io : ReadSeek T) (t : T) (request : Request) :
    (∃ outcome t', io.serve t request = ⟨[outcome], some t'⟩) ∨ io.serve t request = ⟨[], none⟩ := by
  cases request with
  | read length =>
    cases reply : io.read t length with
    | none => right; rw [serve_read, reply, answer_none]
    | some reply' => left; exact ⟨_, _, by rw [serve_read, reply, answer_some]⟩
  | seek pos =>
    cases reply : io.seek t pos with
    | none => right; rw [serve_seek, reply, answer_none]
    | some reply' => left; exact ⟨_, _, by rw [serve_seek, reply, answer_some]⟩

end ReadSeek

/-- A stream in memory, which is never as long as a signed number could not tell. -/
structure Cursor where
  inner : Bytes
  pos : BitVec 64
  fits : inner.length < 2 ^ 63

namespace Cursor

def read (c : Cursor) (length : Nat) : Bytes × Cursor :=
  let start := min c.pos.toNat c.inner.length
  let bytes := (c.inner.drop start).take length
  (bytes, { c with pos := c.pos + BitVec.ofNat 64 bytes.length })

/-- The position that is asked for, which may be none. -/
def target (c : Cursor) : SeekFrom → Int
  | .Start n => n.toNat
  | .End n => c.inner.length + n.toInt
  | .Current n => c.pos.toNat + n.toInt

/-- A negative or overflowing position is an error, and the old one stays. -/
def seek (c : Cursor) (pos : SeekFrom) : Except SeekError (BitVec 64) × Cursor :=
  let newpos := c.target pos
  if 0 ≤ newpos ∧ newpos < 2 ^ 64 then
    (.ok (BitVec.ofInt 64 newpos), { c with pos := BitVec.ofInt 64 newpos })
  else (.error .InvalidInput, c)

def io : ReadSeek Cursor where
  read c length := some ((c.read length).map .ok id)
  seek c pos := some (c.seek pos)

@[simp] theorem io_read (c : Cursor) (length : Nat) :
    io.read c length = some ((c.read length).map .ok id) := rfl

@[simp] theorem io_seek (c : Cursor) (pos : SeekFrom) : io.seek c pos = some (c.seek pos) := rfl

theorem serve_returns (c : Cursor) (request : ReadSeek.Request) :
    ∃ outcome d, io.serve c request = ⟨[outcome], some d⟩ := by
  cases request with
  | read length => exact ⟨_, _, rfl⟩
  | seek pos => exact ⟨_, _, rfl⟩

/-- The stream of its own that holds the bytes from an offset on. -/
def rest (c : Cursor) (offset : Nat) : Cursor where
  inner := c.inner.drop offset
  pos := 0
  fits := by
    have fits := c.fits
    rw [List.length_drop]
    omega

theorem pos_read (c : Cursor) (length : Nat) :
    (c.read length).2.pos.toNat = c.pos.toNat + (c.read length).1.length := by
  have fits := c.fits
  have size : (c.read length).1.length ≤ c.inner.length - min c.pos.toNat c.inner.length := by
    simp only [read, List.length_take, List.length_drop]
    omega
  have moved : (c.read length).2.pos = c.pos + BitVec.ofNat 64 (c.read length).1.length := rfl
  rw [moved, BitVec.toNat_add, BitVec.toNat_ofNat]
  have pos := c.pos.isLt
  rw [Nat.mod_eq_of_lt (by omega : (c.read length).1.length < 2 ^ 64)]
  exact Nat.mod_eq_of_lt (by omega)

/-- The signed and the unsigned reading of a position agree where there is one. -/
theorem toNat_ofInt (newpos : Int) (positive : 0 ≤ newpos) (small : newpos < 2 ^ 64) :
    ((BitVec.ofInt 64 newpos).toNat : Int) = newpos := by
  rw [BitVec.toNat_ofInt]
  omega

theorem seek_ok {c : Cursor} {pos : SeekFrom} (positive : 0 ≤ c.target pos)
    (small : c.target pos < 2 ^ 64) : c.seek pos =
      (.ok (BitVec.ofInt 64 (c.target pos)), { c with pos := BitVec.ofInt 64 (c.target pos) }) :=
  if_pos ⟨positive, small⟩

theorem seek_start (c : Cursor) (n : BitVec 64) : c.seek (.Start n) = (.ok n, { c with pos := n }) := by
  have small := n.isLt
  have same : BitVec.ofInt 64 (c.target (.Start n)) = n := by
    rw [target, BitVec.ofInt_natCast, BitVec.ofNat_toNat, BitVec.setWidth_eq]
  rw [seek_ok (Int.natCast_nonneg _) (by simp only [target]; omega), same]

theorem seek_error {c : Cursor} {pos : SeekFrom} (nowhere : c.target pos < 0 ∨ 2 ^ 64 ≤ c.target pos) :
    c.seek pos = (.error .InvalidInput, c) := by
  apply if_neg
  omega

/-- The position that a seek tells is the one that the next request finds. -/
theorem pos_of_told {c d : Cursor} {request : ReadSeek.Request} {n : BitVec 64}
    (served : io.serve c request = ⟨[.seek (.ok n)], some d⟩) : d.pos = n := by
  cases request with
  | read length => cases served
  | seek pos =>
    rw [ReadSeek.serve_seek, io_seek, ReadSeek.answer_some, seek] at served
    split at served <;> cases served
    rfl

end Cursor
