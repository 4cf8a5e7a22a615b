import ConnectScrobbler.Lib.Lockstep
import ConnectScrobbler.Lib.Overflow
import ConnectScrobbler.Lib.ReadSeek

/-! A stream seen from an offset on. -/
namespace ConnectScrobbler

structure Subfile (T : Type) where
  stream : T
  offset : BitVec 64

namespace Subfile

variable {T : Type} (inner : ReadSeek T)

/-- The stream is moved to the offset; not to get there is a panic. -/
def new (stream : T) (offset : BitVec 64) : Option (Subfile T) :=
  match inner.seek stream (.Start offset) with
  | some (.ok _, stream) => some ⟨stream, offset⟩
  | _ => none

def read (s : Subfile T) (length : Nat) : Option (Except SeekError Bytes × Subfile T) :=
  (inner.read s.stream length).map fun reply => (reply.1, { s with stream := reply.2 })

/-- Only a position from the start is translated. -/
def translate (build : Build) (s : Subfile T) : SeekFrom → Option SeekFrom
  | .Start offset => (build.add offset s.offset).map .Start
  | pos => some pos

def seek (build : Build) (s : Subfile T) (pos : SeekFrom) :
    Option (Except SeekError (BitVec 64) × Subfile T) := do
  let pos ← s.translate build pos
  let (result, stream) ← inner.seek s.stream pos
  let s := { s with stream := stream }
  match result with
  | .error e => some (.error e, s)
  | .ok newpos => if newpos > s.offset then some (.ok (newpos - s.offset), s) else some (.ok 0, s)

/-- A `Subfile` is a stream again. -/
def io (build : Build) : ReadSeek (Subfile T) where
  read := read inner
  seek := seek inner build

variable {inner : ReadSeek T} {build : Build}

@[simp] theorem io_read (s : Subfile T) (length : Nat) :
    (io inner build).read s length = read inner s length := rfl

@[simp] theorem io_seek (s : Subfile T) (pos : SeekFrom) :
    (io inner build).seek s pos = seek inner build s pos := rfl

open ReadSeek (Request Outcome)

variable {s : Subfile Cursor} {view : Cursor}

/-- The position of the stream that a seek asks for, if the sum with the offset fits. -/
def target (s : Subfile Cursor) : SeekFrom → Int
  | .Start n => n.toNat + s.offset.toNat
  | pos => s.stream.target pos

/-- A seek to the offset or behind it, or to no position at all, with or without the offset. -/
def Sound (s : Subfile Cursor) : Request → Prop
  | .read _ => True
  | .seek pos => s.target pos < 0 ∨
      (s.offset.toNat ≤ s.target pos ∧ s.target pos < 2 ^ 64) ∨ 2 ^ 64 + s.offset.toNat ≤ s.target pos

/-- The stream is at the offset plus the position in the view. -/
structure Views (s : Subfile Cursor) (view : Cursor) : Prop where
  within : s.offset.toNat ≤ s.stream.inner.length
  inner : view.inner = s.stream.inner.drop s.offset.toNat
  pos : s.stream.pos.toNat = s.offset.toNat + view.pos.toNat

theorem Views.target (views : Views s view) (pos : SeekFrom) :
    s.target pos = s.offset.toNat + view.target pos := by
  have within := views.within
  cases pos with
  | Start n =>
    simp only [Subfile.target, Cursor.target]
    omega
  | End n =>
    simp only [Subfile.target, Cursor.target, views.inner, List.length_drop]
    omega
  | Current n =>
    have pos := views.pos
    simp only [Subfile.target, Cursor.target]
    omega

theorem Views.reads (views : Views s view) (length : Nat) :
    (s.stream.read length).1 = (view.read length).1 ∧
      Views { s with stream := (s.stream.read length).2 } (view.read length).2 := by
  have within := views.within
  have pos := views.pos
  have start : min s.stream.pos.toNat s.stream.inner.length =
      s.offset.toNat + min view.pos.toNat view.inner.length := by
    rw [views.inner, List.length_drop]
    omega
  have same : (s.stream.read length).1 = (view.read length).1 := by
    simp only [Cursor.read]
    rw [start, ← List.drop_drop, ← views.inner]
  refine ⟨same, within, views.inner, ?_⟩
  rw [Cursor.pos_read, Cursor.pos_read, same, pos, Nat.add_assoc]

/-- What the stream is asked for: the target, unless the sum with the offset wraps around. -/
theorem translate_cases (build : Build) (s : Subfile Cursor) (pos : SeekFrom) :
    (∃ pos', s.translate build pos = some pos' ∧ s.stream.target pos' = s.target pos) ∨
    2 ^ 64 ≤ s.target pos ∧ s.target pos < 2 ^ 64 + s.offset.toNat ∧
      (s.translate build pos = none ∨
        ∃ pos', s.translate build pos = some pos' ∧ s.stream.target pos' = s.target pos - 2 ^ 64) := by
  cases pos with
  | Start n =>
    have n_lt := n.isLt
    have offset_lt := s.offset.isLt
    have sum : (n + s.offset).toNat = (n.toNat + s.offset.toNat) % 2 ^ 64 := BitVec.toNat_add n s.offset
    simp only [translate, target]
    by_cases fits : n.toNat + s.offset.toNat < 2 ^ 64
    · left
      refine ⟨.Start (n + s.offset), by rw [build.add_fits fits, Option.map_some], ?_⟩
      rw [Nat.mod_eq_of_lt fits] at sum
      simp only [Cursor.target]
      omega
    · right
      refine ⟨by omega, by omega, ?_⟩
      cases added : build.add n s.offset with
      | none => left; rfl
      | some moved =>
        right
        refine ⟨.Start moved, rfl, ?_⟩
        rw [(Build.add_returns added).1]
        rw [Nat.mod_eq_sub_mod (by omega), Nat.mod_eq_of_lt (by omega)] at sum
        simp only [Cursor.target]
        omega
  | End n => left; exact ⟨.End n, rfl, rfl⟩
  | Current n => left; exact ⟨.Current n, rfl, rfl⟩

variable {pos pos' : SeekFrom}

theorem seek_error (translated : s.translate build pos = some pos')
    (nowhere : s.stream.target pos' < 0 ∨ 2 ^ 64 ≤ s.stream.target pos') :
    seek Cursor.io build s pos = some (.error .InvalidInput, s) := by
  simp only [seek, translated, Option.bind_eq_bind, Option.bind_some, Cursor.io_seek,
    Cursor.seek_error nowhere]

/-- From the offset on, the position is told relative to it. -/
theorem seek_behind (translated : s.translate build pos = some pos')
    (behind : s.offset.toNat ≤ s.stream.target pos') (small : s.stream.target pos' < 2 ^ 64) :
    seek Cursor.io build s pos =
      some (.ok (BitVec.ofInt 64 (s.stream.target pos' - s.offset.toNat)),
        { s with stream := { s.stream with pos := BitVec.ofInt 64 (s.stream.target pos') } }) := by
  have sought := Cursor.seek_ok (by omega) small
  have newpos := Cursor.toNat_ofInt _ (by omega) small
  have back := Cursor.toNat_ofInt (s.stream.target pos' - s.offset.toNat) (by omega) (by omega)
  have offset_lt := s.offset.isLt
  simp only [seek, translated, Option.bind_eq_bind, Option.bind_some, Cursor.io_seek, sought]
  split
  · rename_i above
    have difference : BitVec.ofInt 64 (s.stream.target pos') - s.offset =
        BitVec.ofInt 64 (s.stream.target pos' - s.offset.toNat) := by
      apply BitVec.eq_of_toNat_eq
      rw [BitVec.toNat_sub_of_le (BitVec.le_of_lt above)]
      omega
    rw [difference]
  · rename_i least
    have zero : s.stream.target pos' - s.offset.toNat = 0 := by
      rw [gt_iff_lt, BitVec.lt_def] at least
      omega
    rw [zero]
    rfl

/-- In front of the offset, the position is told as the start of the view. -/
theorem seek_before (translated : s.translate build pos = some pos')
    (positive : 0 ≤ s.stream.target pos') (before : s.stream.target pos' < s.offset.toNat) :
    ∃ t, seek Cursor.io build s pos = some (.ok 0, t) := by
  have offset_lt := s.offset.isLt
  have small : s.stream.target pos' < 2 ^ 64 := by omega
  have newpos := Cursor.toNat_ofInt _ positive small
  have least : ¬ BitVec.ofInt 64 (s.stream.target pos') > s.offset := by
    rw [gt_iff_lt, BitVec.lt_def]
    omega
  simp only [seek, translated, Option.bind_eq_bind, Option.bind_some, Cursor.io_seek,
    Cursor.seek_ok positive small, if_neg least]
  exact ⟨_, rfl⟩

theorem Views.seeks (views : Views s view) (build : Build) (sound : Sound s (.seek pos)) :
    ∃ result t, seek Cursor.io build s pos = some (result, t) ∧ (view.seek pos).1 = result ∧
      Views t (view.seek pos).2 := by
  have there := views.target pos
  have offset_lt := s.offset.isLt
  rcases translate_cases build s pos with ⟨pos', translated, same⟩ | ⟨wraps, below, _⟩
  · rcases sound with negative | ⟨behind, small⟩ | large
    · refine ⟨_, _, seek_error translated (by omega), ?_⟩
      rw [Cursor.seek_error (by omega)]
      exact ⟨rfl, views⟩
    · refine ⟨_, _, seek_behind translated (by omega) (by omega), ?_⟩
      rw [Cursor.seek_ok (by omega) (by omega)]
      have relative : s.stream.target pos' - s.offset.toNat = view.target pos := by omega
      refine ⟨by rw [relative], views.within, views.inner, ?_⟩
      have left := Cursor.toNat_ofInt (s.stream.target pos') (by omega) (by omega)
      have right := Cursor.toNat_ofInt (view.target pos) (by omega) (by omega)
      show (BitVec.ofInt 64 _).toNat = s.offset.toNat + (BitVec.ofInt 64 _).toNat
      omega
    · refine ⟨_, _, seek_error translated (by omega), ?_⟩
      rw [Cursor.seek_error (by omega)]
      exact ⟨rfl, views⟩
  · rcases sound with negative | ⟨behind, small⟩ | large <;> omega

/-- Any other seek is answered differently. -/
theorem Views.apart (views : Views s view) (build : Build) (unsound : ¬ Sound s (.seek pos)) :
    seek Cursor.io build s pos = none ∨
      ∃ result t, seek Cursor.io build s pos = some (result, t) ∧ result ≠ (view.seek pos).1 := by
  have there := views.target pos
  have offset_lt := s.offset.isLt
  simp only [Sound, not_or, not_and] at unsound
  obtain ⟨positive, between, least⟩ := unsound
  rcases translate_cases build s pos with ⟨pos', translated, same⟩ | ⟨wraps, below, stops | wrapped⟩
  · right
    by_cases behind : s.offset.toNat ≤ s.target pos
    · -- An error here, and a position of the view that is too large for the stream.
      refine ⟨_, _, seek_error translated (by omega), ?_⟩
      rw [Cursor.seek_ok (by omega) (by omega)]
      nofun
    · obtain ⟨t, sought⟩ := seek_before translated (by omega) (by omega)
      refine ⟨_, t, sought, ?_⟩
      rw [Cursor.seek_error (by omega)]
      nofun
  · left
    simp only [seek, stops, Option.bind_eq_bind, Option.bind_none]
  · right
    obtain ⟨pos', translated, same⟩ := wrapped
    obtain ⟨t, sought⟩ := seek_before translated (by omega) (by omega)
    refine ⟨_, t, sought, ?_⟩
    rw [Cursor.seek_ok (by omega) (by omega)]
    intro told
    have zero := congrArg BitVec.toNat (Except.ok.inj told)
    have newpos := Cursor.toNat_ofInt (view.target pos) (by omega) (by omega)
    rw [← zero] at newpos
    simp at newpos
    omega

theorem lockstep (build : Build) :
    Call.Lockstep (io Cursor.io build).serve Cursor.io.serve Views Sound where
  together := by
    intro s view request views sound
    cases request with
    | read length =>
      obtain ⟨same, next⟩ := views.reads length
      refine ⟨_, _, _, rfl, ?_, next⟩
      rw [ReadSeek.serve_read, Cursor.io_read, ReadSeek.answer_some, Prod.map, Prod.map, same]
      rfl
    | seek pos =>
      obtain ⟨result, t, sought, same, next⟩ := views.seeks build sound
      refine ⟨[.seek result], t, (view.seek pos).2, ?_, ?_, next⟩
      · rw [ReadSeek.serve_seek, io_seek, sought, ReadSeek.answer_some]
      · rw [ReadSeek.serve_seek, Cursor.io_seek, ReadSeek.answer_some, same]
  apart := by
    intro s view request views unsound
    cases request with
    | read length => exact absurd trivial unsound
    | seek pos =>
      rw [ReadSeek.serve_seek, io_seek, ReadSeek.serve_seek, Cursor.io_seek]
      rcases views.apart build unsound with stops | ⟨result, t, sought, differs⟩
      · rw [stops]
        nofun
      · rw [sought]
        simpa using differs
  single := ReadSeek.serve_cases _
  single' := Cursor.serve_returns

/-- What a request comes to in the view: the position is in it, an answer tells it as the
next request finds it, and a seek in front of the view is an error and changes nothing. -/
structure Kept (s : Subfile Cursor) (request : Request) (x : Call Outcome (Subfile Cursor)) : Prop where
  inside : s.offset.toNat ≤ s.stream.pos.toNat
  told : ∀ n t, x = ⟨[.seek (.ok n)], some t⟩ → t.stream.pos.toNat = s.offset.toNat + n.toNat
  refused : ∀ pos, request = .seek pos → s.target pos < s.offset.toNat →
    x = ⟨[.seek (.error .InvalidInput)], some s⟩

/-- A run that answers as the stream on its own does, and keeps to the view at every request. -/
structure Faithful (build : Build) (s : Subfile Cursor) (view : Cursor) (requests : List Request) :
    Prop where
  answers : (Call.run (io Cursor.io build).serve s requests).log =
    (Call.run Cursor.io.serve view requests).log
  kept : ∀ before request after, requests = before ++ request :: after → ∀ t,
    (Call.run (io Cursor.io build).serve s before).value = some t →
      Kept t request ((io Cursor.io build).serve t request)

theorem offset_of_served {s t : Subfile T} {request : Request}
    (served : ((io inner build).serve s request).value = some t) : t.offset = s.offset := by
  cases request with
  | read length =>
    rw [ReadSeek.serve_read, io_read, read] at served
    cases reply : inner.read s.stream length <;> rw [reply] at served <;> cases served
    rfl
  | seek pos =>
    rw [ReadSeek.serve_seek, io_seek, seek] at served
    cases translated : s.translate build pos with
    | none => simp [translated] at served
    | some pos' =>
      cases reply : inner.seek s.stream pos' with
      | none => simp [translated, reply] at served
      | some reply' =>
        obtain ⟨result, stream⟩ := reply'
        simp only [translated, reply, Option.bind_eq_bind, Option.bind_some] at served
        cases result with
        | error e => cases served; rfl
        | ok newpos =>
          dsimp only at served
          split at served <;> cases served <;> rfl

theorem Views.kept (views : Views s view) {request : Request} (sound : Sound s request) :
    Kept s request ((io Cursor.io build).serve s request) where
  inside := by
    rw [views.pos]
    exact Nat.le_add_right _ _
  told := by
    intro n t served
    obtain ⟨log, t', view', left, right, next⟩ := (lockstep build).together s view request views sound
    rw [left] at served
    cases served
    rw [next.pos, Cursor.pos_of_told right, offset_of_served (by rw [left])]
  refused := by
    rintro pos rfl before
    have offset_lt := s.offset.isLt
    rcases translate_cases build s pos with ⟨pos', translated, same⟩ | ⟨wraps, _, _⟩
    · rcases sound with negative | ⟨behind, small⟩ | large
      · rw [ReadSeek.serve_seek, io_seek, seek_error translated (by omega), ReadSeek.answer_some]
      · omega
      · omega
    · omega

/-- Just the runs whose seeks go to the offset or behind it, or nowhere in either stream, are
those of the stream on its own that holds the bytes from the offset on. -/
theorem subfile_faithful_iff (build : Build) (stream : Cursor) {offset : BitVec 64}
    (within : offset.toNat ≤ stream.inner.length) (requests : List Request) :
    ∃ s, new Cursor.io stream offset = some s ∧ (Faithful build s (stream.rest offset.toNat) requests ↔
      Call.Meets (io Cursor.io build).serve Sound s requests) := by
  refine ⟨⟨{ stream with pos := offset }, offset⟩, ?_, ?_⟩
  · rw [new, Cursor.io_seek, Cursor.seek_start]
  have start : Views ⟨{ stream with pos := offset }, offset⟩ (stream.rest offset.toNat) :=
    ⟨within, rfl, by simp [Cursor.rest]⟩
  refine ⟨fun faithful => ((lockstep build).same_log_iff start).mp faithful.answers, ?_⟩
  intro meets
  refine ⟨((lockstep build).same_log_iff start).mpr meets, ?_⟩
  rintro before request after rfl t reached
  obtain ⟨view, views⟩ := (lockstep build).reached start meets.initial reached
  exact views.kept (meets before request after rfl t reached)

/-! Four bytes seen from the third on. -/

def four_bytes : Cursor := ⟨[1, 2, 3, 4], 0, by decide⟩

def back_and_read : List Request := [.seek (.Current (-1)), .read 1]

theorem subfile_faithful_iff_four : ∃ s, new Cursor.io four_bytes 2 = some s ∧
    (Faithful .debug s (four_bytes.rest 2) [.seek (.Start 1), .read 5, .seek (.End (-9)), .read 1] ↔
      Call.Meets (io Cursor.io .debug).serve Sound s
        [.seek (.Start 1), .read 5, .seek (.End (-9)), .read 1]) :=
  subfile_faithful_iff .debug four_bytes (by decide) _

/-- A step back from the start of the view is told as its start and reads the byte before it. -/
theorem back_before_offset :
    (new Cursor.io four_bytes 2).map
      (fun s => (Call.run (io Cursor.io .debug).serve s back_and_read).log) =
        some [.seek (.ok 0), .read (.ok [2])] ∧
    (Call.run Cursor.io.serve (four_bytes.rest 2) back_and_read).log =
      [.seek (.error .InvalidInput), .read (.ok [3])] ∧
    ∀ s, new Cursor.io four_bytes 2 = some s →
      ¬ Faithful .debug s (four_bytes.rest 2) back_and_read := by
  refine ⟨by decide, by decide, ?_⟩
  intro s opened faithful
  cases opened
  exact absurd faithful.answers (by decide)

end Subfile

end ConnectScrobbler
