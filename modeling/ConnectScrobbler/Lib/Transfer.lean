import ConnectScrobbler.Lib.Bytes
import ConnectScrobbler.Lib.Future

/-! Futures that write a whole buffer to a connection, or fill one from it, as much
at a time as the connection takes or gives. -/

structure Window where
  inner : Bytes
  start : Nat
  end_ : Nat
  deriving DecidableEq, Repr

namespace Window

def new (inner : Bytes) : Window := ⟨inner, 0, inner.length⟩

/-- Move the start; one that is out of bounds is a panic. -/
def set_start (start : Nat) (w : Window) : Option Window :=
  if start ≤ w.inner.length ∧ start ≤ w.end_ then some { w with start } else none

def as_ref (w : Window) : Bytes := (w.inner.take w.end_).drop w.start

def into_inner (w : Window) : Bytes := w.inner

def len (w : Window) : Nat := w.end_ - w.start

def put (pos : Nat) (data : Bytes) (w : Window) : Window :=
  { w with inner := w.inner.take (w.start + pos) ++ data ++ w.inner.drop (w.start + pos + data.length) }

theorem put_nil {pos : Nat} {w : Window} : w.put pos [] = w := by
  simp [put]

theorem put_put {pos : Nat} {data more : Bytes} {w : Window}
    (inside : w.start + pos ≤ w.inner.length) :
    (w.put pos data).put (pos + data.length) more = w.put pos (data ++ more) := by
  have whole : (w.inner.take (w.start + pos) ++ data).length = w.start + (pos + data.length) := by
    rw [List.length_append, List.length_take, Nat.min_eq_left inside, Nat.add_assoc]
  simp only [put, mk.injEq, and_true]
  rw [← whole, List.take_left, List.drop_length_add_append, List.drop_drop, List.length_append]
  simp only [List.append_assoc, Nat.add_assoc]

end Window

structure Transfers (T W R E : Type) where
  write_all : T → Bytes → W
  poll_write : W → Poll (T × Bytes) E × W
  read_exact : T → Window → R
  poll_read : R → Poll (T × Window) E × R

open Future (Resolves silent)

/-- Connections that go on delivering. A write resolves when the whole buffer has been
sent, a read, if enough is coming, when the whole window has been filled. -/
structure Transfers.Delivers {T W R E : Type} (transfers : Transfers T W R E)
    (sent incoming : T → Bytes) : Prop where
  writes : ∀ (O : Type) t buf, ∃ t',
    Resolves (silent (O := O) transfers.poll_write) (transfers.write_all t buf) [] (t', buf) ∧
      sent t' = sent t ++ buf ∧ incoming t' = incoming t
  reads : ∀ (O : Type) t (w : Window), w.start ≤ w.end_ → w.end_ ≤ w.inner.length →
    w.len ≤ (incoming t).length → ∃ t',
    Resolves (silent (O := O) transfers.poll_read) (transfers.read_exact t w) []
        (t', w.put 0 ((incoming t).take w.len)) ∧
      sent t' = sent t ∧ incoming t' = (incoming t).drop w.len

/-- Reads that resolve have filled the whole window, and have taken no more than that. -/
def Transfers.Fills {T W R E : Type} (transfers : Transfers T W R E) (incoming : T → Bytes) : Prop :=
  ∀ (O : Type) t (w : Window) t' w', w.start ≤ w.end_ → w.end_ ≤ w.inner.length →
    Resolves (silent (O := O) transfers.poll_read) (transfers.read_exact t w) [] (t', w') →
    w.len ≤ (incoming t).length ∧ w' = w.put 0 ((incoming t).take w.len) ∧
      incoming t' = (incoming t).drop w.len

/-! Sockets that take and give what a script says: each call would block, or moves
at most so many bytes; when the script is at its end they move everything. -/

structure Socket where
  sent : Bytes
  incoming : Bytes
  script : List (Option Nat)
  deriving DecidableEq, Repr

structure UnexpectedEof where
  deriving DecidableEq, Repr

namespace Socket

structure WriteAll where
  a : Socket
  buf : Bytes
  pos : Nat
  deriving DecidableEq, Repr

structure ReadExact where
  a : Socket
  buf : Window
  pos : Nat
  deriving DecidableEq, Repr

def write_loop (incoming buf : Bytes) : List (Option Nat) → Bytes → Nat →
    Poll (Socket × Bytes) UnexpectedEof × WriteAll
  | [], sent, pos =>
    (.ok (.ready (⟨sent ++ buf.drop pos, incoming, []⟩, buf)), ⟨⟨sent, incoming, []⟩, buf, pos⟩)
  | outcome :: script, sent, pos =>
    if buf.length ≤ pos then
      (.ok (.ready (⟨sent, incoming, outcome :: script⟩, buf)), ⟨⟨sent, incoming, script⟩, buf, pos⟩)
    else match outcome with
      | none => (.ok .notReady, ⟨⟨sent, incoming, script⟩, buf, pos⟩)
      | some most =>
        let moved := (buf.drop pos).take (most + 1)
        write_loop incoming buf script (sent ++ moved) (pos + moved.length)

def poll_write (f : WriteAll) : Poll (Socket × Bytes) UnexpectedEof × WriteAll :=
  write_loop f.a.incoming f.buf f.a.script f.a.sent f.pos

def read_loop (sent : Bytes) : List (Option Nat) → Bytes → Window → Nat →
    Poll (Socket × Window) UnexpectedEof × ReadExact
  | [], incoming, buf, pos =>
    let left := buf.len - pos
    if incoming.length < left then (.error {}, ⟨⟨sent, incoming, []⟩, buf, pos⟩)
    else (.ok (.ready (⟨sent, incoming.drop left, []⟩, buf.put pos (incoming.take left))),
      ⟨⟨sent, incoming, []⟩, buf, pos⟩)
  | outcome :: script, incoming, buf, pos =>
    let left := buf.len - pos
    if left = 0 then
      (.ok (.ready (⟨sent, incoming, outcome :: script⟩, buf)), ⟨⟨sent, incoming, script⟩, buf, pos⟩)
    else match outcome with
      | none => (.ok .notReady, ⟨⟨sent, incoming, script⟩, buf, pos⟩)
      | some most =>
        let moved := (incoming.take left).take (most + 1)
        if moved = [] then (.error {}, ⟨⟨sent, incoming, script⟩, buf, pos⟩)
        else read_loop sent script (incoming.drop moved.length) (buf.put pos moved)
          (pos + moved.length)

def poll_read (f : ReadExact) : Poll (Socket × Window) UnexpectedEof × ReadExact :=
  read_loop f.a.sent f.a.script f.a.incoming f.buf f.pos

def transfers : Transfers Socket WriteAll ReadExact UnexpectedEof where
  write_all a buf := ⟨a, buf, 0⟩
  poll_write := poll_write
  read_exact a buf := ⟨a, buf, 0⟩
  poll_read := poll_read

theorem write_resolves {O : Type} {incoming buf : Bytes} (script : List (Option Nat)) (sent : Bytes)
    (pos : Nat) : ∃ later, Resolves (silent (O := O) poll_write)
      ⟨⟨sent, incoming, script⟩, buf, pos⟩ [] (⟨sent ++ buf.drop pos, incoming, later⟩, buf) := by
  induction script generalizing sent pos with
  | nil => exact ⟨[], Future.resolves_silent rfl⟩
  | cons outcome script ih =>
    by_cases done : buf.length ≤ pos
    · refine ⟨outcome :: script, Future.resolves_silent ?_⟩
      rw [poll_write, write_loop.eq_def, List.drop_eq_nil_iff.mpr done, List.append_nil]
      simp only [if_pos done]
    · cases outcome with
      | none =>
        obtain ⟨later, rest⟩ := ih sent pos
        refine ⟨later, Future.waits_silent ?_ ?_⟩
        · rw [poll_write, write_loop, if_neg done]
        · rw [poll_write, write_loop, if_neg done]
          exact rest
      | some most =>
        obtain ⟨later, rest⟩ := ih (sent ++ (buf.drop pos).take (most + 1))
          (pos + ((buf.drop pos).take (most + 1)).length)
        rw [List.append_assoc, ← List.drop_drop,
          List.prefix_iff_eq_append.mp (List.take_prefix ..)] at rest
        refine ⟨later, Future.Resolves.congr ?_ rest⟩
        rw [silent, silent, poll_write, write_loop, if_neg done]
        rfl

theorem read_resolves {O : Type} {sent : Bytes} (script : List (Option Nat)) (incoming : Bytes)
    (w : Window) (pos : Nat) (bounds : w.start + pos ≤ w.inner.length)
    (inside : w.start + w.len ≤ w.inner.length) (enough : w.len - pos ≤ incoming.length) :
    ∃ later, Resolves (silent (O := O) poll_read) ⟨⟨sent, incoming, script⟩, w, pos⟩ []
      (⟨sent, incoming.drop (w.len - pos), later⟩, w.put pos (incoming.take (w.len - pos))) := by
  induction script generalizing incoming w pos with
  | nil =>
    refine ⟨[], Future.resolves_silent ?_⟩
    rw [poll_read, read_loop, if_neg (Nat.not_lt.mpr enough)]
  | cons outcome script ih =>
    by_cases done : w.len - pos = 0
    · refine ⟨outcome :: script, Future.resolves_silent ?_⟩
      rw [poll_read, read_loop.eq_def, done, List.take_zero, Window.put_nil, List.drop_zero]
      simp only [if_pos done]
    · cases outcome with
      | none =>
        obtain ⟨later, rest⟩ := ih incoming w pos bounds inside enough
        refine ⟨later, Future.waits_silent ?_ ?_⟩
        · rw [poll_read, read_loop, if_neg done]
        · rw [poll_read, read_loop, if_neg done]
          exact rest
      | some most =>
        let moved := (incoming.take (w.len - pos)).take (most + 1)
        have some_moved : moved ≠ [] := by
          intro none
          have length := congrArg List.length none
          simp only [moved, List.length_take, List.length_nil] at length
          omega
        have few : moved.length ≤ w.len - pos := by
          simp only [moved, List.length_take]
          omega
        have same : (w.put pos moved).len = w.len := rfl
        have grown : (w.put pos moved).inner.length = w.inner.length := by
          simp only [Window.put, List.length_append, List.length_take, List.length_drop]
          omega
        have whole : moved ++ (incoming.drop moved.length).take (w.len - (pos + moved.length)) =
            incoming.take (w.len - pos) := by
          have rest := List.prefix_iff_eq_append.mp
            (List.take_prefix (most + 1) (incoming.take (w.len - pos)))
          rw [List.drop_take, ← Nat.sub_add_eq] at rest
          exact rest
        obtain ⟨later, rest⟩ := ih (incoming.drop moved.length) (w.put pos moved) (pos + moved.length)
          (by rw [grown]; exact Nat.le_trans (by show w.start + _ ≤ _; omega) inside)
          (by rw [grown]; exact inside) (by rw [same, List.length_drop]; omega)
        have left : moved.length + (w.len - (pos + moved.length)) = w.len - pos := by omega
        rw [same, Window.put_put bounds, whole, List.drop_drop, left] at rest
        refine ⟨later, Future.Resolves.congr ?_ rest⟩
        rw [silent, silent, poll_read, read_loop, if_neg done, if_neg some_moved]
        rfl

/-- Whatever its script says, a socket delivers. -/
theorem delivers : transfers.Delivers Socket.sent Socket.incoming := by
  constructor
  · intro O t buf
    obtain ⟨later, resolves⟩ := write_resolves (O := O) t.script t.sent 0
    exact ⟨_, resolves, rfl, rfl⟩
  · intro O t w ordered bounds enough
    have inside : w.start + w.len ≤ w.inner.length := by
      rw [Window.len]
      omega
    obtain ⟨later, resolves⟩ := read_resolves (O := O) t.script t.incoming w 0
      (Nat.le_trans (Nat.le_add_right ..) inside) inside enough
    exact ⟨_, resolves, rfl, rfl⟩

theorem starved {O : Type} {sent : Bytes} {done : Socket × Window} (script : List (Option Nat))
    (incoming : Bytes) (w : Window) (pos : Nat) (short : incoming.length < w.len - pos) :
    ¬ Resolves (silent (O := O) poll_read) ⟨⟨sent, incoming, script⟩, w, pos⟩ [] done := by
  induction script generalizing incoming w pos with
  | nil =>
    have polled : poll_read ⟨⟨sent, incoming, []⟩, w, pos⟩ =
        (.error {}, ⟨⟨sent, incoming, []⟩, w, pos⟩) := by
      rw [poll_read, read_loop, if_pos short]
    exact Future.not_resolves_failed polled
  | cons outcome script ih =>
    have left : w.len - pos ≠ 0 := by omega
    cases outcome with
    | none =>
      have polled : poll_read ⟨⟨sent, incoming, none :: script⟩, w, pos⟩ =
          (.ok .notReady, ⟨⟨sent, incoming, script⟩, w, pos⟩) := by
        rw [poll_read, read_loop, if_neg left]
      exact fun resolves => ih incoming w pos short (resolves.waited polled)
    | some most =>
      let moved := (incoming.take (w.len - pos)).take (most + 1)
      by_cases none : moved = []
      · have polled : poll_read ⟨⟨sent, incoming, some most :: script⟩, w, pos⟩ =
            (.error {}, ⟨⟨sent, incoming, script⟩, w, pos⟩) := by
          rw [poll_read, read_loop, if_neg left, if_pos none]
        exact Future.not_resolves_failed polled
      · have fewer : moved.length ≤ incoming.length := by
          simp only [moved, List.length_take]
          omega
        have rest := ih (incoming.drop moved.length) (w.put pos moved) (pos + moved.length)
          (by show _ < w.len - _; rw [List.length_drop]; omega)
        intro resolves
        apply rest
        refine Future.Resolves.congr ?_ resolves
        rw [silent, silent, poll_read, poll_read, read_loop, if_neg left, if_neg none]

theorem fills : transfers.Fills Socket.incoming := by
  intro O t w t' w' ordered bounds resolves
  have inside : w.start + w.len ≤ w.inner.length := by
    rw [Window.len]
    omega
  by_cases enough : w.len ≤ t.incoming.length
  · obtain ⟨later, own⟩ := @read_resolves O t.sent t.script t.incoming w 0
      (Nat.le_trans (Nat.le_add_right ..) inside) inside enough
    cases (own.unique resolves).2
    exact ⟨enough, rfl, rfl⟩
  · exact absurd resolves (starved t.script t.incoming w 0 (by omega))

end Socket
