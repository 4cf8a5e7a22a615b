import ConnectScrobbler.Lib.Future

/-! The receiving end of an unbounded queue with one sender. -/

structure Receiver (α : Type) where
  queue : List α
  connected : Bool
  taking : Bool
  deriving DecidableEq, Repr

namespace Receiver

variable {α : Type}

def new : Receiver α := ⟨[], true, true⟩

/-- What is sent to a closed receiver is lost. -/
def send (a : α) (r : Receiver α) : Receiver α :=
  if r.taking then { r with queue := r.queue ++ [a] } else r

def drop_sender (r : Receiver α) : Receiver α := { r with connected := false }

def close (r : Receiver α) : Receiver α := { r with taking := false }

/-- What is queued comes first, then the end, once nothing more can come. -/
def poll (r : Receiver α) : Async (Option α) × Receiver α :=
  match r.queue with
  | a :: queue => (.ready (some a), { r with queue })
  | [] => if r.connected && r.taking then (.notReady, r) else (.ready none, r)

theorem poll_empty {r : Receiver α} (empty : r.queue = []) :
    r.poll = (.notReady, r) ∨ r.poll = (.ready none, r) := by
  unfold poll
  rw [empty]
  cases r.connected && r.taking with
  | true => exact .inl rfl
  | false => exact .inr rfl

theorem poll_queued {r : Receiver α} {a : α} {queue : List α} (queued : r.queue = a :: queue) :
    r.poll = (.ready (some a), { r with queue }) := by
  unfold poll
  rw [queued]

@[simp] theorem send_connected (a : α) (r : Receiver α) : (r.send a).connected = r.connected := by
  unfold send
  split <;> rfl

@[simp] theorem send_taking (a : α) (r : Receiver α) : (r.send a).taking = r.taking := by
  unfold send
  split <;> rfl

@[simp] theorem drop_sender_taking (r : Receiver α) : r.drop_sender.taking = r.taking := rfl

@[simp] theorem close_taking (r : Receiver α) : r.close.taking = false := rfl

@[simp] theorem close_connected (r : Receiver α) : r.close.connected = r.connected := rfl

end Receiver
