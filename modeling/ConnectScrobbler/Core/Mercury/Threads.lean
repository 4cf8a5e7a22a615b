import ConnectScrobbler.Core.Mercury.Reassembly

/-! The manager shared by threads. A call of `request` enters the manager twice
before it sends, and `dispatch` twice with the entry out of the map in between;
other threads run where it is not entered. The connection task alone dispatches,
in the order in which packets come in. -/
namespace ConnectScrobbler.Mercury

open Bytes (be)
open MercuryPending (of)
open Packet (head parse take_in)

inductive Calling where
  | numbered (seq : Bytes)
  | inserted (seq : Bytes)
  | returned
  | panicked
  deriving DecidableEq, Repr

/-- The manager, the calls of `request` by their callback, what the connection
task holds and the packets it has not read yet. -/
structure Threads where
  manager : MercuryManager
  calls : Nat → Option (MercuryRequest × Calling)
  held : Option MercuryManager.Held
  inbox : List (UInt8 × Bytes)

inductive Turn where
  | begin (req : MercuryRequest)
  | caller (callback : Nat) (connected : Bool)
  | dispatcher

namespace Threads

def moved (callback : Nat) (call : MercuryRequest × Calling) (w : Threads) : Threads :=
  { w with calls := Function.update w.calls callback (some call) }

theorem moved_self (callback : Nat) (call : MercuryRequest × Calling) (w : Threads) :
    (w.moved callback call).calls callback = some call :=
  Function.update_self ..

theorem moved_other {callback other : Nat} (differ : other ≠ callback)
    (call : MercuryRequest × Calling) (w : Threads) :
    (w.moved callback call).calls other = w.calls other :=
  Function.update_of_ne differ ..

/-- A calling thread runs on. If it cannot encode or send its request it panics,
which no other thread notices. -/
def caller (build : Build) (protobuf : Protobuf) (tx : Nat) (connected : Bool) (w : Threads) :
    Call Effect Threads :=
  match w.calls tx with
  | some (req, .numbered seq) => do
    let m ← w.manager.insert seq ⟨[], none, some tx⟩
    return { w with manager := m }.moved tx (req, .inserted seq)
  | some (req, .inserted seq) =>
    match req.encode build protobuf seq with
    | some data =>
      if connected then do
        Call.emit (.send_packet req.method.command data)
        return w.moved tx (req, .returned)
      else return w.moved tx (req, .panicked)
    | none => return w.moved tx (req, .panicked)
  | _ => return w

def dispatcher (protobuf : Protobuf) (w : Threads) : Call Effect Threads :=
  match w.held with
  | some held => do
    let m ← w.manager.conclude protobuf held
    return { w with manager := m, held := none }
  | none =>
    match w.inbox with
    | [] => return w
    | (cmd, data) :: inbox => do
      let (m, held) ← w.manager.receive cmd data
      return { w with manager := m, held, inbox }

/-- One thread runs up to where it has left the manager. -/
def step (build : Build) (protobuf : Protobuf) (w : Threads) : Turn → Call Effect Threads
  | .begin req => do
    let (tx, m) := w.manager.channel
    let (seq, m) ← m.next_seq build
    return { w with manager := m }.moved tx (req, .numbered seq)
  | .caller tx connected => w.caller build protobuf tx connected
  | .dispatcher => w.dispatcher protobuf

def start (inbox : List (UInt8 × Bytes)) : Threads :=
  ⟨.new, fun _ => none, none, inbox⟩

def run (build : Build) (protobuf : Protobuf) (inbox : List (UInt8 × Bytes)) (turns : List Turn) :
    Call Effect Threads :=
  Call.run (step build protobuf) (start inbox) turns

end Threads

namespace Threads

variable {build : Build} {protobuf : Protobuf}

/-- Turns without a break are one call of `request`. -/
theorem request_unbroken {req : MercuryRequest} {rx : Nat} {m' : MercuryManager} {w : Threads}
    (returned : (w.manager.request build protobuf true req).value = some (rx, m')) :
    Call.run (step build protobuf) w [.begin req, .caller rx true, .caller rx true] =
      ⟨(w.manager.request build protobuf true req).log,
        some ({ w with manager := m' }.moved rx (req, .returned))⟩ := by
  unfold MercuryManager.request at returned ⊢
  obtain ⟨⟨seq, m1⟩, numbered, returned⟩ := Call.bind_returns.mp returned
  obtain ⟨m2, inserted, returned⟩ := Call.bind_returns.mp returned
  obtain ⟨data, encoded, returned⟩ := Call.bind_returns.mp returned
  cases returned
  obtain ⟨log1, numbered⟩ := Call.eq_of_returned numbered
  obtain ⟨log2, inserted⟩ := Call.eq_of_returned inserted
  have encoded : req.encode build protobuf seq = some data := encoded
  simp [Call.run, step, MercuryManager.channel, numbered, caller, moved, inserted, encoded,
    MercuryManager.send_packet]

theorem dispatch_unbroken {cmd : UInt8} {data : Bytes} {inbox : List (UInt8 × Bytes)} {w : Threads}
    (idle : w.held = none) (next : w.inbox = (cmd, data) :: inbox) :
    ∃ count, Call.run (step build protobuf) w (List.replicate count .dispatcher) = (do
      let m ← w.manager.dispatch protobuf cmd data
      return { w with manager := m, inbox }) := by
  have turn : w.dispatcher protobuf = (do
      let (m, held) ← w.manager.receive cmd data
      return { w with manager := m, held, inbox }) := by
    rw [dispatcher, idle, next]
  rcases MercuryManager.receive_cases cmd data w.manager with
    panics | ⟨_, _, _, _, _, _, _, ignored⟩ | ⟨p, x, callback, _, _, taken⟩
  · refine ⟨1, ?_⟩
    simp only [List.replicate, Call.run, step, turn, MercuryManager.dispatch, panics, Call.bind_none]
  · refine ⟨1, ?_⟩
    simp [List.replicate, Call.run, step, turn, MercuryManager.dispatch, ignored, idle]
  · refine ⟨2, ?_⟩
    show (w.dispatcher protobuf >>= fun t => t.dispatcher protobuf >>= fun t => pure t) = _
    rw [turn, MercuryManager.dispatch, taken]
    simp only [Call.bind_some, Call.pure_eq, dispatcher]
    generalize MercuryManager.conclude protobuf _ _ = concluded
    obtain ⟨log, value⟩ := concluded
    cases value <;> simp [idle]

end Threads

/-- How far the response to a request has come. -/
inductive Stage where
  | unsent
  | waiting (x : Assembly UInt8)
  | held (x : Assembly UInt8) (final : Bool)
  | answered
  deriving DecidableEq, Repr

namespace Stage

def entered : Stage → Stage
  | .unsent => .waiting .empty
  | .held x _ => .waiting x
  | s => s

def received (p : Packet) : Stage → Stage
  | .waiting x => .held (take_in x p) (p.flags = 1)
  | .held x _ => .held (take_in x p) (p.flags = 1)
  | s => s

def completed : Stage → Stage
  | .held _ _ => .answered
  | s => s

/-- What the log tells of request `k`. -/
def after (k : Nat) (s : Stage) : Effect → Stage
  | .insert _ callback => if callback = some k then s.entered else s
  | .receive _ data =>
    match parse data with
    | some p => if p.seq = be 8 k then s.received p else s
    | none => s
  | .complete callback _ => if callback = k then s.completed else s
  | _ => s

def entry (k : Nat) : Stage → Option MercuryPending
  | .waiting x => some (of x (some k))
  | _ => none

end Stage

/-- What an effect may be, by the stages of all requests: an answer is made of
what its own request holds, nothing that is sent has no entry, no response to a
request that waits is ignored, and nothing is canceled. -/
def Correct (build : Build) (protobuf : Protobuf) (stages : Nat → Stage) : Effect → Prop
  | .insert seq callback => ∀ k, callback = some k → seq = be 8 k
  | .complete k result => ∃ x response, stages k = .held x true ∧
      (of x (some k)).response protobuf = some response ∧ result = answer response
  | .send_packet _ data => ∃ k, ∃ req : MercuryRequest, stages k ≠ .unsent ∧
      req.encode build protobuf (be 8 k) = some data
  | .ignore_seq seq _ => ∀ k, seq = be 8 k → stages k = .unsent ∨ stages k = .answered
  | .cancel _ => False
  | _ => True

open Classical in
noncomputable def judge (build : Build) (protobuf : Protobuf) (stages : Nat → Stage) (e : Effect) :
    Option (Nat → Stage) :=
  if Correct build protobuf stages e then some fun k => (stages k).after k e else none

namespace Threads

open Call (Follows)

variable {build : Build} {protobuf : Protobuf}

/-- The threads are where the stages of the first `n` requests say. -/
structure Agrees (build : Build) (w : Threads) (stages : Nat → Stage) (n : Nat) : Prop where
  numbered : w.manager.Numbered build n
  few : n ≤ 2 ^ 64
  late : ∀ k, n ≤ k → stages k = .unsent
  entries : ∀ k < n, w.manager.pending (be 8 k) = (stages k).entry k
  others : ∀ seq, (∀ k < n, seq ≠ be 8 k) → w.manager.pending seq = none
  held : ∀ h, w.held = some h → ∃ k x, stages k = .held x (h.flags = 1) ∧ h.cmd ≠ 0xb5 ∧
    h.seq = be 8 k ∧ h.pending = of x (some k) ∧ ∀ j y f, stages j = .held y f → j = k
  idle : w.held = none → ∀ k x f, stages k ≠ .held x f
  begun : ∀ k req seq, w.calls k = some (req, .numbered seq) →
    k < n ∧ seq = be 8 k ∧ stages k = .unsent
  sending : ∀ k req seq, w.calls k = some (req, .inserted seq) →
    seq = be 8 k ∧ stages k ≠ .unsent
  inbox : ∀ packet ∈ w.inbox, packet.1 ≠ 0xb5

variable {w : Threads} {stages : Nat → Stage} {n : Nat}

theorem Agrees.known (h : w.Agrees build stages n) {k : Nat} (sent : stages k ≠ .unsent) : k < n :=
  Nat.lt_of_not_le fun late => sent (h.late k late)

theorem be_inj {j k : Nat} (hj : j < 2 ^ 64) (hk : k < 2 ^ 64) (same : be 8 j = be 8 k) : j = k :=
  (Bytes.be_inj (by simpa using hj) (by simpa using hk)).mp same

theorem follows_entry {α : Type} {e : Effect} {a : α} {Q : α → (Nat → Stage) → Prop}
    (correct : Correct build protobuf stages e) (post : Q a fun k => (stages k).after k e) :
    Follows (judge build protobuf) stages ⟨[e], some a⟩ Q := by
  have both : Follows (judge build protobuf) stages (do Call.emit e; return a) Q :=
    Call.follows_bind (Call.follows_emit (if_pos correct) (Call.follows_pure post))
  exact both

theorem Agrees.moved (h : w.Agrees build stages n) {k : Nat} {req : MercuryRequest} {c : Calling}
    (begun : ∀ seq, c = .numbered seq → k < n ∧ seq = be 8 k ∧ stages k = .unsent)
    (sending : ∀ seq, c = .inserted seq → seq = be 8 k ∧ stages k ≠ .unsent) :
    (w.moved k (req, c)).Agrees build stages n := by
  refine ⟨h.numbered, h.few, h.late, h.entries, h.others, h.held, h.idle, ?_, ?_, h.inbox⟩
  · intro j req' seq call
    by_cases same : j = k
    · subst same
      rw [moved_self] at call
      cases call
      exact begun seq rfl
    · rw [moved_other same] at call
      exact h.begun j req' seq call
  · intro j req' seq call
    by_cases same : j = k
    · subst same
      rw [moved_self] at call
      cases call
      exact sending seq rfl
    · rw [moved_other same] at call
      exact h.sending j req' seq call

theorem begin_follows (h : w.Agrees build stages n) (room : n < 2 ^ 64) (req : MercuryRequest) :
    Follows (judge build protobuf) stages (w.step build protobuf (.begin req))
      fun w stages => w.Agrees build stages (n + 1) := by
  refine Call.follows_bind (Call.follows_bind (Call.follows_unwrap ?_))
  rintro ⟨v, sequence⟩ counted
  have counted' : w.manager.sequence.get build = some (v, sequence) := counted
  rw [h.numbered.sequence] at counted'
  obtain ⟨rfl, rfl, checked⟩ := SeqGenerator.get_counts (by decide) counted'
  have unsent := h.late n (Nat.le_refl n)
  have fresh : ∀ k < n, be 8 n ≠ be 8 k := by
    intro k below same
    exact absurd (be_inj room (Nat.lt_trans below room) same) (Nat.ne_of_gt below)
  refine Call.follows_pure (Call.follows_pure ?_)
  rw [MercuryManager.be_ofNat]
  refine Agrees.moved ?_ ?_ nofun
  · refine ⟨⟨rfl, by rw [← h.numbered.channels],
      fun debug => checked debug (h.numbered.checked debug)⟩, room,
      fun k above => h.late k (Nat.le_of_succ_le above), ?_, ?_, h.held, h.idle, ?_, h.sending, h.inbox⟩
    · intro k below
      rcases Nat.lt_succ_iff_lt_or_eq.mp below with below | rfl
      · exact h.entries k below
      · rw [unsent]
        exact h.others _ fresh
    · exact fun seq unlike => h.others seq fun k below => unlike k (Nat.lt_succ_of_lt below)
    · intro k req' seq call
      obtain ⟨below, rest⟩ := h.begun k req' seq call
      exact ⟨Nat.lt_succ_of_lt below, rest⟩
  · intro seq same
    cases same
    have tx : w.manager.channels = n := h.numbered.channels
    show w.manager.channels < n + 1 ∧ be 8 n = be 8 w.manager.channels ∧
      stages w.manager.channels = .unsent
    rw [tx]
    exact ⟨Nat.lt_succ_self n, rfl, unsent⟩

theorem after_insert (stages : Nat → Stage) (k : Nat) (seq : Bytes) :
    (fun j => (stages j).after j (.insert seq (some k))) =
      Function.update stages k (stages k).entered := by
  funext j
  by_cases same : j = k
  · subst same
    rw [Function.update_self]
    exact if_pos rfl
  · rw [Function.update_of_ne same]
    exact if_neg fun other => same (Option.some.inj other).symm

theorem after_complete (stages : Nat → Stage) (k : Nat)
    (result : Except MercuryError MercuryResponse) :
    (fun j => (stages j).after j (.complete k result)) =
      Function.update stages k (stages k).completed := by
  funext j
  by_cases same : j = k
  · subst same
    rw [Function.update_self]
    exact if_pos rfl
  · rw [Function.update_of_ne same]
    exact if_neg fun other => same other.symm

theorem entries_update (h : w.Agrees build stages n) {k : Nat} (below : k < n) {s : Stage}
    {pending : Bytes → Option MercuryPending}
    (changed : pending = Function.update w.manager.pending (be 8 k) (s.entry k)) :
    (∀ j < n, pending (be 8 j) = (Function.update stages k s j).entry j) ∧
    ∀ seq, (∀ j < n, seq ≠ be 8 j) → pending seq = none := by
  subst changed
  constructor
  · intro j small
    by_cases same : j = k
    · subst same
      rw [Function.update_self, Function.update_self]
    · have differ : be 8 j ≠ be 8 k := fun equal => same
        (be_inj (Nat.lt_of_lt_of_le small h.few) (Nat.lt_of_lt_of_le below h.few) equal)
      rw [Function.update_of_ne differ, Function.update_of_ne same]
      exact h.entries j small
  · intro seq unlike
    rw [Function.update_of_ne (unlike k below)]
    exact h.others seq unlike

/-- One request moves on to its next stage, and its entry with it. -/
theorem Agrees.advanced (h : w.Agrees build stages n) {k : Nat} (below : k < n) {s : Stage}
    (entered : s ≠ .unsent) {w' : Threads} (numbered : w'.manager.Numbered build n)
    (changed : w'.manager.pending = Function.update w.manager.pending (be 8 k) (s.entry k))
    (calls : ∀ j, j ≠ k → w'.calls j = w.calls j)
    (no_longer : ∀ req seq, w'.calls k ≠ some (req, .numbered seq))
    (own : ∀ req seq, w'.calls k = some (req, .inserted seq) → seq = be 8 k)
    (held : ∀ h, w'.held = some h → ∃ j x, Function.update stages k s j = .held x (h.flags = 1) ∧
      h.cmd ≠ 0xb5 ∧ h.seq = be 8 j ∧ h.pending = of x (some j) ∧
      ∀ i y f, Function.update stages k s i = .held y f → i = j)
    (idle : w'.held = none → ∀ j x f, Function.update stages k s j ≠ .held x f)
    (inbox : ∀ packet ∈ w'.inbox, packet.1 ≠ 0xb5) :
    w'.Agrees build (Function.update stages k s) n := by
  obtain ⟨entries, others⟩ := entries_update h below changed
  have other : ∀ j, j ≠ k → Function.update stages k s j = stages j :=
    fun j differ => Function.update_of_ne differ ..
  refine ⟨numbered, h.few, ?_, entries, others, held, idle, ?_, ?_, inbox⟩
  · intro j late
    exact (other j (by omega)).trans (h.late j late)
  · intro j req seq call
    by_cases same : j = k
    · subst same
      exact absurd call (no_longer req seq)
    · rw [calls j same] at call
      rw [other j same]
      exact h.begun j req seq call
  · intro j req seq call
    by_cases same : j = k
    · subst same
      exact ⟨own req seq call, by rw [Function.update_self]; exact entered⟩
    · rw [calls j same] at call
      rw [other j same]
      exact h.sending j req seq call

theorem Agrees.inserted (h : w.Agrees build stages n) {k : Nat} (below : k < n)
    (unsent : stages k = .unsent) (req : MercuryRequest) :
    Agrees build ({ w with manager := { w.manager with
        pending := Function.update w.manager.pending (be 8 k) (some (of .empty (some k))) } }.moved k
          (req, .inserted (be 8 k)))
      (Function.update stages k (.waiting .empty)) n := by
  have kept : ∀ j x f, Function.update stages k (.waiting .empty) j = .held x f →
      stages j = .held x f := by
    intro j x f holds
    by_cases same : j = k
    · subst same
      rw [Function.update_self] at holds
      cases holds
    · rwa [Function.update_of_ne same] at holds
  refine h.advanced below (by simp) (h.numbered.kept rfl rfl) rfl
    (fun j differ => moved_other differ ..) ?_ ?_ ?_ ?_ h.inbox
  · intro req' seq call
    rw [moved_self] at call
    cases call
  · intro req' seq call
    rw [moved_self] at call
    cases call
    rfl
  · intro held holding
    obtain ⟨j, x, holds, response, seq, pending, only⟩ := h.held held holding
    have differ : j ≠ k := by
      rintro rfl
      rw [unsent] at holds
      cases holds
    exact ⟨j, x, (Function.update_of_ne differ ..).trans holds, response, seq, pending,
      fun i y f held => only i y f (kept i y f held)⟩
  · intro idle j x f holds
    exact h.idle idle j x f (kept j x f holds)

theorem caller_follows (h : w.Agrees build stages n) (tx : Nat) (connected : Bool) :
    Follows (judge build protobuf) stages (w.caller build protobuf tx connected)
      fun w stages => w.Agrees build stages n := by
  unfold caller
  split
  · rename_i req seq call
    obtain ⟨below, rfl, unsent⟩ := h.begun tx req seq call
    have free : w.manager.pending (be 8 tx) = none := by
      rw [h.entries tx below, unsent]
      rfl
    have keyed : Correct build protobuf stages (.insert (be 8 tx) (some tx)) := by
      rintro k ⟨⟩
      rfl
    rw [MercuryManager.insert_free free]
    refine Call.follows_bind (follows_entry keyed (Call.follows_pure ?_))
    rw [after_insert, unsent]
    exact h.inserted below unsent req
  · rename_i req seq call
    obtain ⟨rfl, entered⟩ := h.sending tx req seq call
    split
    · rename_i data encoded
      refine Call.follows_ite (fun _ => ?_) (fun _ => Call.follows_pure (h.moved nofun nofun))
      exact Call.follows_bind (Call.follows_emit (if_pos ⟨tx, req, entered, encoded⟩)
        (Call.follows_pure (h.moved nofun nofun)))
    · exact Call.follows_pure (h.moved nofun nofun)
  · exact Call.follows_pure h

theorem Agrees.concluded (h : w.Agrees build stages n) {held : MercuryManager.Held}
    (holding : w.held = some held) {k : Nat} {x : Assembly UInt8}
    (holds : stages k = .held x (held.flags = 1)) {s : Stage} (entered : s ≠ .unsent)
    (released : ∀ x f, s ≠ .held x f) {m : MercuryManager} (numbered : m.Numbered build n)
    (changed : m.pending = Function.update w.manager.pending (be 8 k) (s.entry k)) :
    Agrees build { w with manager := m, held := none } (Function.update stages k s) n := by
  obtain ⟨j, y, _, _, _, _, only⟩ := h.held held holding
  have sent : stages k ≠ .unsent := by simp [holds]
  refine h.advanced (h.known sent) entered numbered changed (fun _ _ => rfl)
    (fun req seq call => sent (h.begun k req seq call).2.2)
    (fun req seq call => (h.sending k req seq call).1) nofun ?_ h.inbox
  intro _ i z f still
  by_cases same : i = k
  · subst same
    rw [Function.update_self] at still
    exact released z f still
  · rw [Function.update_of_ne same] at still
    exact same ((only i z f still).trans (only k x _ holds).symm)

theorem conclude_follows (h : w.Agrees build stages n) {held : MercuryManager.Held}
    (holding : w.held = some held) :
    Follows (judge build protobuf) stages (w.dispatcher protobuf)
      fun w stages => w.Agrees build stages n := by
  obtain ⟨k, x, holds, response, seq, pending, _⟩ := h.held held holding
  have below : k < n := h.known (by simp [holds])
  have absent : w.manager.pending (be 8 k) = none := by
    rw [h.entries k below, holds]
    rfl
  rw [dispatcher, holding]
  simp only [MercuryManager.conclude]
  by_cases final : held.flags = 1
  · rw [if_pos final]
    cases whole : held.pending.response protobuf with
    | none =>
      have panics : w.manager.complete_request protobuf held.cmd held.pending = ⟨[], none⟩ := by
        rw [MercuryManager.complete_request, whole]
        rfl
      rw [panics]
      exact Call.follows_bind Call.follows_panic
    | some answered =>
      rw [complete_request_answers whole (by rw [pending]; rfl) response]
      have correct : Correct build protobuf stages (.complete k (answer answered)) :=
        ⟨x, answered, by rw [holds, final]; rfl, by rw [← pending]; exact whole, rfl⟩
      refine Call.follows_bind (follows_entry correct (Call.follows_pure ?_))
      rw [after_complete, holds]
      refine h.concluded (s := .answered) holding holds (by simp) (by simp)
        (h.numbered.kept rfl rfl) ?_
      exact (Function.update_eq_self_iff.mpr absent.symm).symm
  · rw [if_neg final, MercuryManager.insert_free (by rw [seq]; exact absent), pending]
    have keyed : Correct build protobuf stages (.insert held.seq (some k)) := by
      rintro j ⟨⟩
      exact seq
    refine Call.follows_bind (follows_entry keyed (Call.follows_pure ?_))
    rw [show (of x (some k)).callback = some k from rfl, after_insert, holds]
    refine h.concluded (s := .waiting x) holding holds (by simp) (by simp)
      (h.numbered.kept rfl rfl) ?_
    rw [seq]
    rfl

theorem after_receive (stages : Nat → Stage) {data : Bytes} {p : Packet} (cmd : UInt8)
    (parsed : parse data = some p) :
    (fun j => (stages j).after j (.receive cmd data)) =
      fun j => if p.seq = be 8 j then (stages j).received p else stages j := by
  funext j
  simp only [Stage.after, parsed]

theorem Agrees.taken (h : w.Agrees build stages n) (released : ∀ k x f, stages k ≠ .held x f)
    {k : Nat} {x : Assembly UInt8} (waits : stages k = .waiting x) {cmd : UInt8}
    (response : cmd ≠ 0xb5) {p : Packet} (own : p.seq = be 8 k) {inbox : List (UInt8 × Bytes)}
    (rest : ∀ packet ∈ inbox, packet.1 ≠ 0xb5) :
    Agrees build { w with
        manager := w.manager.remove p.seq
        held := some ⟨cmd, p.seq, p.flags, of (take_in x p) (some k)⟩
        inbox }
      (Function.update stages k (.held (take_in x p) (p.flags = 1))) n := by
  have sent : stages k ≠ .unsent := by simp [waits]
  refine h.advanced (h.known sent) (by simp) (h.numbered.kept rfl rfl) ?_ (fun _ _ => rfl)
    (fun req seq call => sent (h.begun k req seq call).2.2)
    (fun req seq call => (h.sending k req seq call).1) ?_ nofun rest
  · rw [MercuryManager.remove, own]
    rfl
  · intro held holding
    cases holding
    refine ⟨k, take_in x p, Function.update_self .., response, own, rfl, fun j y f holds => ?_⟩
    by_contra differ
    rw [Function.update_of_ne differ] at holds
    exact released j y f holds

theorem Agrees.waiting_for (h : w.Agrees build stages n) {seq : Bytes} {x : Assembly UInt8}
    {callback : Option Nat} (there : w.manager.pending seq = some (of x callback)) :
    ∃ k < n, seq = be 8 k ∧ stages k = .waiting x ∧ callback = some k := by
  obtain ⟨k, below, own⟩ : ∃ k < n, seq = be 8 k := by
    by_contra none_own
    rw [h.others seq fun k below own => none_own ⟨k, below, own⟩] at there
    cases there
  rw [own, h.entries k below] at there
  cases stage : stages k with
  | waiting y =>
    rw [stage] at there
    obtain ⟨rfl, rfl⟩ := MercuryPending.of_inj.mp (Option.some.inj there)
    exact ⟨k, below, own, stage, rfl⟩
  | _ => rw [stage] at there; cases there

theorem Agrees.unsent_or_answered (h : w.Agrees build stages n)
    (released : ∀ k x f, stages k ≠ .held x f) {k : Nat}
    (free : w.manager.pending (be 8 k) = none) : stages k = .unsent ∨ stages k = .answered := by
  cases stage : stages k with
  | unsent => exact .inl rfl
  | answered => exact .inr rfl
  | held x f => exact absurd stage (released k x f)
  | waiting x =>
    have entry := h.entries k (h.known (by simp [stage]))
    rw [free, stage] at entry
    cases entry

theorem Agrees.after_unknown (h : w.Agrees build stages n)
    (released : ∀ k x f, stages k ≠ .held x f) (cmd : UInt8) {data seq rest : Bytes} {flags : UInt8}
    {count : Nat} (opened : head data = some (seq, flags, count, rest))
    (free : w.manager.pending seq = none) :
    (fun j => (stages j).after j (.receive cmd data)) = stages := by
  cases parsed : parse data with
  | none =>
    funext j
    simp only [Stage.after, parsed]
  | some p =>
    obtain ⟨_, _, same⟩ := Packet.parse_head parsed
    rw [opened] at same
    cases same
    rw [after_receive stages cmd parsed]
    funext j
    split
    · rename_i own
      rw [own] at free
      rcases h.unsent_or_answered released free with stage | stage
      · simp [stage, Stage.received]
      · simp [stage, Stage.received]
    · rfl

theorem Agrees.after_taken (h : w.Agrees build stages n)
    (released : ∀ k x f, stages k ≠ .held x f) {k : Nat} {x : Assembly UInt8}
    (waits : stages k = .waiting x) (cmd : UInt8) {data : Bytes} {p : Packet}
    (parsed : parse data = some p) (own : p.seq = be 8 k) :
    (fun j => (stages j).after j (.receive cmd data)) =
      Function.update stages k (.held (take_in x p) (p.flags = 1)) := by
  have below : k < n := h.known (by simp [waits])
  rw [after_receive stages cmd parsed]
  funext j
  by_cases same : j = k
  · subst same
    rw [if_pos own, waits, Function.update_self]
    rfl
  · rw [Function.update_of_ne same]
    split
    · rename_i other
      cases stage : stages j with
      | waiting y =>
        have small : j < n := h.known (by simp [stage])
        exact absurd (be_inj (Nat.lt_of_lt_of_le small h.few) (Nat.lt_of_lt_of_le below h.few)
          (other.symm.trans own)) same
      | held y f => exact absurd stage (released j y f)
      | unsent => rfl
      | answered => rfl
    · rfl

theorem dispatcher_follows (h : w.Agrees build stages n) :
    Follows (judge build protobuf) stages (w.dispatcher protobuf)
      fun w stages => w.Agrees build stages n := by
  cases holding : w.held with
  | some held => exact conclude_follows h holding
  | none =>
    have released := h.idle holding
    rw [dispatcher, holding]
    cases arrived : w.inbox with
    | nil => exact Call.follows_pure h
    | cons packet inbox =>
      obtain ⟨cmd, data⟩ := packet
      have response : cmd ≠ 0xb5 := h.inbox (cmd, data) (by simp [arrived])
      have rest : ∀ packet ∈ inbox, packet.1 ≠ 0xb5 :=
        fun packet member => h.inbox packet (by simp [arrived, member])
      have noted : judge build protobuf stages (.receive cmd data) =
          some fun j => (stages j).after j (.receive cmd data) := if_pos trivial
      rcases MercuryManager.receive_cases cmd data w.manager with
        panics | ⟨seq, flags, count, left, opened, free, _, ignored⟩ |
          ⟨p, x, callback, parsed, entry, taken⟩
      · simp only [panics]
        exact Call.follows_bind ⟨_, Call.observe_singleton noted, nofun⟩
      · simp only [ignored]
        rw [h.after_unknown released cmd opened free] at noted
        have correct : Correct build protobuf stages (.ignore_seq seq cmd) := by
          intro k own
          rw [own] at free
          exact h.unsent_or_answered released free
        refine Call.follows_bind ⟨_, (Call.observe_cons noted _).trans
          (Call.observe_singleton (if_pos correct)), ?_⟩
        rintro _ ⟨⟩
        exact Call.follows_pure ⟨h.numbered, h.few, h.late, h.entries, h.others, nofun,
          fun _ => released, h.begun, h.sending, rest⟩
      · simp only [taken]
        obtain ⟨k, _, own, waits, rfl⟩ :=
          h.waiting_for (MercuryManager.found_response entry response)
        refine Call.follows_bind (follows_entry trivial (Call.follows_pure ?_))
        rw [h.after_taken released waits cmd parsed own]
        exact h.taken released waits response own rest

end Threads

end ConnectScrobbler.Mercury
