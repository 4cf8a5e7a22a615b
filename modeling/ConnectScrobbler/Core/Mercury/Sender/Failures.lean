import ConnectScrobbler.Core.Mercury.Answers
import ConnectScrobbler.Core.Mercury.Sender

/-! A sender whose requests may fail. `poll_complete` returns early when it finds
a failure, and leaves it in front of the queue, where the next call finds it again. -/
namespace ConnectScrobbler.Mercury

open Bytes (be)

inductive SinkEffect where
  | sender (e : SenderEffect)
  | polled (result : Poll Unit MercuryError)
  deriving DecidableEq, Repr

def SenderEffect.answers (task : Nat) : SenderEffect → Bool
  | .answer other _ => other == task
  | _ => false

namespace MercuryManager

/-- A receiver that has delivered its value is canceled from then on. -/
def delivered (log : List SenderEffect) (m : MercuryManager) : MercuryManager :=
  { m with
    oneshots := fun task => if log.any (·.answers task) then .canceled else m.oneshots task }

def Answered (m : MercuryManager) (task : Nat) : Prop :=
  ∃ value, m.oneshots task = .complete (.ok value)

def Failed (m : MercuryManager) (task : Nat) : Prop :=
  m.oneshots task = .canceled ∨ ∃ err, m.oneshots task = .complete (.error err)

end MercuryManager

/-- A sender with the manager that it shares with everyone else. -/
structure Sink where
  sender : MercurySender
  mercury : MercuryManager

namespace Sink

/-- The calls of the sender's owner, and what happens to the manager meanwhile. -/
inductive Turn where
  | start_send (item : Bytes) (connected : Bool)
  | poll_complete
  | mercury (a : Action)
  deriving DecidableEq, Repr

def new (uri : String) : Sink := ⟨.new uri, .new⟩

def step (build : Build) (protobuf : Protobuf) (h : Sink) : Turn → Call SinkEffect Sink
  | .start_send item connected => do
    let (sender, mercury) ←
      (h.sender.start_send build protobuf connected item h.mercury).within .sender
    return ⟨sender, mercury⟩
  | .poll_complete => do
    let (result, sender) ← (h.sender.poll_complete h.mercury).within .sender
    Call.emit (.polled result)
    return ⟨sender, h.mercury.delivered (h.sender.poll_complete h.mercury).log⟩
  | .mercury a => do
    let mercury ← (h.mercury.step build protobuf a).within (.sender ∘ .mercury)
    return { h with mercury }

def run (build : Build) (protobuf : Protobuf) (uri : String) (turns : List Turn) :
    Call SinkEffect Sink :=
  Call.run (step build protobuf) (new uri) turns

/-- The first item that is not answered with success has failed. -/
def Fails (h : Sink) (task : Nat) (behind : List Nat) : Prop :=
  ∃ done, h.sender.pending = done ++ task :: behind ∧ (∀ t ∈ done, h.mercury.Answered t) ∧
    h.mercury.Failed task

end Sink

namespace MercurySender

variable {m : MercuryManager} {task : Nat} {done rest behind : List Nat}

def answers (m : MercuryManager) (done : List Nat) : List SenderEffect :=
  done.filterMap fun task => match m.oneshots task with
    | .complete (.ok value) => some (.answer task (.ok value))
    | _ => none

theorem mem_answers {e : SenderEffect} : e ∈ answers m done ↔
    ∃ task ∈ done, ∃ value, m.oneshots task = .complete (.ok value) ∧ e = .answer task (.ok value) := by
  simp only [answers, List.mem_filterMap]
  constructor
  · rintro ⟨task, member, found⟩
    split at found
    · rename_i value answered
      cases found
      exact ⟨task, member, value, answered, rfl⟩
    · cases found
  · rintro ⟨task, member, value, answered, rfl⟩
    exact ⟨task, member, by rw [answered]⟩

theorem poll_answered {value : MercuryResponse} (answered : m.oneshots task = .complete (.ok value)) :
    m.poll task = .ok (.ready value) := by
  rw [MercuryManager.poll, answered]
  rfl

theorem poll_waits (waits : m.oneshots task = .waiting) : m.poll task = .ok .notReady := by
  rw [MercuryManager.poll, waits]
  rfl

/-- Whether a failure is polled for the first time or again makes no difference. -/
theorem poll_failed (failed : m.Failed task) : m.poll task = .error {} := by
  rcases failed with canceled | ⟨err, failed⟩
  · rw [MercuryManager.poll, canceled]
    rfl
  · rw [MercuryManager.poll, failed]
    rfl

theorem flush_append (answered : ∀ t ∈ done, m.Answered t) (rest : List Nat) :
    flush m (done ++ rest) = ⟨answers m done ++ (flush m rest).log, (flush m rest).value⟩ := by
  induction done with
  | nil => rfl
  | cons task done ih =>
    obtain ⟨value, first⟩ := answered task (.head _)
    rw [List.cons_append, flush, poll_answered first, ih fun t member => answered t (.tail _ member)]
    simp [answers, first]

theorem flush_waits (waits : m.oneshots task = .waiting) :
    flush m (task :: behind) = ⟨[], some (.ok .notReady, task :: behind)⟩ := by
  rw [flush, poll_waits waits]
  rfl

theorem flush_failed (failed : m.Failed task) : flush m (task :: behind) =
    ⟨[.answer task (.error {})], some (.error {}, task :: behind)⟩ := by
  rw [flush, poll_failed failed]
  rfl

/-- The queue is taken from the front up to the first item with no success. -/
theorem flush_cases (m : MercuryManager) (pending : List Nat) :
    ∃ done rest, pending = done ++ rest ∧ (∀ t ∈ done, m.Answered t) ∧
      (rest = [] ∧ flush m pending = ⟨answers m done, some (.ok (.ready ()), [])⟩ ∨
      ∃ task behind, rest = task :: behind ∧
        (m.oneshots task = .waiting ∧
            flush m pending = ⟨answers m done, some (.ok .notReady, rest)⟩ ∨
          m.Failed task ∧ flush m pending =
            ⟨answers m done ++ [.answer task (.error {})], some (.error {}, rest)⟩)) := by
  induction pending with
  | nil => exact ⟨[], [], rfl, nofun, .inl ⟨rfl, rfl⟩⟩
  | cons task pending ih =>
    cases state : m.oneshots task with
    | waiting =>
      refine ⟨[], task :: pending, rfl, nofun, .inr ⟨task, pending, rfl, .inl ⟨state, ?_⟩⟩⟩
      exact flush_waits state
    | canceled =>
      refine ⟨[], task :: pending, rfl, nofun, .inr ⟨task, pending, rfl, .inr ⟨.inl state, ?_⟩⟩⟩
      exact flush_failed (.inl state)
    | complete result =>
      cases result with
      | error err =>
        refine ⟨[], task :: pending, rfl, nofun,
          .inr ⟨task, pending, rfl, .inr ⟨.inr ⟨err, state⟩, ?_⟩⟩⟩
        exact flush_failed (.inr ⟨err, state⟩)
      | ok value =>
        obtain ⟨done, rest, rfl, answered, shape⟩ := ih
        have all : ∀ t ∈ task :: done, m.Answered t :=
          List.forall_mem_cons.mpr ⟨⟨value, state⟩, answered⟩
        refine ⟨task :: done, rest, rfl, all, ?_⟩
        have cut := flush_append all rest
        have same := flush_append answered rest
        rw [List.cons_append] at cut
        rcases shape with ⟨rfl, flushed⟩ | ⟨task', behind, rfl, ⟨waits, flushed⟩ | ⟨failed, flushed⟩⟩
        · refine .inl ⟨rfl, ?_⟩
          rw [cut]
          simp [flush]
        · refine .inr ⟨task', behind, rfl, .inl ⟨waits, ?_⟩⟩
          rw [cut, flush_waits waits]
          simp
        · refine .inr ⟨task', behind, rfl, .inr ⟨failed, ?_⟩⟩
          rw [cut, flush_failed failed]

theorem poll_complete_cases (m : MercuryManager) (s : MercurySender) :
    ∃ done rest, s.pending = done ++ rest ∧ (∀ t ∈ done, m.Answered t) ∧
      (rest = [] ∧ s.poll_complete m =
          ⟨answers m done, some (.ok (.ready ()), { s with pending := rest })⟩ ∨
      ∃ task behind, rest = task :: behind ∧
        (m.oneshots task = .waiting ∧ s.poll_complete m =
            ⟨answers m done, some (.ok .notReady, { s with pending := rest })⟩ ∨
          m.Failed task ∧ s.poll_complete m =
            ⟨answers m done ++ [.answer task (.error {})],
              some (.error {}, { s with pending := rest })⟩)) := by
  obtain ⟨done, rest, cut, answered, shape⟩ := flush_cases m s.pending
  refine ⟨done, rest, cut, answered, ?_⟩
  rcases shape with ⟨rfl, flushed⟩ | ⟨task, behind, rfl, ⟨waits, flushed⟩ | ⟨failed, flushed⟩⟩
  · refine .inl ⟨rfl, ?_⟩
    simp [poll_complete, flushed]
  · refine .inr ⟨task, behind, rfl, .inl ⟨waits, ?_⟩⟩
    simp [poll_complete, flushed]
  · refine .inr ⟨task, behind, rfl, .inr ⟨failed, ?_⟩⟩
    simp [poll_complete, flushed]

theorem failed_not_waiting {m : MercuryManager} {task : Nat} (failed : m.Failed task) :
    m.oneshots task ≠ .waiting := by
  rcases failed with canceled | ⟨err, failed⟩
  · rw [canceled]; simp
  · rw [failed]; simp

/-- Successes are reported as they are taken from the queue, and the failure that ends it. -/
theorem mem_poll_log {m : MercuryManager} {s : MercurySender} {e : SenderEffect}
    (member : e ∈ (s.poll_complete m).log) :
    (∃ task value, m.oneshots task = .complete (.ok value) ∧ e = .answer task (.ok value)) ∨
    ∃ done task behind, s.pending = done ++ task :: behind ∧ (∀ t ∈ done, m.Answered t) ∧
      m.Failed task ∧ e = .answer task (.error {}) := by
  obtain ⟨done, rest, cut, answered, shape⟩ := poll_complete_cases m s
  have taken : e ∈ answers m done →
      ∃ task value, m.oneshots task = .complete (.ok value) ∧ e = .answer task (.ok value) := by
    intro member
    obtain ⟨task, _, value, success, rfl⟩ := mem_answers.mp member
    exact ⟨task, value, success, rfl⟩
  rcases shape with ⟨_, polled⟩ | ⟨task, behind, rfl, ⟨_, polled⟩ | ⟨failed, polled⟩⟩
  · rw [polled] at member
    exact .inl (taken member)
  · rw [polled] at member
    exact .inl (taken member)
  · rw [polled] at member
    rcases List.mem_append.mp member with success | failure
    · exact .inl (taken success)
    · exact .inr ⟨done, task, behind, cut, answered, failed, List.mem_singleton.mp failure⟩

/-- Only what has resolved is reported. -/
theorem poll_complete_answers {m : MercuryManager} {s : MercurySender} {task : Nat}
    (reported : (s.poll_complete m).log.any (·.answers task) = true) :
    m.oneshots task ≠ .waiting := by
  obtain ⟨e, member, named⟩ := List.any_eq_true.mp reported
  rcases mem_poll_log member with ⟨other, value, success, rfl⟩ | ⟨_, other, _, _, _, failed, rfl⟩
  · have same : other = task := by simpa [SenderEffect.answers] using named
    rw [← same, success]
    simp
  · have same : other = task := by simpa [SenderEffect.answers] using named
    rw [← same]
    exact failed_not_waiting failed

/-- To send is a request, whose future is put at the end of the queue. -/
theorem start_send_returns {build : Build} {protobuf : Protobuf} {connected : Bool} {item : Bytes}
    {m m' : MercuryManager} {s s' : MercurySender}
    (returned : (s.start_send build protobuf connected item m).value = some (s', m')) :
    s' = { s with pending := s.pending ++ [m.channels] } ∧ m.channels < m'.channels ∧
      (m.step build protobuf (.request ⟨.SEND, s.uri, none, [item]⟩ connected)).value = some m' ∧
      (s.start_send build protobuf connected item m).log =
        (m.step build protobuf (.request ⟨.SEND, s.uri, none, [item]⟩ connected)).log.map .mercury ++
          [.request item m.channels] := by
  obtain ⟨⟨task, m1⟩, sent, done⟩ := Call.bind_returns.mp returned
  obtain ⟨_, _, _, _, rfl, rfl⟩ := MercuryManager.request_returns sent
  cases done
  have returned' : (m.request build protobuf connected ⟨.SEND, s.uri, none, [item]⟩).value = some _ :=
    sent
  obtain ⟨log, requested⟩ := Call.eq_of_returned returned'
  refine ⟨rfl, Nat.lt_succ_self _, ?_, ?_⟩
  · simp only [MercuryManager.step, requested, Call.bind_some]
    rfl
  · simp only [MercuryManager.step, requested, Call.bind_some, start_send, MercuryManager.send]
    simp [Call.within]

end MercurySender

namespace MercuryManager

variable {build : Build} {m : MercuryManager} {log : List SenderEffect}

theorem delivered_unreported {task : Nat} (unreported : log.any (·.answers task) = false) :
    (m.delivered log).oneshots task = m.oneshots task := by
  simp only [delivered, unreported]
  rfl

theorem delivered_reported {task : Nat} (reported : log.any (·.answers task) = true) :
    (m.delivered log).oneshots task = .canceled := by
  simp only [delivered, reported]
  rfl

theorem delivered_complete {task : Nat} {result : Except MercuryError MercuryResponse}
    (complete : (m.delivered log).oneshots task = .complete result) :
    m.oneshots task = .complete result := by
  cases reported : log.any (·.answers task) with
  | false => exact (delivered_unreported reported).symm.trans complete
  | true => cases (delivered_reported reported).symm.trans complete

theorem delivered_failed {task : Nat} (failed : m.Failed task) : (m.delivered log).Failed task := by
  cases reported : log.any (·.answers task) with
  | false =>
    have same := delivered_unreported (m := m) reported
    rwa [Failed, same]
  | true => exact .inl (delivered_reported reported)

theorem delivered_reached (h : m.Reached build) : (m.delivered log).Reached build := by
  obtain ⟨⟨n, numbered⟩, keyed, made⟩ := h
  exact ⟨⟨n, numbered.kept rfl rfl⟩, keyed, made.entries, made.closed, made.subscribers⟩

end MercuryManager

namespace Sink

open MercurySender (answers mem_answers poll_complete_cases)

variable {build : Build} {protobuf : Protobuf} {h h' : Sink} {turn : Turn} {log : List SinkEffect}
  {task : Nat} {behind : List Nat}

theorem step_poll {log : List SenderEffect} {result : Poll Unit MercuryError} {sender : MercurySender}
    (polled : h.sender.poll_complete h.mercury = ⟨log, some (result, sender)⟩) :
    h.step build protobuf .poll_complete =
      ⟨log.map .sender ++ [.polled result], some ⟨sender, h.mercury.delivered log⟩⟩ := by
  simp [step, polled, Call.within]

/-- The sender waits for requests that were made, and what was answered was logged. -/
structure Tracks (build : Build) (log : List SinkEffect) (h : Sink) : Prop where
  reached : h.mercury.Reached build
  unanswered : h.mercury.Unanswered
  made : ∀ task ∈ h.sender.pending, task < h.mercury.channels
  completed : ∀ cb, cb < h.mercury.channels → ∀ result,
    h.mercury.oneshots cb = .complete result → .sender (.mercury (.complete cb result)) ∈ log
  sent : ∀ item task, .sender (.request item task) ∈ log → task ∈ h.sender.pending ∨
    ∃ value, .sender (.mercury (.complete task (.ok value))) ∈ log

theorem Tracks.mercury (tracks : h.Tracks build log) {a : Action} {m : MercuryManager}
    (returned : (h.mercury.step build protobuf a).value = some m) (later : List SinkEffect)
    (logged : ∀ e ∈ (h.mercury.step build protobuf a).log, .sender (.mercury e) ∈ later)
    {cb : Nat} (below : cb < m.channels) {result : Except MercuryError MercuryResponse}
    (complete : m.oneshots cb = .complete result) :
    .sender (.mercury (.complete cb result)) ∈ log ++ later := by
  obtain ⟨n, numbered⟩ := tracks.reached.numbered
  rcases MercuryManager.step_made_or_new numbered tracks.reached.keyed returned below with
    made | ⟨_, waits⟩
  · rcases MercuryManager.step_resolves tracks.reached.keyed made returned with
      same | ⟨_, canceled | ⟨other, answered, here⟩⟩
    · exact List.mem_append_left _ (tracks.completed cb made result (same.symm.trans complete))
    · cases canceled.symm.trans complete
    · cases answered.symm.trans complete
      exact List.mem_append_right _ (logged _ here)
  · cases waits.symm.trans complete

theorem Tracks.start_send (tracks : h.Tracks build log) {item : Bytes} {connected : Bool}
    (returned : (h.step build protobuf (.start_send item connected)).value = some h') :
    h'.Tracks build (log ++ (h.step build protobuf (.start_send item connected)).log) := by
  obtain ⟨⟨sender, m⟩, started, done⟩ := Call.bind_returns.mp returned
  cases done
  obtain ⟨rfl, more, stepped, logged⟩ := MercurySender.start_send_returns started
  have log_eq : (h.step build protobuf (.start_send item connected)).log =
      (h.mercury.step build protobuf (.request ⟨.SEND, h.sender.uri, none, [item]⟩ connected)).log.map
        (SinkEffect.sender ∘ SenderEffect.mercury) ++ [.sender (.request item h.mercury.channels)] := by
    rw [step, Call.bind_log started, Call.within_log, logged]
    simp
  rw [log_eq]
  have at_once : ∀ e ∈ (h.mercury.step build protobuf
      (.request ⟨.SEND, h.sender.uri, none, [item]⟩ connected)).log,
      SinkEffect.sender (.mercury e) ∈ (h.mercury.step build protobuf
        (.request ⟨.SEND, h.sender.uri, none, [item]⟩ connected)).log.map
          (SinkEffect.sender ∘ SenderEffect.mercury) ++
            [.sender (.request item h.mercury.channels)] := by
    intro e member
    exact List.mem_append_left _ (List.mem_map_of_mem member)
  constructor
  · exact MercuryManager.step_reached tracks.reached stepped
  · exact MercuryManager.step_unanswered tracks.reached tracks.unanswered stepped
  · intro task member
    rcases List.mem_append.mp member with old | new
    · exact Nat.lt_trans (tracks.made task old) more
    · rw [List.mem_singleton.mp new]
      exact more
  · intro cb below result complete
    exact tracks.mercury stepped _ at_once below complete
  · intro other task member
    rcases List.mem_append.mp member with old | new
    · rcases tracks.sent other task old with waits | ⟨value, answered⟩
      · exact .inl (List.mem_append_left _ waits)
      · exact .inr ⟨value, List.mem_append_left _ answered⟩
    · rcases List.mem_append.mp new with foreign | own
      · simp at foreign
      · obtain ⟨rfl, rfl⟩ : other = item ∧ task = h.mercury.channels := by simpa using own
        exact .inl (List.mem_append_right _ (.head _))

theorem Tracks.action (tracks : h.Tracks build log) {a : Action}
    (returned : (h.step build protobuf (.mercury a)).value = some h') :
    h'.Tracks build (log ++ (h.step build protobuf (.mercury a)).log) := by
  obtain ⟨m, stepped, done⟩ := Call.bind_returns.mp returned
  cases done
  have log_eq : (h.step build protobuf (.mercury a)).log =
      (h.mercury.step build protobuf a).log.map (SinkEffect.sender ∘ SenderEffect.mercury) := by
    rw [step, Call.bind_log stepped]
    simp
  rw [log_eq]
  constructor
  · exact MercuryManager.step_reached tracks.reached stepped
  · exact MercuryManager.step_unanswered tracks.reached tracks.unanswered stepped
  · intro task member
    exact Nat.lt_of_lt_of_le (tracks.made task member) (MercuryManager.step_streams stepped).channels
  · intro cb below result complete
    apply tracks.mercury stepped _ ?_ below complete
    intro e member
    exact List.mem_map_of_mem member
  · intro item task member
    rcases List.mem_append.mp member with old | new
    · rcases tracks.sent item task old with waits | ⟨value, answered⟩
      · exact .inl waits
      · exact .inr ⟨value, List.mem_append_left _ answered⟩
    · simp at new

theorem Tracks.polled (tracks : h.Tracks build log)
    (returned : (h.step build protobuf .poll_complete).value = some h') :
    h'.Tracks build (log ++ (h.step build protobuf .poll_complete).log) := by
  obtain ⟨done, rest, cut, answered, shape⟩ := poll_complete_cases h.mercury h.sender
  have after : ∃ result, (h.sender.poll_complete h.mercury).value =
      some (result, { h.sender with pending := rest }) := by
    rcases shape with ⟨_, polled⟩ | ⟨_, _, _, ⟨_, polled⟩ | ⟨_, polled⟩⟩ <;>
      exact ⟨_, by rw [polled]⟩
  obtain ⟨result, polled⟩ := after
  obtain ⟨reported, polled⟩ := Call.eq_of_returned polled
  rw [step_poll polled] at returned ⊢
  cases returned
  have resolved : ∀ task, reported.any (·.answers task) = true →
      h.mercury.oneshots task ≠ .waiting := by
    intro task named
    apply MercurySender.poll_complete_answers (s := h.sender)
    rw [polled]
    exact named
  constructor
  · exact MercuryManager.delivered_reached tracks.reached
  · intro seq pending cb entry named
    have waits := tracks.unanswered seq pending cb entry named
    cases unreported : reported.any (·.answers cb) with
    | true => exact absurd waits (resolved cb unreported)
    | false => exact (MercuryManager.delivered_unreported unreported).trans waits
  · intro task member
    apply tracks.made task
    rw [cut]
    exact List.mem_append_right _ member
  · intro cb below result complete
    apply List.mem_append_left
    exact tracks.completed cb below result (MercuryManager.delivered_complete complete)
  · intro item task member
    rcases List.mem_append.mp member with old | new
    · rcases tracks.sent item task old with waits | ⟨value, answer⟩
      · rw [cut] at waits
        rcases List.mem_append.mp waits with now | still
        · obtain ⟨value, success⟩ := answered task now
          have made := tracks.made task (by rw [cut]; exact List.mem_append_left _ now)
          exact .inr ⟨value, List.mem_append_left _ (tracks.completed task made _ success)⟩
        · exact .inl still
      · exact .inr ⟨value, List.mem_append_left _ answer⟩
    · have requested : SenderEffect.request item task ∈ (h.sender.poll_complete h.mercury).log := by
        rw [polled]
        simpa using new
      rcases MercurySender.mem_poll_log requested with ⟨_, _, _, same⟩ | ⟨_, _, _, _, _, _, same⟩ <;>
        cases same

theorem step_tracks (tracks : h.Tracks build log)
    (returned : (h.step build protobuf turn).value = some h') :
    h'.Tracks build (log ++ (h.step build protobuf turn).log) := by
  cases turn with
  | start_send item connected => exact tracks.start_send returned
  | poll_complete => exact tracks.polled returned
  | mercury a => exact tracks.action returned

theorem run_tracks {uri : String} {turns : List Turn}
    (reached : (run build protobuf uri turns).value = some h) :
    h.Tracks build (run build protobuf uri turns).log := by
  refine Call.run_induction (P := fun _ log h => h.Tracks build log) ?_
    (fun _ _ _ tracks _ _ returned => step_tracks tracks returned) reached
  constructor
  · exact @MercuryManager.run_reached build protobuf .new [] rfl
  · nofun
  · nofun
  · intro cb below
    exact absurd below (Nat.not_lt_zero cb)
  · nofun

/-- A call that finds a failure reports it and leaves it where it is. -/
theorem Fails.poll (fails : h.Fails task behind) :
    ∃ reported, h.sender.poll_complete h.mercury = ⟨reported ++ [.answer task (.error {})],
      some (.error {}, { h.sender with pending := task :: behind })⟩ := by
  obtain ⟨done, cut, answered, failed⟩ := fails
  refine ⟨answers h.mercury done, ?_⟩
  have flushed := MercurySender.flush_append answered (task :: behind)
  rw [MercurySender.flush_failed failed] at flushed
  simp only [MercurySender.poll_complete, cut, flushed, Call.bind_some, Call.pure_eq]
  simp

/-- Whatever happens, the failure stays in front. -/
theorem Fails.step (fails : h.Fails task behind) (tracks : h.Tracks build log)
    (returned : (h.step build protobuf turn).value = some h') :
    ∃ new, h'.Fails task (behind ++ new) := by
  have stays : ∀ {a : Action} {m : MercuryManager},
      (h.mercury.step build protobuf a).value = some m → ∃ done,
        h.sender.pending = done ++ task :: behind ∧ (∀ t ∈ done, m.Answered t) ∧ m.Failed task := by
    intro a m stepped
    obtain ⟨done, cut, answered, failed⟩ := fails
    have same : ∀ t ∈ h.sender.pending, h.mercury.oneshots t ≠ .waiting →
        m.oneshots t = h.mercury.oneshots t := by
      intro t member resolved
      exact MercuryManager.answered_stays tracks.unanswered (tracks.made t member) resolved stepped
    refine ⟨done, cut, ?_, ?_⟩
    · intro t member
      obtain ⟨value, success⟩ := answered t member
      refine ⟨value, (same t ?_ ?_).trans success⟩
      · rw [cut]
        exact List.mem_append_left _ member
      · rw [success]
        simp
    · have kept := same task (by rw [cut]; simp) (MercurySender.failed_not_waiting failed)
      rwa [MercuryManager.Failed, kept]
  cases turn with
  | start_send item connected =>
    obtain ⟨⟨sender, m⟩, started, done⟩ := Call.bind_returns.mp returned
    cases done
    obtain ⟨rfl, _, stepped, _⟩ := MercurySender.start_send_returns started
    obtain ⟨done, cut, answered, failed⟩ := stays stepped
    refine ⟨[h.mercury.channels], done, ?_, answered, failed⟩
    simp [cut]
  | poll_complete =>
    obtain ⟨reported, polled⟩ := fails.poll
    rw [step_poll polled] at returned
    cases returned
    obtain ⟨_, _, _, failed⟩ := fails
    refine ⟨[], [], ?_, nofun, MercuryManager.delivered_failed failed⟩
    simp
  | mercury a =>
    obtain ⟨m, stepped, done⟩ := Call.bind_returns.mp returned
    cases done
    obtain ⟨done, cut, answered, failed⟩ := stays stepped
    refine ⟨[], done, ?_, answered, failed⟩
    simp [cut]

theorem Fails.run (fails : h.Fails task behind) (tracks : h.Tracks build log) {later : List Turn}
    (returned : (Call.run (Sink.step build protobuf) h later).value = some h') :
    ∃ new, h'.Fails task (behind ++ new) := by
  have all : h'.Tracks build (log ++ (Call.run (Sink.step build protobuf) h later).log) ∧
      ∃ new, h'.Fails task (behind ++ new) := by
    refine Call.run_induction (P := fun _ added h' => h'.Tracks build (log ++ added) ∧
      ∃ new, h'.Fails task (behind ++ new)) ?_ ?_ returned
    · refine ⟨?_, [], ?_⟩
      · rwa [List.append_nil]
      · rwa [List.append_nil]
    · rintro _ added h1 ⟨tracks, new, fails⟩ turn h2 stepped
      obtain ⟨more, fails⟩ := fails.step tracks stepped
      refine ⟨?_, new ++ more, ?_⟩
      · rw [← List.append_assoc]
        exact step_tracks tracks stepped
      · rwa [← List.append_assoc]
  exact all.2

theorem reported_fails {err : MercuryError}
    (reported : .sender (.answer task (.error err)) ∈ (h.step build protobuf turn).log) :
    turn = .poll_complete ∧ ∃ behind, h.Fails task behind := by
  cases turn with
  | start_send item connected =>
    exfalso
    rcases Call.mem_bind reported with sent | ⟨_, _, sent⟩
    · simp only [MercurySender.start_send, Call.within_log, List.mem_map] at sent
      obtain ⟨e, member, same⟩ := sent
      cases same
      rcases Call.mem_bind member with requested | ⟨_, _, noted⟩
      · simp at requested
      · simp at noted
    · simp at sent
  | poll_complete =>
    refine ⟨rfl, ?_⟩
    rcases Call.mem_bind reported with polled | ⟨_, _, noted⟩
    · simp only [Call.within_log, List.mem_map] at polled
      obtain ⟨e, member, same⟩ := polled
      cases same
      rcases MercurySender.mem_poll_log member with
        ⟨_, _, _, same⟩ | ⟨done, _, behind, cut, answered, failed, same⟩
      · cases same
      · cases same
        exact ⟨behind, done, cut, answered, failed⟩
    · simp at noted
  | mercury a =>
    exfalso
    rcases Call.mem_bind reported with acted | ⟨_, _, none⟩
    · simp at acted
    · simp at none

/-- What is expected once a failure has been reported: the item is gone, its failure
is not reported again, and the items behind it are taken when they are answered. -/
structure Recovers (build : Build) (protobuf : Protobuf) (task : Nat) (behind : List Nat)
    (h : Sink) : Prop where
  removed : task ∉ h.sender.pending
  once : ∀ later err,
    .sender (.answer task (.error err)) ∉ (Call.run (step build protobuf) h later).log
  flushed : ∀ later h' h'', (Call.run (step build protobuf) h later).value = some h' →
    (∀ t ∈ behind, t ∈ h'.sender.pending → h'.mercury.Answered t) →
    (h'.step build protobuf .poll_complete).value = some h'' →
    ∀ t ∈ behind, t ∉ h''.sender.pending

/-- In every run a call that returns ready has an answer to every item sent so far, and a
call that finds no failure takes what is answered from the front. But failures are
recovered from exactly in the runs where no call finds one: once found, a failure is
reported by every later call, and nothing behind it leaves the queue. -/
theorem failures_recovered_iff {uri : String} {turns : List Turn}
    (reached : (run build protobuf uri turns).value = some h) :
    (∀ sender, (h.sender.poll_complete h.mercury).value = some (.ok (.ready ()), sender) →
      ∀ item task, .sender (.request item task) ∈ (run build protobuf uri turns).log →
        ∃ value, .sender (.mercury (.complete task (.ok value))) ∈
          (run build protobuf uri turns).log) ∧
    ((∀ task behind, ¬ h.Fails task behind) → ∃ done rest, h.sender.pending = done ++ rest ∧
      (∀ t ∈ done, h.mercury.Answered t) ∧ (∀ t, rest.head? = some t → h.mercury.oneshots t = .waiting) ∧
      (h.sender.poll_complete h.mercury).value =
        some (.ok (if rest = [] then .ready () else .notReady), { h.sender with pending := rest })) ∧
    (Call.Meets (step build protobuf) (fun h turn => ∀ task err done behind h',
        .sender (.answer task (.error err)) ∈ (h.step build protobuf turn).log →
        h.sender.pending = done ++ task :: behind →
        (h.step build protobuf turn).value = some h' → h'.Recovers build protobuf task behind)
        (new uri) turns ↔
      Call.Meets (step build protobuf)
        (fun h turn => turn = .poll_complete → ∀ task behind, ¬ h.Fails task behind)
        (new uri) turns) ∧
    ∀ task behind, h.Fails task behind → ∀ later h',
      (Call.run (step build protobuf) h later).value = some h' → ∃ new sender,
        (h'.sender.poll_complete h'.mercury).value = some (.error {}, sender) ∧
        .answer task (.error {}) ∈ (h'.sender.poll_complete h'.mercury).log ∧
        sender.pending = task :: behind ++ new := by
  have tracks := run_tracks reached
  refine ⟨?_, ?_, ?_, ?_⟩
  · intro sender ready item task sent
    rcases tracks.sent item task sent with waits | answered
    · obtain ⟨done, rest, cut, answered, shape⟩ := poll_complete_cases h.mercury h.sender
      have all : rest = [] := by
        rcases shape with ⟨empty, _⟩ | ⟨_, _, _, ⟨_, polled⟩ | ⟨_, polled⟩⟩
        · exact empty
        · rw [polled] at ready
          cases ready
        · rw [polled] at ready
          cases ready
      rw [cut, all, List.append_nil] at waits
      obtain ⟨value, success⟩ := answered task waits
      have made := tracks.made task (by rw [cut]; exact List.mem_append_left _ waits)
      exact ⟨value, tracks.completed task made _ success⟩
    · exact answered
  · intro clean
    obtain ⟨done, rest, cut, answered, shape⟩ := poll_complete_cases h.mercury h.sender
    refine ⟨done, rest, cut, answered, ?_⟩
    rcases shape with ⟨rfl, polled⟩ | ⟨task, behind, rfl, ⟨waits, polled⟩ | ⟨failed, _⟩⟩
    · refine ⟨nofun, ?_⟩
      rw [polled]
      simp
    · refine ⟨?_, ?_⟩
      · rintro t ⟨⟩
        exact waits
      · rw [polled]
        simp
    · exact absurd ⟨done, cut, answered, failed⟩ (clean task behind)
  · constructor
    · intro recovers before turn after cut s found polls task behind fails
      subst polls
      obtain ⟨reported, polled⟩ := fails.poll
      obtain ⟨done, queue, _, _⟩ := fails
      have gone := recovers before .poll_complete after cut s found task {} done behind
        ⟨{ s.sender with pending := task :: behind }, _⟩
        (by rw [step_poll polled]; simp) queue (by rw [step_poll polled])
      exact gone.removed (.head _)
    · intro clean before turn after cut s found task err done behind s' reported
      obtain ⟨polls, behind', fails⟩ := reported_fails reported
      exact absurd fails (clean before turn after cut s found polls task behind')
  · intro task behind fails later h' returned
    obtain ⟨new, fails'⟩ := fails.run tracks returned
    obtain ⟨reported, polled⟩ := fails'.poll
    refine ⟨new, _, by rw [polled], ?_, rfl⟩
    rw [polled]
    simp

/-! Two items are sent; the first is answered with an error, the second with success. -/

def two_sent : List Turn :=
  [.start_send [1] true, .start_send [2] true,
    .mercury (arriving (be 8 0) (.final, [missing_header])),
    .mercury (arriving (be 8 1) (.final, [ok_header]))]

theorem two_sent_fails :
    ∃ h, (run .release messages "u" two_sent).value = some h ∧ h.Fails 0 [1] :=
  ⟨_, rfl, [], rfl, by simp, .inr ⟨{}, rfl⟩⟩

theorem two_sent_stuck : ∃ h h', (run .release messages "u" two_sent).value = some h ∧
    h.Fails 0 [1] ∧ (Call.run (step .release messages) h [.poll_complete]).value = some h' ∧
    ∃ new sender, (h'.sender.poll_complete h'.mercury).value = some (.error {}, sender) ∧
      .answer 0 (.error {}) ∈ (h'.sender.poll_complete h'.mercury).log ∧
      sender.pending = 0 :: [1] ++ new := by
  obtain ⟨h, reached, fails⟩ := two_sent_fails
  obtain ⟨reported, polled⟩ := fails.poll
  obtain ⟨h', stepped⟩ :
      ∃ h', (Call.run (step .release messages) h [.poll_complete]).value = some h' := by
    rw [Call.run, step_poll polled]
    exact ⟨_, rfl⟩
  exact ⟨h, h', reached, fails, stepped,
    (failures_recovered_iff reached).2.2.2 0 [1] fails [.poll_complete] h' stepped⟩

def reports : SinkEffect → Bool
  | .sender (.answer ..) => true
  | .polled _ => true
  | _ => false

/-- Both calls report the failure of the first item; it stays in the queue, and so does
the second, though it is answered. -/
theorem failure_reported_again :
    ¬ Call.Meets (step .release messages) (fun h turn => ∀ task err done behind h',
        .sender (.answer task (.error err)) ∈ (h.step .release messages turn).log →
        h.sender.pending = done ++ task :: behind →
        (h.step .release messages turn).value = some h' → h'.Recovers .release messages task behind)
      (new "u") (two_sent ++ [.poll_complete]) ∧
    (run .release messages "u" (two_sent ++ [.poll_complete, .poll_complete])).log.filter reports =
      [.sender (.answer 0 (.error {})), .polled (.error {}),
        .sender (.answer 0 (.error {})), .polled (.error {})] ∧
    .sender (.mercury (.complete 1 (.ok ⟨"", 200, []⟩))) ∈ (run .release messages "u" two_sent).log ∧
    (run .release messages "u" (two_sent ++ [.poll_complete, .poll_complete])).value.map
      (·.sender.pending) = some [0, 1] := by
  refine ⟨?_, by decide, by decide, by decide⟩
  intro recovers
  obtain ⟨h, reached, fails⟩ := two_sent_fails
  obtain ⟨reported, polled⟩ := fails.poll
  obtain ⟨done, queue, _, _⟩ := fails
  have stepped : h.step .release messages .poll_complete = _ := step_poll polled
  have gone := recovers two_sent .poll_complete [] rfl h reached 0 {} done [1] _
    (by rw [stepped]; simp) queue (by rw [stepped])
  exact gone.removed (.head _)

end Sink

end ConnectScrobbler.Mercury
