import ConnectScrobbler.Spirc

/-! What a device says: hello, an answer to each hello that it takes, and goodbye. A talk reads
the log of a device and refuses what should not happen. -/
namespace ConnectScrobbler

/-- What a frame says, and to whom; nobody is everybody. -/
def Frame.shape (frame : Frame) : MessageType × List String := (frame.get_typ, frame.recipient)

namespace SpircEffect

/-- Whom a device with this ident owes an answer. -/
def greeted (ident : String) : SpircEffect → List String
  | .handle_frame frame =>
    if frame.get_ident ≠ ident ∧ (frame.recipient = [] ∨ ident ∈ frame.recipient) ∧
        frame.get_typ = .Hello then [frame.get_ident]
    else []
  | _ => []

def sent : SpircEffect → List Frame
  | .start_send frame => [frame]
  | _ => []

def closes : SpircEffect → Bool
  | .handle_command _ => true
  | _ => false

def requested : SpircEffect → List (Bytes × Nat)
  | .sender (.request item task) => [(item, task)]
  | _ => []

def answered : SpircEffect → List Nat
  | .sender (.answer task (.ok _)) => [task]
  | _ => []

end SpircEffect

def answer (greeter : String) : MessageType × List String := (.Notify, [greeter])

/-- What a device has to say, given all that it has handled. -/
def script (ident : String) (log : List SpircEffect) : List (MessageType × List String) :=
  (.Hello, []) :: (log.flatMap (·.greeted ident)).map answer ++
    if log.any (·.closes) then [(.Goodbye, [])] else []

/-- What is still to be said, and how far it has come on its way. -/
structure Talk where
  owed : List (MessageType × List String)
  sent : Nat
  closed : Bool
  held : List Bytes
  waiting : List Nat
  deriving DecidableEq, Repr

namespace Talk

def start : Talk := ⟨[(.Hello, [])], 0, false, [], []⟩

def allow (format : FrameFormat) (ident : String) (k : Talk) : SpircEffect → Option Talk
  | .handle_frame frame =>
    if k.owed = [] ∧ k.closed = false then
      some { k with owed := ((SpircEffect.handle_frame frame).greeted ident).map answer }
    else none
  | .handle_command _ =>
    if k.owed = [] ∧ k.closed = false then some { k with owed := [(.Goodbye, [])], closed := true }
    else none
  | .start_send frame =>
    if k.owed = [frame.shape] ∧ frame.seq_nr = some (BitVec.ofNat 32 (k.sent + 1)) then
      some { k with
        owed := []
        sent := k.sent + 1
        held := k.held ++ [format.write_to_bytes frame] }
    else none
  | .sender (.request item task) =>
    if k.held.head? = some item then
      some { k with held := k.held.tail, waiting := k.waiting ++ [task] }
    else none
  | .sender (.answer task (.ok _)) =>
    if k.waiting.head? = some task then some { k with waiting := k.waiting.tail } else none
  | .returned (.ready _) =>
    if k.owed = [] ∧ k.closed = true ∧ k.held = [] ∧ k.waiting = [] then some k else none
  | .sender (.answer _ (.error _)) => some k
  | .sender (.mercury _) => some k
  | .mercury _ => some k
  | .scrobbler _ => some k
  | .scrobbler_error => some k
  | .returned .notReady => some k

/-- What was to be said and is new to say is what has been said and is still to say; likewise
on the way to the requests, and from there to the answers. -/
structure Balance (format : FrameFormat) (ident : String) (k : Talk) (e : SpircEffect) (k' : Talk) :
    Prop where
  going : k.closed = true → e.greeted ident = [] ∧ e.closes = false
  owed : k.owed ++ ((e.greeted ident).map answer ++ if e.closes then [(.Goodbye, [])] else []) =
    e.sent.map Frame.shape ++ k'.owed
  closed : k'.closed = (k.closed || e.closes)
  numbered : (List.range k.sent).map (fun n => some (BitVec.ofNat 32 (n + 1))) ++
    e.sent.map Frame.seq_nr = (List.range k'.sent).map fun n => some (BitVec.ofNat 32 (n + 1))
  held : k.held ++ e.sent.map format.write_to_bytes = e.requested.map Prod.fst ++ k'.held
  waiting : k.waiting ++ e.requested.map Prod.snd = e.answered ++ k'.waiting

variable {format : FrameFormat} {ident : String} {log : List SpircEffect} {k k' : Talk}
  {e : SpircEffect}

/-- Most entries are nothing that the talk keeps account of. -/
theorem balance_other (greeted : e.greeted ident = []) (sent : e.sent = []) (closes : e.closes = false)
    (requested : e.requested = []) (answered : e.answered = []) : Balance format ident k e k := by
  constructor <;> simp [greeted, sent, closes, requested, answered]

theorem allow_balance (taken : allow format ident k e = some k') : Balance format ident k e k' := by
  unfold allow at taken
  split at taken
  · rename_i frame
    split at taken
    · rename_i resting
      cases taken
      constructor <;> simp [resting, SpircEffect.closes, SpircEffect.sent, SpircEffect.requested,
        SpircEffect.answered]
    · cases taken
  · split at taken
    · rename_i resting
      cases taken
      constructor <;> simp [resting, SpircEffect.greeted, SpircEffect.closes, SpircEffect.sent,
        SpircEffect.requested, SpircEffect.answered]
    · cases taken
  · split at taken
    · rename_i due
      cases taken
      constructor <;> simp [due, SpircEffect.greeted, SpircEffect.closes, SpircEffect.sent,
        SpircEffect.requested, SpircEffect.answered, List.range_succ]
    · cases taken
  · split at taken
    · rename_i held
      cases taken
      have next := List.cons_head?_tail held
      constructor <;> simp [next, SpircEffect.greeted, SpircEffect.closes, SpircEffect.sent,
        SpircEffect.requested, SpircEffect.answered]
    · cases taken
  · split at taken
    · rename_i waiting
      cases taken
      have next := List.cons_head?_tail waiting
      constructor <;> simp [next, SpircEffect.greeted, SpircEffect.closes, SpircEffect.sent,
        SpircEffect.requested, SpircEffect.answered]
    · cases taken
  · split at taken
    · cases taken
      exact balance_other rfl rfl rfl rfl rfl
    · cases taken
  all_goals
    cases taken
    exact balance_other rfl rfl rfl rfl rfl

/-- A log and where the talk stands after it. -/
structure Explains (format : FrameFormat) (ident : String) (log : List SpircEffect) (k : Talk) :
    Prop where
  said : script ident log = (log.flatMap (·.sent)).map Frame.shape ++ k.owed
  closed : k.closed = log.any (·.closes)
  numbered : (log.flatMap (·.sent)).map Frame.seq_nr =
    (List.range k.sent).map fun n => some (BitVec.ofNat 32 (n + 1))
  carried : (log.flatMap (·.sent)).map format.write_to_bytes =
    (log.flatMap (·.requested)).map Prod.fst ++ k.held
  awaited : (log.flatMap (·.requested)).map Prod.snd = log.flatMap (·.answered) ++ k.waiting

theorem explains_start : Explains format ident [] start := ⟨rfl, rfl, rfl, rfl, rfl⟩

/-- What is new goes to the end of the script as long as the goodbye is not there. -/
theorem script_snoc (going : log.any (·.closes) = true → e.greeted ident = [] ∧ e.closes = false) :
    script ident (log ++ [e]) = script ident log ++
      ((e.greeted ident).map answer ++ if e.closes then [(.Goodbye, [])] else []) := by
  simp only [script, List.flatMap_append, List.flatMap_singleton, List.map_append, List.any_append,
    List.any_cons, List.any_nil, Bool.or_false]
  cases closed : log.any (·.closes) with
  | false => simp
  | true =>
    obtain ⟨greeted, closes⟩ := going closed
    simp [greeted, closes]

theorem Explains.snoc (explains : Explains format ident log k)
    (balance : Balance format ident k e k') : Explains format ident (log ++ [e]) k' := by
  obtain ⟨said, closed, numbered, carried, awaited⟩ := explains
  constructor
  · rw [script_snoc (closed ▸ balance.going), said, List.append_assoc, balance.owed]
    simp
  · rw [balance.closed, closed]
    simp
  · rw [← balance.numbered, ← numbered]
    simp
  · rw [List.flatMap_append, List.flatMap_singleton, List.map_append, carried, List.append_assoc,
      balance.held]
    simp
  · rw [List.flatMap_append, List.flatMap_singleton, List.map_append, awaited, List.append_assoc,
      balance.waiting]
    simp

theorem explained (accepted : Call.observe (allow format ident) start log = some k) :
    Explains format ident log k := by
  induction log using List.reverseRecOn generalizing k with
  | nil =>
    cases accepted
    exact explains_start
  | append_singleton log e ih =>
    obtain ⟨j, _, before, taken, done⟩ := Call.observe_at accepted
    cases done
    exact (ih before).snoc (allow_balance taken)

end Talk

end ConnectScrobbler
