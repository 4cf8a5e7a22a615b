import ConnectScrobbler.Core.Mercury.Threads

/-! Responses find their requests, whatever the threads do: what the stages give
for every run, in terms of the log alone. -/
namespace ConnectScrobbler.Mercury

open Bytes (be)
open MercuryPending (of)
open Packet (head parse take_in)
open Call (Follows)

variable {build : Build} {protobuf : Protobuf}

def begins : List Turn → Nat
  | [] => 0
  | .begin _ :: turns => begins turns + 1
  | _ :: turns => begins turns

def stage (k : Nat) (log : List Effect) : Stage :=
  log.foldl (Stage.after k) .unsent

theorem observe_judge {stages stages' : Nat → Stage} {log : List Effect}
    (accepted : Call.observe (judge build protobuf) stages log = some stages') :
    ∀ k, stages' k = log.foldl (Stage.after k) (stages k) := by
  induction log generalizing stages with
  | nil => cases accepted; exact fun _ => rfl
  | cons e log ih =>
    obtain ⟨next, taken, rest⟩ := Option.bind_eq_some_iff.mp accepted
    intro k
    unfold judge at taken
    split at taken
    · cases taken
      exact ih rest k
    · cases taken

theorem Threads.run_follows (protobuf : Protobuf) {w : Threads} {stages : Nat → Stage} {n : Nat}
    (h : w.Agrees build stages n) (turns : List Turn) (few : n + begins turns ≤ 2 ^ 64) :
    Follows (judge build protobuf) stages (Call.run (Threads.step build protobuf) w turns)
      fun w stages => w.Agrees build stages (n + begins turns) := by
  induction turns generalizing w stages n with
  | nil => exact Call.follows_pure h
  | cons turn turns ih =>
    cases turn with
    | begin req =>
      rw [begins, Nat.add_comm (begins turns), ← Nat.add_assoc] at few ⊢
      exact Call.follows_bind (Call.follows_weaken (Threads.begin_follows h (by omega) req)
        fun _ _ h => ih h few)
    | caller tx connected =>
      exact Call.follows_bind (Call.follows_weaken (Threads.caller_follows h tx connected)
        fun _ _ h => ih h few)
    | dispatcher =>
      exact Call.follows_bind (Call.follows_weaken (Threads.dispatcher_follows h)
        fun _ _ h => ih h few)

theorem Threads.start_agrees (build : Build) {inbox : List (UInt8 × Bytes)}
    (responses : ∀ packet ∈ inbox, packet.1 ≠ 0xb5) :
    (Threads.start inbox).Agrees build (fun _ => .unsent) 0 :=
  ⟨⟨rfl, rfl, fun _ => by decide⟩, by decide, fun _ _ => rfl, nofun, fun _ _ => rfl, nofun, nofun,
    nofun, nofun, responses⟩

theorem Threads.run_accepted (build : Build) (protobuf : Protobuf) {inbox : List (UInt8 × Bytes)}
    (responses : ∀ packet ∈ inbox, packet.1 ≠ 0xb5) {turns : List Turn}
    (few : begins turns ≤ 2 ^ 64) :
    Follows (judge build protobuf) (fun _ => .unsent) (Threads.run build protobuf inbox turns)
      fun w stages => w.Agrees build stages (begins turns) := by
  have follows := Threads.run_follows protobuf (Threads.start_agrees build responses) turns
    (by rwa [Nat.zero_add])
  rwa [Nat.zero_add] at follows

theorem Threads.run_correct {inbox : List (UInt8 × Bytes)}
    (responses : ∀ packet ∈ inbox, packet.1 ≠ 0xb5) {turns : List Turn}
    (few : begins turns ≤ 2 ^ 64) {earlier later : List Effect} {e : Effect}
    (cut : (Threads.run build protobuf inbox turns).log = earlier ++ e :: later) :
    Correct build protobuf (fun k => stage k earlier) e := by
  obtain ⟨stages, accepted, _⟩ := Threads.run_accepted build protobuf responses few
  rw [cut] at accepted
  obtain ⟨before, after, reached, taken, _⟩ := Call.observe_at accepted
  have here : before = fun k => stage k earlier := funext (observe_judge reached)
  unfold judge at taken
  split at taken
  · rw [← here]; assumption
  · cases taken

def own_packet (k : Nat) : Effect → Option Packet
  | .receive _ data => (parse data).filter fun p => p.seq = be 8 k
  | _ => none

def own_packets (k : Nat) (log : List Effect) : List Packet :=
  log.filterMap (own_packet k)

/-- The packets for request `k` since it has its entry. -/
def carried (k : Nat) : List Effect → List Packet
  | [] => []
  | .insert _ callback :: rest => if callback = some k then own_packets k rest else carried k rest
  | _ :: rest => carried k rest

def entered (k : Nat) (log : List Effect) : Bool :=
  log.any fun
    | .insert _ callback => callback = some k
    | _ => false

theorem stage_snoc (k : Nat) (log : List Effect) (e : Effect) :
    stage k (log ++ [e]) = (stage k log).after k e := by
  rw [stage, List.foldl_append]
  rfl

theorem own_packets_append (k : Nat) (log rest : List Effect) :
    own_packets k (log ++ rest) = own_packets k log ++ own_packets k rest :=
  List.filterMap_append ..

theorem carried_snoc (k : Nat) (log : List Effect) (e : Effect) :
    carried k (log ++ [e]) =
      if entered k log then carried k log ++ own_packets k [e] else [] := by
  induction log with
  | nil => cases e <;> simp [carried, entered, own_packets]
  | cons e' log ih =>
    cases e' with
    | insert seq callback =>
      by_cases same : callback = some k
      · simp [carried, entered, same, own_packets_append]
      · simpa [carried, entered, same] using ih
    | _ => simpa [carried, entered] using ih

theorem entered_snoc (k : Nat) (log : List Effect) (e : Effect) :
    entered k (log ++ [e]) = (entered k log || entered k [e]) :=
  List.any_append

/-- What a stage tells of the log: what is waited for or held is the assembly of
the packets carried since the entry was made. -/
def Told (k : Nat) (log : List Effect) : Stage → Prop
  | .unsent => entered k log = false
  | .waiting x => entered k log = true ∧ x = (carried k log).foldl take_in .empty
  | .held x final => entered k log = true ∧ x = (carried k log).foldl take_in .empty ∧
      ∃ packets last, carried k log = packets ++ [last] ∧ final = decide (last.flags = 1)
  | .answered => entered k log = true ∧ ∃ result, .complete k result ∈ log

theorem Told.unchanged {k : Nat} {log : List Effect} {s : Stage} {e : Effect}
    (told : Told k log s) (no_entry : entered k [e] = false) (no_packet : own_packets k [e] = []) :
    Told k (log ++ [e]) s := by
  have carries : entered k log = true → carried k (log ++ [e]) = carried k log := by
    intro there
    rw [carried_snoc, if_pos there, no_packet, List.append_nil]
  have enters : entered k (log ++ [e]) = entered k log := by
    rw [entered_snoc, no_entry, Bool.or_false]
  cases s with
  | unsent => exact enters.trans told
  | waiting x => exact ⟨enters.trans told.1, by rw [carries told.1]; exact told.2⟩
  | held x final =>
    refine ⟨enters.trans told.1, ?_⟩
    rw [carries told.1]
    exact told.2
  | answered =>
    obtain ⟨there, result, member⟩ := told
    exact ⟨enters.trans there, result, List.mem_append_left _ member⟩

theorem Told.received {k : Nat} {log : List Effect} {s : Stage} {cmd : UInt8} {data : Bytes}
    {p : Packet} (told : Told k log s) (parsed : parse data = some p) (own : p.seq = be 8 k) :
    Told k (log ++ [.receive cmd data]) (s.received p) := by
  have packet : own_packets k [.receive cmd data] = [p] :=
    List.filterMap_cons_some (by simp [own_packet, parsed, own])
  have carries : entered k log = true →
      carried k (log ++ [.receive cmd data]) = carried k log ++ [p] := by
    intro there
    rw [carried_snoc, if_pos there, packet]
  have enters : entered k (log ++ [.receive cmd data]) = entered k log :=
    (entered_snoc ..).trans (Bool.or_false _)
  have takes : ∀ x, x = (carried k log).foldl take_in .empty →
      take_in x p = (carried k log ++ [p]).foldl take_in .empty := by
    rintro x rfl
    rw [List.foldl_append]
    rfl
  cases s with
  | unsent => exact enters.trans told
  | waiting x =>
    refine ⟨enters.trans told.1, ?_⟩
    rw [carries told.1]
    exact ⟨takes x told.2, _, p, rfl, rfl⟩
  | held x final =>
    refine ⟨enters.trans told.1, ?_⟩
    rw [carries told.1]
    exact ⟨takes x told.2.1, _, p, rfl, rfl⟩
  | answered =>
    obtain ⟨there, result, member⟩ := told
    exact ⟨enters.trans there, result, List.mem_append_left _ member⟩

theorem Told.entered {k : Nat} {log : List Effect} {s : Stage} (seq : Bytes) (told : Told k log s) :
    Told k (log ++ [.insert seq (some k)]) s.entered := by
  have carries : Mercury.entered k log = true →
      carried k (log ++ [.insert seq (some k)]) = carried k log := by
    intro there
    rw [carried_snoc, if_pos there]
    exact List.append_nil _
  have enters : Mercury.entered k (log ++ [.insert seq (some k)]) = true := by
    rw [entered_snoc]
    simp [Mercury.entered]
  cases s with
  | unsent =>
    refine ⟨enters, ?_⟩
    rw [carried_snoc, if_neg (by rw [show Mercury.entered k log = false from told]; nofun)]
    rfl
  | waiting x => exact ⟨enters, by rw [carries told.1]; exact told.2⟩
  | held x final => exact ⟨enters, by rw [carries told.1]; exact told.2.1⟩
  | answered =>
    obtain ⟨_, result, member⟩ := told
    exact ⟨enters, result, List.mem_append_left _ member⟩

theorem stage_told (k : Nat) (log : List Effect) : Told k log (stage k log) := by
  induction log using List.reverseRecOn with
  | nil => rfl
  | append_singleton log e told =>
    rw [stage_snoc]
    cases e with
    | insert seq callback =>
      by_cases own : callback = some k
      · subst own
        rw [Stage.after, if_pos rfl]
        exact told.entered seq
      · rw [Stage.after, if_neg own]
        exact told.unchanged (by simp [entered, own]) rfl
    | receive cmd data =>
      cases parsed : parse data with
      | none =>
        simp only [Stage.after, parsed]
        exact told.unchanged rfl (by simp [own_packets, own_packet, parsed])
      | some p =>
        by_cases own : p.seq = be 8 k
        · simp only [Stage.after, parsed, if_pos own]
          exact told.received parsed own
        · simp only [Stage.after, parsed, if_neg own]
          exact told.unchanged rfl (by simp [own_packets, own_packet, parsed, own])
    | complete callback result =>
      have kept := told.unchanged (e := .complete callback result) rfl rfl
      by_cases own : callback = k
      · subst own
        rw [Stage.after, if_pos rfl]
        generalize stage callback log = s at kept
        cases s with
        | held x final => exact ⟨kept.1, result, List.mem_append_right _ (.head _)⟩
        | _ => exact kept
      · rw [Stage.after, if_neg own]
        exact kept
    | _ => exact told.unchanged rfl rfl

theorem answered_after (k : Nat) (e : Effect) : Stage.answered.after k e = .answered := by
  cases e with
  | insert _ callback => exact ite_self _
  | receive _ data =>
    simp only [Stage.after]
    split
    · exact ite_self _
    · rfl
  | complete => exact ite_self _
  | _ => rfl

theorem completes_once {stages stages' : Nat → Stage} {log : List Effect}
    (accepted : Call.observe (judge build protobuf) stages log = some stages') (k : Nat) :
    log.countP (completes k) ≤ if stages k = .answered then 0 else 1 := by
  induction log generalizing stages with
  | nil => exact Nat.zero_le _
  | cons e log ih =>
    obtain ⟨next, taken, rest⟩ := Option.bind_eq_some_iff.mp accepted
    have later := ih rest
    unfold judge at taken
    split at taken
    · rename_i correct
      cases taken
      rw [List.countP_cons]
      by_cases answered : stages k = .answered
      · have still : (stages k).after k e = .answered := by rw [answered, answered_after]
        rw [if_pos still] at later
        have other : completes k e = false := by
          cases e with
          | complete callback result =>
            obtain ⟨x, _, holds, _⟩ := correct
            by_cases own : callback = k
            · rw [← own, holds] at answered
              cases answered
            · exact beq_false_of_ne own
          | _ => rfl
        rw [if_pos answered, other]
        exact later
      · rw [if_neg answered]
        cases own : completes k e with
        | false => exact Nat.le_trans later (by split <;> decide)
        | true =>
          have done : (stages k).after k e = .answered := by
            cases e with
            | complete callback result =>
              obtain ⟨x, _, holds, _⟩ := correct
              have same : callback = k := beq_iff_eq.mp own
              rw [same] at holds
              rw [holds, Stage.after, if_pos same]
              rfl
            | _ => cases own
          rw [if_pos done] at later
          exact Nat.add_le_add_right later 1
    · cases taken

/-- What a log shows of requests and responses that find each other. -/
structure Correlated (build : Build) (protobuf : Protobuf) (log : List Effect) : Prop where
  /-- No request is completed twice. -/
  once : ∀ k, log.countP (completes k) ≤ 1
  /-- A request is completed on a final packet of its own, with what its own packets carried. -/
  own : ∀ {earlier later k result}, log = earlier ++ .complete k result :: later →
    (∃ packets last, carried k earlier = packets ++ [last] ∧ last.flags = 1) ∧
    ∃ response, result = answer response ∧
      (of ((carried k earlier).foldl take_in .empty) (some k)).response protobuf = some response
  /-- No request is canceled. -/
  open_ : ∀ k, .cancel k ∉ log
  /-- What is sent is a request that has its entry. -/
  entered : ∀ {earlier later cmd data}, log = earlier ++ .send_packet cmd data :: later →
    ∃ k, ∃ req : MercuryRequest, req.encode build protobuf (be 8 k) = some data ∧
      entered k earlier = true
  /-- A response is ignored only if its request has no entry yet or is completed. -/
  answered : ∀ {earlier later k cmd}, log = earlier ++ .ignore_seq (be 8 k) cmd :: later →
    Mercury.entered k earlier = true → ∃ result, .complete k result ∈ earlier

theorem Threads.run_correlated {inbox : List (UInt8 × Bytes)}
    (responses : ∀ packet ∈ inbox, packet.1 ≠ 0xb5) {turns : List Turn}
    (few : begins turns ≤ 2 ^ 64) :
    Correlated build protobuf (Threads.run build protobuf inbox turns).log := by
  have correct := @Threads.run_correct build protobuf inbox responses turns few
  obtain ⟨_, accepted, _⟩ := Threads.run_accepted build protobuf responses few
  refine ⟨fun k => completes_once accepted k, ?_, ?_, ?_, ?_⟩
  · intro earlier later k result cut
    obtain ⟨x, response, holds, whole, rfl⟩ := correct cut
    have told : Told k earlier (.held x true) := holds ▸ stage_told k earlier
    obtain ⟨_, rfl, packets, last, carries, final⟩ := told
    exact ⟨⟨packets, last, carries, of_decide_eq_true final.symm⟩, response, rfl, whole⟩
  · intro k member
    obtain ⟨earlier, later, cut⟩ := List.append_of_mem member
    exact correct cut
  · intro earlier later cmd data cut
    obtain ⟨k, req, sent, encoded⟩ := correct cut
    refine ⟨k, req, encoded, ?_⟩
    have told := stage_told k earlier
    cases here : stage k earlier with
    | unsent => exact absurd here sent
    | _ => rw [here] at told; exact told.1
  · intro earlier later k cmd cut there
    rcases correct cut k rfl with here | here
    · have told : Told k earlier .unsent := here ▸ stage_told k earlier
      rw [show Mercury.entered k earlier = false from told] at there
      cases there
    · have told : Told k earlier .answered := here ▸ stage_told k earlier
      exact told.2

theorem Threads.run_answered {inbox : List (UInt8 × Bytes)}
    (responses : ∀ packet ∈ inbox, packet.1 ≠ 0xb5) {turns : List Turn}
    (few : begins turns ≤ 2 ^ 64) {k : Nat} {result : Except MercuryError MercuryResponse}
    (completed : .complete k result ∈ (Threads.run build protobuf inbox turns).log) :
    stage k (Threads.run build protobuf inbox turns).log = .answered := by
  obtain ⟨earlier, later, cut⟩ := List.append_of_mem completed
  obtain ⟨x, _, holds, _⟩ := Threads.run_correct responses few cut
  have holds : stage k earlier = .held x true := holds
  have stays : ∀ log, List.foldl (Stage.after k) .answered log = .answered := by
    intro log
    induction log with
    | nil => rfl
    | cons e log ih => rw [List.foldl_cons, answered_after, ih]
  rw [cut, stage, List.foldl_append, List.foldl_cons, ← stage, holds, Stage.after, if_pos rfl]
  exact stays later

/-- This turn is about something else than request `k`. -/
def Threads.Elsewhere (w : Threads) (k : Nat) : Turn → Prop
  | .begin _ => True
  | .caller tx _ => tx ≠ k
  | .dispatcher =>
    match w.held, w.inbox with
    | some held, _ => held.seq ≠ be 8 k
    | none, (_, data) :: _ => ∀ seq flags count rest,
      head data = some (seq, flags, count, rest) → seq ≠ be 8 k
    | none, [] => True

theorem Threads.Agrees.elsewhere {w w' : Threads} {stages : Nat → Stage} {n k : Nat}
    (h : w.Agrees build stages n) (below : k < n) {turn : Turn} (elsewhere : w.Elsewhere k turn)
    (returned : (w.step build protobuf turn).value = some w') :
    w'.manager.pending (be 8 k) = w.manager.pending (be 8 k) := by
  cases turn with
  | begin req =>
    obtain ⟨⟨seq, m⟩, numbered, done⟩ := Call.bind_returns.mp returned
    obtain ⟨_, _, _, _, rfl⟩ := MercuryManager.next_seq_returns numbered
    cases done
    rfl
  | caller tx connected =>
    unfold step caller at returned
    simp only at returned
    split at returned
    · rename_i req seq call
      obtain ⟨small, rfl, _⟩ := h.begun tx req seq call
      obtain ⟨m, inserted, done⟩ := Call.bind_returns.mp returned
      obtain ⟨_, rfl⟩ := MercuryManager.insert_returns inserted
      cases done
      refine Function.update_of_ne (fun same => elsewhere ?_) ..
      exact (be_inj (Nat.lt_of_lt_of_le below h.few) (Nat.lt_of_lt_of_le small h.few) same).symm
    · split at returned
      · split at returned <;> cases returned <;> rfl
      · cases returned; rfl
    · cases returned; rfl
  | dispatcher =>
    unfold step dispatcher at returned
    unfold Elsewhere at elsewhere
    cases holding : w.held with
    | some held =>
      simp only [holding] at returned elsewhere
      obtain ⟨m, concluded, done⟩ := Call.bind_returns.mp returned
      obtain ⟨_, _, _, rfl, rfl⟩ := MercuryManager.conclude_returns concluded
      cases done
      show (if held.flags = 1 then w.manager.pending else _) (be 8 k) = _
      split
      · rfl
      · exact Function.update_of_ne elsewhere.symm ..
    | none =>
      cases arrived : w.inbox with
      | nil =>
        simp only [holding, arrived] at returned
        cases returned
        rfl
      | cons packet inbox =>
        obtain ⟨cmd, data⟩ := packet
        simp only [holding, arrived] at returned elsewhere
        rcases MercuryManager.receive_cases cmd data w.manager with
          panics | ⟨_, _, _, _, _, _, _, ignored⟩ | ⟨p, x, callback, parsed, _, taken⟩
        · rw [panics] at returned
          cases returned
        · rw [ignored] at returned
          cases returned
          rfl
        · rw [taken] at returned
          cases returned
          obtain ⟨count, rest, opened⟩ := Packet.parse_head parsed
          exact Function.update_of_ne (elsewhere _ _ _ _ opened).symm ..

/-- The requests and responses of every run find each other: whatever threads call
`request`, fewer than 2^64 times, and whatever packets but events come in. In a
state that is reached the entry of a request holds what its own packets carried,
a turn about something else leaves it alone, and a packet for a sequence that is
unknown or done with changes nothing. -/
theorem requests_correlated {inbox : List (UInt8 × Bytes)}
    (responses : ∀ packet ∈ inbox, packet.1 ≠ 0xb5) {turns : List Turn}
    (few : begins turns ≤ 2 ^ 64) :
    Correlated build protobuf (Threads.run build protobuf inbox turns).log ∧
    ∀ w, (Threads.run build protobuf inbox turns).value = some w →
      (∀ k < begins turns, ∀ pending, w.manager.pending (be 8 k) = some pending → pending =
        of ((carried k (Threads.run build protobuf inbox turns).log).foldl take_in .empty) (some k)) ∧
      (∀ k < begins turns, ∀ turn w', w.Elsewhere k turn →
        (w.step build protobuf turn).value = some w' →
        w'.manager.pending (be 8 k) = w.manager.pending (be 8 k)) ∧
      (∀ cmd data later seq flags count rest, w.held = none → w.inbox = (cmd, data) :: later →
        head data = some (seq, flags, count, rest) →
        (∀ k, seq = be 8 k → entered k (Threads.run build protobuf inbox turns).log = false ∨
          ∃ result, .complete k result ∈ (Threads.run build protobuf inbox turns).log) →
        w.dispatcher protobuf =
          ⟨[.receive cmd data, .ignore_seq seq cmd], some { w with inbox := later }⟩) := by
  refine ⟨Threads.run_correlated responses few, fun w reached => ?_⟩
  obtain ⟨stages, accepted, h⟩ := (Threads.run_accepted build protobuf responses few).returned reached
  have here : ∀ k, stages k = stage k (Threads.run build protobuf inbox turns).log :=
    observe_judge accepted
  refine ⟨fun k below pending entry => ?_, fun k below turn w' elsewhere returned =>
    h.elsewhere below elsewhere returned, ?_⟩
  · rw [h.entries k below] at entry
    have told := stage_told k (Threads.run build protobuf inbox turns).log
    rw [← here k] at told
    cases waits : stages k with
    | waiting x =>
      rw [waits] at told entry
      obtain ⟨_, rfl⟩ := told
      exact (Option.some.inj entry).symm
    | _ => rw [waits] at entry; cases entry
  · intro cmd data later seq flags count rest idle arrived opened finished
    have free : w.manager.pending seq = none := by
      by_contra there
      obtain ⟨k, below, own⟩ : ∃ k < begins turns, seq = be 8 k := by
        by_contra none_own
        exact there (h.others seq fun k below own => none_own ⟨k, below, own⟩)
      rw [own, h.entries k below, here k] at there
      have told := stage_told k (Threads.run build protobuf inbox turns).log
      rcases finished k own with unsent | ⟨result, completed⟩
      · cases waits : stage k (Threads.run build protobuf inbox turns).log with
        | waiting x => rw [waits] at told; rw [told.1] at unsent; cases unsent
        | _ => rw [waits] at there; exact there rfl
      · rw [Threads.run_answered responses few completed] at there
        exact there rfl
    have response : cmd ≠ 0xb5 := h.inbox (cmd, data) (by rw [arrived]; exact .head _)
    rw [Threads.dispatcher, idle, arrived]
    simp only [MercuryManager.receive_unknown opened free response]
    rw [← idle]
    rfl

/-! Two calls between each other, answered in the other order and one of them twice. -/

def response_to (k : Nat) : UInt8 × Bytes :=
  (0xb2, (Packet.carrying (be 8 k) (.final, [ok_header, [UInt8.ofNat k]])).encode)

def crossing : List Turn :=
  [.begin ⟨.GET, "u", none, []⟩, .begin ⟨.GET, "v", none, []⟩, .caller 1 true, .caller 1 true,
    .dispatcher, .caller 0 true, .dispatcher, .caller 0 true, .dispatcher, .dispatcher, .dispatcher]

theorem crossing_correlated :
    .complete 0 (.ok ⟨"", 200, [[0]]⟩) ∈ (Threads.run .release messages
      [response_to 1, response_to 1, response_to 0] crossing).log ∧
    Correlated .release messages (Threads.run .release messages
      [response_to 1, response_to 1, response_to 0] crossing).log := by
  refine ⟨by decide, (requests_correlated (fun packet member => ?_) (by decide)).1⟩
  have commands : ∀ packet ∈ [response_to 1, response_to 1, response_to 0], packet.1 ≠ 0xb5 := by
    decide
  exact commands packet member

end ConnectScrobbler.Mercury
