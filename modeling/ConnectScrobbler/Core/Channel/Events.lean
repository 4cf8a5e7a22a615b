import ConnectScrobbler.Core.Channel.Stream
import ConnectScrobbler.Lib.Call

/-! A channel that is polled while its packets arrive. -/
namespace ConnectScrobbler.Channel

/-- The next packet arrives, or the owner polls the channel. -/
inductive Turn where
  | arrive | poll
  deriving DecidableEq, Repr

/-- A channel with the packets that have not arrived; its owner polls it until the end. -/
structure Reader where
  channel : Channel
  left : List Bytes
  done : Bool
  deriving DecidableEq, Repr

def ends : Poll (Option ChannelEvent) ChannelError → Bool
  | .ok (.ready none) => true
  | _ => false

/-- What the polls of a log came to, but for those that were not ready. -/
def yields (log : List (Poll (Option ChannelEvent) ChannelError)) : List (Option ChannelEvent) :=
  log.filterMap fun result =>
    match result with
    | .ok (.ready event) => some event
    | _ => none

namespace Reader

def step (r : Reader) : Turn → Call (Poll (Option ChannelEvent) ChannelError) Reader
  | .arrive =>
    match r.left with
    | [] => return r
    | packet :: left =>
      return { r with
        channel := { r.channel with receiver := r.channel.receiver.send (0x9, packet) }
        left }
  | .poll =>
    if r.done then return r
    else do
      let (result, channel) ← Call.unwrap r.channel.poll
      Call.emit result
      return { r with channel, done := ends result }

def start (packets : List Bytes) : Reader := ⟨.new, packets, false⟩

def run (packets : List Bytes) (turns : List Turn) :
    Call (Poll (Option ChannelEvent) ChannelError) Reader :=
  Call.run step (start packets) turns

end Reader

@[simp] theorem yields_append (log rest : List (Poll (Option ChannelEvent) ChannelError)) :
    yields (log ++ rest) = yields log ++ yields rest :=
  List.filterMap_append

/-- What the owner has still to hear, with the end of the channel. -/
inductive Untold (r : Reader) : List (Option ChannelEvent) → Prop
  | playing {events : List ChannelEvent} (going : r.done = false)
      (playing : Playing r.left r.channel events) : Untold r (events.map some ++ [none])
  | nothing (done : r.done = true) : Untold r []

variable {r r' : Reader} {untold : List (Option ChannelEvent)}

theorem Playing.arrive {packet : Bytes} {left : List Bytes} {channel : Channel}
    {events : List ChannelEvent} (playing : Playing (packet :: left) channel events) :
    Playing left { channel with receiver := channel.receiver.send (0x9, packet) } events := by
  obtain ⟨connected, taking, sound, plays⟩ := playing
  have sent : channel.receiver.send (0x9, packet) =
      { channel.receiver with queue := channel.receiver.queue ++ [(0x9, packet)] } := if_pos taking
  rw [sent]
  refine ⟨connected, taking, ?_, by simpa using plays⟩
  intro other member
  obtain queued | new := List.mem_append.mp member
  · exact sound other queued
  · rw [List.mem_singleton.mp new]

theorem arrive_untold (h : Untold r untold) :
    ∃ r', r.step .arrive = ⟨[], some r'⟩ ∧ r'.left = r.left.tail ∧ Untold r' untold := by
  obtain ⟨channel, left, done⟩ := r
  cases left with
  | nil => exact ⟨_, rfl, rfl, h⟩
  | cons packet left =>
    refine ⟨_, rfl, rfl, ?_⟩
    cases h with
    | playing going playing => exact .playing going playing.arrive
    | nothing done => exact .nothing done

/-- What a poll tells is the next event, or it waits for a packet that has not arrived. -/
theorem poll_untold (h : Untold r untold) :
    ∃ r' later, (r.step .poll).value = some r' ∧ r'.left = r.left ∧ Untold r' later ∧
      untold = yields (r.step .poll).log ++ later ∧
      (∀ result ∈ (r.step .poll).log, result ≠ .error {}) ∧
      (r.left = [] → later.length = untold.length - 1) := by
  obtain ⟨channel, left, done⟩ := r
  cases h with
  | nothing done =>
    simp only at done
    subst done
    exact ⟨_, [], rfl, rfl, .nothing rfl, rfl, by simp [Reader.step], fun _ => rfl⟩
  | @playing events going playing =>
    simp only at going
    subst going
    have outcome := playing.outcome
    generalize polled : channel.poll = result at outcome
    simp only [Reader.step, polled]
    cases outcome with
    | @waits _ channel' _ coming further =>
      exact ⟨⟨channel', left, false⟩, _, rfl, rfl, .playing rfl further, rfl, by simp,
        fun none => absurd none coming⟩
    | @header id data _ channel' _ further =>
      exact ⟨⟨channel', left, false⟩, _, rfl, rfl, .playing rfl further, rfl, by simp, fun _ => rfl⟩
    | @data data _ channel' _ further =>
      exact ⟨⟨channel', left, false⟩, _, rfl, rfl, .playing rfl further, rfl, by simp, fun _ => rfl⟩
    | @through channel' _ _ _ =>
      exact ⟨⟨channel', left, true⟩, [], rfl, rfl, .nothing rfl, rfl, by simp, fun _ => rfl⟩

/-- A run tells its events in order, without an error or a panic. -/
theorem run_untold (h : Untold r untold) (turns : List Turn) :
    ∃ r' later, (Call.run Reader.step r turns).value = some r' ∧
      r'.left = r.left.drop (turns.count .arrive) ∧ Untold r' later ∧
      untold = yields (Call.run Reader.step r turns).log ++ later ∧
      ∀ result ∈ (Call.run Reader.step r turns).log, result ≠ .error {} := by
  induction turns generalizing r untold with
  | nil => exact ⟨r, untold, rfl, rfl, h, rfl, by simp⟩
  | cons turn turns ih =>
    cases turn with
    | arrive =>
      obtain ⟨next, stepped, left, here⟩ := arrive_untold h
      obtain ⟨r', later, returned, rest, there, told, clean⟩ := ih here
      rw [Call.run, stepped, Call.bind_some, List.nil_append]
      refine ⟨r', later, returned, ?_, there, told, clean⟩
      rw [rest, left, List.count_cons_self, ← List.drop_one, List.drop_drop, Nat.add_comm]
    | poll =>
      obtain ⟨next, mid, stepped, left, here, first, clean, _⟩ := poll_untold h
      obtain ⟨r', later, returned, rest, there, told, others⟩ := ih here
      refine ⟨r', later, Call.bind_returns.mpr ⟨next, stepped, returned⟩, ?_, there, ?_, ?_⟩
      · rw [rest, left, List.count_cons_of_ne (by decide)]
      · rw [Call.run, Call.bind_log stepped, yields_append, first, told, List.append_assoc]
      · rw [Call.run, Call.bind_log stepped]
        intro result member
        obtain early | late := List.mem_append.mp member
        · exact clean result early
        · exact others result late

/-- Once all packets have arrived, every poll tells an event. -/
theorem polls_untold (h : Untold r untold) (arrived : r.left = []) {n : Nat}
    (enough : untold.length ≤ n) :
    yields (Call.run Reader.step r (List.replicate n .poll)).log = untold := by
  induction n generalizing r untold with
  | zero =>
    rw [List.eq_nil_of_length_eq_zero (Nat.le_zero.mp enough)]
    rfl
  | succ n ih =>
    obtain ⟨next, mid, stepped, left, here, first, _, shorter⟩ := poll_untold h
    rw [List.replicate_succ, Call.run, Call.bind_log stepped, yields_append,
      ih here (left.trans arrived) (by rw [shorter arrived]; omega), first]

end Channel

/-- What the owner of a channel is to hear: the events, and then that they are over. -/
def Content.told (content : Content) : List (Option ChannelEvent) :=
  content.events.map some ++ [none]

namespace Channel

theorem start_untold (content : Content) : Untold (.start content.packets) content.told :=
  .playing rfl ⟨rfl, rfl, by simp [Reader.start, new, Receiver.new], content.plays⟩

/-- Whenever the packets of a channel arrive and whenever it is polled, the polls yield its headers,
its chunks and then the end, each once and in order, and they do so to the end if they go on
after the last packet. -/
theorem events_in_order (content : Content) (turns : List Turn) :
    (∃ r, (Reader.run content.packets turns).value = some r) ∧
    (∀ result ∈ (Reader.run content.packets turns).log, result ≠ .error {}) ∧
    yields (Reader.run content.packets turns).log <+: content.told ∧
    (content.packets.length ≤ turns.count .arrive → ∀ n, content.told.length ≤ n →
      yields (Reader.run content.packets (turns ++ List.replicate n .poll)).log = content.told) := by
  obtain ⟨r, later, returned, left, here, told, clean⟩ := run_untold (start_untold content) turns
  refine ⟨⟨r, returned⟩, clean, ⟨later, told.symm⟩, ?_⟩
  intro arrived n enough
  have none_left : r.left = [] := by
    rw [left]
    exact List.drop_eq_nil_of_le arrived
  have short : later.length ≤ n := by
    have length := congrArg List.length told
    rw [List.length_append] at length
    omega
  rw [Reader.run, Call.run_append, Call.bind_log returned, yields_append,
    polls_untold here none_left short, ← told]

def two_headers : Content where
  groups := [[(1, [7])]]
  last := [(2, [])]
  chunks := [[5]]
  filled := by decide
  fits := by decide
  nonempty := by decide

theorem two_headers_in_order :
    yields (Reader.run two_headers.packets ([.poll, .arrive, .poll, .poll, .arrive, .arrive, .arrive] ++
      List.replicate 4 .poll)).log =
        [some (.Header 1 [7]), some (.Header 2 []), some (.Data [5]), none] :=
  (events_in_order two_headers [.poll, .arrive, .poll, .poll, .arrive, .arrive, .arrive]).2.2.2
    (by decide) 4 (by decide)

end ConnectScrobbler.Channel
