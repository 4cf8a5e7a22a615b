import ConnectScrobbler.Core.Channel.Stream

/-! The two halves that a channel is split into: what each of them takes from the channel,
and which of the chunks come to the half that they are for. -/
namespace ConnectScrobbler

/-- The half for the headers; `locked` is the lock while the other half has it. -/
def ChannelHeaders.poll (locked : Bool) (channel : Channel) :
    Option (Poll (Option (UInt8 × Bytes)) ChannelError × Channel) :=
  if locked then return (.ok .notReady, channel)
  else do
    match ← channel.poll with
    | (.ok .notReady, channel) => return (.ok .notReady, channel)
    | (.error err, channel) => return (.error err, channel)
    | (.ok (.ready (some (.Header id data))), channel) =>
      return (.ok (.ready (some (id, data))), channel)
    | (.ok (.ready (some (.Data _))), channel) => return (.ok (.ready none), channel)
    | (.ok (.ready none), channel) => return (.ok (.ready none), channel)

namespace ChannelData

/-- The loop of `poll`, once the half has the lock: headers are passed over. -/
def poll_loop (channel : Channel) : Option (Poll (Option Bytes) ChannelError × Channel) :=
  match _polled : channel.poll with
  | none => none
  | some (.ok .notReady, channel) => some (.ok .notReady, channel)
  | some (.error err, channel) => some (.error err, channel)
  | some (.ok (.ready (some (.Header _ _))), channel) => poll_loop channel
  | some (.ok (.ready (some (.Data data))), channel) => some (.ok (.ready (some data)), channel)
  | some (.ok (.ready none), channel) => some (.ok (.ready none), channel)
termination_by channel.weight
decreasing_by exact Channel.header_lighter _polled

section Loop

variable {channel channel' : Channel}

theorem poll_loop_not_ready (polled : channel.poll = some (.ok .notReady, channel')) :
    poll_loop channel = some (.ok .notReady, channel') := by
  rw [poll_loop]
  split <;> simp_all

theorem poll_loop_header {id : UInt8} {header : Bytes}
    (polled : channel.poll = some (.ok (.ready (some (.Header id header))), channel')) :
    poll_loop channel = poll_loop channel' := by
  rw [poll_loop]
  split <;> simp_all

theorem poll_loop_data {data : Bytes}
    (polled : channel.poll = some (.ok (.ready (some (.Data data))), channel')) :
    poll_loop channel = some (.ok (.ready (some data)), channel') := by
  rw [poll_loop]
  split <;> simp_all

theorem poll_loop_end (polled : channel.poll = some (.ok (.ready none), channel')) :
    poll_loop channel = some (.ok (.ready none), channel') := by
  rw [poll_loop]
  split <;> simp_all

theorem poll_loop_panics (polled : channel.poll = none) : poll_loop channel = none := by
  rw [poll_loop]
  split <;> simp_all

end Loop

/-- The half for the chunks. -/
def poll (locked : Bool) (channel : Channel) :
    Option (Poll (Option Bytes) ChannelError × Channel) :=
  if locked then some (.ok .notReady, channel) else poll_loop channel

end ChannelData

open Channel (HeadersOnly Outcome Playing)

/-- The data events among those to come. -/
def chunks_of : List ChannelEvent → List Bytes
  | [] => []
  | .Header _ _ :: events => chunks_of events
  | .Data data :: events => data :: chunks_of events

/-- What a poll of the half for the chunks comes to. -/
inductive DataOutcome (left : List Bytes) (chunks : List Bytes) :
    Option (Poll (Option Bytes) ChannelError × Channel) → Prop
  | waits {events : List ChannelEvent} {channel : Channel} (coming : left ≠ [])
      (playing : Playing left channel events) (same : chunks_of events = chunks) :
      DataOutcome left chunks (some (.ok .notReady, channel))
  | data {data : Bytes} {events : List ChannelEvent} {channel : Channel}
      (playing : Playing left channel events) (same : data :: chunks_of events = chunks) :
      DataOutcome left chunks (some (.ok (.ready (some data)), channel))
  | through {channel : Channel} (none_left : chunks = []) (closed : channel.state = .Closed) :
      DataOutcome left chunks (some (.ok (.ready none), channel))

theorem data_outcome {left : List Bytes} {channel : Channel} {events : List ChannelEvent}
    (playing : Playing left channel events) :
    DataOutcome left (chunks_of events) (ChannelData.poll_loop channel) := by
  induction events generalizing channel with
  | nil =>
    have outcome := playing.outcome
    generalize polled : channel.poll = r at outcome
    cases outcome with
    | waits _ coming playing =>
      rw [ChannelData.poll_loop_not_ready polled]
      exact .waits coming playing rfl
    | through _ _ closed =>
      rw [ChannelData.poll_loop_end polled]
      exact .through rfl closed
  | cons event events ih =>
    have outcome := playing.outcome
    generalize polled : channel.poll = r at outcome
    cases outcome with
    | waits _ coming playing =>
      rw [ChannelData.poll_loop_not_ready polled]
      exact .waits coming playing rfl
    | header _ playing =>
      rw [ChannelData.poll_loop_header polled]
      exact ih playing
    | data _ playing =>
      rw [ChannelData.poll_loop_data polled]
      exact .data playing rfl

/-- Both halves of a channel, the packets that are on their way to it, and which of the halves
have reported their end: these are not polled again. -/
structure Split where
  left : List Bytes
  channel : Channel
  headers_ended : Bool
  data_ended : Bool

namespace Split

inductive Action where
  | arrive
  | poll_headers (locked : Bool)
  | poll_data (locked : Bool)
  deriving DecidableEq, Repr

inductive Yield where
  | header (item : Option (UInt8 × Bytes))
  | data (item : Option Bytes)
  | error
  deriving DecidableEq, Repr

def start (content : Content) : Split := ⟨content.packets, .new, false, false⟩

def step (w : Split) : Action → Call Yield Split
  | .arrive =>
    match w.left with
    | [] => return w
    | packet :: left => return { w with
        left
        channel := { w.channel with receiver := w.channel.receiver.send (0x9, packet) } }
  | .poll_headers locked =>
    if w.headers_ended then return w
    else do
      match ← Call.unwrap (ChannelHeaders.poll locked w.channel) with
      | (.ok .notReady, channel) => return { w with channel }
      | (.ok (.ready item), channel) => do
        Call.emit (.header item)
        return { w with channel, headers_ended := item.isNone }
      | (.error _, channel) => do
        Call.emit .error
        return { w with channel }
  | .poll_data locked =>
    if w.data_ended then return w
    else do
      match ← Call.unwrap (ChannelData.poll locked w.channel) with
      | (.ok .notReady, channel) => return { w with channel }
      | (.ok (.ready item), channel) => do
        Call.emit (.data item)
        return { w with channel, data_ended := item.isNone }
      | (.error _, channel) => do
        Call.emit .error
        return { w with channel }

/-- What the half for the chunks has yielded. -/
def yields (log : List Yield) : List (Option Bytes) :=
  log.filterMap fun
    | .data item => some item
    | .header _ | .error => none

@[simp] theorem yields_append (log later : List Yield) :
    yields (log ++ later) = yields log ++ yields later :=
  List.filterMap_append ..

/-- After some actions all packets arrive and the half for the chunks is polled until it
has had time for every chunk and its end. -/
def finish (content : Content) : List Action :=
  List.replicate content.packets.length .arrive ++
    List.replicate (content.chunks.length + 1) (.poll_data false)

/-- No poll panics before the end of its half, and in the end the half for the chunks has
yielded each of them once and in order, and then its end. -/
def Lossless (content : Content) (actions : List Action) : Prop :=
  let whole := Call.run step (start content) (actions ++ finish content)
  whole.value ≠ none ∧ yields whole.log = content.chunks.map some ++ [none]

/-- A poll of the half for the headers is asked to find a header or nothing. -/
def Polite (w : Split) : Action → Prop
  | .poll_headers false => w.channel.HeadersOnly
  | .poll_headers true | .arrive | .poll_data _ => True

/-- Every chunk has been yielded or is still to come. -/
def Whole (chunks : List Bytes) (log : List Yield) (w : Split) : Prop :=
  w.headers_ended = false ∧
    if w.data_ended then w.channel.state = .Closed ∧ yields log = chunks.map some ++ [none]
    else ∃ events, Playing w.left w.channel events ∧
      yields log ++ (chunks_of events).map some = chunks.map some

/-- Some chunk, or the end, will never be yielded. -/
def Lost (chunks : List Bytes) (log : List Yield) (w : Split) : Prop :=
  if w.data_ended then (yields log).length ≤ chunks.length
  else none ∉ yields log ∧ (w.channel.state = .Closed ∨
    ∃ events, Playing w.left w.channel events ∧
      (yields log).length + (chunks_of events).length < chunks.length)

theorem arrives {channel : Channel} {packet : Bytes} {left : List Bytes} {events : List ChannelEvent}
    (playing : Playing (packet :: left) channel events) :
    Playing left { channel with receiver := channel.receiver.send (0x9, packet) } events := by
  obtain ⟨connected, taking, sound, plays⟩ := playing
  constructor
  · simp [connected]
  · simp [taking]
  · intro other member
    simp only [Receiver.send, taking, if_true, List.mem_append, List.mem_singleton] at member
    rcases member with early | rfl
    · exact sound other early
    · rfl
  · simpa [Receiver.send, taking] using plays

section Steps

variable {w : Split} {channel : Channel} {chunks : List Bytes} {log : List Yield}

theorem step_arrive_nothing (none_left : w.left = []) : w.step .arrive = ⟨[], some w⟩ := by
  simp [step, none_left]

theorem step_arrive_packet {packet : Bytes} {left : List Bytes} (next : w.left = packet :: left) :
    w.step .arrive = ⟨[], some { w with
      left
      channel := { w.channel with receiver := w.channel.receiver.send (0x9, packet) } }⟩ := by
  simp [step, next]

theorem step_headers_ended (ended : w.headers_ended = true) (locked : Bool) :
    w.step (.poll_headers locked) = ⟨[], some w⟩ := by
  simp [step, ended]

theorem step_data_ended (ended : w.data_ended = true) (locked : Bool) :
    w.step (.poll_data locked) = ⟨[], some w⟩ := by
  simp [step, ended]

theorem step_headers_locked : w.step (.poll_headers true) = ⟨[], some w⟩ := by
  simp [step, ChannelHeaders.poll]

theorem step_data_locked : w.step (.poll_data true) = ⟨[], some w⟩ := by
  simp [step, ChannelData.poll]

section Headers

variable (going : w.headers_ended = false)
include going

theorem step_headers_waits (polled : w.channel.poll = some (.ok .notReady, channel)) :
    w.step (.poll_headers false) = ⟨[], some { w with channel }⟩ := by
  simp [step, ChannelHeaders.poll, going, polled]

theorem step_headers_header {id : UInt8} {data : Bytes}
    (polled : w.channel.poll = some (.ok (.ready (some (.Header id data))), channel)) :
    w.step (.poll_headers false) = ⟨[.header (some (id, data))], some { w with channel }⟩ := by
  simp [step, ChannelHeaders.poll, going, polled]

theorem step_headers_data {data : Bytes}
    (polled : w.channel.poll = some (.ok (.ready (some (.Data data))), channel)) :
    w.step (.poll_headers false) =
      ⟨[.header none], some { w with channel, headers_ended := true }⟩ := by
  simp [step, ChannelHeaders.poll, going, polled]

theorem step_headers_over (polled : w.channel.poll = some (.ok (.ready none), channel)) :
    w.step (.poll_headers false) =
      ⟨[.header none], some { w with channel, headers_ended := true }⟩ := by
  simp [step, ChannelHeaders.poll, going, polled]

theorem step_headers_closed (closed : w.channel.state = .Closed) :
    w.step (.poll_headers false) = ⟨[], none⟩ := by
  simp [step, ChannelHeaders.poll, going, Channel.poll, closed]

end Headers

section Data

variable (going : w.data_ended = false)
include going

theorem step_data_waits (polled : ChannelData.poll_loop w.channel = some (.ok .notReady, channel)) :
    w.step (.poll_data false) = ⟨[], some { w with channel }⟩ := by
  simp [step, ChannelData.poll, going, polled]

theorem step_data_data {data : Bytes}
    (polled : ChannelData.poll_loop w.channel = some (.ok (.ready (some data)), channel)) :
    w.step (.poll_data false) = ⟨[.data (some data)], some { w with channel }⟩ := by
  simp [step, ChannelData.poll, going, polled]

theorem step_data_over (polled : ChannelData.poll_loop w.channel = some (.ok (.ready none), channel)) :
    w.step (.poll_data false) = ⟨[.data none], some { w with channel, data_ended := true }⟩ := by
  simp [step, ChannelData.poll, going, polled]

theorem step_data_closed (closed : w.channel.state = .Closed) :
    w.step (.poll_data false) = ⟨[], none⟩ := by
  have panics : w.channel.poll = none := by simp [Channel.poll, closed]
  simp [step, ChannelData.poll, going, ChannelData.poll_loop_panics panics]

end Data

end Steps

section Run

variable {w : Split} {chunks : List Bytes} {log : List Yield}

/-- A step that returns in a state where the property holds of the log so far. -/
def Steps (P : List Yield → Split → Prop) (log : List Yield) (x : Call Yield Split) : Prop :=
  ∃ w, x.value = some w ∧ P (log ++ x.log) w

theorem steps_silent {P : List Yield → Split → Prop} (there : P log w) :
    Steps P log ⟨[], some w⟩ :=
  ⟨w, rfl, by rwa [List.append_nil]⟩

theorem Whole.arrive (whole : Whole chunks log w) : Steps (Whole chunks) log (w.step .arrive) := by
  cases there : w.left with
  | nil =>
    rw [step_arrive_nothing there]
    exact steps_silent whole
  | cons packet left =>
    rw [step_arrive_packet there]
    apply steps_silent
    obtain ⟨going, rest⟩ := whole
    refine ⟨going, ?_⟩
    split at rest
    · rename_i ended
      rw [if_pos ended]
      exact rest
    · rename_i ended
      rw [if_neg ended]
      obtain ⟨events, playing, said⟩ := rest
      rw [there] at playing
      exact ⟨events, arrives playing, said⟩

theorem Whole.poll_headers (whole : Whole chunks log w) (polite : w.channel.HeadersOnly) :
    Steps (Whole chunks) log (w.step (.poll_headers false)) := by
  obtain ⟨going, rest⟩ := whole
  split at rest
  · rw [HeadersOnly, rest.1] at polite
    exact absurd polite (by simp)
  · rename_i ended
    obtain ⟨events, playing, said⟩ := rest
    have outcome := playing.outcome
    generalize polled : w.channel.poll = r at outcome
    cases outcome with
    | waits _ _ playing =>
      rw [step_headers_waits going polled]
      apply steps_silent
      exact ⟨going, by rw [if_neg ended]; exact ⟨_, playing, said⟩⟩
    | header _ later =>
      rw [step_headers_header going polled]
      refine ⟨_, rfl, going, ?_⟩
      rw [if_neg ended]
      exact ⟨_, later, by simpa [yields, chunks_of] using said⟩
    | data rude => exact absurd polite rude
    | through rude => exact absurd polite rude

theorem Whole.poll_data (whole : Whole chunks log w) :
    Steps (Whole chunks) log (w.step (.poll_data false)) := by
  by_cases ended : w.data_ended = true
  · rw [step_data_ended ended]
    exact steps_silent whole
  · obtain ⟨going, rest⟩ := whole
    rw [if_neg ended] at rest
    obtain ⟨events, playing, said⟩ := rest
    have outcome := data_outcome playing
    generalize polled : ChannelData.poll_loop w.channel = r at outcome
    have open_ : w.data_ended = false := by simpa using ended
    cases outcome with
    | waits _ playing same =>
      rw [step_data_waits open_ polled]
      apply steps_silent
      exact ⟨going, by rw [if_neg ended]; exact ⟨_, playing, by rw [same]; exact said⟩⟩
    | data playing same =>
      rw [step_data_data open_ polled]
      refine ⟨_, rfl, going, ?_⟩
      rw [if_neg ended]
      refine ⟨_, playing, ?_⟩
      rw [← same] at said
      simpa [yields] using said
    | through none_left closed =>
      rw [step_data_over open_ polled]
      refine ⟨_, rfl, going, ?_⟩
      rw [none_left, List.map_nil, List.append_nil] at said
      rw [if_pos rfl, ← said]
      exact ⟨closed, by simp [yields]⟩

theorem Whole.step (whole : Whole chunks log w) {action : Action} (polite : w.Polite action) :
    Steps (Whole chunks) log (w.step action) := by
  cases action with
  | arrive => exact whole.arrive
  | poll_headers locked =>
    cases locked with
    | true =>
      rw [step_headers_locked]
      exact steps_silent whole
    | false => exact whole.poll_headers polite
  | poll_data locked =>
    cases locked with
    | true =>
      rw [step_data_locked]
      exact steps_silent whole
    | false => exact whole.poll_data

/-- A call that panics, or returns where the property holds of the log so far. -/
def PanicsOr (P : List Yield → Split → Prop) (log : List Yield) (x : Call Yield Split) : Prop :=
  x.value = none ∨ Steps P log x

/-- A header poll that meets a chunk or the end takes it away from the other half. -/
theorem Whole.rude (whole : Whole chunks log w) {action : Action} (rude : ¬ w.Polite action) :
    PanicsOr (Lost chunks) log (w.step action) := by
  cases action with
  | arrive => exact absurd trivial rude
  | poll_data locked => exact absurd trivial rude
  | poll_headers locked =>
    cases locked with
    | true => exact absurd trivial rude
    | false =>
      have rude : ¬ w.channel.HeadersOnly := rude
      obtain ⟨going, rest⟩ := whole
      split at rest
      · rw [step_headers_closed going rest.1]
        exact .inl rfl
      · rename_i ended
        obtain ⟨events, playing, said⟩ := rest
        have unsaid : none ∉ yields log := by
          intro member
          have among := List.mem_append_left ((chunks_of events).map some) member
          rw [said] at among
          simp at among
        have outcome := playing.outcome
        generalize polled : w.channel.poll = r at outcome
        cases outcome with
        | waits quiet => exact absurd quiet rude
        | header quiet => exact absurd quiet rude
        | data _ later =>
          rw [step_headers_data going polled]
          refine .inr ⟨_, rfl, ?_⟩
          have count := congrArg List.length said
          simp only [chunks_of, List.map_cons, List.length_append, List.length_cons, List.length_map]
            at count
          rw [Lost, if_neg ended]
          refine ⟨by simpa [yields] using unsaid, .inr ⟨_, later, ?_⟩⟩
          simp [yields] at count ⊢
          omega
        | through _ _ closed =>
          rw [step_headers_over going polled]
          refine .inr ⟨_, rfl, ?_⟩
          rw [Lost, if_neg ended]
          exact ⟨by simpa [yields] using unsaid, .inl closed⟩

theorem Lost.arrive (lost : Lost chunks log w) : Steps (Lost chunks) log (w.step .arrive) := by
  cases there : w.left with
  | nil =>
    rw [step_arrive_nothing there]
    exact steps_silent lost
  | cons packet left =>
    rw [step_arrive_packet there]
    apply steps_silent
    unfold Lost at lost ⊢
    split at lost
    · rename_i ended
      rw [if_pos ended]
      exact lost
    · rename_i ended
      rw [if_neg ended]
      obtain ⟨unsaid, closed | ⟨events, playing, fewer⟩⟩ := lost
      · exact ⟨unsaid, .inl closed⟩
      · rw [there] at playing
        exact ⟨unsaid, .inr ⟨events, arrives playing, fewer⟩⟩

/-- Whatever a header poll does, the half for the chunks yields nothing by it. -/
theorem step_headers_quiet (w : Split) : (w.step (.poll_headers false)).value = none ∨
    ∃ later channel last, yields later = [] ∧
      w.step (.poll_headers false) = ⟨later, some { w with channel, headers_ended := last }⟩ := by
  cases going : w.headers_ended with
  | true =>
    right
    refine ⟨[], w.channel, true, rfl, ?_⟩
    rw [step_headers_ended going, ← going]
  | false =>
    match polled : ChannelHeaders.poll false w.channel with
    | none =>
      left
      simp [step, going, polled]
    | some (.ok .notReady, channel) =>
      exact .inr ⟨[], channel, false, rfl, by simp [step, going, polled]⟩
    | some (.ok (.ready item), channel) =>
      exact .inr ⟨[.header item], channel, item.isNone, rfl, by simp [step, going, polled]⟩
    | some (.error _, channel) =>
      exact .inr ⟨[.error], channel, false, rfl, by simp [step, going, polled]⟩

theorem lost_headers_ended (lost : Lost chunks log w) (ended : w.data_ended = true) :
    PanicsOr (Lost chunks) log (w.step (.poll_headers false)) := by
  rcases step_headers_quiet w with panics | ⟨later, channel, last, quiet, stepped⟩
  · exact .inl panics
  · rw [stepped]
    refine .inr ⟨_, rfl, ?_⟩
    rw [Lost, if_pos ended] at lost ⊢
    rw [yields_append, quiet, List.append_nil]
    exact lost

theorem Lost.poll_headers (lost : Lost chunks log w) :
    PanicsOr (Lost chunks) log (w.step (.poll_headers false)) := by
  by_cases finished : w.headers_ended = true
  · rw [step_headers_ended finished]
    exact .inr (steps_silent lost)
  by_cases ended : w.data_ended = true
  · exact lost_headers_ended lost ended
  have going : w.headers_ended = false := by simpa using finished
  rw [Lost, if_neg ended] at lost
  obtain ⟨unsaid, closed | ⟨events, playing, fewer⟩⟩ := lost
  · rw [step_headers_closed going closed]
    exact .inl rfl
  · have outcome := playing.outcome
    generalize polled : w.channel.poll = r at outcome
    cases outcome with
    | waits _ _ later =>
      rw [step_headers_waits going polled]
      refine .inr (steps_silent ?_)
      rw [Lost, if_neg ended]
      exact ⟨unsaid, .inr ⟨_, later, fewer⟩⟩
    | header _ later =>
      rw [step_headers_header going polled]
      refine .inr ⟨_, rfl, ?_⟩
      rw [Lost, if_neg ended]
      exact ⟨by simpa [yields] using unsaid, .inr ⟨_, later, by simpa [yields, chunks_of] using fewer⟩⟩
    | data _ later =>
      rw [step_headers_data going polled]
      refine .inr ⟨_, rfl, ?_⟩
      rw [Lost, if_neg ended]
      refine ⟨by simpa [yields] using unsaid, .inr ⟨_, later, ?_⟩⟩
      simp only [chunks_of, List.length_cons] at fewer
      simp [yields] at fewer ⊢
      omega
    | through _ _ closed =>
      rw [step_headers_over going polled]
      refine .inr ⟨_, rfl, ?_⟩
      rw [Lost, if_neg ended]
      exact ⟨by simpa [yields] using unsaid, .inl closed⟩

theorem Lost.poll_data (lost : Lost chunks log w) :
    PanicsOr (Lost chunks) log (w.step (.poll_data false)) := by
  by_cases ended : w.data_ended = true
  · rw [step_data_ended ended]
    exact .inr (steps_silent lost)
  have going : w.data_ended = false := by simpa using ended
  rw [Lost, if_neg ended] at lost
  obtain ⟨unsaid, closed | ⟨events, playing, fewer⟩⟩ := lost
  · rw [step_data_closed going closed]
    exact .inl rfl
  · have outcome := data_outcome playing
    generalize polled : ChannelData.poll_loop w.channel = r at outcome
    cases outcome with
    | waits _ later same =>
      rw [step_data_waits going polled]
      refine .inr (steps_silent ?_)
      rw [Lost, if_neg ended]
      exact ⟨unsaid, .inr ⟨_, later, by rw [same]; exact fewer⟩⟩
    | data later same =>
      rw [step_data_data going polled]
      refine .inr ⟨_, rfl, ?_⟩
      rw [Lost, if_neg ended]
      refine ⟨by simpa [yields] using unsaid, .inr ⟨_, later, ?_⟩⟩
      rw [← same, List.length_cons] at fewer
      simp [yields] at fewer ⊢
      omega
    | through none_left closed =>
      rw [step_data_over going polled]
      refine .inr ⟨_, rfl, ?_⟩
      rw [Lost, if_pos rfl]
      simp [yields] at fewer ⊢
      omega

theorem Lost.step (lost : Lost chunks log w) (action : Action) :
    PanicsOr (Lost chunks) log (w.step action) := by
  cases action with
  | arrive => exact .inr lost.arrive
  | poll_headers locked =>
    cases locked with
    | true =>
      rw [step_headers_locked]
      exact .inr (steps_silent lost)
    | false => exact lost.poll_headers
  | poll_data locked =>
    cases locked with
    | true =>
      rw [step_data_locked]
      exact .inr (steps_silent lost)
    | false => exact lost.poll_data

section Append

variable {P Q : List Yield → Split → Prop} {before after : List Action}

theorem steps_append (first : Steps P log (Call.run Split.step w before))
    (rest : ∀ log u, P log u → Steps Q log (Call.run Split.step u after)) :
    Steps Q log (Call.run Split.step w (before ++ after)) := by
  obtain ⟨t, ran, there⟩ := first
  obtain ⟨u, returned, done⟩ := rest _ t there
  refine ⟨u, ?_, ?_⟩
  · rw [Call.run_append, Call.bind_value, ran]
    exact returned
  · rw [Call.run_append, Call.bind_log ran, ← List.append_assoc]
    exact done

theorem panics_or_append (first : PanicsOr P log (Call.run Split.step w before))
    (rest : ∀ log u, P log u → PanicsOr Q log (Call.run Split.step u after)) :
    PanicsOr Q log (Call.run Split.step w (before ++ after)) := by
  rcases first with panics | ⟨t, ran, there⟩
  · left
    rw [Call.run_append, Call.bind_value, panics]
    rfl
  · rcases rest _ t there with panics | ⟨u, returned, done⟩
    · left
      rw [Call.run_append, Call.bind_value, ran]
      exact panics
    · right
      refine ⟨u, ?_, ?_⟩
      · rw [Call.run_append, Call.bind_value, ran]
        exact returned
      · rw [Call.run_append, Call.bind_log ran, ← List.append_assoc]
        exact done

theorem run_one (w : Split) (action : Action) : Call.run Split.step w [action] = w.step action := by
  simp only [Call.run]
  generalize w.step action = x
  obtain ⟨log, value⟩ := x
  cases value <;> simp

theorem steps_cons {action : Action} (first : Steps P log (w.step action))
    (rest : ∀ log u, P log u → Steps Q log (Call.run Split.step u after)) :
    Steps Q log (Call.run Split.step w (action :: after)) := by
  rw [← run_one] at first
  exact steps_append first rest

theorem panics_or_cons {action : Action} (first : PanicsOr P log (w.step action))
    (rest : ∀ log u, P log u → PanicsOr Q log (Call.run Split.step u after)) :
    PanicsOr Q log (Call.run Split.step w (action :: after)) := by
  rw [← run_one] at first
  exact panics_or_append first rest

end Append

theorem Lost.run (lost : Lost chunks log w) (actions : List Action) :
    PanicsOr (Lost chunks) log (Call.run Split.step w actions) := by
  induction actions generalizing w log with
  | nil => exact .inr (steps_silent lost)
  | cons action actions ih =>
    apply panics_or_cons (lost.step action)
    intro log u lost
    exact ih lost

theorem Whole.run (whole : Whole chunks log w) {actions : List Action}
    (meets : Call.Meets Split.step Polite w actions) :
    Steps (Whole chunks) log (Call.run Split.step w actions) := by
  induction actions generalizing w log with
  | nil => exact steps_silent whole
  | cons action actions ih =>
    obtain ⟨polite, rest⟩ := Call.meets_cons_iff.mp meets
    obtain ⟨t, stepped, there⟩ := whole.step polite
    apply steps_cons (P := fun log u => u = t ∧ Whole chunks log u) ⟨t, stepped, rfl, there⟩
    rintro log _ ⟨rfl, whole⟩
    exact ih whole (rest _ stepped)

theorem Whole.run_rude (whole : Whole chunks log w) {actions : List Action}
    (rude : ¬ Call.Meets Split.step Polite w actions) :
    PanicsOr (Lost chunks) log (Call.run Split.step w actions) := by
  induction actions generalizing w log with
  | nil => exact absurd (Call.meets_nil _ _ _) rude
  | cons action actions ih =>
    by_cases polite : w.Polite action
    · obtain ⟨t, stepped, there⟩ := whole.step polite
      have later : ¬ Call.Meets Split.step Polite t actions := by
        intro meets
        apply rude
        apply Call.meets_cons polite
        intro s returned
        rw [stepped] at returned
        cases returned
        exact meets
      apply panics_or_cons (P := fun log u => u = t ∧ Whole chunks log u)
      · exact .inr ⟨t, stepped, rfl, there⟩
      · rintro log _ ⟨rfl, whole⟩
        exact ih whole later
    · apply panics_or_cons (whole.rude polite)
      intro log u lost
      exact lost.run actions

/-- What is left to arrive only gets fewer. -/
theorem step_left {action : Action} {u : Split} (returned : (w.step action).value = some u) :
    u.left = match action with
      | .arrive => w.left.tail
      | .poll_headers _ | .poll_data _ => w.left := by
  cases action with
  | arrive =>
    cases there : w.left with
    | nil =>
      rw [step_arrive_nothing there] at returned
      cases returned
      exact there
    | cons packet left =>
      rw [step_arrive_packet there] at returned
      cases returned
      rfl
  | poll_headers locked =>
    simp only [step] at returned
    split at returned
    · cases returned
      rfl
    · obtain ⟨⟨item, channel⟩, _, returned⟩ := Call.bind_returns.mp returned
      match item with
      | .ok .notReady => cases returned; rfl
      | .ok (.ready item) => cases returned; rfl
      | .error _ => cases returned; rfl
  | poll_data locked =>
    simp only [step] at returned
    split at returned
    · cases returned
      rfl
    · obtain ⟨⟨item, channel⟩, _, returned⟩ := Call.bind_returns.mp returned
      match item with
      | .ok .notReady => cases returned; rfl
      | .ok (.ready item) => cases returned; rfl
      | .error _ => cases returned; rfl

theorem run_left {actions : List Action} {u : Split}
    (returned : (Call.run Split.step w actions).value = some u) :
    u.left.length ≤ w.left.length := by
  induction actions generalizing w with
  | nil =>
    cases returned
    exact Nat.le_refl _
  | cons action actions ih =>
    obtain ⟨t, stepped, ran⟩ := Call.bind_returns.mp returned
    have first := step_left stepped
    have rest := ih ran
    cases action <;> simp [first] at rest <;> omega

theorem Whole.arrivals (whole : Whole chunks log w) (n : Nat) :
    Steps (fun log u => Whole chunks log u ∧ u.left = w.left.drop n) log
      (Call.run Split.step w (List.replicate n .arrive)) := by
  induction n generalizing w log with
  | zero => exact steps_silent ⟨whole, rfl⟩
  | succ n ih =>
    obtain ⟨t, stepped, there⟩ := whole.arrive
    have first := step_left stepped
    apply steps_cons (P := fun log u => u = t ∧ Whole chunks log u)
    · exact ⟨t, stepped, rfl, there⟩
    · rintro log _ ⟨rfl, whole⟩
      obtain ⟨u, ran, done, left⟩ := ih whole
      refine ⟨u, ran, done, ?_⟩
      rw [left, first, List.drop_tail]

theorem Whole.complete (whole : Whole chunks log w) (ended : w.data_ended = true) :
    yields log = chunks.map some ++ [none] := by
  obtain ⟨_, rest⟩ := whole
  rw [if_pos ended] at rest
  exact rest.2

theorem Whole.complete_of_length (whole : Whole chunks log w)
    (enough : chunks.length + 1 ≤ (yields log).length) :
    yields log = chunks.map some ++ [none] := by
  by_cases ended : w.data_ended = true
  · exact whole.complete ended
  · obtain ⟨_, rest⟩ := whole
    rw [if_neg ended] at rest
    obtain ⟨events, _, said⟩ := rest
    have count := congrArg List.length said
    simp only [List.length_append, List.length_map] at count
    omega

/-- With all packets there, a poll of the half for the chunks yields something. -/
theorem Whole.yields_next (whole : Whole chunks log w) (none_left : w.left = []) :
    Steps (fun log' u => (Whole chunks log' u ∧ u.left = []) ∧
      (chunks.length + 1 ≤ (yields log').length ∨ (yields log).length + 1 ≤ (yields log').length))
      log (w.step (.poll_data false)) := by
  obtain ⟨u, stepped, there⟩ := whole.poll_data
  refine ⟨u, stepped, ⟨there, (step_left stepped).trans none_left⟩, ?_⟩
  by_cases ended : w.data_ended = true
  · left
    rw [step_data_ended ended, List.append_nil, whole.complete ended]
    simp
  have going : w.data_ended = false := by simpa using ended
  obtain ⟨_, rest⟩ := whole
  rw [if_neg ended] at rest
  obtain ⟨events, playing, _⟩ := rest
  have outcome := data_outcome playing
  generalize polled : ChannelData.poll_loop w.channel = r at outcome
  right
  cases outcome with
  | waits coming => exact absurd none_left coming
  | data =>
    rw [step_data_data going polled]
    simp [yields]
  | through =>
    rw [step_data_over going polled]
    simp [yields]

theorem Whole.polls (whole : Whole chunks log w) (none_left : w.left = []) (n : Nat) :
    Steps (fun log' u => Whole chunks log' u ∧
      (chunks.length + 1 ≤ (yields log').length ∨ (yields log).length + n ≤ (yields log').length))
      log (Call.run Split.step w (List.replicate n (.poll_data false))) := by
  induction n generalizing w log with
  | zero => exact steps_silent ⟨whole, .inr (Nat.le_refl _)⟩
  | succ n ih =>
    have first := whole.yields_next none_left
    rw [← run_one] at first
    apply steps_append first
    rintro log' u ⟨⟨whole, none_left⟩, more⟩
    obtain ⟨v, ran, done, most⟩ := ih whole none_left
    exact ⟨v, ran, done, by omega⟩

end Run

theorem chunks_of_events (content : Content) : chunks_of content.events = content.chunks := by
  have passed (headers : List (UInt8 × Bytes)) (events : List ChannelEvent) :
      chunks_of (headers.map (fun header => .Header header.1 header.2) ++ events) =
        chunks_of events := by
    induction headers with
    | nil => rfl
    | cons header headers ih => exact ih
  have own (chunks : List Bytes) : chunks_of (chunks.map .Data) = chunks := by
    induction chunks with
    | nil => rfl
    | cons chunk chunks ih => exact congrArg _ ih
  rw [Content.events, passed, own]

theorem whole_start (content : Content) : Whole content.chunks [] (start content) := by
  refine ⟨rfl, ?_⟩
  rw [if_neg (by simp [start])]
  refine ⟨content.events, ⟨rfl, rfl, by simp [start, Channel.new, Receiver.new], content.plays⟩, ?_⟩
  rw [chunks_of_events]
  rfl

theorem Lost.incomplete {chunks : List Bytes} {log : List Yield} {w : Split}
    (lost : Lost chunks log w) : yields log ≠ chunks.map some ++ [none] := by
  intro whole
  unfold Lost at lost
  split at lost
  · rw [whole] at lost
    simp at lost
  · rw [whole] at lost
    simp at lost

/-- Splitting a channel loses nothing just where every header poll finds a header left, or
nothing that has arrived. -/
theorem lossless_iff_polite (content : Content) (actions : List Action) :
    Lossless content actions ↔ Call.Meets step Polite (start content) actions := by
  have whole := whole_start content
  constructor
  · rintro ⟨returns, complete⟩
    by_contra rude
    rcases panics_or_append (whole.run_rude rude) (fun _ _ lost => lost.run (finish content)) with
      panics | ⟨u, _, lost⟩
    · exact returns panics
    · exact lost.incomplete complete
  · intro meets
    obtain ⟨t, ran, there⟩ := whole.run meets
    have fewer := run_left ran
    have finished : Steps (fun log _ => yields log = content.chunks.map some ++ [none]) []
        (Call.run step (start content) (actions ++ finish content)) := by
      apply steps_append (P := fun log u => u = t ∧ Whole content.chunks log u) ⟨t, ran, rfl, there⟩
      rintro log _ ⟨rfl, whole⟩
      apply steps_append (whole.arrivals _)
      rintro log u ⟨whole, left⟩
      have none_left : u.left = [] := by
        rw [left]
        exact List.drop_eq_nil_iff.mpr fewer
      obtain ⟨v, polled, done, count⟩ := whole.polls none_left (content.chunks.length + 1)
      exact ⟨v, polled, done.complete_of_length (by omega)⟩
    obtain ⟨u, returned, complete⟩ := finished
    rw [List.nil_append] at complete
    exact ⟨by rw [returned]; simp, complete⟩

def one_chunk : Content where
  groups := []
  last := [(1, [2])]
  chunks := [[7]]
  filled := by simp
  fits := by simp
  nonempty := by simp

/-- The half for the headers is polled once more after the last of them. -/
def one_more_poll : List Action := [.arrive, .arrive, .poll_headers false, .poll_headers false]

theorem one_chunk_taken : ¬ Lossless one_chunk one_more_poll := by
  rintro ⟨returns, complete⟩
  have taken : Call.run step (start one_chunk) one_more_poll =
      ⟨[.header (some (1, [2])), .header none], some ⟨[[]], ⟨.new, .Data⟩, true, false⟩⟩ := rfl
  have lost : Lost one_chunk.chunks [.header (some (1, [2])), .header none]
      ⟨[[]], ⟨.new, .Data⟩, true, false⟩ := by
    rw [Lost, if_neg (by simp)]
    exact ⟨by simp [yields], .inr ⟨[], ⟨rfl, rfl, by simp [Receiver.new], .terminator⟩, by decide⟩⟩
  rcases lost.run (finish one_chunk) with panics | ⟨u, _, later⟩
  · apply returns
    rw [Call.run_append, Call.bind_value, taken]
    exact panics
  · apply later.incomplete
    rw [Call.run_append, taken] at complete
    exact complete

end Split

end ConnectScrobbler
