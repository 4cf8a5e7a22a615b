import ConnectScrobbler.Core.Channel

/-! What is sent on a channel, and what polls of the channel make of it. -/
namespace ConnectScrobbler

open Bytes (be drain_to read_be)

namespace Channel

variable {channel channel' : Channel}

theorem recv_packet_nothing (none : channel.receiver.queue = [])
    (coming : channel.receiver.connected = true ∧ channel.receiver.taking = true) :
    channel.recv_packet = some (.ok .notReady, channel) := by
  simp [recv_packet, Receiver.poll, none, coming]

theorem recv_packet_next {cmd : UInt8} {packet : Bytes} {queue : List (UInt8 × Bytes)}
    (next : channel.receiver.queue = (cmd, packet) :: queue) (sound : cmd ≠ 0xa) :
    channel.recv_packet = some (.ok (.ready packet),
      { channel with receiver := { channel.receiver with queue } }) := by
  simp [recv_packet, Receiver.poll, next, sound]

theorem recv_packet_received {packet : Bytes}
    (received : channel.recv_packet = some (.ok (.ready packet), channel')) :
    channel'.state = channel.state ∧
      ∃ cmd, channel.receiver.queue = (cmd, packet) :: channel'.receiver.queue := by
  unfold recv_packet Receiver.poll at received
  cases there : channel.receiver.queue with
  | nil =>
    cases coming : channel.receiver.connected && channel.receiver.taking <;>
      simp [there, coming] at received
  | cons head queue =>
    obtain ⟨cmd, packet'⟩ := head
    simp only [there, Option.bind_eq_bind, Option.bind_some] at received
    split at received
    · obtain ⟨_, _, done⟩ := Option.bind_eq_some_iff.mp received
      cases done
    · cases received
      exact ⟨rfl, cmd, rfl⟩

theorem poll_data_no_header {id : UInt8} {header : Bytes} :
    channel.poll_data ≠ some (.ok (.ready (some (.Header id header))), channel') := by
  intro polled
  obtain ⟨⟨item, after⟩, _, rest⟩ := Option.bind_eq_some_iff.mp polled
  match item with
  | .ok .notReady => cases rest
  | .error _ => cases rest
  | .ok (.ready data) =>
    simp only at rest
    split at rest <;> cases rest

theorem poll_header_shorter {data header : Bytes} {id : UInt8}
    (polled : channel.poll_header data = some (.ok (.ready (some (.Header id header))), channel')) :
    ∃ rest, channel' = { channel with state := .Header rest } ∧ rest.length < data.length := by
  obtain ⟨⟨size, data1⟩, first, polled⟩ := Option.bind_eq_some_iff.mp polled
  simp only at polled
  split at polled
  · split at polled
    · exact absurd polled poll_data_no_header
    · cases polled
  · obtain ⟨⟨header_id, data2⟩, second, polled⟩ := Option.bind_eq_some_iff.mp polled
    obtain ⟨⟨header_data, data3⟩, third, done⟩ := Option.bind_eq_some_iff.mp polled
    cases done
    have size_taken : data.length = 2 + data1.length := Bytes.length_drain_to first
    have id_taken : data1.length = 1 + data2.length := Bytes.length_drain_to second
    have data_taken : data2.length = _ + data3.length := Bytes.length_drain_to third
    exact ⟨data3, rfl, by omega⟩

/-- A header that is read leaves less to read. -/
theorem header_lighter {id : UInt8} {header : Bytes}
    (polled : channel.poll = some (.ok (.ready (some (.Header id header))), channel')) :
    channel'.weight < channel.weight := by
  unfold poll at polled
  cases state : channel.state with
  | Closed =>
    rw [state] at polled
    cases polled
  | Data =>
    rw [state] at polled
    exact absurd polled poll_data_no_header
  | Header data =>
    simp only [state] at polled
    split at polled
    · obtain ⟨⟨item, after⟩, received, rest⟩ := Option.bind_eq_some_iff.mp polled
      match item with
      | .ok .notReady => cases rest
      | .error _ => cases rest
      | .ok (.ready packet) =>
        obtain ⟨_, cmd, next⟩ := recv_packet_received received
        obtain ⟨left, rfl, shorter⟩ := poll_header_shorter rest
        simp only [weight, state, next, List.map_cons, List.sum_cons]
        omega
    · obtain ⟨left, rfl, shorter⟩ := poll_header_shorter polled
      simp only [weight, state]
      omega

end Channel

/-- What is sent on a channel: packets of headers, the last of which also says that they
are over, and chunks of data; then it ends. -/
structure Content where
  groups : List (List (UInt8 × Bytes))
  last : List (UInt8 × Bytes)
  chunks : List Bytes
  filled : ∀ group ∈ groups, group ≠ []
  fits : ∀ header ∈ groups.flatten ++ last, header.2.length + 1 < 2 ^ 16
  nonempty : ∀ chunk ∈ chunks, chunk ≠ []

namespace Content

def encode_header (header : UInt8 × Bytes) : Bytes :=
  be 2 (header.2.length + 1) ++ header.1 :: header.2

def encode_headers (headers : List (UInt8 × Bytes)) : Bytes := headers.flatMap encode_header

def packets (content : Content) : List Bytes :=
  content.groups.map encode_headers ++ [encode_headers content.last ++ [0, 0]] ++ content.chunks ++
    [[]]

def events (content : Content) : List ChannelEvent :=
  (content.groups.flatten ++ content.last).map (fun header => .Header header.1 header.2) ++
    content.chunks.map .Data

end Content

/-- The events still to come, for where the reader is and the packets that it has not read. -/
inductive Plays : ChannelState → List Bytes → List ChannelEvent → Prop
  | packet {packet : Bytes} {packets : List Bytes} {events : List ChannelEvent} (filled : packet ≠ [])
      (rest : Plays (.Header packet) packets events) : Plays (.Header []) (packet :: packets) events
  | header {id : UInt8} {data rest : Bytes} {packets : List Bytes} {events : List ChannelEvent}
      (fits : data.length + 1 < 2 ^ 16) (later : Plays (.Header rest) packets events) :
      Plays (.Header (Content.encode_header (id, data) ++ rest)) packets (.Header id data :: events)
  | headers_over {packets : List Bytes} {events : List ChannelEvent}
      (rest : Plays .Data packets events) : Plays (.Header [0, 0]) packets events
  | chunk {packet : Bytes} {packets : List Bytes} {events : List ChannelEvent} (filled : packet ≠ [])
      (rest : Plays .Data packets events) : Plays .Data (packet :: packets) (.Data packet :: events)
  | terminator : Plays .Data [[]] []

namespace Content

theorem encode_header_ne (header : UInt8 × Bytes) : encode_header header ≠ [] := by
  intro none
  have length := congrArg List.length none
  simp [encode_header] at length

theorem encode_headers_ne {headers : List (UInt8 × Bytes)} (filled : headers ≠ []) :
    encode_headers headers ≠ [] := by
  cases headers with
  | nil => exact absurd rfl filled
  | cons header headers =>
    intro none
    exact encode_header_ne header (List.append_eq_nil_iff.mp none).1

theorem chunks_play {chunks : List Bytes} (nonempty : ∀ chunk ∈ chunks, chunk ≠ []) :
    Plays .Data (chunks ++ [[]]) (chunks.map .Data) := by
  induction chunks with
  | nil => exact .terminator
  | cons chunk chunks ih =>
    apply Plays.chunk (nonempty chunk (.head _))
    exact ih fun other member => nonempty other (.tail _ member)

theorem headers_play {headers : List (UInt8 × Bytes)} {rest : Bytes} {packets : List Bytes}
    {events : List ChannelEvent} (fits : ∀ header ∈ headers, header.2.length + 1 < 2 ^ 16)
    (later : Plays (.Header rest) packets events) :
    Plays (.Header (encode_headers headers ++ rest)) packets
      (headers.map (fun header => .Header header.1 header.2) ++ events) := by
  induction headers with
  | nil => exact later
  | cons header headers ih =>
    have next := @Plays.header header.1 _ _ _ _ (fits header (.head _))
      (ih fun other member => fits other (.tail _ member))
    rw [← List.append_assoc] at next
    exact next

theorem groups_play {groups : List (List (UInt8 × Bytes))} {packets : List Bytes}
    {events : List ChannelEvent} (filled : ∀ group ∈ groups, group ≠ [])
    (fits : ∀ header ∈ groups.flatten, header.2.length + 1 < 2 ^ 16)
    (later : Plays (.Header []) packets events) :
    Plays (.Header []) (groups.map encode_headers ++ packets)
      (groups.flatten.map (fun header => .Header header.1 header.2) ++ events) := by
  induction groups with
  | nil => exact later
  | cons group groups ih =>
    have rest := ih (fun other member => filled other (.tail _ member))
      (fun header member => fits header (List.mem_append_right _ member))
    have own := headers_play (fun header member => fits header (List.mem_append_left _ member)) rest
    rw [List.append_nil] at own
    rw [List.flatten_cons, List.map_append, List.append_assoc]
    exact .packet (encode_headers_ne (filled group (.head _))) own

theorem plays (content : Content) : Plays (.Header []) content.packets content.events := by
  have fits := content.fits
  have afterwards := headers_play (fun header member => fits header (List.mem_append_right _ member))
    (.headers_over (chunks_play content.nonempty))
  have last := Plays.packet (by simp) afterwards
  have whole := groups_play content.filled
    (fun header member => fits header (List.mem_append_left _ member)) last
  simpa [packets, events] using whole

end Content

namespace Channel

/-- What is read next is a header, or there is nothing to read. -/
def next_is_header (data : Bytes) (queue : List (UInt8 × Bytes)) : Prop :=
  read_be (data.take 2) ≠ 0 ∨ queue = []

/-- What a poll finds is a header, or nothing. -/
def HeadersOnly (channel : Channel) : Prop :=
  match channel.state, channel.receiver.queue with
  | .Closed, _ => False
  | .Data, queue => queue = []
  | .Header [], [] => True
  | .Header [], packet :: queue => next_is_header packet.2 queue
  | .Header data, queue => next_is_header data queue

/-- A channel in the middle of its packets; those that are left have not arrived. -/
structure Playing (left : List Bytes) (channel : Channel) (events : List ChannelEvent) : Prop where
  connected : channel.receiver.connected = true
  taking : channel.receiver.taking = true
  sound : ∀ packet ∈ channel.receiver.queue, packet.1 = 0x9
  plays : Plays channel.state (channel.receiver.queue.map (·.2) ++ left) events

/-- What a poll of such a channel comes to; `only` says that it finds a header or nothing. -/
inductive Outcome (left : List Bytes) (only : Prop) :
    List ChannelEvent → Option (Poll (Option ChannelEvent) ChannelError × Channel) → Prop
  | waits {events : List ChannelEvent} {channel : Channel} (quiet : only) (coming : left ≠ [])
      (playing : Playing left channel events) :
      Outcome left only events (some (.ok .notReady, channel))
  | header {id : UInt8} {data : Bytes} {events : List ChannelEvent} {channel : Channel} (quiet : only)
      (playing : Playing left channel events) : Outcome left only (.Header id data :: events)
        (some (.ok (.ready (some (.Header id data))), channel))
  | data {data : Bytes} {events : List ChannelEvent} {channel : Channel} (other : ¬ only)
      (playing : Playing left channel events) : Outcome left only (.Data data :: events)
        (some (.ok (.ready (some (.Data data))), channel))
  | through {channel : Channel} (other : ¬ only) (none_left : left = [])
      (closed : channel.state = .Closed) :
      Outcome left only [] (some (.ok (.ready none), channel))

variable {left : List Bytes} {channel : Channel} {events : List ChannelEvent}

theorem outcome_congr {only only' : Prop}
    {polled : Option (Poll (Option ChannelEvent) ChannelError × Channel)} (same : only ↔ only')
    (outcome : Outcome left only events polled) : Outcome left only' events polled := by
  rw [← propext same]
  exact outcome

theorem Playing.data (playing : Playing left channel events) (state : channel.state = .Data) :
    Outcome left (channel.receiver.queue = []) events channel.poll_data := by
  have plays := playing.plays
  rw [state] at plays
  cases queue : channel.receiver.queue with
  | nil =>
    rw [poll_data, recv_packet_nothing queue ⟨playing.connected, playing.taking⟩]
    rw [queue] at plays
    refine .waits rfl ?_ playing
    rintro rfl
    cases plays
  | cons packet queue' =>
    obtain ⟨cmd, packet⟩ := packet
    have sound : ∀ other ∈ (cmd, packet) :: queue', other.1 = 0x9 := by
      rw [← queue]
      exact playing.sound
    have own : cmd = 0x9 := sound _ (.head _)
    rw [poll_data, recv_packet_next queue (by rw [own]; decide)]
    rw [queue, List.map_cons, List.cons_append] at plays
    generalize rest : queue'.map (·.2) ++ left = packets at plays
    cases plays with
    | chunk filled later =>
      have long : packet.length ≠ 0 := mt List.length_eq_zero_iff.mp filled
      simp only [Option.bind_eq_bind, Option.bind_some, if_neg long]
      refine .data (by simp) ⟨playing.connected, playing.taking, ?_, ?_⟩
      · intro other member
        exact sound other (.tail _ member)
      · rw [← rest, ← state] at later
        exact later
    | terminator =>
      exact .through (by simp) (List.append_eq_nil_iff.mp rest).2 rfl

theorem Playing.header {data : Bytes} (playing : Playing left channel events)
    (plays : Plays (.Header data) (channel.receiver.queue.map (·.2) ++ left) events)
    (filled : data ≠ []) :
    Outcome left (next_is_header data channel.receiver.queue) events (channel.poll_header data) := by
  generalize unread : channel.receiver.queue.map (·.2) ++ left = packets at plays
  cases plays with
  | packet => exact absurd rfl filled
  | @header id header rest _ later fits rest_plays =>
    have length : read_be (be 2 (header.length + 1)) = header.length + 1 :=
      Bytes.read_be_be_of_lt fits
    have more : read_be ((Content.encode_header (id, header) ++ rest).take 2) ≠ 0 := by
      rw [Content.encode_header, List.append_assoc, List.take_left' (Bytes.length_be 2 _), length]
      simp
    have polled : channel.poll_header (Content.encode_header (id, header) ++ rest) =
        some (.ok (.ready (some (.Header id header))), { channel with state := .Header rest }) := by
      rw [poll_header, Content.encode_header, List.append_assoc,
        Bytes.drain_to_append (Bytes.length_be 2 _)]
      simp only [Option.bind_eq_bind, Option.bind_some, length, Nat.add_sub_cancel]
      rw [if_neg (by omega), List.cons_append, ← List.singleton_append,
        Bytes.drain_to_append (show [id].length = 1 from rfl)]
      simp only [Option.bind_some]
      rw [Bytes.drain_to_append rfl]
      rfl
    rw [polled]
    rw [← unread] at rest_plays
    exact .header (.inl more) ⟨playing.connected, playing.taking, playing.sound, rest_plays⟩
  | headers_over rest =>
    have polled : channel.poll_header [0, 0] = poll_data { channel with state := .Data } := rfl
    rw [← unread] at rest
    have here : Playing left { channel with state := .Data } events :=
      ⟨playing.connected, playing.taking, playing.sound, rest⟩
    rw [polled]
    refine outcome_congr ?_ (here.data rfl)
    simp [next_is_header, read_be]

theorem Playing.outcome (playing : Playing left channel events) :
    Outcome left channel.HeadersOnly events channel.poll := by
  have plays := playing.plays
  unfold poll HeadersOnly
  cases state : channel.state with
  | Closed =>
    rw [state] at plays
    cases plays
  | Data => exact playing.data state
  | Header data =>
    rw [state] at plays
    cases data with
    | cons byte data => exact playing.header plays (by simp)
    | nil =>
      cases queue : channel.receiver.queue with
      | nil =>
        simp only [List.length_nil, if_true]
        rw [recv_packet_nothing queue ⟨playing.connected, playing.taking⟩]
        refine .waits trivial ?_ playing
        rintro rfl
        rw [queue] at plays
        cases plays
      | cons packet queue' =>
        obtain ⟨cmd, packet⟩ := packet
        have sound : ∀ other ∈ (cmd, packet) :: queue', other.1 = 0x9 := by
          rw [← queue]
          exact playing.sound
        have own : cmd = 0x9 := sound _ (.head _)
        simp only [List.length_nil, if_true]
        rw [recv_packet_next queue (by rw [own]; decide)]
        rw [queue] at plays
        cases plays with
        | packet filled rest =>
          have here : Playing left { channel with
              state := .Header packet, receiver := { channel.receiver with queue := queue' } } events :=
            ⟨playing.connected, playing.taking, fun other member => sound other (.tail _ member), rest⟩
          exact here.header rest filled

end Channel

end ConnectScrobbler
