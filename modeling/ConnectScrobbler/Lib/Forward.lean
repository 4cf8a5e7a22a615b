import ConnectScrobbler.Lib.Mpsc

/-! The writing half of a framed transport, as tokio-core has it, and a queue that is forwarded to it.
What the connection is going to take is part of the transport. -/

/-- A write would block, or fails, or takes so many elements and one more, if they are there. -/
inductive Write where
  | blocked
  | failed
  | takes (more : Nat)
  deriving DecidableEq, Repr

structure WriteError where
  deriving DecidableEq, Repr

inductive AsyncSink (β : Type) where
  | ready
  | notReady (item : β)
  deriving DecidableEq, Repr

/-- An encoder writes behind what is in the buffer, and does not look at that. -/
structure Encoder (C α β : Type) where
  encode : β → List α → C → Option (List α × C)
  appends : ∀ item buf codec, encode item buf codec =
    (encode item [] codec).map fun (bytes, codec) => (buf ++ bytes, codec)

namespace Encoder

variable {C α β : Type} {enc : Encoder C α β}

def encode_all (enc : Encoder C α β) (items : List β) (out : List α × C) : Option (List α × C) :=
  items.foldlM (fun (buf, codec) item => enc.encode item buf codec) out

theorem encode_behind {item : β} {buf buf' : List α} {codec codec' : C}
    (encoded : enc.encode item buf codec = some (buf', codec')) (front : List α) :
    enc.encode item (front ++ buf) codec = some (front ++ buf', codec') := by
  rw [enc.appends] at encoded ⊢
  obtain ⟨⟨bytes, next⟩, written, done⟩ := Option.map_eq_some_iff.mp encoded
  cases done
  simp only [written, Option.map_some, List.append_assoc]

theorem encode_refused {item : β} {buf front : List α} {codec : C}
    (refused : enc.encode item buf codec = none) : enc.encode item front codec = none := by
  rw [enc.appends] at refused ⊢
  rw [Option.map_eq_none_iff.mp refused, Option.map_none]

theorem encode_all_snoc {items : List β} {item : β} {out out' : List α × C}
    (before : enc.encode_all items out = some out') :
    enc.encode_all (items ++ [item]) out = enc.encode item out'.1 out'.2 := by
  unfold encode_all at *
  rw [List.foldlM_append, before]
  simp

end Encoder

/-- Above this size the buffer takes no more. -/
def BACKPRESSURE_BOUNDARY : Nat := 8 * 1024

structure FramedSink (C α : Type) where
  codec : C
  wr : List α
  sent : List α
  downstream : List Write
  deriving DecidableEq, Repr

namespace FramedSink

variable {C α β : Type}

/-- Write the buffer out; at the end of its script the connection takes everything. -/
def write_loop (codec : C) (sent wr : List α) :
    List Write → Poll Unit WriteError × FramedSink C α
  | [] => (.ok (.ready ()), ⟨codec, [], sent ++ wr, []⟩)
  | outcome :: downstream =>
    if wr = [] then (.ok (.ready ()), ⟨codec, wr, sent, outcome :: downstream⟩)
    else match outcome with
      | .blocked => (.ok .notReady, ⟨codec, wr, sent, downstream⟩)
      | .failed => (.error {}, ⟨codec, wr, sent, downstream⟩)
      | .takes more =>
        write_loop codec (sent ++ wr.take (more + 1)) (wr.drop (more + 1)) downstream

def poll_complete (sink : FramedSink C α) : Poll Unit WriteError × FramedSink C α :=
  write_loop sink.codec sink.sent sink.wr sink.downstream

def encode (enc : Encoder C α β) (item : β) (sink : FramedSink C α) :
    Option (Except WriteError (AsyncSink β) × FramedSink C α) := do
  let (wr, codec) ← enc.encode item sink.wr sink.codec
  return (.ok .ready, { sink with wr, codec })

/-- A full buffer is written out first; if it is still full, then the item is given back. -/
def start_send (enc : Encoder C α β) (item : β) (sink : FramedSink C α) :
    Option (Except WriteError (AsyncSink β) × FramedSink C α) :=
  if sink.wr.length > BACKPRESSURE_BOUNDARY then
    match sink.poll_complete with
    | (.error e, sink) => return (.error e, sink)
    | (.ok _, sink) =>
      if sink.wr.length > BACKPRESSURE_BOUNDARY then return (.ok (.notReady item), sink)
      else sink.encode enc item
  else sink.encode enc item

/-- Whatever the connection takes, it takes from the front of the buffer. -/
theorem write_loop_moves (codec : C) (sent wr : List α) (downstream : List Write) :
    (write_loop codec sent wr downstream).2.sent ++ (write_loop codec sent wr downstream).2.wr =
        sent ++ wr ∧
      (write_loop codec sent wr downstream).2.codec = codec ∧
      sent <+: (write_loop codec sent wr downstream).2.sent ∧
      ((write_loop codec sent wr downstream).1 = .ok (.ready ()) →
        (write_loop codec sent wr downstream).2.wr = []) := by
  induction downstream generalizing sent wr with
  | nil => exact ⟨List.append_nil _, rfl, List.prefix_append _ _, fun _ => rfl⟩
  | cons outcome downstream ih =>
    simp only [write_loop]
    split
    · rename_i empty
      exact ⟨rfl, rfl, List.prefix_rfl, fun _ => empty⟩
    · cases outcome with
      | blocked => exact ⟨rfl, rfl, List.prefix_rfl, nofun⟩
      | failed => exact ⟨rfl, rfl, List.prefix_rfl, nofun⟩
      | takes more =>
        obtain ⟨whole, same, grown, done⟩ := ih (sent ++ wr.take (more + 1)) (wr.drop (more + 1))
        refine ⟨?_, same, (List.prefix_append _ _).trans grown, done⟩
        rw [whole, List.append_assoc, List.take_append_drop]

/-- Writing fails only where the connection does. -/
theorem write_loop_fine (codec : C) (sent wr : List α) {downstream : List Write}
    (fine : .failed ∉ downstream) :
    (∀ e, (write_loop codec sent wr downstream).1 ≠ .error e) ∧
      .failed ∉ (write_loop codec sent wr downstream).2.downstream := by
  induction downstream generalizing sent wr with
  | nil => exact ⟨nofun, fine⟩
  | cons outcome downstream ih =>
    simp only [write_loop]
    split
    · exact ⟨nofun, fine⟩
    · cases outcome with
      | blocked => exact ⟨nofun, fun later => fine (.tail _ later)⟩
      | failed => exact absurd (.head _) fine
      | takes more => exact ih _ _ fun later => fine (.tail _ later)

end FramedSink

/-- A queue that is forwarded to a transport, with the item that the transport has given back. -/
structure Forward (C α β : Type) where
  buffered : Option β
  stream : Receiver β
  sink : FramedSink C α
  deriving DecidableEq, Repr

namespace Forward

variable {C α β : Type}

def new (sink : FramedSink C α) : Forward C α β := ⟨none, .new, sink⟩

/-- All that is queued has been encoded; write it out. The queue may have come to its end. -/
def complete (stream : Receiver β) (sink : FramedSink C α) :
    Poll Unit WriteError × Forward C α β :=
  match sink.poll_complete with
  | (.error e, sink) => (.error e, ⟨none, stream, sink⟩)
  | (.ok .notReady, sink) => (.ok .notReady, ⟨none, stream, sink⟩)
  | (.ok (.ready ()), sink) =>
    (.ok (if stream.connected && stream.taking then .notReady else .ready ()), ⟨none, stream, sink⟩)

/-- The loop of `poll`, over what is in the queue. -/
def drive (enc : Encoder C α β) (stream : Receiver β) (sink : FramedSink C α) :
    List β → Option (Poll Unit WriteError × Forward C α β)
  | [] => return complete { stream with queue := [] } sink
  | item :: queue => do
    match ← sink.start_send enc item with
    | (.error e, sink) => return (.error e, ⟨none, { stream with queue }, sink⟩)
    | (.ok (.notReady item), sink) => return (.ok .notReady, ⟨some item, { stream with queue }, sink⟩)
    | (.ok .ready, sink) => drive enc stream sink queue

def poll (enc : Encoder C α β) (f : Forward C α β) :
    Option (Poll Unit WriteError × Forward C α β) :=
  drive enc f.stream f.sink (f.buffered.toList ++ f.stream.queue)

/-- What the transport has written, and what waits in its buffer, is the encoding of the first of the
items; the others wait in their order. -/
def Carries (enc : Encoder C α β) (start : List α × C) (items : List β) (f : Forward C α β) : Prop :=
  ∃ done, items = done ++ (f.buffered.toList ++ f.stream.queue) ∧
    enc.encode_all done start = some (f.sink.sent ++ f.sink.wr, f.sink.codec)

section Carries

variable {enc : Encoder C α β} {start : List α × C} {items : List β}

theorem new_carries (enc : Encoder C α β) (sink : FramedSink C α) :
    (new sink : Forward C α β).Carries enc (sink.sent ++ sink.wr, sink.codec) [] :=
  ⟨[], rfl, rfl⟩

/-- An item that goes into the buffer is the next one to be encoded. -/
theorem encode_carries {item : β} {done : List β} {sink sink' : FramedSink C α}
    {result : Except WriteError (AsyncSink β)}
    (encoded : enc.encode_all done start = some (sink.sent ++ sink.wr, sink.codec))
    (called : sink.encode enc item = some (result, sink')) :
    result = .ok .ready ∧ sink'.sent = sink.sent ∧
      enc.encode_all (done ++ [item]) start = some (sink'.sent ++ sink'.wr, sink'.codec) := by
  obtain ⟨⟨wr, codec⟩, written, called⟩ := Option.bind_eq_some_iff.mp called
  cases called
  refine ⟨rfl, rfl, ?_⟩
  rw [Encoder.encode_all_snoc encoded]
  exact Encoder.encode_behind written sink.sent

/-- A transport takes an item and encodes it, gives it back, or fails. -/
theorem start_send_cases {item : β} {done : List β} {sink sink' : FramedSink C α}
    {result : Except WriteError (AsyncSink β)}
    (encoded : enc.encode_all done start = some (sink.sent ++ sink.wr, sink.codec))
    (called : sink.start_send enc item = some (result, sink')) :
    sink.sent <+: sink'.sent ∧
      (result = .ok .ready ∧
          enc.encode_all (done ++ [item]) start = some (sink'.sent ++ sink'.wr, sink'.codec) ∨
        result = .ok (.notReady item) ∧
          enc.encode_all done start = some (sink'.sent ++ sink'.wr, sink'.codec) ∨
        ∃ e, result = .error e) := by
  unfold FramedSink.start_send at called
  split at called
  · obtain ⟨whole, same, grown, _⟩ :=
      FramedSink.write_loop_moves sink.codec sink.sent sink.wr sink.downstream
    have kept : enc.encode_all done start =
        some (sink.poll_complete.2.sent ++ sink.poll_complete.2.wr, sink.poll_complete.2.codec) := by
      rw [FramedSink.poll_complete, whole, same]
      exact encoded
    split at called
    · rename_i e flushed polled
      cases called
      rw [FramedSink.poll_complete] at polled
      rw [polled] at grown
      exact ⟨grown, .inr (.inr ⟨e, rfl⟩)⟩
    · rename_i flushed polled
      rw [polled] at kept
      rw [FramedSink.poll_complete] at polled
      rw [polled] at grown
      split at called
      · cases called
        exact ⟨grown, .inr (.inl ⟨rfl, kept⟩)⟩
      · obtain ⟨ready, same, encoded⟩ := encode_carries kept called
        exact ⟨same ▸ grown, .inl ⟨ready, encoded⟩⟩
  · obtain ⟨ready, same, encoded⟩ := encode_carries encoded called
    exact ⟨same ▸ List.prefix_rfl, .inl ⟨ready, encoded⟩⟩

theorem complete_carries {done : List β} (stream : Receiver β) {sink : FramedSink C α}
    (encoded : enc.encode_all done start = some (sink.sent ++ sink.wr, sink.codec))
    (empty : stream.queue = []) :
    sink.sent <+: (complete stream sink).2.sink.sent ∧
      (complete stream sink).2.Carries enc start done := by
  obtain ⟨whole, same, grown, _⟩ :=
    FramedSink.write_loop_moves sink.codec sink.sent sink.wr sink.downstream
  have kept : enc.encode_all done start =
      some (sink.poll_complete.2.sent ++ sink.poll_complete.2.wr, sink.poll_complete.2.codec) := by
    rw [FramedSink.poll_complete, whole, same]
    exact encoded
  rw [← FramedSink.poll_complete] at grown
  unfold complete
  split
  all_goals
    rename_i polled
    rw [polled] at kept grown
    exact ⟨grown, done, by simp [empty], kept⟩

/-- Polling neither loses an item nor has one overtake another, unless the connection fails. -/
theorem drive_carries {f : Forward C α β} {stream : Receiver β} {result : Poll Unit WriteError}
    {done queue : List β} {sink : FramedSink C α}
    (encoded : enc.encode_all done start = some (sink.sent ++ sink.wr, sink.codec))
    (polled : drive enc stream sink queue = some (result, f)) :
    sink.sent <+: f.sink.sent ∧
      ((∃ e, result = .error e) ∨ f.Carries enc start (done ++ queue)) := by
  induction queue generalizing done sink with
  | nil =>
    have carried := complete_carries ({ stream with queue := [] } : Receiver β) encoded rfl
    rw [Option.some.inj polled] at carried
    rw [List.append_nil]
    exact ⟨carried.1, .inr carried.2⟩
  | cons item queue ih =>
    obtain ⟨⟨outcome, sink'⟩, called, polled⟩ := Option.bind_eq_some_iff.mp polled
    obtain ⟨grown, ⟨rfl, encoded⟩ | ⟨rfl, encoded⟩ | ⟨e, rfl⟩⟩ := start_send_cases encoded called
    · obtain ⟨more, carried⟩ := ih encoded polled
      rw [List.append_assoc] at carried
      exact ⟨grown.trans more, carried⟩
    · cases polled
      exact ⟨grown, .inr ⟨done, rfl, encoded⟩⟩
    · cases polled
      exact ⟨grown, .inl ⟨e, rfl⟩⟩

/-- Where the next item can be encoded, a transport does not panic on it. -/
theorem start_send_returns {item : β} {done : List β} {sink : FramedSink C α}
    (encoded : enc.encode_all done start = some (sink.sent ++ sink.wr, sink.codec))
    (possible : enc.encode_all (done ++ [item]) start ≠ none) :
    sink.start_send enc item ≠ none := by
  have written (buf : List α) : enc.encode item buf sink.codec ≠ none := by
    rw [Encoder.encode_all_snoc encoded] at possible
    intro refused
    exact possible (Encoder.encode_refused refused)
  have encodes (sink' : FramedSink C α) (same : sink'.codec = sink.codec) :
      sink'.encode enc item ≠ none := by
    obtain ⟨out, there⟩ := Option.ne_none_iff_exists'.mp (written sink'.wr)
    rw [FramedSink.encode, same, there]
    nofun
  have same := (FramedSink.write_loop_moves sink.codec sink.sent sink.wr sink.downstream).2.1
  unfold FramedSink.start_send
  split
  · split
    · nofun
    · rename_i flushed polled
      rw [← FramedSink.poll_complete, polled] at same
      split
      · nofun
      · exact encodes flushed same
  · exact encodes sink rfl

/-- Where all the items can be encoded, a poll does not panic. -/
theorem drive_returns {stream : Receiver β} {done queue : List β} {sink : FramedSink C α}
    (encoded : enc.encode_all done start = some (sink.sent ++ sink.wr, sink.codec))
    (possible : enc.encode_all (done ++ queue) start ≠ none) :
    drive enc stream sink queue ≠ none := by
  induction queue generalizing done sink with
  | nil => nofun
  | cons item queue ih =>
    rw [List.append_cons] at possible
    have first : enc.encode_all (done ++ [item]) start ≠ none := by
      intro refused
      apply possible
      unfold Encoder.encode_all at refused ⊢
      rw [List.foldlM_append, refused]
      rfl
    obtain ⟨⟨outcome, sink'⟩, called⟩ :=
      Option.ne_none_iff_exists'.mp (start_send_returns encoded first)
    rw [drive, called]
    obtain ⟨_, ⟨rfl, encoded⟩ | ⟨rfl, _⟩ | ⟨e, rfl⟩⟩ := start_send_cases encoded called
    · exact ih encoded possible
    · nofun
    · nofun

theorem Carries.returns {f : Forward C α β} (carries : f.Carries enc start items)
    (possible : enc.encode_all items start ≠ none) : f.poll enc ≠ none := by
  obtain ⟨done, whole, encoded⟩ := carries
  rw [whole] at possible
  exact drive_returns encoded possible

theorem Carries.poll {f f' : Forward C α β} {result : Poll Unit WriteError}
    (carries : f.Carries enc start items) (polled : f.poll enc = some (result, f')) :
    f.sink.sent <+: f'.sink.sent ∧ ((∃ e, result = .error e) ∨ f'.Carries enc start items) := by
  obtain ⟨done, whole, encoded⟩ := carries
  rw [whole]
  exact drive_carries encoded polled

end Carries

/-- Polling takes from the queue, and does not close it. -/
theorem drive_stream {enc : Encoder C α β} {stream : Receiver β} {queue : List β}
    {sink : FramedSink C α} {result : Poll Unit WriteError} {f : Forward C α β}
    (polled : drive enc stream sink queue = some (result, f)) :
    f.stream.taking = stream.taking ∧ f.stream.connected = stream.connected ∧
      (result = .ok (.ready ()) → stream.taking = true → stream.connected = false) := by
  induction queue generalizing sink with
  | nil =>
    have ended : complete { stream with queue := [] } sink = (result, f) := Option.some.inj polled
    unfold complete at ended
    split at ended
    · cases ended
      exact ⟨rfl, rfl, nofun⟩
    · cases ended
      exact ⟨rfl, rfl, nofun⟩
    · cases ended
      refine ⟨rfl, rfl, fun ready taking => ?_⟩
      by_contra connected
      simp [taking, connected] at ready
  | cons item queue ih =>
    obtain ⟨⟨outcome, sink'⟩, called, polled⟩ := Option.bind_eq_some_iff.mp polled
    match outcome, polled with
    | .error _, rfl => exact ⟨rfl, rfl, nofun⟩
    | .ok (.notReady _), rfl => exact ⟨rfl, rfl, nofun⟩
    | .ok .ready, polled => exact ih polled

theorem start_send_fine {enc : Encoder C α β} {item : β} {sink sink' : FramedSink C α}
    {result : Except WriteError (AsyncSink β)} (fine : .failed ∉ sink.downstream)
    (called : sink.start_send enc item = some (result, sink')) :
    (∀ e, result ≠ .error e) ∧ .failed ∉ sink'.downstream := by
  have encodes {sink : FramedSink C α} (fine : .failed ∉ sink.downstream)
      (called : sink.encode enc item = some (result, sink')) :
      (∀ e, result ≠ .error e) ∧ .failed ∉ sink'.downstream := by
    obtain ⟨⟨wr, codec⟩, _, called⟩ := Option.bind_eq_some_iff.mp called
    cases called
    exact ⟨nofun, fine⟩
  obtain ⟨flushed, fine'⟩ := FramedSink.write_loop_fine sink.codec sink.sent sink.wr fine
  rw [← FramedSink.poll_complete] at flushed fine'
  unfold FramedSink.start_send at called
  split at called
  · split at called
    · rename_i e sink1 polled
      rw [polled] at flushed
      exact absurd rfl (flushed e)
    · rename_i sink1 polled
      rw [polled] at fine'
      split at called
      · cases called
        exact ⟨nofun, fine'⟩
      · exact encodes fine' called
  · exact encodes fine called

/-- Forwarding fails only where the connection does. -/
theorem drive_fine {enc : Encoder C α β} {stream : Receiver β} {queue : List β}
    {sink : FramedSink C α} {result : Poll Unit WriteError} {f : Forward C α β}
    (fine : .failed ∉ sink.downstream) (polled : drive enc stream sink queue = some (result, f)) :
    ∀ e, result ≠ .error e := by
  induction queue generalizing sink with
  | nil =>
    have ended : complete { stream with queue := [] } sink = (result, f) := Option.some.inj polled
    have flushed := (FramedSink.write_loop_fine sink.codec sink.sent sink.wr fine).1
    rw [← FramedSink.poll_complete] at flushed
    unfold complete at ended
    split at ended
    · rename_i e sink1 polled
      rw [polled] at flushed
      exact absurd rfl (flushed e)
    · cases ended
      exact nofun
    · cases ended
      exact nofun
  | cons item queue ih =>
    obtain ⟨⟨outcome, sink'⟩, called, polled⟩ := Option.bind_eq_some_iff.mp polled
    obtain ⟨sends, fine⟩ := start_send_fine fine called
    match outcome, polled with
    | .error e, _ => exact absurd rfl (sends e)
    | .ok (.notReady _), rfl => exact nofun
    | .ok .ready, polled => exact ih fine polled

/-- What has been written out, once the buffer is empty and nothing waits for it. -/
def Idle (f : Forward C α β) : Prop := f.buffered = none ∧ f.stream.queue = [] ∧ f.sink.wr = []

theorem Carries.idle {enc : Encoder C α β} {start : List α × C} {items : List β} {f : Forward C α β}
    (carries : f.Carries enc start items) (idle : f.Idle) :
    enc.encode_all items start = some (f.sink.sent, f.sink.codec) := by
  obtain ⟨done, whole, encoded⟩ := carries
  obtain ⟨none, empty, out⟩ := idle
  rw [none, empty] at whole
  rw [out] at encoded
  simp only [Option.toList_none, List.append_nil] at whole encoded
  rw [whole, encoded]

section Idle

variable {enc : Encoder C α β} {f : Forward C α β}

theorem complete_idle (stream : Receiver β) {sink : FramedSink C α} (empty : stream.queue = [])
    (done : (complete stream sink).1 = .ok (.ready ())) : (complete stream sink).2.Idle := by
  have written := (FramedSink.write_loop_moves sink.codec sink.sent sink.wr sink.downstream).2.2.2
  rw [← FramedSink.poll_complete] at written
  unfold complete at done ⊢
  split
  · rename_i polled
    rw [polled] at done
    cases done
  · rename_i polled
    rw [polled] at done
    cases done
  · rename_i polled
    rw [polled] at written
    exact ⟨rfl, empty, written rfl⟩

/-- A queue that has come to its end has been written out. -/
theorem drive_idle {stream : Receiver β} {queue : List β} {sink : FramedSink C α}
    (polled : drive enc stream sink queue = some (.ok (.ready ()), f)) : f.Idle := by
  induction queue generalizing sink with
  | nil =>
    have ended : complete { stream with queue := [] } sink = (.ok (.ready ()), f) := Option.some.inj polled
    have done := complete_idle ({ stream with queue := [] } : Receiver β) rfl (by rw [ended])
    rw [ended] at done
    exact done
  | cons item queue ih =>
    obtain ⟨⟨outcome, sink'⟩, called, polled⟩ := Option.bind_eq_some_iff.mp polled
    match outcome, polled with
    | .ok .ready, polled => exact ih polled

theorem complete_quiet (stream : Receiver β) {sink : FramedSink C α} (empty : stream.queue = [])
    (quiet : sink.downstream = []) : (complete stream sink).2.Idle ∧
      (stream.connected = false → (complete stream sink).1 = .ok (.ready ())) := by
  have written : sink.poll_complete = (.ok (.ready ()), ⟨sink.codec, [], sink.sent ++ sink.wr, []⟩) := by
    rw [FramedSink.poll_complete, quiet]
    rfl
  unfold complete
  rw [written]
  refine ⟨⟨rfl, empty, rfl⟩, fun dropped => ?_⟩
  simp [dropped]

theorem start_send_quiet {item : β} {sink sink' : FramedSink C α}
    {result : Except WriteError (AsyncSink β)} (quiet : sink.downstream = [])
    (called : sink.start_send enc item = some (result, sink')) :
    result = .ok .ready ∧ sink'.downstream = [] := by
  have written : sink.poll_complete = (.ok (.ready ()), ⟨sink.codec, [], sink.sent ++ sink.wr, []⟩) := by
    rw [FramedSink.poll_complete, quiet]
    rfl
  unfold FramedSink.start_send at called
  rw [written] at called
  split at called
  · obtain ⟨⟨wr, codec⟩, _, called⟩ := Option.bind_eq_some_iff.mp called
    cases called
    exact ⟨rfl, rfl⟩
  · obtain ⟨⟨wr, codec⟩, _, called⟩ := Option.bind_eq_some_iff.mp called
    cases called
    exact ⟨rfl, quiet⟩

/-- While the connection takes everything, one poll writes everything out, and a queue that is
not going to get more comes to its end. -/
theorem drive_quiet {stream : Receiver β} {queue : List β} {sink : FramedSink C α}
    {result : Poll Unit WriteError} (quiet : sink.downstream = [])
    (polled : drive enc stream sink queue = some (result, f)) :
    f.Idle ∧ (stream.connected = false → result = .ok (.ready ())) := by
  induction queue generalizing sink with
  | nil =>
    have ended : complete { stream with queue := [] } sink = (result, f) := Option.some.inj polled
    have done := complete_quiet ({ stream with queue := [] } : Receiver β) rfl quiet
    rw [ended] at done
    exact done
  | cons item queue ih =>
    obtain ⟨⟨outcome, sink'⟩, called, polled⟩ := Option.bind_eq_some_iff.mp polled
    obtain ⟨rfl, quiet⟩ := start_send_quiet quiet called
    exact ih quiet polled

end Idle

end Forward
