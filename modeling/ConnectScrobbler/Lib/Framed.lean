import ConnectScrobbler.Lib.Future
import ConnectScrobbler.Lib.Incremental

/-! The reading half of a framed transport, as tokio-core has it, and tasks that handle its frames as
they come. What the connection is going to give is part of the transport. -/

/-- How reading to the end ends: it would block, the connection is closed, or it is broken. -/
inductive Ends where
  | blocked
  | closed
  | broken
  deriving DecidableEq, Repr

structure Reading (α : Type) where
  bytes : List α
  ends : Ends
  deriving DecidableEq, Repr

inductive FrameError (E : Type) where
  | codec (e : E)
  | remaining
  | broken
  deriving DecidableEq, Repr

structure Framed (S α : Type) where
  codec : S
  rd : List α
  is_readable : Bool
  eof : Bool
  upstream : List (Reading α)
  deriving DecidableEq, Repr

namespace Framed

variable {O P S T α β E : Type}

section Poll

variable (decode : S → List α → Option (Except E (Option β) × S × List α))

/-- Look for a frame in what has been read; without one, go on. -/
def look (codec : S) (rd : List α) (upstream : List (Reading α))
    (go_on : S → List α → Option (Poll (Option β) (FrameError E) × Framed S α)) :
    Option (Poll (Option β) (FrameError E) × Framed S α) := do
  match ← decode codec rd with
  | (.error e, codec, rd) => return (.error (.codec e), ⟨codec, rd, true, false, upstream⟩)
  | (.ok (some frame), codec, rd) => return (.ok (.ready (some frame)), ⟨codec, rd, true, false, upstream⟩)
  | (.ok none, codec, rd) => go_on codec rd

/-- The connection is closed: what is left must be whole frames. -/
def last (codec : S) (rd : List α) (upstream : List (Reading α)) :
    Option (Poll (Option β) (FrameError E) × Framed S α) :=
  if rd = [] then return (.ok (.ready none), ⟨codec, rd, true, true, upstream⟩)
  else do
    match ← decode codec rd with
    | (.error e, codec, rd) => return (.error (.codec e), ⟨codec, rd, true, true, upstream⟩)
    | (.ok (some frame), codec, rd) => return (.ok (.ready (some frame)), ⟨codec, rd, true, true, upstream⟩)
    | (.ok none, codec, rd) => return (.error .remaining, ⟨codec, rd, true, true, upstream⟩)

/-- Read, and look again. -/
def fill (codec : S) (rd : List α) :
    List (Reading α) → Option (Poll (Option β) (FrameError E) × Framed S α)
  | [] => return (.ok .notReady, ⟨codec, rd, false, false, []⟩)
  | reading :: upstream =>
    match reading.ends with
    | .broken => return (.error .broken, ⟨codec, rd ++ reading.bytes, false, false, upstream⟩)
    | .closed => last decode codec (rd ++ reading.bytes) upstream
    | .blocked =>
      if reading.bytes = [] then return (.ok .notReady, ⟨codec, rd, false, false, upstream⟩)
      else look decode codec (rd ++ reading.bytes) upstream fun codec rd => fill codec rd upstream

def poll (f : Framed S α) : Option (Poll (Option β) (FrameError E) × Framed S α) :=
  if f.is_readable then
    if f.eof then last decode f.codec f.rd f.upstream
    else look decode f.codec f.rd f.upstream fun codec rd => fill decode codec rd f.upstream
  else if f.eof then none
  else fill decode f.codec f.rd f.upstream

end Poll

/-- What the connection gives until it would block, and what it is going to give after that. -/
def taken : List (Reading α) → List α × Option (List (Reading α))
  | [] => ([], some [])
  | reading :: upstream =>
    match reading.ends with
    | .broken => ([], none)
    | .closed => (reading.bytes, none)
    | .blocked =>
      if reading.bytes = [] then ([], some upstream)
      else (reading.bytes ++ (taken upstream).1, (taken upstream).2)

def coming (f : Framed S α) : List α × Option (List (Reading α)) :=
  if f.eof then ([], none) else taken f.upstream

/-- The frames that are there, and the transport that then waits; no value if it never will. -/
def outlook (d : Incremental S α β E) (codec : S) (rd : List α)
    (coming : List α × Option (List (Reading α))) : Call β (Framed S α) :=
  let drained := d.drain codec (rd ++ coming.1)
  ⟨drained.log,
    match drained.value, coming.2 with
    | some (.ok (codec, rd)), some upstream => some ⟨codec, rd, false, false, upstream⟩
    | _, _ => none⟩

/-- Either frames are looked for first, or there are none in what has been read. -/
def Primed (d : Incremental S α β E) (f : Framed S α) : Prop :=
  f.is_readable = true ∨ f.eof = false ∧ d.decode f.codec f.rd = some (.ok none, f.codec, f.rd)

/-- What a poll gives is the next frame of the outlook, or its end. -/
def Foretold (d : Incremental S α β E) (view : Call β (Framed S α)) :
    Option (Poll (Option β) (FrameError E) × Framed S α) → Prop
  | some (.ok (.ready (some frame)), f) =>
    f.Primed d ∧
      view = ⟨frame :: (outlook d f.codec f.rd f.coming).log, (outlook d f.codec f.rd f.coming).value⟩
  | some (.ok .notReady, f) => f.Primed d ∧ view = ⟨[], some f⟩
  | some (.ok (.ready none), _) | some (.error _, _) | none => view = ⟨[], none⟩

section Outlook

variable {d : Incremental S α β E} {codec : S} {rd : List α} {upstream : List (Reading α)}

theorem outlook_more (bytes : List α) (coming : List α × Option (List (Reading α))) :
    outlook d codec rd (bytes ++ coming.1, coming.2) = outlook d codec (rd ++ bytes) coming := by
  simp only [outlook, List.append_assoc]

theorem outlook_ends (waits : d.decode codec rd = some (.ok none, codec, rd)) :
    outlook d codec rd ([], none) = ⟨[], none⟩ := by
  simp only [outlook, List.append_nil, Incremental.drain_waits waits]

theorem outlook_waits (waits : d.decode codec rd = some (.ok none, codec, rd)) :
    outlook d codec rd ([], some upstream) = ⟨[], some ⟨codec, rd, false, false, upstream⟩⟩ := by
  simp only [outlook, List.append_nil, Incremental.drain_waits waits]

/-- There is no frame in nothing. -/
theorem outlook_nothing : outlook d codec [] ([], none) = ⟨[], none⟩ := by
  rcases (d.settled codec []).here with
    ⟨here, _⟩ | ⟨_, _, _, here, _⟩ | ⟨_, _, _, shorter, _, _⟩ | ⟨_, _, here, _⟩
  · simp only [outlook, List.append_nil, Incremental.drain_stops here]
  · simp only [outlook, List.append_nil, Incremental.drain_fails here]
  · exact absurd shorter (Nat.not_lt_zero _)
  · simp only [outlook, List.append_nil, Incremental.drain_waits here]

theorem last_foretold (d : Incremental S α β E) (codec : S) (rd : List α)
    (upstream : List (Reading α)) :
    Foretold d (outlook d codec rd ([], none)) (last d.decode codec rd upstream) := by
  unfold last
  split
  · rename_i empty
    subst empty
    exact outlook_nothing
  · rcases (d.settled codec rd).here with
      ⟨here, _⟩ | ⟨_, _, _, here, _⟩ | ⟨_, codec', rd', _, here, _⟩ | ⟨_, _, here, _⟩
    · rw [here]
      simp only [outlook, List.append_nil, Incremental.drain_stops here]
      rfl
    · rw [here]
      simp only [outlook, List.append_nil, Incremental.drain_fails here]
      rfl
    · rw [here]
      refine ⟨.inl rfl, ?_⟩
      simp only [outlook, List.append_nil, Incremental.drain_yields here, coming, if_true]
    · rw [here]
      simp only [outlook, List.append_nil, Incremental.drain_waits here]
      rfl

theorem look_foretold {go_on : S → List α → Option (Poll (Option β) (FrameError E) × Framed S α)}
    (foretold : ∀ codec rd, d.decode codec rd = some (.ok none, codec, rd) →
      Foretold d (outlook d codec rd (taken upstream)) (go_on codec rd)) :
    Foretold d (outlook d codec rd (taken upstream)) (look d.decode codec rd upstream go_on) := by
  unfold look
  rcases (d.settled codec rd).here with
    ⟨here, same⟩ | ⟨_, _, _, here, same⟩ | ⟨_, _, _, _, here, same⟩ | ⟨codec', rd', here, same⟩
  · rw [here]
    simp only [outlook, Incremental.drain_stops (same _)]
    rfl
  · rw [here]
    simp only [outlook, Incremental.drain_fails (same _)]
    rfl
  · rw [here]
    refine ⟨.inl rfl, ?_⟩
    simp only [outlook, Incremental.drain_yields (same _)]
    rfl
  · rw [here]
    have waits := same []
    rw [List.append_nil, List.append_nil, here] at waits
    have later := foretold codec' rd' waits.symm
    simp only [outlook, Incremental.drain_congr (same _)] at later ⊢
    exact later

theorem fill_foretold (d : Incremental S α β E) (waits : d.decode codec rd = some (.ok none, codec, rd))
    (upstream : List (Reading α)) :
    Foretold d (outlook d codec rd (taken upstream)) (fill d.decode codec rd upstream) := by
  induction upstream generalizing codec rd with
  | nil => exact ⟨.inr ⟨rfl, waits⟩, outlook_waits waits⟩
  | cons reading upstream ih =>
    rw [fill, taken]
    cases reading.ends with
    | broken => exact outlook_ends waits
    | closed =>
      have more : outlook d codec rd (reading.bytes ++ [], none) =
        outlook d codec (rd ++ reading.bytes) ([], none) := outlook_more reading.bytes ([], none)
      rw [List.append_nil] at more
      show Foretold d (outlook d codec rd (reading.bytes, none)) _
      rw [more]
      exact last_foretold d codec (rd ++ reading.bytes) upstream
    | blocked =>
      dsimp only
      split
      · exact ⟨.inr ⟨rfl, waits⟩, outlook_waits waits⟩
      · rw [outlook_more]
        exact look_foretold fun codec rd waits => ih waits

end Outlook

theorem poll_foretold (d : Incremental S α β E) {f : Framed S α} (primed : f.Primed d) :
    Foretold d (outlook d f.codec f.rd f.coming) (f.poll d.decode) := by
  unfold poll coming
  by_cases readable : f.is_readable = true
  · rw [if_pos readable]
    split
    · exact last_foretold d f.codec f.rd f.upstream
    · exact look_foretold fun codec rd waits => fill_foretold d waits f.upstream
  · obtain ⟨open_, waits⟩ := primed.resolve_left readable
    rw [if_neg readable, open_]
    exact fill_foretold d waits f.upstream

/-! What the decoder does not look at, reading does not change. -/

def map (g : S → S) (f : Framed S α) : Framed S α := { f with codec := g f.codec }

section Blind

variable {decode : S → List α → Option (Except E (Option β) × S × List α)} {g : S → S}
  (blind : ∀ codec rd, decode (g codec) rd =
    (decode codec rd).map fun (result, codec, rd) => (result, g codec, rd))

include blind

theorem last_map (codec : S) (rd : List α) (upstream : List (Reading α)) :
    last decode (g codec) rd upstream =
      (last decode codec rd upstream).map fun (result, f) => (result, f.map g) := by
  unfold last
  split
  · rfl
  · rw [blind]
    cases decode codec rd with
    | none => rfl
    | some called =>
      obtain ⟨result, codec', rd'⟩ := called
      match result with
      | .error _ => rfl
      | .ok none => rfl
      | .ok (some _) => rfl

theorem look_map {codec : S} {rd : List α} {upstream : List (Reading α)}
    {go_on : S → List α → Option (Poll (Option β) (FrameError E) × Framed S α)}
    (later : ∀ codec rd, go_on (g codec) rd =
      (go_on codec rd).map fun (result, f) => (result, f.map g)) :
    look decode (g codec) rd upstream go_on =
      (look decode codec rd upstream go_on).map fun (result, f) => (result, f.map g) := by
  unfold look
  rw [blind]
  cases decode codec rd with
  | none => rfl
  | some called =>
    obtain ⟨result, codec', rd'⟩ := called
    match result with
    | .error _ => rfl
    | .ok none => exact later codec' rd'
    | .ok (some _) => rfl

theorem fill_map (codec : S) (rd : List α) (upstream : List (Reading α)) :
    fill decode (g codec) rd upstream =
      (fill decode codec rd upstream).map fun (result, f) => (result, f.map g) := by
  induction upstream generalizing codec rd with
  | nil => rfl
  | cons reading upstream ih =>
    rw [fill, fill]
    cases reading.ends with
    | broken => rfl
    | closed => exact last_map blind codec (rd ++ reading.bytes) upstream
    | blocked =>
      dsimp only
      split
      · rfl
      · exact look_map blind fun codec rd => ih codec rd

theorem poll_map (f : Framed S α) :
    (f.map g).poll decode = (f.poll decode).map fun (result, f) => (result, f.map g) := by
  unfold poll
  show (if f.is_readable = true then if f.eof = true then _ else _ else if f.eof = true then _ else _) = _
  split
  · split
    · exact last_map blind f.codec f.rd f.upstream
    · exact look_map blind fun codec rd => fill_map blind codec rd f.upstream
  · split
    · rfl
    · exact fill_map blind f.codec f.rd f.upstream

end Blind

/-! Whatever a poll has taken, the rest of the stream is decoded as if it had not been cut there. -/

/-- From here on the connection has given some more, and these frames were in it. -/
def Reads (d : Incremental S α β E) (codec : S) (rd : List α) (upstream : List (Reading α))
    (frames : List β) (f : Framed S α) : Prop :=
  ∃ before, upstream = before ++ f.upstream ∧ ∀ more,
    d.drain codec (rd ++ (before.flatMap Reading.bytes ++ more)) =
      ⟨frames ++ (d.drain f.codec (f.rd ++ more)).log, (d.drain f.codec (f.rd ++ more)).value⟩

/-- The frame that a poll has given. -/
def given : Async (Option β) → List β
  | .ready frame => frame.toList
  | .notReady => []

section Reads

variable {d : Incremental S α β E} {codec : S} {rd : List α} {upstream : List (Reading α)}
  {result : Async (Option β)} {f : Framed S α}

theorem reads_here (codec : S) (rd : List α) (readable eof : Bool) (upstream : List (Reading α)) :
    Reads d codec rd upstream [] ⟨codec, rd, readable, eof, upstream⟩ :=
  ⟨[], rfl, fun _ => rfl⟩

theorem reads_frame {codec' : S} {rd' : List α} {frame : β} (readable eof : Bool)
    (same : ∀ more, d.decode codec (rd ++ more) = some (.ok (some frame), codec', rd' ++ more)) :
    Reads d codec rd upstream [frame] ⟨codec', rd', readable, eof, upstream⟩ :=
  ⟨[], rfl, fun more => Incremental.drain_yields (same more)⟩

theorem reads_more {reading : Reading α} {frames : List β}
    (reads : Reads d codec (rd ++ reading.bytes) upstream frames f) :
    Reads d codec rd (reading :: upstream) frames f := by
  obtain ⟨before, whole, drained⟩ := reads
  refine ⟨reading :: before, by rw [whole, List.cons_append], fun more => ?_⟩
  rw [List.flatMap_cons, List.append_assoc, ← List.append_assoc rd]
  exact drained more

theorem last_reads (polled : last d.decode codec rd upstream = some (.ok result, f)) :
    Reads d codec rd upstream (given result) f := by
  unfold last at polled
  split at polled
  · cases polled
    exact reads_here codec rd true true upstream
  · rcases (d.settled codec rd).here with
      ⟨here, _⟩ | ⟨_, _, _, here, _⟩ | ⟨_, _, _, _, here, same⟩ | ⟨_, _, here, _⟩
    · rw [here] at polled
      cases polled
    · rw [here] at polled
      cases polled
    · rw [here] at polled
      cases polled
      exact reads_frame true true same
    · rw [here] at polled
      cases polled

theorem look_reads {go_on : S → List α → Option (Poll (Option β) (FrameError E) × Framed S α)}
    (later : ∀ codec rd, go_on codec rd = some (.ok result, f) →
      Reads d codec rd upstream (given result) f)
    (polled : look d.decode codec rd upstream go_on = some (.ok result, f)) :
    Reads d codec rd upstream (given result) f := by
  unfold look at polled
  rcases (d.settled codec rd).here with
    ⟨here, _⟩ | ⟨_, _, _, here, _⟩ | ⟨_, _, _, _, here, same⟩ | ⟨codec', rd', here, same⟩
  · rw [here] at polled
    cases polled
  · rw [here] at polled
    cases polled
  · rw [here] at polled
    cases polled
    exact reads_frame true false same
  · rw [here] at polled
    obtain ⟨before, whole, drained⟩ := later codec' rd' polled
    exact ⟨before, whole, fun more => (Incremental.drain_congr (same _)).trans (drained more)⟩

theorem fill_reads (polled : fill d.decode codec rd upstream = some (.ok result, f)) :
    Reads d codec rd upstream (given result) f := by
  induction upstream generalizing codec rd with
  | nil =>
    cases polled
    exact reads_here codec rd false false []
  | cons reading upstream ih =>
    rw [fill] at polled
    cases ends : reading.ends with
    | broken =>
      rw [ends] at polled
      cases polled
    | closed =>
      rw [ends] at polled
      exact reads_more (last_reads polled)
    | blocked =>
      rw [ends] at polled
      dsimp only at polled
      split at polled
      · rename_i empty
        cases polled
        apply reads_more
        rw [empty, List.append_nil]
        exact reads_here codec rd false false upstream
      · exact reads_more (look_reads (fun codec rd => ih) polled)

theorem poll_reads {f' : Framed S α} (polled : f.poll d.decode = some (.ok result, f')) :
    Reads d f.codec f.rd f.upstream (given result) f' := by
  unfold poll at polled
  split at polled
  · split at polled
    · exact last_reads polled
    · exact look_reads (fun codec rd => fill_reads) polled
  · split at polled
    · cases polled
    · exact fill_reads polled

end Reads

/-! After a frame, the next one is looked for first. -/

section Readable

variable {decode : S → List α → Option (Except E (Option β) × S × List α)} {codec : S} {rd : List α}
  {upstream : List (Reading α)} {frame : β} {f : Framed S α}

theorem last_readable (found : last decode codec rd upstream = some (.ok (.ready (some frame)), f)) :
    f.is_readable = true := by
  unfold last at found
  split at found
  · cases found
  · obtain ⟨⟨result, codec', rd'⟩, _, found⟩ := Option.bind_eq_some_iff.mp found
    match result, found with
    | .ok (some _), rfl => rfl

theorem look_readable {go_on : S → List α → Option (Poll (Option β) (FrameError E) × Framed S α)}
    (later : ∀ codec rd, go_on codec rd = some (.ok (.ready (some frame)), f) → f.is_readable = true)
    (found : look decode codec rd upstream go_on = some (.ok (.ready (some frame)), f)) :
    f.is_readable = true := by
  obtain ⟨⟨result, codec', rd'⟩, _, found⟩ := Option.bind_eq_some_iff.mp found
  match result, found with
  | .ok (some _), rfl => rfl
  | .ok none, found => exact later codec' rd' found

theorem fill_readable (found : fill decode codec rd upstream = some (.ok (.ready (some frame)), f)) :
    f.is_readable = true := by
  induction upstream generalizing codec rd with
  | nil => cases found
  | cons reading upstream ih =>
    rw [fill] at found
    cases ends : reading.ends with
    | broken =>
      rw [ends] at found
      cases found
    | closed =>
      rw [ends] at found
      exact last_readable found
    | blocked =>
      rw [ends] at found
      dsimp only at found
      split at found
      · cases found
      · exact look_readable (fun codec rd => ih) found

theorem poll_readable {f' : Framed S α} (found : f.poll decode = some (.ok (.ready (some frame)), f')) :
    f'.is_readable = true := by
  unfold poll at found
  split at found
  · split at found
    · exact last_readable found
    · exact look_readable (fun codec rd => fill_readable) found
  · split at found
    · cases found
    · exact fill_readable found

end Readable

/-! A frame either was in what had been read, or the connection has given some more. -/

theorem last_consumes {d : Incremental S α β E} {codec : S} {rd : List α}
    {upstream : List (Reading α)} {frame : β} {f : Framed S α}
    (found : last d.decode codec rd upstream = some (.ok (.ready (some frame)), f)) :
    f.upstream = upstream ∧ f.rd.length < rd.length := by
  unfold last at found
  split at found
  · cases found
  · obtain ⟨⟨result, codec', rd'⟩, called, found⟩ := Option.bind_eq_some_iff.mp found
    match result, found with
    | .ok (some _), rfl => exact ⟨rfl, d.consumes called⟩

theorem look_consumes {d : Incremental S α β E} {codec : S} {rd : List α}
    {upstream : List (Reading α)} {frame : β} {f : Framed S α}
    {go_on : S → List α → Option (Poll (Option β) (FrameError E) × Framed S α)}
    (found : look d.decode codec rd upstream go_on = some (.ok (.ready (some frame)), f)) :
    f.upstream = upstream ∧ f.rd.length < rd.length ∨
      ∃ codec rd, go_on codec rd = some (.ok (.ready (some frame)), f) := by
  obtain ⟨⟨result, codec', rd'⟩, called, found⟩ := Option.bind_eq_some_iff.mp found
  match result, found with
  | .ok (some _), rfl => exact .inl ⟨rfl, d.consumes called⟩
  | .ok none, found => exact .inr ⟨codec', rd', found⟩

theorem fill_consumes {d : Incremental S α β E} {codec : S} {rd : List α}
    {upstream : List (Reading α)} {frame : β} {f : Framed S α}
    (found : fill d.decode codec rd upstream = some (.ok (.ready (some frame)), f)) :
    f.upstream.length < upstream.length := by
  induction upstream generalizing codec rd with
  | nil => cases found
  | cons reading upstream ih =>
    rw [fill] at found
    cases ends : reading.ends with
    | broken =>
      rw [ends] at found
      cases found
    | closed =>
      rw [ends] at found
      rw [(last_consumes found).1]
      exact Nat.lt_succ_self _
    | blocked =>
      rw [ends] at found
      dsimp only at found
      split at found
      · cases found
      · rcases look_consumes found with ⟨same, _⟩ | ⟨_, _, later⟩
        · rw [same]
          exact Nat.lt_succ_self _
        · exact Nat.lt_succ_of_lt (ih later)

theorem poll_consumes {d : Incremental S α β E} {f f' : Framed S α} {frame : β}
    (found : f.poll d.decode = some (.ok (.ready (some frame)), f')) :
    f'.upstream.length < f.upstream.length ∨
      f'.upstream.length = f.upstream.length ∧ f'.rd.length < f.rd.length := by
  unfold poll at found
  split at found
  · split at found
    · obtain ⟨same, shorter⟩ := last_consumes found
      exact .inr ⟨congrArg List.length same, shorter⟩
    · rcases look_consumes found with ⟨same, shorter⟩ | ⟨_, _, later⟩
      · exact .inr ⟨congrArg List.length same, shorter⟩
      · exact .inl (fill_consumes later)
  · split at found
    · cases found
    · exact .inl (fill_consumes found)

/-- Handle each frame that is there. That there are no more frames is not expected. -/
def each (d : Incremental S α β E) (handle : T → β → Call O T) (t : T) (f : Framed S α) :
    Call O (Poll Unit (FrameError E) × T × Framed S α) :=
  match _polled : f.poll d.decode with
  | none => Call.panic
  | some (.error e, f) => return (.error e, t, f)
  | some (.ok .notReady, f) => return (.ok .notReady, t, f)
  | some (.ok (.ready none), _) => Call.panic
  | some (.ok (.ready (some frame)), f) => do
    let t ← handle t frame
    each d handle t f
termination_by (f.upstream.length, f.rd.length)
decreasing_by
  rcases poll_consumes _polled with fewer | ⟨same, shorter⟩
  · exact Prod.Lex.left _ _ fewer
  · rw [same]
    exact Prod.Lex.right _ shorter

theorem each_waits {d : Incremental S α β E} {f f' : Framed S α}
    (polled : f.poll d.decode = some (.ok .notReady, f')) (handle : T → β → Call O T) (t : T) :
    each d handle t f = return (.ok .notReady, t, f') := by
  rw [each]
  split <;> simp_all

/-- The rest of a task, for which errors are panics. -/
def surviving {γ : Type} (polled : Poll Unit E × γ) : Call O γ :=
  match polled.1 with
  | .ok _ => return polled.2
  | .error _ => Call.panic

/-- The frames of an outlook are handled one after the other. -/
def handled (handle : T → β → Call O T) (t : T) (view : Call β (Framed S α)) :
    Call O (T × Framed S α) :=
  Call.run handle t view.log >>= fun t => ⟨[], view.value.map fun f => (t, f)⟩

theorem handled_cons (handle : T → β → Call O T) (t : T) (frame : β) (view : Call β (Framed S α)) :
    handled handle t ⟨frame :: view.log, view.value⟩ =
      handle t frame >>= fun t => handled handle t view := by
  rw [handled, Call.run, Call.bind_assoc]
  rfl

theorem handled_log (handle : T → β → Call O T) (t : T) (view : Call β (Framed S α)) :
    (handled handle t view).log = (Call.run handle t view.log).log := by
  unfold handled
  generalize Call.run handle t view.log = x
  obtain ⟨log, value⟩ := x
  cases value with
  | none => rfl
  | some t' => exact List.append_nil log

theorem handled_returns {handle : T → β → Call O T} {t t' : T} {view : Call β (Framed S α)}
    {f : Framed S α} (returned : (handled handle t view).value = some (t', f)) :
    (Call.run handle t view.log).value = some t' ∧ view.value = some f := by
  obtain ⟨t1, ran, left⟩ := Call.bind_returns.mp returned
  obtain ⟨f1, waiting, same⟩ := Option.map_eq_some_iff.mp left
  cases same
  exact ⟨ran, waiting⟩

theorem each_outlook (d : Incremental S α β E) (handle : T → β → Call O T) (t : T) (f : Framed S α)
    (primed : f.Primed d) :
    each d handle t f >>= surviving = handled handle t (outlook d f.codec f.rd f.coming) := by
  have foretold := poll_foretold d primed
  rw [each]
  split
  · rename_i polled
    rw [polled] at foretold
    rw [show outlook d f.codec f.rd f.coming = ⟨[], none⟩ from foretold]
    rfl
  · rename_i polled
    rw [polled] at foretold
    rw [show outlook d f.codec f.rd f.coming = ⟨[], none⟩ from foretold]
    rfl
  · rename_i polled
    rw [polled] at foretold
    rw [foretold.2]
    rfl
  · rename_i polled
    rw [polled] at foretold
    rw [show outlook d f.codec f.rd f.coming = ⟨[], none⟩ from foretold]
    rfl
  · rename_i frame f' polled
    rw [polled] at foretold
    rw [foretold.2, handled_cons, Call.bind_assoc]
    apply Call.bind_congr
    intro t' _
    exact each_outlook d handle t' f' foretold.1
termination_by (f.upstream.length, f.rd.length)
decreasing_by
  rename_i polled _ _ _
  rcases poll_consumes polled with fewer | ⟨same, shorter⟩
  · exact Prod.Lex.left _ _ fewer
  · rw [same]
    exact Prod.Lex.right _ shorter

/-! What has come of a connection that goes on. -/

theorem taken_blocked {upstream rest : List (Reading α)} {bytes : List α}
    (blocked : taken upstream = (bytes, some rest)) :
    ∃ before, upstream = before ++ rest ∧ bytes = before.flatMap Reading.bytes := by
  induction upstream generalizing bytes with
  | nil =>
    cases blocked
    exact ⟨[], rfl, rfl⟩
  | cons reading upstream ih =>
    rw [taken] at blocked
    cases ends : reading.ends with
    | broken =>
      rw [ends] at blocked
      cases blocked
    | closed =>
      rw [ends] at blocked
      cases blocked
    | blocked =>
      rw [ends] at blocked
      dsimp only at blocked
      split at blocked
      · rename_i empty
        cases blocked
        exact ⟨[reading], rfl, by simp [empty]⟩
      · obtain ⟨rfl, later⟩ := Prod.mk.inj blocked
        obtain ⟨before, whole, bytes⟩ := ih (Prod.ext rfl later)
        refine ⟨reading :: before, by rw [whole, List.cons_append], ?_⟩
        rw [List.flatMap_cons, ← bytes]

theorem taken_prefix (upstream : List (Reading α)) :
    (taken upstream).1 <+: upstream.flatMap Reading.bytes := by
  induction upstream with
  | nil => exact List.prefix_rfl
  | cons reading upstream ih =>
    rw [taken, List.flatMap_cons]
    cases reading.ends with
    | broken => exact List.nil_prefix
    | closed => exact List.prefix_append _ _
    | blocked =>
      dsimp only
      split
      · exact List.nil_prefix
      · exact (List.prefix_append_right_inj _).mpr ih

theorem taken_one {reading : Reading α} (blocked : reading.ends = .blocked) :
    taken [reading] = (reading.bytes, some []) := by
  rw [taken, blocked]
  dsimp only
  split
  · rename_i empty
    rw [empty]
  · rw [taken, List.append_nil]

theorem coming_prefix (f : Framed S α) : f.coming.1 <+: f.upstream.flatMap Reading.bytes := by
  unfold coming
  split
  · exact List.nil_prefix
  · exact taken_prefix f.upstream

theorem coming_blocked {f : Framed S α} {rest : List (Reading α)} (blocked : f.coming.2 = some rest) :
    ∃ before, f.upstream = before ++ rest ∧ f.coming.1 = before.flatMap Reading.bytes := by
  unfold coming at blocked ⊢
  split at blocked
  · cases blocked
  · rename_i open_
    rw [if_neg open_]
    exact taken_blocked (Prod.ext rfl blocked)

/-- A transport comes to wait where the frames are fine and the connection stays open. -/
theorem outlook_returns {d : Incremental S α β E} {codec : S} {rd : List α}
    {coming : List α × Option (List (Reading α))} : (outlook d codec rd coming).value ≠ none ↔
      (∃ held, (d.drain codec (rd ++ coming.1)).value = some (.ok held)) ∧ coming.2 ≠ none := by
  unfold outlook
  dsimp only
  split
  · rename_i codec' rd' upstream drained rest
    rw [drained, rest]
    simp
  · rename_i differ
    constructor
    · exact fun waits => absurd rfl waits
    · rintro ⟨⟨⟨codec', rd'⟩, drained⟩, open_⟩
      obtain ⟨upstream, rest⟩ := Option.ne_none_iff_exists'.mp open_
      exact absurd rest (differ codec' rd' upstream drained)

/-- A transport that waits has been drained. -/
theorem outlook_drained {d : Incremental S α β E} {codec : S} {rd : List α}
    {coming : List α × Option (List (Reading α))} {f : Framed S α}
    (waiting : (outlook d codec rd coming).value = some f) :
    d.drain codec (rd ++ coming.1) =
        ⟨(outlook d codec rd coming).log, some (.ok (f.codec, f.rd))⟩ ∧
      coming.2 = some f.upstream ∧ f.is_readable = false ∧ f.Primed d := by
  unfold outlook at waiting
  dsimp only at waiting
  split at waiting
  · rename_i codec' rd' upstream drained rest
    cases waiting
    exact ⟨by rw [← drained]; rfl, rest, rfl, .inr ⟨rfl, Incremental.drained_waits drained⟩⟩
  · cases waiting

end Framed
