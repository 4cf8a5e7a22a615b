import ConnectScrobbler.Lib.Call

/-! Decoders that are called again and again, until they have nothing more to give, whenever a
chunk of a stream has been put into their buffer. What is known of the call on a buffer is known
of it on a longer one, so the chunks do not matter. -/

/-- What a call takes from the front of a buffer: an item, an error or nothing, or it panics. What
follows in the buffer does not matter to it, and if it takes nothing then it may keep what it has
found out so far: it goes on from there. -/
inductive Settled {S α β E : Type} (decode : S → List α → Option (Except E (Option β) × S × List α))
    (s : S) (buf : List α) : Prop where
  | stops (same : ∀ more, decode s (buf ++ more) = none)
  | fails (e : E) (s' : S) (buf' : List α)
      (same : ∀ more, decode s (buf ++ more) = some (.error e, s', buf' ++ more))
  | yields (item : β) (s' : S) (buf' : List α) (shorter : buf'.length < buf.length)
      (same : ∀ more, decode s (buf ++ more) = some (.ok (some item), s', buf' ++ more))
  | waits (s' : S) (buf' : List α) (called : decode s buf = some (.ok none, s', buf'))
      (same : ∀ more, decode s (buf ++ more) = decode s' (buf' ++ more))

/-- What the call itself gives, beside what it gives on a longer buffer. -/
theorem Settled.here {S α β E : Type} {decode : S → List α → Option (Except E (Option β) × S × List α)}
    {s : S} {buf : List α} (settled : Settled decode s buf) :
    (decode s buf = none ∧ ∀ more, decode s (buf ++ more) = none) ∨
    (∃ e s' buf', decode s buf = some (.error e, s', buf') ∧
      ∀ more, decode s (buf ++ more) = some (.error e, s', buf' ++ more)) ∨
    (∃ item s' buf', buf'.length < buf.length ∧ decode s buf = some (.ok (some item), s', buf') ∧
      ∀ more, decode s (buf ++ more) = some (.ok (some item), s', buf' ++ more)) ∨
    ∃ s' buf', decode s buf = some (.ok none, s', buf') ∧
      ∀ more, decode s (buf ++ more) = decode s' (buf' ++ more) := by
  have here : decode s buf = decode s (buf ++ []) := by rw [List.append_nil]
  cases settled with
  | stops same => exact .inl ⟨here.trans (same []), same⟩
  | fails e s' buf' same =>
    refine .inr (.inl ⟨e, s', buf', ?_, same⟩)
    rw [here, same [], List.append_nil]
  | yields item s' buf' shorter same =>
    refine .inr (.inr (.inl ⟨item, s', buf', shorter, ?_, same⟩))
    rw [here, same [], List.append_nil]
  | waits s' buf' called same => exact .inr (.inr (.inr ⟨s', buf', called, same⟩))

structure Incremental (S α β E : Type) where
  decode : S → List α → Option (Except E (Option β) × S × List α)
  settled : ∀ s buf, Settled decode s buf

namespace Incremental

variable {S α β E : Type}

theorem consumes (d : Incremental S α β E) {s s' : S} {buf buf' : List α} {item : β}
    (called : d.decode s buf = some (.ok (some item), s', buf')) : buf'.length < buf.length := by
  rcases (d.settled s buf).here with
    ⟨here, _⟩ | ⟨_, _, _, here, _⟩ | ⟨_, _, _, shorter, here, _⟩ | ⟨_, _, here, _⟩
  · cases called.symm.trans here
  · cases called.symm.trans here
  · cases called.symm.trans here
    exact shorter
  · cases called.symm.trans here

/-- A call that gives nothing is one after which the decoder goes on where it stopped. -/
theorem resumes (d : Incremental S α β E) {s s' : S} {buf buf' : List α}
    (called : d.decode s buf = some (.ok none, s', buf')) (more : List α) :
    d.decode s (buf ++ more) = d.decode s' (buf' ++ more) := by
  rcases (d.settled s buf).here with
    ⟨here, _⟩ | ⟨_, _, _, here, _⟩ | ⟨_, _, _, _, here, _⟩ | ⟨_, _, here, same⟩
  · cases called.symm.trans here
  · cases called.symm.trans here
  · cases called.symm.trans here
  · cases called.symm.trans here
    exact same more

/-- Call the decoder until it gives nothing. -/
def drain (d : Incremental S α β E) (s : S) (buf : List α) : Call β (Except E (S × List α)) :=
  match _called : d.decode s buf with
  | none => Call.panic
  | some (.error e, _, _) => return .error e
  | some (.ok none, s', buf') => return .ok (s', buf')
  | some (.ok (some item), s', buf') => do
    Call.emit item
    d.drain s' buf'
termination_by buf.length
decreasing_by exact d.consumes _called

/-- Put one chunk after the other into the buffer, up to the first error. -/
def feed (d : Incremental S α β E) : S × List α → List (List α) → Call β (Except E (S × List α))
  | held, [] => return .ok held
  | held, chunk :: chunks => do
    match ← d.drain held.1 (held.2 ++ chunk) with
    | .error e => return .error e
    | .ok held => d.feed held chunks

section Calls

variable {d : Incremental S α β E} {s s' : S} {buf buf' : List α}

theorem drain_stops (called : d.decode s buf = none) : d.drain s buf = ⟨[], none⟩ := by
  rw [drain]
  split <;> simp_all

theorem drain_fails {e : E} (called : d.decode s buf = some (.error e, s', buf')) :
    d.drain s buf = ⟨[], some (.error e)⟩ := by
  rw [drain]
  split <;> simp_all

theorem drain_waits (called : d.decode s buf = some (.ok none, s', buf')) :
    d.drain s buf = ⟨[], some (.ok (s', buf'))⟩ := by
  rw [drain]
  split <;> simp_all

theorem drain_yields {item : β} (called : d.decode s buf = some (.ok (some item), s', buf')) :
    d.drain s buf = ⟨item :: (d.drain s' buf').log, (d.drain s' buf').value⟩ := by
  rw [drain]
  split <;> simp_all

theorem drain_congr {t : S} {rest : List α} (same : d.decode s buf = d.decode t rest) :
    d.drain s buf = d.drain t rest := by
  cases called : d.decode t rest with
  | none => rw [drain_stops called, drain_stops (same.trans called)]
  | some result =>
    obtain ⟨result, s', buf'⟩ := result
    match result with
    | .error e => rw [drain_fails called, drain_fails (same.trans called)]
    | .ok none => rw [drain_waits called, drain_waits (same.trans called)]
    | .ok (some item) => rw [drain_yields called, drain_yields (same.trans called)]

end Calls

/-- What the decoder does not look at, it does not change either. -/
theorem drain_map (d : Incremental S α β E) {g : S → S}
    (blind : ∀ s buf, d.decode (g s) buf = (d.decode s buf).map fun (result, s, buf) => (result, g s, buf))
    (s : S) (buf : List α) : d.drain (g s) buf =
      ⟨(d.drain s buf).log, (d.drain s buf).value.map (Except.map fun (s, buf) => (g s, buf))⟩ := by
  have called := blind s buf
  rcases (d.settled s buf).here with
    ⟨here, _⟩ | ⟨_, _, _, here, _⟩ | ⟨_, s', buf', shorter, here, _⟩ | ⟨_, _, here, _⟩
  · rw [here] at called
    rw [drain_stops here, drain_stops called]
    rfl
  · rw [here] at called
    rw [drain_fails here, drain_fails called]
    rfl
  · rw [here] at called
    rw [drain_yields here, drain_yields called, drain_map d blind s' buf']
  · rw [here] at called
    rw [drain_waits here, drain_waits called]
    rfl
termination_by buf.length

/-- What comes after a drained buffer is drained from where it was left. -/
def go_on (d : Incremental S α β E) (more : List α) :
    Except E (S × List α) → Call β (Except E (S × List α))
  | .error e => return .error e
  | .ok (s, buf) => d.drain s (buf ++ more)

theorem drain_append (d : Incremental S α β E) (s : S) (buf more : List α) :
    d.drain s (buf ++ more) = d.drain s buf >>= d.go_on more := by
  rcases (d.settled s buf).here with
    ⟨here, same⟩ | ⟨e, s', buf', here, same⟩ | ⟨item, s', buf', shorter, here, same⟩ |
      ⟨s', buf', here, same⟩
  · rw [drain_stops here, drain_stops (same more)]
    rfl
  · rw [drain_fails here, drain_fails (same more)]
    rfl
  · rw [drain_yields here, drain_yields (same more), drain_append d s' buf' more]
    generalize d.drain s' buf' = rest
    obtain ⟨log, value⟩ := rest
    cases value <;> rfl
  · rw [drain_waits here, Call.bind_some, List.nil_append]
    exact drain_congr (same more)
termination_by buf.length

theorem drain_more {d : Incremental S α β E} {s t : S} {buf rest : List α} {items : List β}
    (drained : d.drain s buf = ⟨items, some (.ok (t, rest))⟩) (more : List α) :
    d.drain s (buf ++ more) =
      ⟨items ++ (d.drain t (rest ++ more)).log, (d.drain t (rest ++ more)).value⟩ := by
  rw [drain_append, drained]
  rfl

/-- What is in a buffer, and how decoding it ends. -/
def finds (d : Incremental S α β E) (s : S) (buf : List α) : Call β (Except E Unit) :=
  ⟨(d.drain s buf).log, (d.drain s buf).value.map (Except.map fun _ => ())⟩

theorem finds_map (d : Incremental S α β E) {g : S → S}
    (blind : ∀ s buf, d.decode (g s) buf = (d.decode s buf).map fun (result, s, buf) => (result, g s, buf))
    (s : S) (buf : List α) : d.finds (g s) buf = d.finds s buf := by
  rw [finds, drain_map d blind, finds]
  rcases (d.drain s buf).value with _ | _ | _ <;> rfl

theorem finds_more {d : Incremental S α β E} {s t : S} {buf rest : List α} {items : List β}
    (drained : d.drain s buf = ⟨items ++ (d.drain t rest).log, (d.drain t rest).value⟩) :
    d.finds s buf = ⟨items ++ (d.finds t rest).log, (d.finds t rest).value⟩ := by
  rw [finds, drained]
  rfl

theorem finds_eq {d : Incremental S α β E} {s : S} {buf : List α} {items : List β} {held : S × List α}
    (drained : d.drain s buf = ⟨items, some (.ok held)⟩) : d.finds s buf = ⟨items, some (.ok ())⟩ := by
  rw [finds, drained]
  rfl

theorem finds_ok {d : Incremental S α β E} {s : S} {buf : List α} :
    (d.finds s buf).value = some (.ok ()) ↔ ∃ held, (d.drain s buf).value = some (.ok held) := by
  rw [finds]
  rcases (d.drain s buf).value with _ | _ | held
  · simp
  · simp [Except.map]
  · simp [Except.map]

/-- What is decoded to its end is decoded to the end of any part of it. -/
theorem finds_front {d : Incremental S α β E} {s : S} {buf more : List α}
    (found : (d.finds s (buf ++ more)).value = some (.ok ())) :
    (d.finds s buf).value = some (.ok ()) := by
  obtain ⟨held, drained⟩ := finds_ok.mp found
  rw [drain_append] at drained
  obtain ⟨result, first, goes_on⟩ := Call.bind_returns.mp drained
  cases result with
  | error e => cases goes_on
  | ok held => exact finds_ok.mpr ⟨held, first⟩

/-- What has been found in the front of a buffer comes first. -/
theorem drain_prefix (d : Incremental S α β E) (s : S) (buf more : List α) :
    (d.drain s buf).log <+: (d.drain s (buf ++ more)).log := by
  rw [drain_append]
  generalize d.drain s buf = x
  obtain ⟨items, value⟩ := x
  cases value with
  | none => exact List.prefix_rfl
  | some result => exact List.prefix_append _ _

/-- A decoder that has been drained gives nothing until more comes. -/
theorem drained_waits {d : Incremental S α β E} {s t : S} {buf rest : List α}
    (drained : (d.drain s buf).value = some (.ok (t, rest))) :
    d.decode t rest = some (.ok none, t, rest) := by
  rcases (d.settled s buf).here with
    ⟨here, _⟩ | ⟨e, s', buf', here, _⟩ | ⟨item, s', buf', shorter, here, _⟩ | ⟨s', buf', here, same⟩
  · rw [drain_stops here] at drained
    cases drained
  · rw [drain_fails here] at drained
    cases drained
  · rw [drain_yields here] at drained
    exact drained_waits drained
  · rw [drain_waits here] at drained
    cases drained
    have again := same []
    rw [List.append_nil, List.append_nil, here] at again
    exact again.symm
termination_by buf.length

/-- However the stream is cut into chunks, it is decoded as if it were one. -/
theorem feed_eq {d : Incremental S α β E} {s : S} {buf : List α}
    (waits : d.decode s buf = some (.ok none, s, buf)) (chunks : List (List α)) :
    d.feed (s, buf) chunks = d.drain s (buf ++ chunks.flatten) := by
  induction chunks generalizing s buf with
  | nil =>
    rw [List.flatten_nil, List.append_nil, drain_waits waits]
    rfl
  | cons chunk chunks ih =>
    rw [List.flatten_cons, ← List.append_assoc, drain_append, feed]
    apply Call.bind_congr
    intro result drained
    match result with
    | .error e => rfl
    | .ok (s', buf') => exact ih (drained_waits drained)

end Incremental
