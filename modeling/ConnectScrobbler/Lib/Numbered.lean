import Mathlib.Data.BitVec
import Mathlib.Logic.Function.Basic

/-! Parties that are entered into a table under numbers which come round. A message names a number and
goes to the party that has it. What becomes of a party depends on nothing but its own messages. -/
namespace Numbered

/-- What a message does to a party, and whether the party stays in the table; what it means to lose
one's number to a younger party; and what a party does by itself. -/
structure Kind (σ R G : Type) where
  new : σ
  deliver : σ → R → σ
  keeps : R → Bool
  replace : σ → σ
  act : σ → G → σ

inductive Turn (w : Nat) (R G : Type) where
  | enter
  | message (number : BitVec w) (r : R)
  | own (k : Nat) (g : G)

structure Table (w : Nat) (σ : Type) where
  slots : BitVec w → Option Nat
  made : Nat
  parties : Nat → σ

variable {w : Nat} {σ R G : Type}

namespace Table

def new (initial : σ) : Table w σ := ⟨fun _ => none, 0, fun _ => initial⟩

/-- The parties, once the one that had the number before has lost it. -/
def lose (kind : Kind σ R G) (t : Table w σ) : Nat → σ :=
  match t.slots (BitVec.ofNat w t.made) with
  | some old => Function.update t.parties old (kind.replace (t.parties old))
  | none => t.parties

def step (kind : Kind σ R G) (t : Table w σ) : Turn w R G → Table w σ
  | .enter =>
    { slots := Function.update t.slots (BitVec.ofNat w t.made) (some t.made)
      made := t.made + 1
      parties := Function.update (t.lose kind) t.made kind.new }
  | .message number r =>
    match t.slots number with
    | some k =>
      { t with
        slots := if kind.keeps r then t.slots else Function.update t.slots number none
        parties := Function.update t.parties k (kind.deliver (t.parties k) r) }
    | none => t
  | .own k g =>
    if k < t.made then { t with parties := Function.update t.parties k (kind.act (t.parties k) g) } else t

def run (kind : Kind σ R G) (t : Table w σ) (turns : List (Turn w R G)) : Table w σ :=
  turns.foldl (step kind) t

end Table

/-- One party: its state, whether it has its number, and how many parties there are. -/
structure Party (σ : Type) where
  state : σ
  listed : Bool
  made : Nat

namespace Party

/-- The party alone: it looks at nothing but its own messages and counts the others. -/
def step (kind : Kind σ R G) (k : Nat) (p : Party σ) : Turn w R G → Party σ
  | .enter =>
    if p.made = k then ⟨kind.new, true, p.made + 1⟩
    else if p.listed ∧ p.made = k + 2 ^ w then ⟨kind.replace p.state, false, p.made + 1⟩
    else { p with made := p.made + 1 }
  | .message number r =>
    if p.listed ∧ number = BitVec.ofNat w k then ⟨kind.deliver p.state r, kind.keeps r, p.made⟩ else p
  | .own other g => if other = k ∧ k < p.made then { p with state := kind.act p.state g } else p

def run (kind : Kind σ R G) (k : Nat) (initial : σ) (turns : List (Turn w R G)) : Party σ :=
  turns.foldl (step kind k) ⟨initial, false, 0⟩

end Party

/-- A number leads to the youngest party that was given it. -/
def Sound (t : Table w σ) : Prop :=
  ∀ number k, t.slots number = some k → number = BitVec.ofNat w k ∧ k < t.made ∧ t.made ≤ k + 2 ^ w

structure Agrees (t : Table w σ) (k : Nat) (p : Party σ) : Prop where
  state : t.parties k = p.state
  listed : p.listed = true ↔ t.slots (BitVec.ofNat w k) = some k
  made : p.made = t.made

variable {kind : Kind σ R G} {t : Table w σ} {k : Nat} {p : Party σ}

/-- Of two parties that could have the same number, the younger one comes a round later. -/
theorem round_later (within : t.made ≤ k + 2 ^ w) (older : k < t.made)
    (same : BitVec.ofNat w t.made = BitVec.ofNat w k) : t.made = k + 2 ^ w := by
  have residues := congrArg BitVec.toNat same
  rw [BitVec.toNat_ofNat, BitVec.toNat_ofNat] at residues
  obtain ⟨rounds, more⟩ : 2 ^ w ∣ t.made - k := (Nat.modEq_iff_dvd' (Nat.le_of_lt older)).mp residues.symm
  have positive : rounds ≠ 0 := by
    rintro rfl
    omega
  have once : rounds = 1 := by
    by_contra other
    have twice : 2 ^ w * 2 ≤ 2 ^ w * rounds := Nat.mul_le_mul_left _ (by omega)
    have := Nat.two_pow_pos w
    omega
  rw [once, Nat.mul_one] at more
  omega

theorem same_number (k : Nat) : BitVec.ofNat w (k + 2 ^ w) = BitVec.ofNat w k := by
  apply BitVec.eq_of_toNat_eq
  rw [BitVec.toNat_ofNat, BitVec.toNat_ofNat, Nat.add_mod_right]

/-- In the first round numbers are not shared. -/
theorem number_inj {j k : Nat} (first : j < 2 ^ w) (second : k < 2 ^ w)
    (same : BitVec.ofNat w j = BitVec.ofNat w k) : j = k := by
  have numbers := congrArg BitVec.toNat same
  rwa [BitVec.toNat_ofNat, BitVec.toNat_ofNat, Nat.mod_eq_of_lt first, Nat.mod_eq_of_lt second] at numbers

/-- In the first round a number that has not been given out yet is free. -/
theorem vacant (sound : Sound t) (few : t.made < 2 ^ w) : t.slots (BitVec.ofNat w t.made) = none := by
  apply Option.eq_none_iff_forall_ne_some.mpr
  intro k there
  obtain ⟨same, older, _⟩ := sound _ _ there
  have := number_inj few (by omega) same
  omega

theorem Sound.enter (sound : Sound t) (kind : Kind σ R G) : Sound (t.step kind (.enter : Turn w R G)) := by
  intro number k found
  have positive := Nat.two_pow_pos w
  simp only [Table.step, Function.update_apply] at found ⊢
  split at found
  · rename_i own
    cases found
    exact ⟨own, Nat.lt_succ_self _, by omega⟩
  · rename_i other
    obtain ⟨own, older, within⟩ := sound number k found
    have earlier : t.made ≠ k + 2 ^ w := by
      intro round
      rw [round, same_number] at other
      exact other own
    exact ⟨own, by omega, by omega⟩

theorem Sound.message (sound : Sound t) (kind : Kind σ R G) (number : BitVec w) (r : R) :
    Sound (t.step kind (.message number r)) := by
  intro other k found
  simp only [Table.step] at found ⊢
  split at found
  · dsimp only at found ⊢
    split at found
    · exact sound other k found
    · rw [Function.update_apply] at found
      split at found
      · cases found
      · exact sound other k found
  · exact sound other k found

theorem Sound.step (sound : Sound t) (kind : Kind σ R G) (turn : Turn w R G) : Sound (t.step kind turn) := by
  cases turn with
  | enter => exact sound.enter kind
  | message number r => exact sound.message kind number r
  | own k g =>
    simp only [Table.step]
    split
    · exact sound
    · exact sound

/-- The party that loses its number is one round older than the new one. -/
theorem loses_iff (sound : Sound t) (agrees : Agrees t k p) :
    t.slots (BitVec.ofNat w t.made) = some k ↔ p.listed = true ∧ p.made = k + 2 ^ w := by
  rw [agrees.listed, agrees.made]
  constructor
  · intro found
    obtain ⟨same, older, within⟩ := sound _ _ found
    exact ⟨same ▸ found, round_later within older same⟩
  · rintro ⟨found, round⟩
    rw [round, same_number]
    exact found

theorem lose_other (kind : Kind σ R G) (other : t.slots (BitVec.ofNat w t.made) ≠ some k) :
    t.lose kind k = t.parties k := by
  unfold Table.lose
  cases found : t.slots (BitVec.ofNat w t.made) with
  | none => rfl
  | some old =>
    apply Function.update_of_ne
    rintro rfl
    exact other found

theorem Agrees.enter (agrees : Agrees t k p) (sound : Sound t) (kind : Kind σ R G) :
    Agrees (t.step kind (.enter : Turn w R G)) k (p.step kind k (.enter : Turn w R G)) := by
  have loses := loses_iff sound agrees
  simp only [Table.step, Party.step]
  by_cases own : p.made = k
  · rw [if_pos own]
    have made : t.made = k := agrees.made ▸ own
    refine ⟨by simp [made], by simp [made], by rw [agrees.made]⟩
  · have other : k ≠ t.made := fun same => own (agrees.made.trans same.symm)
    rw [if_neg own]
    by_cases mine : t.slots (BitVec.ofNat w t.made) = some k
    · obtain ⟨same, _, _⟩ := sound _ _ mine
      rw [if_pos (loses.mp mine)]
      refine ⟨?_, ?_, by rw [agrees.made]⟩
      · simp only [Function.update_of_ne other, Table.lose, mine, Function.update_self, agrees.state]
      · rw [same]
        simp [Ne.symm other]
    · rw [if_neg (fun both => mine (loses.mpr both))]
      refine ⟨?_, ?_, by rw [agrees.made]⟩
      · simp only [Function.update_of_ne other, ← agrees.state, lose_other kind mine]
      · simp only [Function.update_apply, agrees.listed]
        split
        · rename_i same
          rw [same]
          exact ⟨fun found => absurd found mine, fun found => absurd (Option.some.inj found) (Ne.symm other)⟩
        · rfl

theorem Agrees.message (agrees : Agrees t k p) (sound : Sound t) (kind : Kind σ R G) (number : BitVec w)
    (r : R) : Agrees (t.step kind (.message number r)) k (p.step kind k (.message number r)) := by
  have mine : t.slots number = some k ↔ p.listed = true ∧ number = BitVec.ofNat w k := by
    rw [agrees.listed]
    constructor
    · intro found
      obtain ⟨same, _, _⟩ := sound _ _ found
      exact ⟨same ▸ found, same⟩
    · rintro ⟨found, rfl⟩
      exact found
  simp only [Table.step, Party.step]
  by_cases found : t.slots number = some k
  · obtain ⟨listed, same⟩ := mine.mp found
    rw [if_pos (mine.mp found), found]
    refine ⟨by simp [agrees.state], ?_, agrees.made⟩
    cases keeps : kind.keeps r with
    | true => simpa using same ▸ found
    | false => simp [same]
  · rw [if_neg (fun both => found (mine.mpr both))]
    split
    · rename_i other there
      have different : k ≠ other := by
        rintro rfl
        exact found there
      refine ⟨(Function.update_of_ne different _ _).trans agrees.state, ?_, agrees.made⟩
      rw [agrees.listed]
      dsimp only
      split
      · rfl
      · rw [Function.update_apply]
        split
        · rename_i same
          rw [same]
          exact ⟨fun own => absurd own found, nofun⟩
        · rfl
    · exact agrees

theorem Agrees.step (agrees : Agrees t k p) (sound : Sound t) (kind : Kind σ R G) (turn : Turn w R G) :
    Agrees (t.step kind turn) k (p.step kind k turn) := by
  cases turn with
  | enter => exact agrees.enter sound kind
  | message number r => exact agrees.message sound kind number r
  | own other g =>
    simp only [Table.step, Party.step, agrees.made]
    by_cases there : other < t.made
    · rw [if_pos there]
      by_cases same : other = k
      · subst same
        rw [if_pos ⟨rfl, there⟩]
        exact ⟨by simp [agrees.state], agrees.listed, rfl⟩
      · rw [if_neg (fun both => same both.1)]
        exact ⟨(Function.update_of_ne (Ne.symm same) _ _).trans agrees.state, agrees.listed, agrees.made⟩
    · rw [if_neg there, if_neg]
      · exact agrees
      · rintro ⟨rfl, young⟩
        exact there young

/-- However the turns of the parties are interleaved, each party is as it would be alone. -/
theorem isolated (kind : Kind σ R G) (initial : σ) (turns : List (Turn w R G)) :
    Sound ((Table.new initial).run kind turns) ∧
      ∀ k, Agrees ((Table.new initial).run kind turns) k (Party.run kind k initial turns) := by
  induction turns using List.reverseRecOn with
  | nil => exact ⟨nofun, fun k => ⟨rfl, ⟨nofun, nofun⟩, rfl⟩⟩
  | append_singleton turns turn ih =>
    obtain ⟨sound, agrees⟩ := ih
    simp only [Table.run, Party.run, List.foldl_append, List.foldl_cons, List.foldl_nil] at sound agrees ⊢
    exact ⟨sound.step kind turn, fun k => (agrees k).step sound kind turn⟩

/-! The life of one party, as a list of what befalls it. -/

/-- How many parties the turns enter. -/
def entered : List (Turn w R G) → Nat
  | [] => 0
  | .enter :: turns => entered turns + 1
  | .message _ _ :: turns | .own _ _ :: turns => entered turns

inductive Happening (R G : Type) where
  | said (r : R)
  | lost
  | did (g : G)
  deriving DecidableEq, Repr

/-- The messages under the number of a party while it has it, the loss of the number to a younger party,
and what the party does by itself. -/
def life (k : Nat) : (made : Nat) → List (Turn w R G) → List (Happening R G)
  | _, [] => []
  | made, .enter :: turns => (if made = k + 2 ^ w then [.lost] else []) ++ life k (made + 1) turns
  | made, .message number r :: turns =>
    (if number = BitVec.ofNat w k ∧ k < made ∧ made ≤ k + 2 ^ w then [.said r] else []) ++
      life k made turns
  | made, .own other g :: turns => (if other = k ∧ k < made then [.did g] else []) ++ life k made turns

/-- A party that has left the table hears no more of it. -/
def live (kind : Kind σ R G) : σ × Bool → Happening R G → σ × Bool
  | (s, true), .said r => (kind.deliver s r, kind.keeps r)
  | (s, true), .lost => (kind.replace s, false)
  | (s, false), .said _ | (s, false), .lost => (s, false)
  | (s, listed), .did g => (kind.act s g, listed)

def lived (kind : Kind σ R G) (happenings : List (Happening R G)) : σ × Bool :=
  happenings.foldl (live kind) (kind.new, true)

theorem entered_append (one other : List (Turn w R G)) :
    entered (one ++ other) = entered one + entered other := by
  induction one with
  | nil => exact (Nat.zero_add _).symm
  | cons turn one ih =>
    cases turn with
    | enter =>
      simp only [List.cons_append, entered, ih]
      omega
    | message number r => exact ih
    | own k g => exact ih

theorem life_append (k made : Nat) (one other : List (Turn w R G)) :
    life k made (one ++ other) = life k made one ++ life k (made + entered one) other := by
  induction one generalizing made with
  | nil => rfl
  | cons turn one ih =>
    cases turn with
    | enter => simp only [List.cons_append, life, entered, ih, List.append_assoc, Nat.add_assoc, Nat.add_comm 1]
    | message number r => simp only [List.cons_append, life, entered, ih, List.append_assoc]
    | own other g => simp only [List.cons_append, life, entered, ih, List.append_assoc]

theorem life_early {turns : List (Turn w R G)} {k made : Nat} (early : made + entered turns ≤ k) :
    life k made turns = [] := by
  induction turns generalizing made with
  | nil => rfl
  | cons turn turns ih =>
    cases turn with
    | enter =>
      simp only [entered] at early
      have positive := Nat.two_pow_pos w
      have before : ¬ made = k + 2 ^ w := by omega
      have rest : life k (made + 1) turns = [] := ih (by omega)
      rw [life, if_neg before, rest]
      rfl
    | message number r =>
      simp only [entered] at early
      rw [life, if_neg (fun own => absurd own.2.1 (by omega)), ih early]
      rfl
    | own other g =>
      simp only [entered] at early
      rw [life, if_neg (fun own => absurd own.2 (by omega)), ih early]
      rfl

/-- What is known of a party after its turns, from its life. -/
structure Lives (kind : Kind σ R G) (initial : σ) (k : Nat) (turns : List (Turn w R G)) (p : Party σ) :
    Prop where
  before : entered turns ≤ k → p.state = initial ∧ p.listed = false
  after : k < entered turns → (p.state, p.listed) = lived kind (life k 0 turns)
  within : p.listed = true → entered turns ≤ k + 2 ^ w
  made : p.made = entered turns

variable {initial : σ} {turns : List (Turn w R G)}

theorem lived_snoc (kind : Kind σ R G) (happenings : List (Happening R G)) (happening : Happening R G) :
    lived kind (happenings ++ [happening]) = live kind (lived kind happenings) happening := by
  simp only [lived, List.foldl_append, List.foldl_cons, List.foldl_nil]

theorem Lives.enter (lives : Lives kind initial k turns p) :
    Lives kind initial k (turns ++ [.enter]) (p.step kind k (.enter : Turn w R G)) := by
  have more : entered (turns ++ [.enter]) = entered turns + 1 := by simp [entered_append, entered]
  have longer : life k 0 (turns ++ [.enter]) = life k 0 turns ++
      if entered turns = k + 2 ^ w then [.lost] else [] := by
    simp [life_append, life]
  have positive := Nat.two_pow_pos w
  have made := lives.made
  simp only [Party.step]
  by_cases own : p.made = k
  · have empty : life k 0 turns = [] := life_early (by omega)
    have other : ¬ entered turns = k + 2 ^ w := by omega
    rw [if_pos own]
    constructor
    · omega
    · rw [longer, empty, if_neg other]
      exact fun _ => rfl
    · omega
    · rw [more, made]
  · rw [if_neg own]
    by_cases round : entered turns = k + 2 ^ w
    · have old : k < entered turns := by omega
      have lost : (if p.listed ∧ p.made = k + 2 ^ w then ⟨kind.replace p.state, false, p.made + 1⟩
          else { p with made := p.made + 1 } : Party σ) =
            ⟨(live kind (p.state, p.listed) .lost).1, false, p.made + 1⟩ := by
        cases listed : p.listed with
        | true => simp [live, made, round]
        | false =>
          rw [if_neg (by simp), ← listed]
          simp [live, listed]
      rw [lost]
      constructor
      · omega
      · rw [longer, if_pos round, lived_snoc, ← lives.after old]
        intro _
        cases p.listed <;> rfl
      · exact nofun
      · rw [more, made]
    · have stays : ¬ (p.listed = true ∧ p.made = k + 2 ^ w) := by
        rintro ⟨_, same⟩
        omega
      rw [if_neg stays]
      constructor
      · intro early
        exact lives.before (by omega)
      · intro later
        rw [longer, if_neg round, List.append_nil]
        exact lives.after (by omega)
      · intro listed
        have := lives.within listed
        omega
      · simp only [made, more]

theorem Lives.message (lives : Lives kind initial k turns p) (number : BitVec w) (r : R) :
    Lives kind initial k (turns ++ [.message number r]) (p.step kind k (.message number r)) := by
  have more : entered (turns ++ [.message number r]) = entered turns := by simp [entered_append, entered]
  have longer : life k 0 (turns ++ [.message number r]) = life k 0 turns ++
      if number = BitVec.ofNat w k ∧ k < entered turns ∧ entered turns ≤ k + 2 ^ w then [.said r]
        else [] := by
    simp [life_append, life]
  simp only [Party.step]
  by_cases mine : p.listed = true ∧ number = BitVec.ofNat w k
  · have young : k < entered turns := by
      by_contra early
      rw [(lives.before (Nat.le_of_not_lt early)).2] at mine
      exact absurd mine.1 Bool.false_ne_true
    have within := lives.within mine.1
    rw [if_pos mine]
    constructor
    · omega
    · rw [longer, if_pos ⟨mine.2, young, within⟩, lived_snoc, ← lives.after young, mine.1]
      exact fun _ => rfl
    · rw [more]
      exact fun _ => within
    · rw [more, lives.made]
  · rw [if_neg mine]
    constructor
    · rw [more]
      exact lives.before
    · rw [more, longer]
      intro young
      split
      · rename_i own
        have gone : p.listed = false := by
          cases listed : p.listed with
          | true => exact absurd ⟨listed, own.1⟩ mine
          | false => rfl
        rw [lived_snoc, ← lives.after young, gone]
        rfl
      · rw [List.append_nil]
        exact lives.after young
    · rw [more]
      exact lives.within
    · rw [more, lives.made]

theorem Lives.own (lives : Lives kind initial k turns p) (other : Nat) (g : G) :
    Lives kind initial k (turns ++ [.own other g]) (p.step kind k (.own other g : Turn w R G)) := by
  have more : entered (turns ++ [(.own other g : Turn w R G)]) = entered turns := by
    simp [entered_append, entered]
  have longer : life k 0 (turns ++ [.own other g]) = life k 0 turns ++
      if other = k ∧ k < entered turns then [.did g] else [] := by
    simp [life_append, life]
  simp only [Party.step, lives.made]
  by_cases mine : other = k ∧ k < entered turns
  · rw [if_pos mine]
    constructor
    · omega
    · rw [longer, if_pos mine, lived_snoc, ← lives.after mine.2]
      intro _
      cases p.listed <;> rfl
    · rw [more]
      exact lives.within
    · exact more.symm
  · rw [if_neg mine]
    constructor
    · rw [more]
      exact lives.before
    · rw [more, longer, if_neg mine, List.append_nil]
      exact lives.after
    · rw [more]
      exact lives.within
    · rw [more]
      exact lives.made

theorem lives (kind : Kind σ R G) (initial : σ) (k : Nat) (turns : List (Turn w R G)) :
    Lives kind initial k turns (Party.run kind k initial turns) := by
  induction turns using List.reverseRecOn with
  | nil => exact ⟨fun _ => ⟨rfl, rfl⟩, nofun, nofun, rfl⟩
  | append_singleton turns turn ih =>
    simp only [Party.run, List.foldl_append, List.foldl_cons, List.foldl_nil] at ih ⊢
    cases turn with
    | enter => exact ih.enter
    | message number r => exact ih.message number r
    | own other g => exact ih.own other g

theorem table_made (kind : Kind σ R G) (initial : σ) (turns : List (Turn w R G)) :
    ((Table.new initial).run kind turns).made = entered turns :=
  ((isolated kind initial turns).2 0).made.symm.trans (lives kind initial 0 turns).made

theorem table_before (kind : Kind σ R G) (initial : σ) (turns : List (Turn w R G)) {k : Nat}
    (early : entered turns ≤ k) : ((Table.new initial).run kind turns).parties k = initial :=
  ((isolated kind initial turns).2 k).state.trans ((lives kind initial k turns).before early).1

/-- However the turns of the parties are interleaved, each is what its own life makes it. -/
theorem table_lives (kind : Kind σ R G) (initial : σ) (turns : List (Turn w R G)) {k : Nat}
    (made : k < entered turns) :
    ((Table.new initial).run kind turns).parties k = (lived kind (life k 0 turns)).1 :=
  ((isolated kind initial turns).2 k).state.trans
    (congrArg Prod.fst ((lives kind initial k turns).after made))

def meet (kind : Kind σ R G) (s : σ) : Happening R G → σ
  | .said r => kind.deliver s r
  | .lost => kind.replace s
  | .did g => kind.act s g

/-- A party that no message takes out of the table just meets what befalls it. -/
theorem lived_keeps (stays : ∀ r, kind.keeps r = true) (k : Nat) (turns : List (Turn w R G)) :
    (lived kind (life k 0 turns)).1 = (life k 0 turns).foldl (meet kind) kind.new ∧
      (entered turns ≤ k + 2 ^ w → (lived kind (life k 0 turns)).2 = true) := by
  induction turns using List.reverseRecOn with
  | nil => exact ⟨rfl, fun _ => rfl⟩
  | append_singleton turns turn ih =>
    obtain ⟨same, listed⟩ := ih
    have listed (within : entered turns ≤ k + 2 ^ w) : lived kind (life k 0 turns) =
        ((life k 0 turns).foldl (meet kind) kind.new, true) := Prod.ext same (listed within)
    rw [life_append, entered_append, Nat.zero_add]
    cases turn with
    | enter =>
      by_cases round : entered turns = k + 2 ^ w
      · have here := listed (by omega)
        simp only [life, round, if_true, List.append_nil, lived_snoc, here, live, List.foldl_append,
          List.foldl_cons, List.foldl_nil, meet, entered]
        exact ⟨trivial, fun within => absurd within (by omega)⟩
      · simp only [life, round, if_false, List.append_nil, entered]
        exact ⟨same, fun within => congrArg Prod.snd (listed (by omega))⟩
    | message number r =>
      by_cases mine : number = BitVec.ofNat w k ∧ k < entered turns ∧ entered turns ≤ k + 2 ^ w
      · have here := listed mine.2.2
        simp only [life, mine, and_self, if_true, List.append_nil, lived_snoc, here, live,
          List.foldl_append, List.foldl_cons, List.foldl_nil, meet, stays]
        exact ⟨trivial, fun _ => trivial⟩
      · simp only [life, mine, if_false, List.append_nil, entered, Nat.add_zero]
        exact ⟨same, fun within => congrArg Prod.snd (listed within)⟩
    | own other g =>
      by_cases mine : other = k ∧ k < entered turns
      · simp only [life, mine, and_self, if_true, List.append_nil, lived_snoc, List.foldl_append,
          List.foldl_cons, List.foldl_nil, meet, entered, Nat.add_zero, ← same]
        generalize lived kind (life k 0 turns) = state at listed ⊢
        obtain ⟨s, here⟩ := state
        refine ⟨by cases here <;> rfl, fun within => ?_⟩
        have := congrArg Prod.snd (listed within)
        cases here with
        | true => rfl
        | false => cases this
      · simp only [life, mine, if_false, List.append_nil, entered, Nat.add_zero]
        exact ⟨same, fun within => congrArg Prod.snd (listed within)⟩

/-- A party that does nothing by itself, and that every message takes out of the table. -/
theorem lived_once {once : Kind σ R Empty} (leaves : ∀ r, once.keeps r = false)
    (happenings : List (Happening R Empty)) : (lived once happenings).1 = match happenings with
      | [] => once.new
      | .said r :: _ => once.deliver once.new r
      | .lost :: _ => once.replace once.new
      | .did g :: _ => g.elim := by
  have gone (s : σ) (rest : List (Happening R Empty)) : rest.foldl (live once) (s, false) = (s, false) := by
    induction rest with
    | nil => rfl
    | cons happening rest ih =>
      cases happening with
      | said r => exact ih
      | lost => exact ih
      | did g => exact g.elim
  cases happenings with
  | nil => rfl
  | cons happening rest =>
    cases happening with
    | said r => simp only [lived, List.foldl_cons, live, leaves, gone]
    | lost => simp only [lived, List.foldl_cons, live, gone]
    | did g => exact g.elim

end Numbered
