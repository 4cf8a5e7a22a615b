import ConnectScrobbler.Core.Util.Int128.Mul
import ConnectScrobbler.Core.Util.SpotifyId
import ConnectScrobbler.Lib.Digits

/-! Ids as numerals: which number `from_base16` and `from_base62` read, and which overflows of
the 128-bit number they notice. -/
namespace ConnectScrobbler

open Digits (read)

inductive Radix where
  | base16 | base62
  deriving DecidableEq, Repr

namespace Radix

def alphabet : Radix → String
  | base16 => "0123456789abcdef"
  | base62 => "0123456789abcdefghijklmnopqrstuvwxyzABCDEFGHIJKLMNOPQRSTUVWXYZ"

def size : Radix → Nat
  | base16 => 16
  | base62 => 62

/-- The strings of digits. -/
def Writes (r : Radix) (id : String) : Prop := ∀ c ∈ id.toList, c ∈ r.alphabet.toList

instance (r : Radix) (id : String) : Decidable (r.Writes id) :=
  List.decidableBAll (· ∈ r.alphabet.toList) id.toList

def digits (r : Radix) (id : String) : List Nat := id.toList.map r.alphabet.toList.idxOf

/-- The number that a string of digits stands for. -/
def value (r : Radix) (id : String) : Nat := read r.size (r.digits id)

def parse (build : Build) : Radix → String → Option SpotifyId
  | base16 => SpotifyId.from_base16 build
  | base62 => SpotifyId.from_base62 build

theorem positive (r : Radix) : 0 < r.size := by
  cases r <;> decide

theorem digits_small {r : Radix} {id : String} (written : r.Writes id) :
    ∀ d ∈ r.digits id, d < r.size := by
  intro d member
  obtain ⟨c, found, rfl⟩ := List.mem_map.mp member
  have length : r.alphabet.toList.length = r.size := by cases r <;> decide
  rw [← length]
  exact List.idxOf_lt_length_of_mem (written c found)

/-! The loop reads the digits one after the other. -/

def push (build : Build) (r : Radix) (n : U128) (d : Nat) : Option U128 := do
  let n ← n.mul build (.of_u8 (UInt8.ofNat r.size))
  n.add build (.of_u8 (UInt8.ofNat d))

theorem alphabet_ascii (r : Radix) : ∀ c ∈ r.alphabet.toList, c.toNat < 128 := by
  have checked : r.alphabet.toList.all (fun c => c.toNat < 128) = true := by cases r <;> decide
  intro c member
  exact of_decide_eq_true (List.all_eq_true.mp checked c member)

theorem as_bytes_ascii {id : String} (ascii : ∀ c ∈ id.toList, c.toNat < 128) :
    as_bytes id = id.toList.map fun c => UInt8.ofNat c.toNat := by
  have single (c : Char) (small : c.toNat < 128) :
      String.utf8EncodeChar c = [UInt8.ofNat c.toNat] :=
    if_pos (Nat.le_of_lt_succ small)
  unfold as_bytes
  generalize id.toList = chars at ascii
  induction chars with
  | nil => rfl
  | cons c chars ih =>
    rw [List.flatMap_cons, single c (ascii c (by simp)), ih fun d member => ascii d (by simp [member])]
    rfl

theorem idxOf?_map {α β : Type} [DecidableEq α] [DecidableEq β] {f : α → β} {c : α} {l : List α}
    (apart : ∀ d ∈ l, f d = f c → d = c) (member : c ∈ l) :
    (l.map f).idxOf? (f c) = some (l.idxOf c) := by
  induction l with
  | nil => cases member
  | cons d l ih =>
    obtain ⟨here, later⟩ := List.forall_mem_cons.mp apart
    rw [List.map_cons, List.idxOf?_cons, List.idxOf_cons]
    by_cases same : d = c
    · simp [same]
    · have other : f d ≠ f c := mt here same
      have rest := ih later ((List.mem_cons.mp member).resolve_left fun equal => same equal.symm)
      simp [beq_false_of_ne same, other, rest]

theorem idxOf_alphabet (r : Radix) : ∀ c ∈ r.alphabet.toList,
    (as_bytes r.alphabet).idxOf? (UInt8.ofNat c.toNat) = some (r.alphabet.toList.idxOf c) := by
  intro c member
  rw [as_bytes_ascii r.alphabet_ascii]
  apply idxOf?_map (f := fun c : Char => UInt8.ofNat c.toNat) _ member
  intro d other same
  have small := r.alphabet_ascii c member
  have small' := r.alphabet_ascii d other
  have equal := congrArg UInt8.toNat same
  rw [UInt8.toNat_ofNat', UInt8.toNat_ofNat', Nat.mod_eq_of_lt (by omega), Nat.mod_eq_of_lt (by omega)]
    at equal
  exact Char.toNat_inj.mp equal

variable {build : Build} {r : Radix} {id : String}

theorem Writes.ascii (written : r.Writes id) : ∀ c ∈ id.toList, c.toNat < 128 :=
  fun c member => r.alphabet_ascii c (written c member)

/-- Strings of digits pass the assertion. -/
theorem Writes.is_ascii (written : r.Writes id) : ((as_bytes id).all fun b => b < 128) = true := by
  rw [as_bytes_ascii written.ascii]
  simp only [List.all_map, List.all_eq_true]
  intro c member
  have small := written.ascii c member
  simp [UInt8.lt_iff_toNat_lt, Nat.mod_eq_of_lt (show c.toNat < 256 by omega), small]

theorem push_digit_eq {c : Char} (digit : c ∈ r.alphabet.toList) (n : U128) :
    SpotifyId.push_digit build (as_bytes r.alphabet) (UInt8.ofNat r.size) n (UInt8.ofNat c.toNat) =
      push build r n (r.alphabet.toList.idxOf c) := by
  rw [SpotifyId.push_digit, r.idxOf_alphabet c digit]
  rfl

theorem loop_eq (written : r.Writes id) (n : U128) : (as_bytes id).foldlM
    (SpotifyId.push_digit build (as_bytes r.alphabet) (UInt8.ofNat r.size)) n =
      (r.digits id).foldlM (push build r) n := by
  rw [as_bytes_ascii written.ascii, digits, List.foldlM_map, List.foldlM_map]
  unfold Writes at written
  generalize id.toList = chars at written
  induction chars generalizing n with
  | nil => rfl
  | cons c chars ih =>
    rw [List.foldlM_cons, List.foldlM_cons, push_digit_eq (written c (by simp))]
    congr 1
    funext m
    exact ih m fun d member => written d (by simp [member])

theorem parse_eq (written : r.Writes id) :
    parse build r id = ((r.digits id).foldlM (push build r) .zero).map SpotifyId.mk := by
  have same : parse build r id =
      SpotifyId.from_base build (as_bytes r.alphabet) (UInt8.ofNat r.size) id := by
    cases r <;> rfl
  simp only [same, SpotifyId.from_base, written.is_ascii, loop_eq written, if_true]
  cases (r.digits id).foldlM (push build r) .zero <;> rfl

/-! One digit. -/

/-- The low words of the partial products, and the digit, fit one word. -/
def LowFits (base n d : Nat) : Prop :=
  n % 2 ^ 32 * base + n / 2 ^ 32 % 2 ^ 32 * base % 2 ^ 32 * 2 ^ 32 + d < 2 ^ 64

/-- The high words of the partial products fit one word. -/
def HighFits (base n : Nat) : Prop :=
  n / 2 ^ 32 % 2 ^ 32 * base / 2 ^ 32 + n / 2 ^ 64 % 2 ^ 32 * base +
    n / 2 ^ 96 % 2 ^ 32 * base % 2 ^ 32 * 2 ^ 32 < 2 ^ 64

instance (base n d : Nat) : Decidable (LowFits base n d) := Nat.decLt _ _

instance (base n : Nat) : Decidable (HighFits base n) := Nat.decLt _ _

theorem size_limb (r : Radix) (i : Nat) :
    (U128.of_u8 (UInt8.ofNat r.size)).limb i = if i = 0 then r.size else 0 := by
  have size : (U128.of_u8 (UInt8.ofNat r.size)).val = r.size := by
    cases r <;> rfl
  have small : r.size < 2 ^ 32 := by cases r <;> decide
  rw [U128.limb, size]
  split
  · rename_i first
    rw [first, Nat.mul_zero, pow_zero, Nat.div_one, Nat.mod_eq_of_lt small]
  · have wide : 2 ^ 32 ≤ 2 ^ (32 * i) := Nat.pow_le_pow_right (by decide) (by omega)
    rw [Nat.div_eq_of_lt (by omega), Nat.zero_mod]

/-- A base fits one limb: it meets each limb of the number once. -/
theorem size_column {part : Nat → Nat → Nat} (empty : ∀ shift, part shift 0 = 0) (n : U128) :
    U128.column part n (.of_u8 (UInt8.ofNat r.size)) =
      part 0 (n.limb 0 * r.size) + part 1 (n.limb 1 * r.size) + part 2 (n.limb 2 * r.size) +
        part 3 (n.limb 3 * r.size) := by
  simp [U128.column, U128.cells_eq, size_limb, empty, Nat.add_assoc]

theorem size_inside (n : U128) : ¬ U128.Crosses n (.of_u8 (UInt8.ofNat r.size)) := by
  rintro ⟨i, left, j, right, outside, positive⟩
  rw [size_limb, if_neg (by omega), Nat.mul_zero] at positive
  exact positive rfl

theorem low_fits_iff (n : U128) (d : Nat) :
    LowFits r.size n.val d ↔ U128.low_column n (.of_u8 (UInt8.ofNat r.size)) + d < 2 ^ 64 := by
  rw [U128.low_column, size_column U128.low_part_zero]
  simp [U128.low_part, U128.limb, LowFits]

theorem high_fits_iff (n : U128) :
    HighFits r.size n.val ↔ U128.high_column n (.of_u8 (UInt8.ofNat r.size)) < 2 ^ 64 := by
  rw [U128.high_column, size_column U128.high_part_zero]
  simp [U128.high_part, U128.limb, HighFits]

theorem toNat_digit {d : Nat} (digit : d < r.size) : (UInt8.ofNat d).toNat = d := by
  rw [UInt8.toNat_ofNat']
  cases r <;> simp only [size] at digit <;> omega

/-- A digit stops a build that checks as soon as the words do not fit. -/
theorem push_stops {n : U128} {d : Nat} (digit : d < r.size) :
    push build r n d = none ↔ build = .debug ∧ ¬ (LowFits r.size n.val d ∧ HighFits r.size n.val) := by
  rw [low_fits_iff, high_fits_iff, push]
  cases multiplied : n.mul build (.of_u8 (UInt8.ofNat r.size)) with
  | none =>
    obtain crosses | ⟨debug, wraps⟩ := U128.mul_stops.mp multiplied
    · exact absurd crosses (size_inside n)
    · exact iff_of_true rfl ⟨debug, by omega⟩
  | some product =>
    rw [Option.bind_eq_bind, Option.bind_some, U128.add_stops]
    apply and_congr_right
    rintro rfl
    obtain ⟨low, high⟩ := U128.mul_debug multiplied
    have word : (U128.of_u8 (UInt8.ofNat d)).low.toNat = d := by
      have small := (UInt8.ofNat d).toNat_lt
      rw [toNat_digit digit] at small
      rw [← U128.val_low, U128.val_of_u8, toNat_digit digit, Nat.mod_eq_of_lt (by omega)]
    have none : (U128.of_u8 (UInt8.ofNat d)).high.toNat = 0 := rfl
    have bound := product.high.isLt
    rw [low, high, word, none]
    omega

theorem push_returns {n m : U128} {d : Nat} (digit : d < r.size) (returned : push build r n d = some m) :
    m.val = (n.val * r.size + d) % 2 ^ 128 := by
  obtain ⟨product, multiplied, added⟩ := Option.bind_eq_some_iff.mp returned
  have size : (UInt8.ofNat r.size).toNat = r.size := by cases r <;> rfl
  rw [U128.add_returns added, U128.mul_returns multiplied, U128.val_of_u8, U128.val_of_u8, size, toNat_digit digit,
    Nat.mod_add_mod]

/-! All digits. -/

/-- A build that checks stops at a digit whose words do not fit. -/
def Stops (build : Build) (r : Radix) (digits : List Nat) : Prop :=
  build = .debug ∧ ∃ front d, front ++ [d] <+: digits ∧
    ¬ (LowFits r.size (read r.size front) d ∧ HighFits r.size (read r.size front))

/-- Whether the words fit is a matter of the lowest 128 bits. -/
theorem low_fits_mod (base n d : Nat) : LowFits base (n % 2 ^ 128) d ↔ LowFits base n d := by
  have first : n % 2 ^ 128 % 2 ^ 32 = n % 2 ^ 32 := by omega
  have second : n % 2 ^ 128 / 2 ^ 32 % 2 ^ 32 = n / 2 ^ 32 % 2 ^ 32 := by omega
  rw [LowFits, LowFits, first, second]

theorem high_fits_mod (base n : Nat) : HighFits base (n % 2 ^ 128) ↔ HighFits base n := by
  have second : n % 2 ^ 128 / 2 ^ 32 % 2 ^ 32 = n / 2 ^ 32 % 2 ^ 32 := by omega
  have third : n % 2 ^ 128 / 2 ^ 64 % 2 ^ 32 = n / 2 ^ 64 % 2 ^ 32 := by omega
  have fourth : n % 2 ^ 128 / 2 ^ 96 % 2 ^ 32 = n / 2 ^ 96 % 2 ^ 32 := by omega
  rw [HighFits, HighFits, second, third, fourth]

theorem stops_snoc {ds : List Nat} {d : Nat} : Stops build r (ds ++ [d]) ↔ Stops build r ds ∨
    build = .debug ∧ ¬ (LowFits r.size (read r.size ds) d ∧ HighFits r.size (read r.size ds)) := by
  constructor
  · rintro ⟨debug, front, e, part, wraps⟩
    obtain same | shorter := List.prefix_concat_iff.mp part
    · obtain ⟨rfl, last⟩ := List.append_inj' same rfl
      cases last
      exact .inr ⟨debug, wraps⟩
    · exact .inl ⟨debug, front, e, shorter, wraps⟩
  · rintro (⟨debug, front, e, part, wraps⟩ | ⟨debug, wraps⟩)
    · exact ⟨debug, front, e, part.trans (List.prefix_append _ _), wraps⟩
    · exact ⟨debug, ds, d, List.prefix_rfl, wraps⟩

theorem run_snoc (ds : List Nat) (d : Nat) (n : U128) : (ds ++ [d]).foldlM (push build r) n =
    (ds.foldlM (push build r) n).bind fun m => push build r m d := by
  simp [List.foldlM_append]

theorem run_returns {ds : List Nat} {n : U128} (small : ∀ d ∈ ds, d < r.size)
    (returned : ds.foldlM (push build r) .zero = some n) : n.val = read r.size ds % 2 ^ 128 := by
  induction ds using List.reverseRecOn generalizing n with
  | nil =>
    cases returned
    rfl
  | append_singleton ds d ih =>
    rw [run_snoc] at returned
    obtain ⟨m, before, pushed⟩ := Option.bind_eq_some_iff.mp returned
    have so_far := ih (fun e member => small e (List.mem_append_left _ member)) before
    rw [push_returns (small d (by simp)) pushed, so_far, Digits.read_snoc]
    exact ((Nat.mod_modEq _ _).mul_right _).add_right _

theorem run_stops {ds : List Nat} (small : ∀ d ∈ ds, d < r.size) :
    ds.foldlM (push build r) .zero = none ↔ Stops build r ds := by
  induction ds using List.reverseRecOn with
  | nil => simp [Stops]
  | append_singleton ds d ih =>
    have front_small (e) (member : e ∈ ds) := small e (List.mem_append_left _ member)
    rw [run_snoc, stops_snoc, ← ih front_small]
    cases before : ds.foldlM (push build r) .zero with
    | none => simp
    | some m =>
      have last : push build r m d = none ↔ _ := push_stops (small d (by simp))
      rw [run_returns front_small before, low_fits_mod, high_fits_mod] at last
      simpa using last

theorem parse_stops (written : r.Writes id) :
    parse build r id = none ↔ Stops build r (r.digits id) := by
  rw [parse_eq written, Option.map_eq_none_iff, run_stops (digits_small written)]

/-- What is parsed is the number that was written, up to what does not fit 128 bits. -/
theorem parse_returns (written : r.Writes id) {x : SpotifyId} (parsed : parse build r id = some x) :
    x.number.val = r.value id % 2 ^ 128 := by
  rw [parse_eq written] at parsed
  obtain ⟨n, run, rfl⟩ := Option.map_eq_some_iff.mp parsed
  exact run_returns (digits_small written) run

/-! What the words of a base leave room for. -/

/-- Sixteen times a limb is a multiple of sixteen, which a digit fills up. -/
theorem low_fits_hex (n : Nat) {d : Nat} (digit : d < 16) : LowFits 16 n d := by
  unfold LowFits
  omega

theorem high_fits_of_lt {n : Nat} (fits : n * r.size < 2 ^ 128) : HighFits r.size n := by
  unfold HighFits
  cases r <;> simp only [size] at fits ⊢ <;> omega

theorem front_fits {front : List Nat} {d : Nat} (part : front ++ [d] <+: r.digits id)
    (fits : r.value id < 2 ^ 128) : read r.size front * r.size < 2 ^ 128 := by
  have below := Digits.read_front_le r.positive part
  rw [Digits.read_snoc] at below
  unfold value at fits
  omega

/-- Hexadecimal digits overflow in no build while the number fits. -/
theorem hex_returns (build : Build) (written : base16.Writes id) (fits : base16.value id < 2 ^ 128) :
    ∃ x, SpotifyId.from_base16 build id = some x ∧ x.number.val = base16.value id := by
  have goes_on : parse build base16 id ≠ none := by
    rw [Ne, parse_stops written]
    rintro ⟨_, front, d, part, wraps⟩
    have digit : d < 16 := digits_small written d (part.subset (by simp))
    exact wraps ⟨low_fits_hex _ digit, high_fits_of_lt (front_fits part fits)⟩
  obtain ⟨x, parsed⟩ := Option.ne_none_iff_exists'.mp goes_on
  exact ⟨x, parsed, by rw [parse_returns written parsed, Nat.mod_eq_of_lt fits]⟩

end Radix

namespace SpotifyId

open Radix

/-- A checked build parses the numbers below 2^128 in which no digit carries from the low word
of the partial products to the high one. -/
theorem from_base62_debug_iff {id : String} (written : base62.Writes id)
    (fits : base62.value id < 2 ^ 128) :
    (∃ x, from_base62 .debug id = some x ∧ x.number.val = base62.value id) ↔
      ∀ front d, front ++ [d] <+: base62.digits id → LowFits 62 (read 62 front) d := by
  constructor
  · rintro ⟨x, parsed, _⟩ front d part
    by_contra wraps
    have stops : parse .debug base62 id = none :=
      (parse_stops written).mpr ⟨rfl, front, d, part, fun fit => wraps fit.1⟩
    rw [show parse .debug base62 id = some x from parsed] at stops
    cases stops
  · intro low
    have goes_on : parse .debug base62 id ≠ none := by
      rw [Ne, parse_stops written]
      rintro ⟨_, front, d, part, wraps⟩
      exact wraps ⟨low front d part, high_fits_of_lt (front_fits part fits)⟩
    obtain ⟨x, parsed⟩ := Option.ne_none_iff_exists'.mp goes_on
    exact ⟨x, parsed, by rw [parse_returns written parsed, Nat.mod_eq_of_lt fits]⟩

theorem from_base62_debug_iff_track :
    (∃ x, from_base62 .debug "4iV5W9uYEdYUVa79Axb7Rh" = some x ∧
      x.number.val = base62.value "4iV5W9uYEdYUVa79Axb7Rh") ↔
      ∀ front d, front ++ [d] <+: base62.digits "4iV5W9uYEdYUVa79Axb7Rh" →
        LowFits 62 (read 62 front) d :=
  from_base62_debug_iff (by decide) (by decide)

/-- An id of 22 digits at whose last digit the low word of a partial sum wraps around. -/
theorem from_base62_debug_carry :
    base62.Writes "00000000000lYGhA16ahyZ" ∧ base62.value "00000000000lYGhA16ahyZ" < 2 ^ 128 ∧
      from_base62 .debug "00000000000lYGhA16ahyZ" = none := by
  decide +kernel

/-- What is noticed of the results that do not fit 128 bits. -/
theorem overflow_noticed_iff (build : Build) :
    (∀ a b, 2 ^ 128 ≤ a.val + b.val →
      (U128.add build a b = none ↔ build = .debug) ∧ (U128.add_ref build a b = none ↔ build = .debug)) ∧
    (∀ a b, 2 ^ 128 ≤ a.val * b.val → (U128.mul build a b = none ↔ U128.Crosses a b ∨
      build = .debug ∧ (2 ^ 64 ≤ U128.low_column a b ∨ 2 ^ 64 ≤ U128.high_column a b))) ∧
    (∀ (r : Radix) id, r.Writes id → 2 ^ 128 ≤ r.value id →
      (r.parse build id = none ↔ Stops build r (r.digits id))) ∧
    ∀ (r s : Radix) id other, r.Writes id → s.Writes other → r.value id ≠ s.value other →
      ((∀ x, r.parse build id = some x → s.parse build other ≠ some x) ↔
        Stops build r (r.digits id) ∨ Stops build s (s.digits other) ∨
          ¬ r.value id ≡ s.value other [MOD 2 ^ 128]) := by
  refine ⟨fun a b large => ⟨U128.add_wraps build large, U128.add_wraps build large⟩,
    fun a b _ => U128.mul_stops, fun r id written _ => parse_stops written,
    fun r s id other written other_written _ => ?_⟩
  rw [← parse_stops written, ← parse_stops other_written]
  cases parsed : r.parse build id with
  | none => simp
  | some x =>
    cases other_parsed : s.parse build other with
    | none => simp
    | some y =>
      have same : x = y ↔ r.value id ≡ s.value other [MOD 2 ^ 128] := by
        rw [Nat.ModEq, ← parse_returns written parsed, ← parse_returns other_written other_parsed,
          U128.val_inj]
        cases x
        cases y
        simp
      simpa [eq_comm] using not_congr same

theorem overflow_noticed_iff_large :
    (U128.add .release ⟨0xffffffffffffffff, 0⟩ ⟨1, 0⟩ = none ↔ Build.release = .debug) ∧
    (U128.mul .debug ⟨0x8000000000000000, 0⟩ ⟨0, 2⟩ = none ↔
      U128.Crosses ⟨0x8000000000000000, 0⟩ ⟨0, 2⟩ ∨ Build.debug = .debug ∧
        (2 ^ 64 ≤ U128.low_column ⟨0x8000000000000000, 0⟩ ⟨0, 2⟩ ∨
          2 ^ 64 ≤ U128.high_column ⟨0x8000000000000000, 0⟩ ⟨0, 2⟩)) ∧
    (base62.parse .debug "ZZZZZZZZZZZZZZZZZZZZZZ" = none ↔
      Stops .debug base62 (base62.digits "ZZZZZZZZZZZZZZZZZZZZZZ")) ∧
    ((∀ x, base16.parse .debug "0" = some x → base62.parse .debug "1" ≠ some x) ↔
      Stops .debug base16 (base16.digits "0") ∨ Stops .debug base62 (base62.digits "1") ∨
        ¬ base16.value "0" ≡ base62.value "1" [MOD 2 ^ 128]) :=
  ⟨((overflow_noticed_iff .release).1 ⟨0xffffffffffffffff, 0⟩ ⟨1, 0⟩ (by decide)).1,
    (overflow_noticed_iff .debug).2.1 ⟨0x8000000000000000, 0⟩ ⟨0, 2⟩ (by decide),
    (overflow_noticed_iff .debug).2.2.1 base62 "ZZZZZZZZZZZZZZZZZZZZZZ" (by decide) (by decide),
    (overflow_noticed_iff .debug).2.2.2 base16 base62 "0" "1" (by decide) (by decide) (by decide)⟩

/-- Two numbers of which the larger one needs 129 bits are parsed to the same id, and a product
that needs them is zero. -/
theorem overflow_silent :
    base16.Writes "100000000000000000000000000000000" ∧
      2 ^ 128 ≤ base16.value "100000000000000000000000000000000" ∧
      from_base16 .debug "100000000000000000000000000000000" = some ⟨.zero⟩ ∧
      from_base16 .debug "0" = some ⟨.zero⟩ ∧
      (from_base62 .debug "ZZZZZZZZZZZZZZZZZZZZZZ").isSome ∧
      U128.mul .debug ⟨0x8000000000000000, 0⟩ ⟨0, 2⟩ = some .zero := by
  decide +kernel

end SpotifyId

end ConnectScrobbler
