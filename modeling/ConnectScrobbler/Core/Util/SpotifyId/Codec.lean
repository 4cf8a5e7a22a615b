import ConnectScrobbler.Core.Util.SpotifyId.Numerals

/-! The three ways to write an id: raw bytes, hexadecimal digits and the number itself. -/
namespace ConnectScrobbler

open Bytes (be read_be)
open Digits (read write)

namespace Radix

variable {r : Radix} {id : String} {ds : List Nat}

/-- The string of some digits. -/
def spell (r : Radix) (ds : List Nat) : String :=
  String.ofList (ds.map fun d => r.alphabet.toList.getD d '0')

theorem digit_char (r : Radix) : ∀ d < r.size, r.alphabet.toList.getD d '0' ∈ r.alphabet.toList ∧
    r.alphabet.toList.idxOf (r.alphabet.toList.getD d '0') = d := by
  cases r <;> decide +kernel

theorem char_digit (r : Radix) : ∀ c ∈ r.alphabet.toList,
    r.alphabet.toList.getD (r.alphabet.toList.idxOf c) '0' = c := by
  have checked : r.alphabet.toList.all (fun c =>
      r.alphabet.toList.getD (r.alphabet.toList.idxOf c) '0' = c) = true := by
    cases r <;> decide +kernel
  intro c member
  exact of_decide_eq_true (List.all_eq_true.mp checked c member)

theorem spell_writes (small : ∀ d ∈ ds, d < r.size) : r.Writes (r.spell ds) := by
  intro c member
  rw [spell, String.toList_ofList] at member
  obtain ⟨d, found, rfl⟩ := List.mem_map.mp member
  exact (r.digit_char d (small d found)).1

theorem digits_spell (small : ∀ d ∈ ds, d < r.size) : r.digits (r.spell ds) = ds := by
  rw [digits, spell, String.toList_ofList, List.map_map]
  calc ds.map _ = ds.map (fun d => d) := List.map_congr_left fun d member => (r.digit_char d (small d member)).2
    _ = ds := List.map_id' ds

theorem spell_digits (written : r.Writes id) : r.spell (r.digits id) = id := by
  rw [spell, digits, List.map_map]
  have same : id.toList.map ((fun d => r.alphabet.toList.getD d '0') ∘ r.alphabet.toList.idxOf) =
      id.toList.map (fun c => c) := List.map_congr_left fun c member => r.char_digit c (written c member)
  rw [same, List.map_id', String.ofList_toList]

end Radix

namespace SpotifyId

open Radix

theorem read_be_word {front : Bytes} (length : front.length = 8) :
    (BitVec.ofNat 64 (read_be front)).toNat = read_be front := by
  have fits := Bytes.read_be_lt front
  rw [length] at fits
  exact Nat.mod_eq_of_lt fits

theorem word_size : (256 : Nat) ^ 8 = 2 ^ 64 := by norm_num

theorem from_raw_val {data : Bytes} (length : data.length = 16) :
    ∃ id, from_raw data = some id ∧ id.number.val = read_be data := by
  refine ⟨_, if_pos length, ?_⟩
  have front : (data.take 8).length = 8 := by simp [length]
  have back : (data.drop 8).length = 8 := by simp [length]
  rw [U128.val_from_parts, read_be_word front, read_be_word back]
  calc read_be (data.take 8) * 2 ^ 64 + read_be (data.drop 8)
      = read_be (data.take 8 ++ data.drop 8) := by rw [Bytes.read_be_append, back, word_size]
    _ = read_be data := by rw [List.take_append_drop]

theorem to_raw_length (id : SpotifyId) : id.to_raw.length = 16 := by
  simp [to_raw, U128.parts]

/-- The raw bytes are the number, most significant byte first. -/
theorem read_to_raw (id : SpotifyId) : read_be id.to_raw = id.number.val := by
  have high := id.number.high.isLt
  have low := id.number.low.isLt
  simp only [to_raw, U128.parts, Bytes.read_be_append, Bytes.length_be]
  rw [Bytes.read_be_be_of_lt (by omega), Bytes.read_be_be_of_lt (by omega), U128.val,
    word_size]

theorem from_raw_to_raw (id : SpotifyId) : from_raw id.to_raw = some id := by
  obtain ⟨back, raw, number⟩ := from_raw_val id.to_raw_length
  rw [read_to_raw, U128.val_inj] at number
  rw [raw]
  cases id
  cases back
  simpa using number

theorem to_raw_from_raw {data : Bytes} (length : data.length = 16) :
    (from_raw data).map to_raw = some data := by
  obtain ⟨id, raw, number⟩ := from_raw_val length
  rw [raw, Option.map_some, Option.some_inj, ← Bytes.be_read_be id.to_raw, read_to_raw, number,
    to_raw_length, ← length, Bytes.be_read_be]

/-! Hexadecimal. -/

theorem nibble (word : BitVec 64) (i : Nat) :
    (word >>> (4 * i) &&& 0xF).toNat = word.toNat / 16 ^ i % 16 := by
  rw [BitVec.toNat_and, BitVec.toNat_ushiftRight, Nat.shiftRight_eq_div_pow, pow_mul]
  exact Nat.and_two_pow_sub_one_eq_mod _ 4

/-- A loop that writes the last entry of a gap first. -/
theorem fill_backwards {α : Type} (f : Nat → α) (z : α) (front back : List α) {width k : Nat}
    (inside : k ≤ width) :
    (List.range k).foldl (fun data i => data.set (front.length + width - 1 - i) (f i))
        (front ++ (List.replicate width z ++ back)) =
      front ++ (List.replicate (width - k) z ++ ((List.range k).reverse.map f ++ back)) := by
  induction k with
  | zero => rfl
  | succ k ih =>
    have gap : List.replicate (width - k) z = List.replicate (width - (k + 1)) z ++ [z] := by
      rw [← List.replicate_succ', Nat.sub_add_eq, Nat.sub_add_cancel (by omega)]
    have place : front.length + width - 1 - k = front.length + (width - (k + 1)) := by omega
    rw [List.range_succ, List.foldl_append, ih (by omega), List.foldl_cons, List.foldl_nil, gap, place,
      List.set_append_right _ _ (by omega), List.append_assoc, List.set_append_right _ _ (by simp)]
    simp

theorem fill_halves {α : Type} (f g : Nat → α) (z : α) :
    (List.range 16).foldl (fun data i => data.set (15 - i) (g i))
        ((List.range 16).foldl (fun data i => data.set (31 - i) (f i)) (List.replicate 32 z)) =
      (List.range 16).reverse.map g ++ (List.range 16).reverse.map f := by
  have low := fill_backwards f z (List.replicate 16 z) [] (Nat.le_refl 16)
  have high := fill_backwards g z [] ((List.range 16).reverse.map f) (Nat.le_refl 16)
  rw [List.append_nil, List.append_nil, Nat.sub_self, List.length_replicate] at low
  rw [List.nil_append, List.nil_append, Nat.sub_self, List.length_nil] at high
  exact (congrArg (fun data => (List.range 16).foldl (fun data i => data.set (15 - i) (g i)) data)
    low).trans high

theorem hex_byte : ∀ d < 16,
    Char.ofNat (BASE16_DIGITS.getD d 0).toNat = base16.alphabet.toList.getD d '0' := by
  decide +kernel

theorem to_base16_eq (id : SpotifyId) : id.to_base16 = base16.spell (write 16 32 id.number.val) := by
  have half (word : BitVec 64) : ((List.range 16).reverse.map fun i =>
      BASE16_DIGITS.getD (word >>> (4 * i) &&& 0xF).toNat 0).map (fun byte => Char.ofNat byte.toNat) =
        (write 16 16 word.toNat).map fun d => base16.alphabet.toList.getD d '0' := by
    rw [write, List.map_map, List.map_map]
    apply List.map_congr_left
    intro i _
    simp only [Function.comp_apply, nibble]
    exact hex_byte _ (Nat.mod_lt _ (by decide))
  have split : write 16 32 id.number.val =
      write 16 16 id.number.high.toNat ++ write 16 16 id.number.low.toNat := by
    rw [Digits.write_append 16 16 16, ← Digits.write_mod 16 16 id.number.val]
    have high : id.number.val / 16 ^ 16 = id.number.high.toNat := id.number.val_high
    have low : id.number.val % 16 ^ 16 = id.number.low.toNat := id.number.val_low
    rw [high, low]
  rw [split, spell, List.map_append, ← half, ← half, ← List.map_append, ← fill_halves]
  rfl

theorem write_small (n : Nat) : ∀ d ∈ write 16 32 n, d < base16.size :=
  Digits.write_digit_lt (by decide) 32 n

theorem to_base16_writes (id : SpotifyId) : base16.Writes id.to_base16 := by
  rw [to_base16_eq]
  exact spell_writes (write_small _)

theorem to_base16_value (id : SpotifyId) : base16.value id.to_base16 = id.number.val := by
  rw [value, to_base16_eq, digits_spell (write_small _)]
  calc read 16 (write 16 32 id.number.val) = id.number.val % 16 ^ 32 := Digits.read_write 16 32 _
    _ = id.number.val := Nat.mod_eq_of_lt id.number.val_lt

theorem from_base16_to_base16 (build : Build) (id : SpotifyId) :
    from_base16 build id.to_base16 = some id := by
  have number := id.to_base16_value
  obtain ⟨back, parsed, value⟩ := hex_returns build id.to_base16_writes (by rw [number]; exact id.number.val_lt)
  rw [number, U128.val_inj] at value
  rw [parsed]
  cases id
  cases back
  simpa using value

theorem to_base16_from_base16 (build : Build) {s : String} (written : base16.Writes s)
    (length : s.toList.length = 32) : (from_base16 build s).map to_base16 = some s := by
  have digits_length : (base16.digits s).length = 32 := by simp [digits, length]
  have fits : base16.value s < 16 ^ 32 := by
    rw [← digits_length]
    exact Digits.read_lt (digits_small written)
  obtain ⟨id, parsed, number⟩ := hex_returns build written fits
  have back : write 16 32 (base16.value s) = base16.digits s := by
    rw [← digits_length]
    exact Digits.write_read (digits_small written)
  rw [parsed, Option.map_some, to_base16_eq, number, back, spell_digits written]

/-- Two hexadecimal digits for each byte. -/
def hex (data : Bytes) : String :=
  base16.spell (data.flatMap fun byte => [byte.toNat / 16, byte.toNat % 16])

theorem write_bytes (data : Bytes) : write 16 (2 * data.length) (read_be data) =
    data.flatMap fun byte => [byte.toNat / 16, byte.toNat % 16] := by
  induction data using List.reverseRecOn with
  | nil => rfl
  | append_singleton data byte ih =>
    have small := byte.toNat_lt
    have rest : (256 * read_be data + byte.toNat) / 16 ^ 2 = read_be data := by omega
    have pair : write 16 2 (256 * read_be data + byte.toNat) = [byte.toNat / 16, byte.toNat % 16] := by
      rw [Digits.write_succ, Digits.write_succ]
      simp only [write, List.range_zero, List.reverse_nil, List.map_nil, List.nil_append,
        List.singleton_append, List.cons.injEq, and_true]
      omega
    rw [Bytes.read_be_snoc, List.length_append, List.length_singleton, Nat.mul_add, Digits.write_append,
      rest, ih, pair]
    simp

theorem to_base16_from_raw {data : Bytes} (length : data.length = 16) :
    (from_raw data).map to_base16 = some (hex data) := by
  obtain ⟨id, raw, number⟩ := from_raw_val length
  have digits : write 16 32 (read_be data) = data.flatMap fun byte => [byte.toNat / 16, byte.toNat % 16] := by
    rw [← write_bytes, length]
  rw [raw, Option.map_some, to_base16_eq, number, digits, hex]

/-- The three ways to write an id name the same id, in every build. -/
theorem codecs_agree (build : Build) :
    (∀ id : SpotifyId, from_raw id.to_raw = some id ∧ from_base16 build id.to_base16 = some id) ∧
    (∀ data : Bytes, data.length = 16 →
      (from_raw data).map to_raw = some data ∧ (from_raw data).map to_base16 = some (hex data)) ∧
    ∀ s : String, base16.Writes s → s.length = 32 → (from_base16 build s).map to_base16 = some s := by
  refine ⟨fun id => ⟨from_raw_to_raw id, from_base16_to_base16 build id⟩, ?_, ?_⟩
  · intro data length
    exact ⟨to_raw_from_raw length, to_base16_from_raw length⟩
  · intro s written length
    exact to_base16_from_base16 build written (by rw [String.length_toList, length])

theorem codecs_agree_sample :
    ((from_raw (List.replicate 16 0xc3)).map to_base16 = some (hex (List.replicate 16 0xc3))) ∧
      (from_base16 .debug "c3c3c3c3c3c3c3c3c3c3c3c3c3c3c3c3").map to_base16 =
        some "c3c3c3c3c3c3c3c3c3c3c3c3c3c3c3c3" :=
  ⟨((codecs_agree .debug).2.1 (List.replicate 16 0xc3) (by decide)).2,
    (codecs_agree .debug).2.2 "c3c3c3c3c3c3c3c3c3c3c3c3c3c3c3c3" (by decide) (by decide)⟩

end SpotifyId

end ConnectScrobbler
