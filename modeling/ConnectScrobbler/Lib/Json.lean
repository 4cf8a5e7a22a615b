import ConnectScrobbler.Lib.Bytes
import Mathlib.Data.List.TakeWhile

/-! The texts that `serde_json` writes for strings and integers, and reading them back. -/
namespace JsonText

def hex_digit (n : Nat) : Char := "0123456789abcdef".toList.getD n '0'

def hex_value (c : Char) : Nat := "0123456789abcdef".toList.idxOf c

theorem hex_value_digit : ∀ n < 16, hex_value (hex_digit n) = n := by decide

/-- The letter of a short escape, and what it stands for. -/
def short : List (Char × Char) :=
  [('\x22', '\x22'), ('\x5c', '\x5c'), ('\x08', 'b'), ('\x0c', 'f'), ('\n', 'n'), ('\r', 'r'), ('\t', 't')]

def escape (c : Char) : List Char :=
  match short.lookup c with
  | some letter => ['\x5c', letter]
  | none =>
    if c.toNat < 32 then ['\x5c', 'u', '0', '0', hex_digit (c.toNat / 16), hex_digit (c.toNat % 16)]
    else [c]

/-- What is between the quotation marks, and what follows. -/
def read_chars : List Char → Option (List Char × List Char)
  | [] => none
  | '\x22' :: rest => some ([], rest)
  | '\x5c' :: 'u' :: '0' :: '0' :: high :: low :: rest =>
    (read_chars rest).map fun (chars, rest) => (Char.ofNat (16 * hex_value high + hex_value low) :: chars, rest)
  | '\x5c' :: letter :: rest =>
    match short.find? fun pair => pair.2 == letter with
    | some (c, _) => (read_chars rest).map fun (chars, rest) => (c :: chars, rest)
    | none => none
  | c :: rest => (read_chars rest).map fun (chars, rest) => (c :: chars, rest)

def quoted (s : String) : List Char := '\x22' :: s.toList.flatMap escape ++ ['\x22']

def read_quoted : List Char → Option (String × List Char)
  | '\x22' :: rest => do
    let (chars, rest) ← read_chars rest
    return (String.ofList chars, rest)
  | _ => none

def number : Int → List Char
  | .ofNat n => Nat.toDigits 10 n
  | .negSucc n => '-' :: Nat.toDigits 10 (n + 1)

def read_nat (text : List Char) : Int × List Char :=
  (Nat.ofDigitChars 10 (text.takeWhile Char.isDigit) 0, text.dropWhile Char.isDigit)

def read_number : List Char → Int × List Char
  | '-' :: rest => (-(read_nat rest).1, (read_nat rest).2)
  | text => read_nat text

/-- What comes after a fixed text. -/
def after (front : String) (text : List Char) : Option (List Char) :=
  if front.toList <+: text then some (text.drop front.toList.length) else none

theorem after_append (front : String) (text : List Char) : after front (front.toList ++ text) = some text := by
  rw [after, if_pos (List.prefix_append _ _), List.drop_left]

theorem read_chars_escape (c : Char) (rest : List Char) :
    read_chars (escape c ++ rest) = (read_chars rest).map fun (chars, rest) => (c :: chars, rest) := by
  unfold escape
  cases listed : short.lookup c with
  | some letter =>
    obtain ⟨front, back, split, _⟩ := List.lookup_eq_some_iff.mp listed
    have entry : (c, letter) ∈ short := by simp [split]
    simp only [short, List.mem_cons, Prod.mk.injEq, List.not_mem_nil, or_false] at entry
    rcases entry with ⟨rfl, rfl⟩ | ⟨rfl, rfl⟩ | ⟨rfl, rfl⟩ | ⟨rfl, rfl⟩ | ⟨rfl, rfl⟩ | ⟨rfl, rfl⟩ | ⟨rfl, rfl⟩ <;> rfl
  | none =>
    dsimp only
    split
    case isTrue control =>
      have high := hex_value_digit (c.toNat / 16) (by omega)
      have low := hex_value_digit (c.toNat % 16) (by omega)
      have whole : 16 * (c.toNat / 16) + c.toNat % 16 = c.toNat := Nat.div_add_mod _ _
      simp only [List.cons_append, List.nil_append, read_chars, high, low, whole, Char.ofNat_toNat]
    case isFalse =>
      have not_quote : c ≠ '\x22' := by
        rintro rfl
        cases listed
      have not_backslash : c ≠ '\x5c' := by
        rintro rfl
        cases listed
      rw [List.singleton_append, read_chars.eq_def]
      split <;> simp_all

theorem read_quoted_append (s : String) (rest : List Char) :
    read_quoted (quoted s ++ rest) = some (s, rest) := by
  have chars : ∀ chars : List Char, read_chars (chars.flatMap escape ++ '\x22' :: rest) = some (chars, rest) := by
    intro chars
    induction chars with
    | nil => rfl
    | cons c chars ih => rw [List.flatMap_cons, List.append_assoc, read_chars_escape, ih, Option.map_some]
  have text : quoted s ++ rest = '\x22' :: (s.toList.flatMap escape ++ '\x22' :: rest) := by
    simp [quoted]
  rw [text, read_quoted, chars]
  exact congrArg (fun s => some (s, rest)) String.ofList_toList

theorem read_nat_append (n : Nat) {rest : List Char} (ends : ∀ c ∈ rest.head?, c.isDigit = false) :
    read_nat (Nat.toDigits 10 n ++ rest) = ((n : Int), rest) := by
  have digits : ∀ c ∈ Nat.toDigits 10 n, c.isDigit = true :=
    fun c => Nat.isDigit_of_mem_toDigits (by decide) (by decide)
  have stops : rest.takeWhile Char.isDigit = [] ∧ rest.dropWhile Char.isDigit = rest := by
    cases rest with
    | nil => exact ⟨rfl, rfl⟩
    | cons c rest => simp [ends c rfl]
  simp only [read_nat, List.takeWhile_append_of_pos digits, List.dropWhile_append_of_pos digits, stops,
    List.append_nil, Nat.ofDigitChars_ten_toDigits]

theorem read_number_append (n : Int) {rest : List Char} (ends : ∀ c ∈ rest.head?, c.isDigit = false) :
    read_number (number n ++ rest) = (n, rest) := by
  cases n with
  | negSucc n =>
    simp only [number, List.cons_append, read_number, read_nat_append (n + 1) ends]
    rfl
  | ofNat n =>
    have found := read_nat_append n ends
    have digits : ∀ c ∈ Nat.toDigits 10 n, c.isDigit = true :=
      fun c => Nat.isDigit_of_mem_toDigits (by decide) (by decide)
    cases text : Nat.toDigits 10 n with
    | nil => exact absurd text Nat.toDigits_ne_nil
    | cons c chars =>
      rw [text] at found digits
      have digit : c ≠ '-' := by
        rintro rfl
        cases digits '-' List.mem_cons_self
      rw [number, text, read_number.eq_def]
      split
      · simp_all
      · exact found

end JsonText
