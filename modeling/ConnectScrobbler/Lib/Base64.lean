import ConnectScrobbler.Lib.Bytes

/-! Base 64 with padding: three bytes as four characters. -/
namespace Base64

def alphabet : List Char :=
  (List.range 26).map (fun n => Char.ofNat (65 + n)) ++
    (List.range 26).map (fun n => Char.ofNat (97 + n)) ++
    (List.range 10).map (fun n => Char.ofNat (48 + n)) ++ ['+', '/']

def digit (n : Nat) : Char := alphabet.getD n '='

def value (c : Char) : Option Nat := alphabet.idxOf? c

def encode_chars : Bytes → List Char
  | a :: b :: c :: rest =>
    digit (a.toNat / 4) :: digit (a.toNat % 4 * 16 + b.toNat / 16) ::
      digit (b.toNat % 16 * 4 + c.toNat / 64) :: digit (c.toNat % 64) :: encode_chars rest
  | [a, b] =>
    [digit (a.toNat / 4), digit (a.toNat % 4 * 16 + b.toNat / 16), digit (b.toNat % 16 * 4), '=']
  | [a] => [digit (a.toNat / 4), digit (a.toNat % 4 * 16), '=', '=']
  | [] => []

/-- Padding is only at the end. -/
def decode_chars : List Char → Option Bytes
  | p :: q :: r :: s :: rest => do
    let p ← value p
    let q ← value q
    let a := UInt8.ofNat (p * 4 + q / 16)
    if r = '=' then if s = '=' ∧ rest = [] then some [a] else none
    else
      let r ← value r
      let b := UInt8.ofNat (q % 16 * 16 + r / 4)
      if s = '=' then if rest = [] then some [a, b] else none
      else
        let s ← value s
        let data ← decode_chars rest
        some (a :: b :: UInt8.ofNat (r % 4 * 64 + s) :: data)
  | [] => some []
  | _ => none

theorem value_digit {n : Nat} (small : n < 64) : value (digit n) = some n ∧ digit n ≠ '=' := by
  have checked : ((List.range 64).all fun n =>
      value (digit n) == some n && digit n != '=') = true := by decide +kernel
  have here := List.all_eq_true.mp checked n (List.mem_range.mpr small)
  rw [Bool.and_eq_true, beq_iff_eq, bne_iff_ne] at here
  exact here

theorem ofNat_eq {n : Nat} (byte : UInt8) (same : n = byte.toNat) : UInt8.ofNat n = byte := by
  rw [same, UInt8.ofNat_toNat]

theorem decode_chars_encode (data : Bytes) : decode_chars (encode_chars data) = some data := by
  induction data using encode_chars.induct with
  | case1 a b c rest ih =>
    have ha := a.toNat_lt
    have hb := b.toNat_lt
    have hc := c.toNat_lt
    obtain ⟨p, _⟩ := value_digit (n := a.toNat / 4) (by omega)
    obtain ⟨q, _⟩ := value_digit (n := a.toNat % 4 * 16 + b.toNat / 16) (by omega)
    obtain ⟨r, more⟩ := value_digit (n := b.toNat % 16 * 4 + c.toNat / 64) (by omega)
    obtain ⟨s, most⟩ := value_digit (n := c.toNat % 64) (by omega)
    rw [encode_chars, decode_chars, p, q, r, s, ih]
    simp only [Option.bind_eq_bind, Option.bind_some, if_neg more, if_neg most]
    rw [ofNat_eq a (by omega), ofNat_eq b (by omega),
      ofNat_eq c (by omega)]
  | case2 a b =>
    have ha := a.toNat_lt
    have hb := b.toNat_lt
    obtain ⟨p, _⟩ := value_digit (n := a.toNat / 4) (by omega)
    obtain ⟨q, _⟩ := value_digit (n := a.toNat % 4 * 16 + b.toNat / 16) (by omega)
    obtain ⟨r, more⟩ := value_digit (n := b.toNat % 16 * 4) (by omega)
    rw [encode_chars, decode_chars, p, q, r]
    simp only [Option.bind_eq_bind, Option.bind_some, if_neg more, if_true]
    rw [ofNat_eq a (by omega), ofNat_eq b (by omega)]
  | case3 a =>
    have ha := a.toNat_lt
    obtain ⟨p, _⟩ := value_digit (n := a.toNat / 4) (by omega)
    obtain ⟨q, _⟩ := value_digit (n := a.toNat % 4 * 16) (by omega)
    rw [encode_chars, decode_chars, p, q]
    simp only [Option.bind_eq_bind, Option.bind_some, if_true, and_self]
    rw [ofNat_eq a (by omega)]
  | case4 => rfl

def encode (data : Bytes) : String := String.ofList (encode_chars data)

def decode (s : String) : Option Bytes := decode_chars s.toList

theorem decode_encode (data : Bytes) : decode (encode data) = some data := by
  rw [decode, encode, String.toList_ofList, decode_chars_encode]

example : encode [0x66, 0x6f, 0x6f, 0x62] = "Zm9vYg==" := by decide +kernel

end Base64
