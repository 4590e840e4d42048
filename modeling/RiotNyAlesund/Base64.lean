import Mathlib.Data.List.Basic

set_option autoImplicit false

/-! Bytes in base 64, and a reader that passes over what is no digit. -/
namespace Base64

def digits : List Char :=
  "ABCDEFGHIJKLMNOPQRSTUVWXYZabcdefghijklmnopqrstuvwxyz0123456789+/".toList

def digit (value : Nat) : Char := digits.getD value '='

def value (digit : Char) : Option Nat := digits.idxOf? digit

/-- Three bytes are four digits, and `=` stands for the digits that a last group lacks. -/
def encode : List UInt8 → List Char
  | a :: b :: c :: rest =>
      digit (a.toNat / 4) :: digit (a.toNat % 4 * 16 + b.toNat / 16) ::
        digit (b.toNat % 16 * 4 + c.toNat / 64) :: digit (c.toNat % 64) :: encode rest
  | [a, b] =>
      [digit (a.toNat / 4), digit (a.toNat % 4 * 16 + b.toNat / 16), digit (b.toNat % 16 * 4), '=']
  | [a] => [digit (a.toNat / 4), digit (a.toNat % 4 * 16), '=', '=']
  | [] => []

/-- How many digits of a group are read, the bits of the last one that are in no byte yet, the
`=` since, and the bytes. -/
structure Reader where
  quad : Nat
  left : Nat
  pads : Nat
  out : List UInt8
  deriving DecidableEq, Repr

def Reader.take (r : Reader) (value : Nat) : Reader :=
  match r.quad with
  | 0 => ⟨1, value, 0, r.out⟩
  | 1 => ⟨2, value % 16, 0, r.out ++ [UInt8.ofNat (r.left * 4 + value / 16)]⟩
  | 2 => ⟨3, value % 4, 0, r.out ++ [UInt8.ofNat (r.left * 16 + value / 4)]⟩
  | _ => ⟨0, 0, 0, r.out ++ [UInt8.ofNat (r.left * 64 + value)]⟩

/-- The reader stops where `=` completes a group, and fails on a group that nothing completes.
An `=` ahead of that, and what is no digit, is passed over. -/
def read (r : Reader) : List Char → Option (List UInt8)
  | [] => if r.quad = 0 then some r.out else none
  | c :: rest =>
      if c = '=' then
        if r.quad < 2 then read r rest
        else if 4 ≤ r.quad + (r.pads + 1) then some r.out
        else read { r with pads := r.pads + 1 } rest
      else
        match value c with
        | none => read r rest
        | some value => read (r.take value) rest

def decode (text : List Char) : Option (List UInt8) := read ⟨0, 0, 0, []⟩ text

/-- What the reader does not pass over. -/
def significant (c : Char) : Bool := c = '=' || (value c).isSome

theorem value_digit {number : Nat} (small : number < 64) :
    value (digit number) = some number ∧ digit number ≠ '=' := by
  have all : ∀ number : Fin 64,
      value (digit number.val) = some number.val ∧ digit number.val ≠ '=' := by decide +kernel
  exact all ⟨number, small⟩

theorem read_digit {number : Nat} (small : number < 64) (r : Reader) (rest : List Char) :
    read r (digit number :: rest) = read (r.take number) rest := by
  obtain ⟨known, other⟩ := value_digit small
  rw [read, if_neg other, known]

theorem read_filter (r : Reader) (text : List Char) :
    read r (text.filter significant) = read r text := by
  induction text generalizing r with
  | nil => rfl
  | cons c rest ih =>
      by_cases pad : c = '='
      · subst pad
        rw [List.filter_cons_of_pos rfl, read, read]
        simp only [ih]
      · cases known : value c with
        | none =>
            have skipped : ¬significant c = true := by simp [significant, pad, known]
            rw [List.filter_cons_of_neg skipped, ih, read, if_neg pad, known]
        | some number =>
            have kept : significant c = true := by simp [significant, known]
            rw [List.filter_cons_of_pos kept, read, read, if_neg pad, if_neg pad, known]
            exact ih _

/-- The digits of a whole group give its bytes. -/
theorem read_group (a b c : UInt8) (out : List UInt8) (rest : List Char) :
    read ⟨0, 0, 0, out⟩
      (digit (a.toNat / 4) :: digit (a.toNat % 4 * 16 + b.toNat / 16) ::
        digit (b.toNat % 16 * 4 + c.toNat / 64) :: digit (c.toNat % 64) :: rest) =
      read ⟨0, 0, 0, out ++ [a, b, c]⟩ rest := by
  have first := a.toNat_lt
  have second := b.toNat_lt
  have third := c.toNat_lt
  rw [read_digit (by omega), read_digit (by omega), read_digit (by omega), read_digit (by omega)]
  have high : a.toNat / 4 * 4 + (a.toNat % 4 * 16 + b.toNat / 16) / 16 = a.toNat := by omega
  have middle : (a.toNat % 4 * 16 + b.toNat / 16) % 16 * 16 +
      (b.toNat % 16 * 4 + c.toNat / 64) / 4 = b.toNat := by omega
  have low : (b.toNat % 16 * 4 + c.toNat / 64) % 4 * 64 + c.toNat % 64 = c.toNat := by omega
  simp only [Reader.take, high, middle, low, UInt8.ofNat_toNat, List.append_assoc,
    List.cons_append, List.nil_append]

theorem read_pair (a b : UInt8) (out : List UInt8) :
    read ⟨0, 0, 0, out⟩ (encode [a, b]) = some (out ++ [a, b]) := by
  have first := a.toNat_lt
  have second := b.toNat_lt
  rw [encode, read_digit (by omega), read_digit (by omega), read_digit (by omega)]
  have high : a.toNat / 4 * 4 + (a.toNat % 4 * 16 + b.toNat / 16) / 16 = a.toNat := by omega
  have low : (a.toNat % 4 * 16 + b.toNat / 16) % 16 * 16 + b.toNat % 16 * 4 / 4 = b.toNat := by
    omega
  simp only [Reader.take, high, low, UInt8.ofNat_toNat, List.append_assoc, List.cons_append,
    List.nil_append]
  rfl

theorem read_single (a : UInt8) (out : List UInt8) :
    read ⟨0, 0, 0, out⟩ (encode [a]) = some (out ++ [a]) := by
  have first := a.toNat_lt
  rw [encode, read_digit (by omega), read_digit (by omega)]
  have whole : a.toNat / 4 * 4 + a.toNat % 4 * 16 / 16 = a.toNat := by omega
  simp only [Reader.take, whole, UInt8.ofNat_toNat]
  rfl

theorem read_encode (bytes out : List UInt8) :
    read ⟨0, 0, 0, out⟩ (encode bytes) = some (out ++ bytes) := by
  induction bytes using encode.induct generalizing out with
  | case1 a b c rest ih =>
      rw [encode, read_group, ih, List.append_assoc]
      rfl
  | case2 a b => exact read_pair a b out
  | case3 a => exact read_single a out
  | case4 =>
      rw [encode, List.append_nil]
      rfl

/-- A text decodes to the bytes whose digits it has, whatever stands between them. -/
theorem decode_of_filter {text : List Char} {bytes : List UInt8}
    (carries : text.filter significant = encode bytes) : decode text = some bytes := by
  rw [decode, ← read_filter, carries, read_encode, List.nil_append]

end Base64
