import Mathlib.Data.List.Basic

set_option autoImplicit false

/-! Numbers written in base 16, and texts written one behind the other. -/
namespace HexText

/-- `%x`. -/
def hex (number : Nat) : List Char := Nat.toDigits 16 number

/-- `%02x`. -/
def paddedHex (number : Nat) : List Char := (hex number).leftpad 2 '0'

theorem digitChar_inj {first second : Nat} (small : first < 16) (small' : second < 16)
    (equal : first.digitChar = second.digitChar) : first = second := by
  have all : ∀ first second : Fin 16,
      first.val.digitChar = second.val.digitChar → first = second := by decide
  exact congrArg Fin.val (all ⟨first, small⟩ ⟨second, small'⟩ equal)

theorem hex_of_lt {number : Nat} (small : number < 16) : hex number = [number.digitChar] :=
  Nat.toDigits_of_lt_base small

/-- The last digit behind the others. -/
theorem hex_of_le {number : Nat} (large : 16 ≤ number) :
    hex number = hex (number / 16) ++ [(number % 16).digitChar] :=
  Nat.toDigits_of_base_le (by decide) large

/-- A byte from 16 on has two digits. -/
theorem hex_pair {number : Nat} (large : 16 ≤ number) (byte : number < 256) :
    hex number = [(number / 16).digitChar, (number % 16).digitChar] := by
  rw [hex_of_le large, hex_of_lt (by omega), List.singleton_append]

/-- The last two digits behind the others. -/
theorem hex_behind {high low : Nat} (positive : 0 < high) (byte : low < 256) :
    hex (256 * high + low) = hex high ++ [(low / 16).digitChar, (low % 16).digitChar] := by
  have last : (256 * high + low) % 16 = low % 16 := by omega
  have before : (256 * high + low) / 16 % 16 = low / 16 := by omega
  have front : (256 * high + low) / 16 / 16 = high := by omega
  rw [hex_of_le (by omega), hex_of_le (by omega), last, before, front, List.append_assoc,
    List.singleton_append]

/-- Padded, every byte has two digits. -/
theorem paddedHex_pair {number : Nat} (byte : number < 256) :
    paddedHex number = [(number / 16).digitChar, (number % 16).digitChar] := by
  by_cases small : number < 16
  · rw [paddedHex, hex_of_lt small, Nat.div_eq_of_lt small, Nat.mod_eq_of_lt small]
    rfl
  · rw [paddedHex, hex_pair (by omega) byte]
    rfl

/-- Two digits are those of one byte only. -/
theorem pair_inj {first second : Nat} (byte : first < 256) (byte' : second < 256)
    (high : (first / 16).digitChar = (second / 16).digitChar)
    (low : (first % 16).digitChar = (second % 16).digitChar) : first = second := by
  have high := digitChar_inj (by omega) (by omega) high
  have low := digitChar_inj (by omega) (by omega) low
  omega

/-- The value of a digit, lower or upper case. -/
def nibble (digit : Char) : Nat :=
  if digit.toNat ≤ 57 then digit.toNat - 48
  else if digit.toNat ≤ 70 then digit.toNat - 55
  else digit.toNat - 87

/-- The bytes that pairs of digits stand for. -/
def unhex : List Char → List UInt8
  | high :: low :: rest => UInt8.ofNat (16 * nibble high + nibble low) :: unhex rest
  | _ => []

theorem nibble_digitChar {value : Nat} (small : value < 16) : nibble value.digitChar = value := by
  have all : ∀ value : Fin 16, nibble value.val.digitChar = value.val := by decide
  exact all ⟨value, small⟩

/-- Reading padded bytes back. -/
theorem unhex_padded (bytes : List UInt8) :
    unhex (bytes.flatMap fun byte => paddedHex byte.toNat) = bytes := by
  induction bytes with
  | nil => rfl
  | cons byte rest ih =>
      have bound := byte.toNat_lt
      have value : 16 * (byte.toNat / 16) + byte.toNat % 16 = byte.toNat := by omega
      rw [List.flatMap_cons, paddedHex_pair bound, List.cons_append, List.cons_append,
        List.nil_append, unhex, nibble_digitChar (by omega), nibble_digitChar (by omega), ih, value,
        UInt8.ofNat_toNat]

section Code

variable {α β : Type} {code : α → List β} {good : α → Prop}

/-- No item's text begins with the text of another item. -/
def PrefixFree (code : α → List β) (good : α → Prop) : Prop :=
  ∀ first second, good first → good second → code first <+: code second → first = second

/-- The texts of items can be told apart when none begins with another. -/
theorem PrefixFree.flatMap_inj (free : PrefixFree code good) {items others : List α}
    (length : items.length = others.length) (all : ∀ item ∈ items, good item)
    (all' : ∀ item ∈ others, good item) (equal : items.flatMap code = others.flatMap code) :
    items = others := by
  induction items generalizing others with
  | nil => exact (List.length_eq_zero_iff.mp length.symm).symm
  | cons item items ih =>
      obtain ⟨other, others, rfl⟩ := List.exists_cons_of_length_eq_add_one length.symm
      rw [List.forall_mem_cons] at all all'
      rw [List.flatMap_cons, List.flatMap_cons] at equal
      have same : item = other := by
        have begins : code item <+: code other ++ others.flatMap code := ⟨_, equal⟩
        rcases List.prefix_or_prefix_of_prefix begins (List.prefix_append _ _) with one | one
        · exact free _ _ all.1 all'.1 one
        · exact (free _ _ all'.1 all.1 one).symm
      rw [← same] at equal
      rw [← same, ih (Nat.succ.inj length) all.2 all'.2 (List.append_cancel_left equal)]

end Code

end HexText
