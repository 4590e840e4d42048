import Mathlib.Data.Nat.Digits.Defs

set_option autoImplicit false

/-! Natural numbers as byte strings, least or most significant byte first. -/
namespace Bytes

def ofLittle (bytes : List UInt8) : Nat := Nat.ofDigits 256 (bytes.map UInt8.toNat)

def toLittle : Nat → Nat → List UInt8
  | 0, _ => []
  | size + 1, value => UInt8.ofNat value :: toLittle size (value / 256)

def ofBig (bytes : List UInt8) : Nat := ofLittle bytes.reverse

def toBig (size value : Nat) : List UInt8 := (toLittle size value).reverse

@[simp] theorem toLittle_length (size value : Nat) : (toLittle size value).length = size := by
  induction size generalizing value with
  | zero => rfl
  | succ size ih => rw [toLittle, List.length_cons, ih]

@[simp] theorem toBig_length (size value : Nat) : (toBig size value).length = size := by
  rw [toBig, List.length_reverse, toLittle_length]

theorem digits_lt (bytes : List UInt8) : ∀ digit ∈ bytes.map UInt8.toNat, digit < 256 := by
  intro digit member
  obtain ⟨byte, _, rfl⟩ := List.mem_map.mp member
  exact byte.toNat_lt

theorem ofLittle_lt (bytes : List UInt8) : ofLittle bytes < 256 ^ bytes.length := by
  have bound := Nat.ofDigits_lt_base_pow_length (by decide : 1 < 256) (digits_lt bytes)
  rwa [List.length_map] at bound

theorem ofLittle_inj {left right : List UInt8} (sized : left.length = right.length)
    (same : ofLittle left = ofLittle right) : left = right := by
  have digits := Nat.ofDigits_inj_of_len_eq (by decide : 1 < 256)
    (by rw [List.length_map, List.length_map, sized]) (digits_lt left) (digits_lt right) same
  exact (List.map_inj_right fun _ _ => UInt8.toNat_inj.mp).mp digits

/-- Reading back a number that fits. -/
theorem ofLittle_toLittle {size value : Nat} (fits : value < 256 ^ size) :
    ofLittle (toLittle size value) = value := by
  induction size generalizing value with
  | zero =>
      rw [pow_zero, Nat.lt_one_iff] at fits
      rw [fits]
      rfl
  | succ size ih =>
      have rest : value / 256 < 256 ^ size := by
        rw [pow_succ] at fits
        exact Nat.div_lt_of_lt_mul (by rwa [Nat.mul_comm])
      have later := ih rest
      unfold ofLittle at later
      rw [toLittle, ofLittle, List.map_cons, Nat.ofDigits_cons, later, UInt8.toNat_ofNat']
      omega

theorem toLittle_ofLittle (bytes : List UInt8) :
    toLittle bytes.length (ofLittle bytes) = bytes := by
  apply ofLittle_inj (toLittle_length _ _)
  exact ofLittle_toLittle (ofLittle_lt bytes)

/-- A number that fits into the first bytes leaves the others zero. -/
theorem toLittle_pad {size value : Nat} (padding : Nat) (fits : value < 256 ^ size) :
    toLittle (size + padding) value = toLittle size value ++ List.replicate padding 0 := by
  apply ofLittle_inj
  · simp only [toLittle_length, List.length_append, List.length_replicate]
  · have fits' : value < 256 ^ (size + padding) :=
      Nat.lt_of_lt_of_le fits (Nat.pow_le_pow_right (by decide) (Nat.le_add_right _ _))
    rw [ofLittle_toLittle fits', ofLittle, List.map_append, List.map_replicate]
    rw [show (0 : UInt8).toNat = 0 from rfl, Nat.ofDigits_append_replicate_zero]
    exact (ofLittle_toLittle fits).symm

theorem ofBig_lt (bytes : List UInt8) : ofBig bytes < 256 ^ bytes.length := by
  have bound := ofLittle_lt bytes.reverse
  rwa [List.length_reverse] at bound

theorem ofBig_toBig {size value : Nat} (fits : value < 256 ^ size) :
    ofBig (toBig size value) = value := by
  rw [ofBig, toBig, List.reverse_reverse, ofLittle_toLittle fits]

theorem toBig_ofBig (bytes : List UInt8) : toBig bytes.length (ofBig bytes) = bytes := by
  have back := toLittle_ofLittle bytes.reverse
  rw [List.length_reverse] at back
  rw [toBig, ofBig, back, List.reverse_reverse]

theorem ofBig_append (high low : List UInt8) :
    ofBig (high ++ low) = ofBig high * 256 ^ low.length + ofBig low := by
  simp only [ofBig, ofLittle, List.reverse_append, List.map_append, Nat.ofDigits_append,
    List.length_map, List.length_reverse]
  rw [Nat.add_comm, Nat.mul_comm]

@[simp] theorem ofBig_replicate_zero (size : Nat) : ofBig (List.replicate size 0) = 0 := by
  rw [ofBig, ofLittle, List.reverse_replicate, List.map_replicate]
  exact Nat.ofDigits_replicate_zero

end Bytes
