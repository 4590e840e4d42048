import RiotNyAlesund.Bytes

set_option autoImplicit false

/-! A block cipher in counter mode: the nonce is the first counter block, and each further
block counts it up as one big-endian number. -/
namespace CounterMode

open Bytes

def counterBlock (nonce : List UInt8) (offset : Nat) : List UInt8 :=
  toBig nonce.length ((ofBig nonce + offset) % 256 ^ nonce.length)

@[simp] theorem counterBlock_length (nonce : List UInt8) (offset : Nat) :
    (counterBlock nonce offset).length = nonce.length := toBig_length _ _

def keystreamBlock (cipher : List UInt8 → List UInt8) (nonce : List UInt8) (offset : Nat) :
    List UInt8 :=
  cipher (counterBlock nonce offset)

/-- Each byte of the text with its byte of the keystream. Encryption and decryption are the
same. -/
def crypt (cipher : List UInt8 → List UInt8) (nonce text : List UInt8) : List UInt8 :=
  text.mapIdx fun position byte =>
    byte ^^^ (keystreamBlock cipher nonce (position / nonce.length)).getD
      (position % nonce.length) 0

theorem crypt_crypt (cipher : List UInt8 → List UInt8) (nonce text : List UInt8) :
    crypt cipher nonce (crypt cipher nonce text) = text := by
  apply List.ext_getElem
  · simp only [crypt, List.length_mapIdx]
  · intro position _ _
    simp only [crypt, List.getElem_mapIdx, UInt8.xor_assoc, UInt8.xor_self, UInt8.xor_zero]

/-- Below the capacity of the bytes a nonce keeps at zero the counter never carries out of
them. -/
theorem counterBlock_reserved (head : List UInt8) {size offset : Nat}
    (fits : offset < 256 ^ size) :
    counterBlock (head ++ List.replicate size 0) offset = head ++ toBig size offset := by
  have sized : (head ++ List.replicate size (0 : UInt8)).length =
      (head ++ toBig size offset).length := by
    simp only [List.length_append, List.length_replicate, toBig_length]
  have counted : ofBig (head ++ List.replicate size 0) + offset =
      ofBig (head ++ toBig size offset) := by
    rw [ofBig_append, ofBig_append, ofBig_toBig fits, ofBig_replicate_zero, List.length_replicate,
      toBig_length, Nat.add_zero]
  rw [counterBlock, counted, sized, Nat.mod_eq_of_lt (ofBig_lt _), toBig_ofBig]

/-- Nonces that differ outside the bytes kept for the counter share no counter block. -/
theorem counterBlock_ne {left right : List UInt8} {size i j : Nat}
    (sized : left.length = right.length) (differ : left ≠ right) (iFits : i < 256 ^ size)
    (jFits : j < 256 ^ size) :
    counterBlock (left ++ List.replicate size 0) i ≠
      counterBlock (right ++ List.replicate size 0) j := by
  rw [counterBlock_reserved left iFits, counterBlock_reserved right jFits]
  intro same
  exact differ (List.append_inj_left same sized)

/-- A cipher that permutes its blocks gives different counter blocks different keystream. -/
theorem keystreamBlock_ne {cipher : List UInt8 → List UInt8} {left right : List UInt8} {i j : Nat}
    (permutes : ∀ a b : List UInt8, a.length = left.length → b.length = left.length →
      cipher a = cipher b → a = b)
    (sized : left.length = right.length) (differ : counterBlock left i ≠ counterBlock right j) :
    keystreamBlock cipher left i ≠ keystreamBlock cipher right j := by
  intro same
  exact differ (permutes _ _ (counterBlock_length left i)
    (by rw [counterBlock_length, sized]) same)

end CounterMode
