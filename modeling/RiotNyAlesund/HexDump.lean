import RiotNyAlesund.HexText
import RiotNyAlesund.Transition

set_option autoImplicit false

/- The packet dumps of lora_relay: the loop of ListenOnly/main.c, that of Relay/main.c, and
printf_ba of Endpoint/loramac_utils.c. -/
namespace RiotNyAlesund.HexDump

open Transition HexText

/-- The size of `buffer` and of `temp`. -/
def bufferSize : Nat := 256

/-- `(int)message[k]` as `%x` takes it. `signed` tells whether plain char is. -/
def promoted (signed : Bool) (byte : UInt8) : Nat :=
  if signed = true ∧ 128 ≤ byte.toNat then 0xffffff00 + byte.toNat else byte.toNat

def text (signed : Bool) (byte : UInt8) : List Char := hex (promoted signed byte)

/-- The strings in `buffer` and `temp`, without their terminators. -/
structure Dump where
  buffer : List Char
  temp : List Char

def cleared : Dump := ⟨[], []⟩

/-- sprintf into `buffer`, then strcat to `temp`. -/
def append (signed : Bool) (dump : Dump) (byte : UInt8) : Dump where
  buffer := text signed byte
  temp := dump.temp ++ text signed byte

/-- What is printed behind the digits. -/
def byteCount (message : List UInt8) : List Char :=
  " (".toList ++ Nat.toDigits 10 message.length ++ " bytes)\n".toList

/-- The line ListenOnly prints. -/
def listenOnlyLine (signed : Bool) (message : List UInt8) : List Char :=
  (message.foldl (append signed) cleared).temp ++ byteCount message

/-- The line Relay prints. -/
def relayLine (signed : Bool) (message : List UInt8) : List Char :=
  message.flatMap (text signed) ++ byteCount message

def printfBa (bytes : List UInt8) : List Char := bytes.flatMap fun byte => paddedHex byte.toNat

/-- Both strings fit their buffers, with their terminators. -/
def Dump.Fits (dump : Dump) : Prop :=
  dump.buffer.length + 1 ≤ bufferSize ∧ dump.temp.length + 1 ≤ bufferSize

instance (dump : Dump) : Decidable dump.Fits := inferInstanceAs (Decidable (_ ∧ _))

/-- How many digits a byte takes. -/
def width (signed : Bool) (byte : UInt8) : Nat :=
  if byte.toNat < 16 then 1 else if signed = true ∧ 128 ≤ byte.toNat then 8 else 2

/-- Where a byte is printed with two digits. -/
def Plain (signed : Bool) (byte : UInt8) : Prop :=
  16 ≤ byte.toNat ∧ (signed = true → byte.toNat < 128)

instance (signed : Bool) (byte : UInt8) : Decidable (Plain signed byte) :=
  inferInstanceAs (Decidable (_ ∧ _))

theorem text_small (signed : Bool) {byte : UInt8} (small : byte.toNat < 16) :
    text signed byte = [byte.toNat.digitChar] := by
  rw [text, promoted, if_neg (by omega), hex_of_lt small]

/-- A plain byte is not extended. -/
theorem Plain.unextended {signed : Bool} {byte : UInt8} (plain : Plain signed byte) :
    ¬(signed = true ∧ 128 ≤ byte.toNat) :=
  fun extended => absurd (plain.2 extended.1) (Nat.not_lt.mpr extended.2)

theorem text_plain {signed : Bool} {byte : UInt8} (plain : Plain signed byte) :
    text signed byte = [(byte.toNat / 16).digitChar, (byte.toNat % 16).digitChar] := by
  rw [text, promoted, if_neg plain.unextended, hex_pair plain.1 byte.toNat_lt]

/-- The sign extension is printed too. -/
theorem text_extended {byte : UInt8} (negative : 128 ≤ byte.toNat) :
    text true byte = List.replicate 6 'f' ++
      [(byte.toNat / 16).digitChar, (byte.toNat % 16).digitChar] := by
  have extended : promoted true byte = 256 * 0xffffff + byte.toNat := by
    rw [promoted, if_pos ⟨rfl, negative⟩]
  have front : hex 0xffffff = List.replicate 6 'f' := by decide
  rw [text, extended, hex_behind (by decide) byte.toNat_lt, front]

theorem plain_or (signed : Bool) (byte : UInt8) :
    byte.toNat < 16 ∨ Plain signed byte ∨ (signed = true ∧ 128 ≤ byte.toNat) := by
  unfold Plain
  cases signed <;> simp <;> omega

theorem text_length (signed : Bool) (byte : UInt8) :
    (text signed byte).length = width signed byte := by
  rcases plain_or signed byte with small | plain | ⟨rfl, negative⟩
  · rw [text_small signed small, width, if_pos small, List.length_singleton]
  · rw [text_plain plain, width, if_neg (Nat.not_lt.mpr plain.1), if_neg plain.unextended]
    rfl
  · rw [text_extended negative, width, if_neg (by omega), if_pos ⟨rfl, negative⟩]
    rfl

theorem width_le (signed : Bool) (byte : UInt8) : width signed byte ≤ 8 := by
  unfold width
  split
  · decide
  · split <;> decide

theorem foldl_temp (signed : Bool) (message : List UInt8) (dump : Dump) :
    (message.foldl (append signed) dump).temp = dump.temp ++ message.flatMap (text signed) := by
  induction message generalizing dump with
  | nil => exact (List.append_nil _).symm
  | cons byte rest ih => rw [List.foldl_cons, ih, append, List.append_assoc, List.flatMap_cons]

/-- `buffer` holds the digits of one byte at most. -/
theorem foldl_buffer (signed : Bool) (message : List UInt8) {dump : Dump}
    (short : dump.buffer.length ≤ 8) :
    (message.foldl (append signed) dump).buffer.length ≤ 8 := by
  induction message generalizing dump with
  | nil => exact short
  | cons byte rest ih =>
      rw [List.foldl_cons]
      apply ih
      rw [append, text_length]
      exact width_le signed byte

theorem length_flatMap_text (signed : Bool) (message : List UInt8) :
    (message.flatMap (text signed)).length = total (width signed) message := by
  induction message with
  | nil => rfl
  | cons byte rest ih => rw [List.flatMap_cons, List.length_append, text_length, ih, total]

theorem fits_iff (signed : Bool) (message : List UInt8) :
    (message.foldl (append signed) cleared).Fits ↔ total (width signed) message ≤ 255 := by
  have empty : cleared.buffer.length ≤ 8 := Nat.zero_le 8
  have short := foldl_buffer signed message empty
  have temp : (message.foldl (append signed) cleared).temp.length =
      total (width signed) message := by
    rw [foldl_temp, cleared, List.nil_append, length_flatMap_text]
  rw [Dump.Fits, temp, bufferSize]
  omega

/-- Where the whole string fits, its front parts do. -/
theorem fits_take {signed : Bool} {message : List UInt8}
    (fits : (message.foldl (append signed) cleared).Fits) (k : Nat) :
    ((message.take k).foldl (append signed) cleared).Fits := by
  rw [fits_iff] at *
  exact Nat.le_trans (total_take_le (width signed) message k) fits

/-- `temp` holds the string of a packet exactly when its bytes take at most 255 digits. -/
theorem dump_fits_iff (signed : Bool) (message : List UInt8) :
    (∀ k, ((message.take k).foldl (append signed) cleared).Fits) ↔
      total (width signed) message ≤ 255 := by
  rw [← fits_iff]
  constructor
  · intro fits
    have last := fits message.length
    rwa [List.take_length] at last
  · exact fits_take

/-- The 256 digits of 128 bytes leave no room for the terminator. -/
theorem long_dump_overruns :
    ¬ ∀ (signed : Bool) (message : List UInt8), message.length ≤ 255 → ∀ k,
      ((message.take k).foldl (append signed) cleared).Fits := by
  intro claim
  have fits := (claim false (List.replicate 128 16) (by decide +kernel) 128).2
  exact absurd fits (by decide +kernel)

/-- From 16 on no byte's digits begin with those of another one. -/
theorem text_prefixFree (signed : Bool) :
    PrefixFree (text signed) fun byte => 16 ≤ byte.toNat := by
  intro first second large large' begins
  have byte := first.toNat_lt
  have byte' := second.toNat_lt
  rcases plain_or signed first with small | plain | ⟨rfl, negative⟩
  · omega
  · rw [text_plain plain] at begins
    rcases plain_or signed second with small' | plain' | ⟨rfl, negative'⟩
    · omega
    · rw [text_plain plain'] at begins
      simp only [List.cons_prefix_cons, List.prefix_rfl, and_true] at begins
      exact UInt8.toNat_inj.mp (pair_inj byte byte' begins.1 begins.2)
    · -- The digits of a negative char begin with an f, those of a plain byte do not.
      rw [text_extended negative', List.replicate_succ, List.cons_append,
        List.cons_prefix_cons, Nat.digitChar_eq_f] at begins
      have below := plain.2 rfl
      omega
  · rw [text_extended negative] at begins
    rcases plain_or true second with small' | plain' | ⟨_, negative'⟩
    · omega
    · rw [text_plain plain'] at begins
      have short := begins.length_le
      simp at short
    · rw [text_extended negative', List.prefix_append_right_inj] at begins
      simp only [List.cons_prefix_cons, List.prefix_rfl, and_true] at begins
      exact UInt8.toNat_inj.mp (pair_inj byte byte' begins.1 begins.2)

/-- Only the text of a zero begins with a zero. -/
theorem text_zero {signed : Bool} {byte : UInt8} {behind rest : List Char}
    (begins : text signed byte ++ behind = '0' :: rest) : byte.toNat = 0 ∧ behind = rest := by
  rcases plain_or signed byte with small | plain | ⟨rfl, negative⟩
  · rw [text_small signed small, List.singleton_append, List.cons.injEq,
      Nat.digitChar_eq_zero] at begins
    exact begins
  · have high := plain.1
    rw [text_plain plain, List.cons_append, List.cons.injEq, Nat.digitChar_eq_zero] at begins
    omega
  · rw [text_extended negative, List.replicate_succ, List.cons_append, List.cons_append,
      List.cons.injEq] at begins
    exact absurd begins.1 (by decide)

theorem printfBa_cons (byte : UInt8) (rest : List UInt8) :
    printfBa (byte :: rest) =
      (byte.toNat / 16).digitChar :: (byte.toNat % 16).digitChar :: printfBa rest := by
  rw [printfBa, List.flatMap_cons, paddedHex_pair byte.toNat_lt]
  rfl

/-- A dump that lags behind printf_ba by zeros never catches up. -/
theorem zeros_ahead (signed : Bool) (rest : List UInt8) (lag : Nat) :
    rest.flatMap (text signed) ≠ List.replicate (lag + 1) '0' ++ printfBa rest := by
  induction rest generalizing lag with
  | nil => exact (List.cons_ne_nil _ _).symm
  | cons byte rest ih =>
      intro equal
      rw [List.flatMap_cons, List.replicate_succ, List.cons_append] at equal
      obtain ⟨zero, equal⟩ := text_zero equal
      apply ih (lag + 1)
      rw [equal, printfBa_cons, zero, List.replicate_succ', List.replicate_succ',
        List.append_assoc, List.append_assoc]
      rfl

/-- A dump that is ahead of printf_ba by sign extensions stays ahead. -/
theorem extensions_ahead (rest : List UInt8) (lead : Nat) :
    List.replicate (6 * lead + 6) 'f' ++ rest.flatMap (text true) ≠ printfBa rest := by
  induction rest generalizing lead with
  | nil => exact List.cons_ne_nil _ _
  | cons byte rest ih =>
      intro equal
      have small := byte.toNat_lt
      rw [printfBa_cons, List.flatMap_cons, List.replicate_succ, List.replicate_succ,
        List.cons_append, List.cons_append, List.cons.injEq, List.cons.injEq,
        Nat.f_eq_digitChar, Nat.f_eq_digitChar] at equal
      obtain ⟨high, low, equal⟩ := equal
      have digits : text true byte = List.replicate 8 'f' := by
        rw [text_extended (by omega), high, low]
        rfl
      have longer : 6 * (lead + 1) + 6 = 6 * lead + 4 + 8 := by omega
      apply ih (lead + 1)
      rw [← equal, digits, ← List.append_assoc, List.replicate_append_replicate, longer]

/-- The digits of a packet are those printf_ba prints exactly when every byte has two. -/
theorem text_eq_printfBa_iff (signed : Bool) (message : List UInt8) :
    message.flatMap (text signed) = printfBa message ↔ ∀ byte ∈ message, Plain signed byte := by
  induction message with
  | nil => exact iff_of_true rfl fun _ member => absurd member List.not_mem_nil
  | cons byte rest ih =>
      rw [List.forall_mem_cons, List.flatMap_cons, printfBa_cons]
      rcases plain_or signed byte with small | plain | ⟨rfl, negative⟩
      · apply iff_of_false
        · intro equal
          rw [text_small signed small, Nat.div_eq_of_lt small, Nat.mod_eq_of_lt small,
            List.singleton_append, List.cons.injEq] at equal
          apply zeros_ahead signed rest 0
          rw [equal.2, equal.1]
          rfl
        · exact fun all => absurd all.1.1 (Nat.not_le.mpr small)
      · rw [text_plain plain, ← ih]
        simp only [List.cons_append, List.nil_append, List.cons.injEq, true_and, plain]
      · apply iff_of_false
        · intro equal
          rw [text_extended negative, List.replicate_succ, List.replicate_succ,
            List.cons_append, List.cons_append, List.cons_append, List.cons_append,
            List.cons.injEq, List.cons.injEq] at equal
          obtain ⟨high, low, equal⟩ := equal
          apply extensions_ahead rest 0
          rw [← equal, ← high, ← low]
          rfl
        · exact fun all => absurd (all.1.2 rfl) (Nat.not_lt.mpr negative)

/-- Neither console confuses the two packets, and both print what printf_ba does. -/
structure Faithful (signed : Bool) (packet other : List UInt8) : Prop where
  listenOnly : listenOnlyLine signed packet = listenOnlyLine signed other → packet = other
  relay : relayLine signed packet = relayLine signed other → packet = other
  agrees : ∀ bytes ∈ [packet, other],
    listenOnlyLine signed bytes = printfBa bytes ++ byteCount bytes ∧
      relayLine signed bytes = printfBa bytes ++ byteCount bytes

/-- Both consoles print the same line. -/
theorem listenOnlyLine_eq (signed : Bool) (message : List UInt8) :
    listenOnlyLine signed message = relayLine signed message := by
  rw [listenOnlyLine, foldl_temp, cleared, List.nil_append, relayLine]

theorem relayLine_eq_iff (signed : Bool) (message : List UInt8) :
    relayLine signed message = printfBa message ++ byteCount message ↔
      ∀ byte ∈ message, Plain signed byte := by
  rw [relayLine, List.append_cancel_right_eq, text_eq_printfBa_iff]

/-- Packets whose bytes are all from 16 on can be told apart. -/
theorem relayLine_inj {signed : Bool} {packet other : List UInt8}
    (same : packet.length = other.length) (large : ∀ byte ∈ packet ++ other, 16 ≤ byte.toNat)
    (equal : relayLine signed packet = relayLine signed other) : packet = other := by
  rw [List.forall_mem_append] at large
  have count : byteCount packet = byteCount other := by rw [byteCount, same, byteCount]
  rw [relayLine, relayLine, count, List.append_cancel_right_eq] at equal
  exact (text_prefixFree signed).flatMap_inj same large.1 large.2 equal

/-- The dumps of two packets are faithful exactly when every byte takes two digits. For the two
lines to differ it is enough that no byte takes a single one. -/
theorem dumps_faithful_iff (signed : Bool) (packet other : List UInt8)
    (same : packet.length = other.length) :
    (Faithful signed packet other ↔ ∀ byte ∈ packet ++ other, Plain signed byte) ∧
    ((∀ byte ∈ packet ++ other, 16 ≤ byte.toNat) →
      (listenOnlyLine signed packet = listenOnlyLine signed other → packet = other) ∧
      (relayLine signed packet = relayLine signed other → packet = other)) := by
  have apart : (∀ byte ∈ packet ++ other, 16 ≤ byte.toNat) →
      (listenOnlyLine signed packet = listenOnlyLine signed other → packet = other) ∧
      (relayLine signed packet = relayLine signed other → packet = other) := by
    intro large
    rw [listenOnlyLine_eq, listenOnlyLine_eq]
    exact ⟨relayLine_inj same large, relayLine_inj same large⟩
  refine ⟨⟨?_, ?_⟩, apart⟩
  · intro faithful
    rw [List.forall_mem_append]
    have agrees := faithful.agrees
    simp only [List.forall_mem_cons] at agrees
    exact ⟨(relayLine_eq_iff signed packet).mp agrees.1.2,
      (relayLine_eq_iff signed other).mp agrees.2.1.2⟩
  · intro plain
    have told := apart fun byte member => (plain byte member).1
    rw [List.forall_mem_append] at plain
    have agrees : ∀ bytes, (∀ byte ∈ bytes, Plain signed byte) →
        listenOnlyLine signed bytes = printfBa bytes ++ byteCount bytes ∧
          relayLine signed bytes = printfBa bytes ++ byteCount bytes := by
      intro bytes all
      rw [listenOnlyLine_eq, and_self]
      exact (relayLine_eq_iff signed bytes).mpr all
    refine ⟨told.1, told.2, ?_⟩
    rw [List.forall_mem_cons, List.forall_mem_singleton]
    exact ⟨agrees packet plain.1, agrees other plain.2⟩

theorem dumps_of_plain_faithful : Faithful true [16, 17] [18, 19] :=
  (dumps_faithful_iff true [16, 17] [18, 19] rfl).1.mpr (by simp [Plain])

/-- The packets 01 11 and 11 01 are both printed as 111. -/
theorem small_bytes_confused :
    ¬ ∀ (signed : Bool) (packet other : List UInt8), packet.length = other.length →
      total (width signed) packet ≤ 255 → total (width signed) other ≤ 255 →
      Faithful signed packet other := by
  intro claim
  have faithful := claim false [1, 17] [17, 1] rfl (by decide) (by decide)
  exact absurd (faithful.listenOnly (by decide)) (by decide)

end RiotNyAlesund.HexDump
