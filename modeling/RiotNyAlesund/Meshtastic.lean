import RiotNyAlesund.CounterMode

set_option autoImplicit false

/- 2512_meshtastic/receive-mqtt-packets.py: the header of a Meshtastic packet and the nonce
that its payload is decrypted with. -/
namespace RiotNyAlesund.Meshtastic

open Bytes CounterMode

/-- A packet on air, with the four header bytes the script does not look at. -/
structure Packet where
  dest : UInt32
  source : UInt32
  id : UInt32
  others : List UInt8
  payload : List UInt8
  sized : others.length = 4

def layout (packet : Packet) : List UInt8 :=
  toLittle 4 packet.dest.toNat ++ (toLittle 4 packet.source.toNat ++
    (toLittle 4 packet.id.toNat ++ (packet.others ++ packet.payload)))

/-- struct.pack("<q", value), which raises struct.error out of range. -/
def structPackQ (value : Int) : Option (List UInt8) :=
  if -9223372036854775808 ≤ value ∧ value < 9223372036854775808 then
    some (toLittle 8 (value % 18446744073709551616).toNat)
  else none

structure Received where
  dest : Nat
  source : Nat
  id : Nat
  nonce : List UInt8
  payload : List UInt8
  deriving DecidableEq, Repr

/-- The script, from `raw` to the arguments of decrypt_packet. -/
def receive (raw : List UInt8) : Option Received := do
  let dest := ofLittle (raw.take 4)
  let source := ofLittle ((raw.drop 4).take 4)
  let id := ofLittle ((raw.drop 8).take 4)
  let packedId ← structPackQ id
  let packedSource ← structPackQ source
  return ⟨dest, source, id, packedId ++ packedSource, raw.drop 16⟩

/-- decrypt_packet up to the protobuf parser. `aes` is the block cipher under the key. -/
def decryptPacket (aes : List UInt8 → List UInt8) (nonce payload : List UInt8) : List UInt8 :=
  crypt aes nonce payload

theorem structPackQ_eq {value : Nat} (fits : value < 9223372036854775808) :
    structPackQ value = some (toLittle 8 value) := by
  have inside : -9223372036854775808 ≤ (value : Int) ∧ (value : Int) < 9223372036854775808 := by
    omega
  have same : ((value : Int) % 18446744073709551616).toNat = value := by omega
  simp only [structPackQ, inside, and_self, ↓reduceIte, same]

/-- Four bytes are never out of range. -/
theorem structPackQ_field (field : List UInt8) :
    structPackQ (ofLittle (field.take 4)) = some (toLittle 8 (ofLittle (field.take 4))) := by
  apply structPackQ_eq
  have bound := ofLittle_lt (field.take 4)
  have short : (field.take 4).length ≤ 4 := List.length_take_le 4 field
  have capacity : 256 ^ (field.take 4).length ≤ 256 ^ 4 := Nat.pow_le_pow_right (by decide) short
  omega

/-- struct.pack rejects no packet, however short. -/
theorem receive_eq (raw : List UInt8) :
    receive raw = some
      { dest := ofLittle (raw.take 4)
        source := ofLittle ((raw.drop 4).take 4)
        id := ofLittle ((raw.drop 8).take 4)
        nonce := toLittle 8 (ofLittle ((raw.drop 8).take 4)) ++
          toLittle 8 (ofLittle ((raw.drop 4).take 4))
        payload := raw.drop 16 } := by
  simp only [receive, structPackQ_field, Option.bind_eq_bind, Option.bind_some, Option.pure_def]

-- The packet of the README.
example : receive [0xff, 0xff, 0xff, 0xff, 0x0a, 0x1c, 0x15, 0x50, 0x5a, 0xd0, 0xa6, 0x26, 0x62,
    0x31, 0x00, 0x2a, 0xc5, 0x65, 0xc1, 0xb4, 0xaf, 0x6b, 0xa0, 0xe2, 0x1b, 0x45, 0x4c] = some
      { dest := 0xffffffff
        source := 0x50151c0a
        id := 0x26a6d05a
        nonce := [0x5a, 0xd0, 0xa6, 0x26, 0, 0, 0, 0, 0x0a, 0x1c, 0x15, 0x50, 0, 0, 0, 0]
        payload := [0xc5, 0x65, 0xc1, 0xb4, 0xaf, 0x6b, 0xa0, 0xe2, 0x1b, 0x45, 0x4c] } := by
  decide

/-- The part of the nonce that the counter leaves alone. -/
def nonceHead (packet : Packet) : List UInt8 :=
  toLittle 4 packet.id.toNat ++ List.replicate 4 0 ++ toLittle 4 packet.source.toNat

def received (packet : Packet) : Received where
  dest := packet.dest.toNat
  source := packet.source.toNat
  id := packet.id.toNat
  nonce := nonceHead packet ++ List.replicate 4 0
  payload := packet.payload

theorem toLittle_word (word : UInt32) :
    toLittle 8 word.toNat = toLittle 4 word.toNat ++ List.replicate 4 0 :=
  toLittle_pad 4 word.toNat_lt

/-- The script recovers what the sender laid out. -/
theorem receive_layout (packet : Packet) : receive (layout packet) = some (received packet) := by
  have word : ∀ word : UInt32, ofLittle (toLittle 4 word.toNat) = word.toNat :=
    fun word => ofLittle_toLittle word.toNat_lt
  have dest : (layout packet).take 4 = toLittle 4 packet.dest.toNat :=
    List.take_left' (toLittle_length 4 _)
  have afterDest : (layout packet).drop 4 = toLittle 4 packet.source.toNat ++
      (toLittle 4 packet.id.toNat ++ (packet.others ++ packet.payload)) :=
    List.drop_left' (toLittle_length 4 _)
  have afterSource : (layout packet).drop 8 =
      toLittle 4 packet.id.toNat ++ (packet.others ++ packet.payload) := by
    rw [show 8 = 4 + 4 from rfl, ← List.drop_drop, afterDest]
    exact List.drop_left' (toLittle_length 4 _)
  have afterOthers : (layout packet).drop 16 = packet.payload := by
    rw [show 16 = 8 + (4 + 4) from rfl, ← List.drop_drop, afterSource, ← List.drop_drop,
      List.drop_left' (toLittle_length 4 _), List.drop_left' packet.sized]
  rw [receive_eq, dest, afterDest, afterSource, afterOthers, List.take_left' (toLittle_length 4 _),
    List.take_left' (toLittle_length 4 _), word, word, word, toLittle_word, toLittle_word]
  simp only [received, nonceHead, List.append_assoc]

/-- The nonce tells the sender and the packet apart before the counter comes in. -/
theorem nonceHead_ne {left right : Packet}
    (differ : (left.source, left.id) ≠ (right.source, right.id)) :
    nonceHead left ≠ nonceHead right := by
  intro same
  have word : ∀ {a b : UInt32}, toLittle 4 a.toNat = toLittle 4 b.toNat → a = b := by
    intro a b same
    have values := congrArg ofLittle same
    rw [ofLittle_toLittle a.toNat_lt, ofLittle_toLittle b.toNat_lt] at values
    exact UInt32.toNat_inj.mp values
  have split := List.append_inj same (by
    simp only [List.length_append, toLittle_length, List.length_replicate])
  have ids := List.append_inj_left split.1 (by simp only [toLittle_length])
  exact differ (Prod.ext (word split.2) (word ids))

theorem nonceHead_length (packet : Packet) : (nonceHead packet).length = 12 := by
  simp only [nonceHead, List.length_append, toLittle_length, List.length_replicate]

/-- Packets of different senders or ids have all their counter blocks apart. -/
theorem counterBlock_received_ne {left right : Packet}
    (differ : (left.source, left.id) ≠ (right.source, right.id)) {i j : Nat}
    (iFits : i < 4294967296) (jFits : j < 4294967296) :
    counterBlock (received left).nonce i ≠ counterBlock (received right).nonce j := by
  apply counterBlock_ne _ (nonceHead_ne differ) iFits jFits
  rw [nonceHead_length, nonceHead_length]

/-- Decrypting what was encrypted under the nonce of the packet gives the text back. -/
theorem decryptPacket_crypt (aes : List UInt8 → List UInt8) (packet : Packet)
    (text : List UInt8) (encrypted : packet.payload = crypt aes (received packet).nonce text) :
    decryptPacket aes (received packet).nonce (received packet).payload = text := by
  rw [received, encrypted]
  exact crypt_crypt aes _ text

/-- Every packet is parsed as it was laid out, and packets that differ in sender or id share
no counter block, hence no keystream block of a cipher that permutes its blocks. -/
theorem header_and_keystream (left right : Packet) :
    receive (layout left) = some (received left) ∧
    receive (layout right) = some (received right) ∧
    ((left.source, left.id) ≠ (right.source, right.id) →
      ∀ i j, i < 4294967296 → j < 4294967296 →
        counterBlock (received left).nonce i ≠ counterBlock (received right).nonce j ∧
        ∀ aes : List UInt8 → List UInt8,
          (∀ a b : List UInt8, a.length = 16 → b.length = 16 → aes a = aes b → a = b) →
          keystreamBlock aes (received left).nonce i ≠
            keystreamBlock aes (received right).nonce j) := by
  refine ⟨receive_layout left, receive_layout right, ?_⟩
  intro differ i j iFits jFits
  have apart := counterBlock_received_ne differ iFits jFits
  have sized : ∀ packet, (received packet).nonce.length = 16 := by
    intro packet
    rw [received, List.length_append, nonceHead_length, List.length_replicate]
  refine ⟨apart, fun aes permutes => ?_⟩
  apply keystreamBlock_ne _ ((sized left).trans (sized right).symm) apart
  rw [sized left]
  exact permutes

theorem header_and_keystream_two :
    counterBlock (received ⟨0, 1, 2, [0, 0, 0, 0], [7], rfl⟩).nonce 5 ≠
      counterBlock (received ⟨0, 2, 2, [0, 0, 0, 0], [7], rfl⟩).nonce 4294967295 :=
  ((header_and_keystream ⟨0, 1, 2, [0, 0, 0, 0], [7], rfl⟩
    ⟨0, 2, 2, [0, 0, 0, 0], [7], rfl⟩).2.2 (by decide) 5 4294967295 (by decide) (by decide)).1

end RiotNyAlesund.Meshtastic
