import RiotNyAlesund.Base64
import RiotNyAlesund.HexText
import RiotNyAlesund.Meshtastic

set_option autoImplicit false

/- 2512_meshtastic/receive-mqtt-packets.py as a whole: the texts of the packet and of the key,
what is printed, and what the protobuf parser is given. -/
namespace RiotNyAlesund.Meshtastic

open Bytes CounterMode HexText

/-- The bytes that the comment at KEY gives for the default channel. -/
def defaultKey : List UInt8 :=
  [0xd4, 0xf1, 0xbb, 0x3a, 0x20, 0x29, 0x07, 0x59, 0xf0, 0xbc, 0xff, 0xab, 0xcf, 0x4e, 0x69, 0x01]

/-- KEY once the short name of the default channel is replaced. -/
def channelKey (text : List Char) : List Char :=
  if text = "AQ==".toList then "1PG7OiApB1nwvP+rz05pAQ==".toList else text

def isascii (text : List Char) : Bool := text.all fun c => c.toNat < 128

/-- base64.b64decode of a str, which must be ASCII. -/
def b64decode (text : List Char) : Option (List UInt8) :=
  if isascii text then Base64.decode text else none

/-- bytes.hex. -/
def hexBytes (bytes : List UInt8) : List Char := bytes.flatMap fun byte => paddedHex byte.toNat

/-- The built-in hex. -/
def hexInt (value : Nat) : List Char := "0x".toList ++ hex value

/-- The lines printed ahead of the parser, and the argument of ParseFromString, if no exception
comes before it. -/
structure Outcome where
  printed : List (List Char)
  given : Option (List UInt8)
  deriving DecidableEq, Repr

/-- The lines that are printed before. -/
def Outcome.behind (outcome : Outcome) (lines : List (List Char)) : Outcome :=
  ⟨lines ++ outcome.printed, outcome.given⟩

/-- decrypt_packet. algorithms.AES takes keys of 16, 24 and 32 bytes. -/
def decrypt (aes : List UInt8 → List UInt8 → List UInt8) (nonce payload : List UInt8)
    (key : List Char) : Outcome :=
  (b64decode key).elim ⟨[], none⟩ fun keyBytes =>
    ⟨["nonce.hex: ".toList ++ hexBytes nonce],
      if keyBytes.length = 16 ∨ keyBytes.length = 24 ∨ keyBytes.length = 32 then
        some (decryptPacket (aes keyBytes) nonce payload)
      else none⟩

def headerLines (raw : List UInt8) : List (List Char) :=
  [hexBytes raw,
    "dest=    ".toList ++ hexInt (ofLittle (raw.take 4)),
    "source=  ".toList ++ hexInt (ofLittle ((raw.drop 4).take 4)),
    "packetid=".toList ++ hexInt (ofLittle ((raw.drop 8).take 4))]

/-- The script on the texts `key` and `b64`. -/
def script (aes : List UInt8 → List UInt8 → List UInt8) (key b64 : List Char) : Outcome :=
  (b64decode b64).elim ⟨[], none⟩ fun raw =>
    (receive raw).elim ⟨headerLines raw, none⟩ fun header =>
      (decrypt aes header.nonce header.payload (channelKey key)).behind (headerLines raw)

/-- An ASCII text that has the digits of the bytes, with anything else between them. -/
structure Carries (text : List Char) (bytes : List UInt8) : Prop where
  ascii : isascii text = true
  digits : text.filter Base64.significant = Base64.encode bytes

/-- The texts of a key: its digits, or the short name of the default one. -/
def Names (text : List Char) (key : List UInt8) : Prop :=
  (text = "AQ==".toList ∧ key = defaultKey) ∨
    (Carries text key ∧ (key.length = 16 ∨ key.length = 24 ∨ key.length = 32))

theorem Carries.decode {text : List Char} {bytes : List UInt8} (carries : Carries text bytes) :
    b64decode text = some bytes := by
  rw [b64decode, if_pos carries.ascii]
  exact Base64.decode_of_filter carries.digits

/-- The text that replaces the short name is that of the key in the comment. -/
theorem default_decode : b64decode (channelKey "AQ==".toList) = some defaultKey := by
  decide +kernel

/-- The short name is no text of a key that AES takes. -/
theorem Carries.unreplaced {text : List Char} {key : List UInt8} (carries : Carries text key)
    (sized : key.length = 16 ∨ key.length = 24 ∨ key.length = 32) : channelKey text = text := by
  apply if_neg
  rintro rfl
  have single : b64decode "AQ==".toList = some [1] := by decide +kernel
  rw [carries.decode, Option.some.injEq] at single
  rw [single] at sized
  revert sized
  decide

theorem Names.decode {text : List Char} {key : List UInt8} (names : Names text key) :
    b64decode (channelKey text) = some key ∧
      (key.length = 16 ∨ key.length = 24 ∨ key.length = 32) := by
  rcases names with ⟨short, default⟩ | ⟨carries, sized⟩
  · rw [short, default]
    exact ⟨default_decode, Or.inl rfl⟩
  · rw [carries.unreplaced sized]
    exact ⟨carries.decode, sized⟩

theorem headerLines_layout (packet : Packet) : headerLines (layout packet) =
    [hexBytes (layout packet), "dest=    ".toList ++ hexInt packet.dest.toNat,
      "source=  ".toList ++ hexInt packet.source.toNat,
      "packetid=".toList ++ hexInt packet.id.toNat] := by
  have parsed := receive_layout packet
  rw [receive_eq, Option.some.injEq] at parsed
  have dest : ofLittle ((layout packet).take 4) = packet.dest.toNat :=
    congrArg Received.dest parsed
  have source : ofLittle (((layout packet).drop 4).take 4) = packet.source.toNat :=
    congrArg Received.source parsed
  have id : ofLittle (((layout packet).drop 8).take 4) = packet.id.toNat :=
    congrArg Received.id parsed
  rw [headerLines, dest, source, id]

theorem decrypt_eq (aes : List UInt8 → List UInt8 → List UInt8) (nonce payload : List UInt8)
    {text : List Char} {key : List UInt8} (decoded : b64decode text = some key)
    (sized : key.length = 16 ∨ key.length = 24 ∨ key.length = 32) :
    decrypt aes nonce payload text = ⟨["nonce.hex: ".toList ++ hexBytes nonce],
      some (decryptPacket (aes key) nonce payload)⟩ := by
  rw [decrypt, decoded, Option.elim_some, if_pos sized]

theorem script_eq (aes : List UInt8 → List UInt8 → List UInt8) (key : List Char)
    {b64 : List Char} {raw : List UInt8} {header : Received}
    (decoded : b64decode b64 = some raw) (parsed : receive raw = some header) :
    script aes key b64 =
      (decrypt aes header.nonce header.payload (channelKey key)).behind (headerLines raw) := by
  rw [script, decoded, Option.elim_some, parsed, Option.elim_some]

/-- From the text of a packet and a text of its channel's key the script comes to the plain
text that the sender encrypted, and its first line has all of the packet, the four bytes that it
does not look at included. -/
theorem script_decrypts (aes : List UInt8 → List UInt8 → List UInt8) (packet : Packet)
    (text key : List UInt8) (keyText b64 : List Char) (carries : Carries b64 (layout packet))
    (names : Names keyText key)
    (encrypted : packet.payload = crypt (aes key) (received packet).nonce text) :
    script aes keyText b64 =
        ⟨[hexBytes (layout packet), "dest=    ".toList ++ hexInt packet.dest.toNat,
          "source=  ".toList ++ hexInt packet.source.toNat,
          "packetid=".toList ++ hexInt packet.id.toNat,
          "nonce.hex: ".toList ++ hexBytes (received packet).nonce], some text⟩ ∧
      unhex (hexBytes (layout packet)) = layout packet ∧
      receive (layout packet) = some (received packet) := by
  obtain ⟨decoded, sized⟩ := names.decode
  refine ⟨?_, unhex_padded (layout packet), receive_layout packet⟩
  rw [script_eq aes keyText carries.decode (receive_layout packet),
    decrypt_eq aes _ _ decoded sized, decryptPacket_crypt (aes key) packet text encrypted,
    headerLines_layout]
  rfl

/-- The packet of the README. -/
def readmePacket : Packet :=
  ⟨0xffffffff, 0x50151c0a, 0x26a6d05a, [0x62, 0x31, 0x00, 0x2a],
    [0xc5, 0x65, 0xc1, 0xb4, 0xaf, 0x6b, 0xa0, 0xe2, 0x1b, 0x45, 0x4c], rfl⟩

/-- AES-128 with the default key on the first counter block of that packet. -/
def readmeBlock : List UInt8 :=
  [0xcd, 0x64, 0xd3, 0xb1, 0xe7, 0x0e, 0xcc, 0x8e, 0x74, 0x0d, 0x4c, 0xca, 0x7d, 0x2a, 0x13, 0x04]

/-- A Data message of the text "Hello". -/
def readmeText : List UInt8 := [8, 1, 18, 5, 72, 101, 108, 108, 111, 72, 0]

theorem script_decrypts_readme :
    ∃ printed, script (fun _ _ => readmeBlock) "AQ==".toList
        "/////wocFVBa0KYmYjEAKsVlwbSva6DiG0VM".toList = ⟨printed, some readmeText⟩ ∧
      unhex (hexBytes (layout readmePacket)) = layout readmePacket ∧
      receive (layout readmePacket) = some (received readmePacket) :=
  ⟨_, script_decrypts (fun _ _ => readmeBlock) readmePacket readmeText defaultKey "AQ==".toList
    "/////wocFVBa0KYmYjEAKsVlwbSva6DiG0VM".toList ⟨by decide +kernel, by decide +kernel⟩
    (Or.inl ⟨rfl, rfl⟩) (by decide +kernel)⟩

-- The lines of the README.
example : (script (fun _ _ => readmeBlock) "AQ==".toList
    "/////wocFVBa0KYmYjEAKsVlwbSva6DiG0VM".toList).printed.map String.ofList =
      ["ffffffff0a1c15505ad0a6266231002ac565c1b4af6ba0e21b454c", "dest=    0xffffffff",
        "source=  0x50151c0a", "packetid=0x26a6d05a",
        "nonce.hex: 5ad0a626000000000a1c155000000000"] := by
  rfl

end RiotNyAlesund.Meshtastic
