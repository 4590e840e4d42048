import RiotNyAlesund.Regions

set_option autoImplicit false

/- lora_relay/Endpoint/loramac_utils.c: loramac_utils_forge_euis_and_key. -/
namespace RiotNyAlesund.Forge

open Regions

/-- LORAMAC_DEVEUI_LEN. -/
def deveuiLen : Nat := 8

/-- LORAMAC_APPEUI_LEN. -/
def appeuiLen : Nat := 8

/-- LORAMAC_APPKEY_LEN. -/
def appkeyLen : Nat := 16

/-- SHA1_DIGEST_LENGTH. -/
def sha1DigestLength : Nat := 20

inductive Region
  | id
  | deveui
  | appeui
  | appkey
  | secret
  | appeuiMask
  | digest
  deriving DecidableEq, Repr

/-- The sizes of the arrays. -/
def size (cpuidLen : Nat) : Region → Nat
  | .id => cpuidLen
  | .deveui => deveuiLen
  | .appeui => appeuiLen
  | .appkey => appkeyLen
  | .secret => appkeyLen
  | .appeuiMask => appeuiLen / 2
  | .digest => sha1DigestLength

def appeuiMask : List UInt8 := [0xff, 0xff, 0xff, 0xff]

abbrev Memory := Regions.Memory Region UInt8

/-- The memory at the call, with a zeroed deveui. The other cells are those of `others`. -/
def entry (others : Region → Nat → UInt8) : Memory where
  cells
    | .deveui => Cells.store (others .deveui) 0 (List.replicate deveuiLen 0)
    | .appeuiMask => Cells.store (others .appeuiMask) 0 appeuiMask
    | region => others region
  log := []

def forgeDeveui (cpuidLen : Nat) (memory : Memory) : Memory :=
  if deveuiLen < cpuidLen then
    memory.memcpy .deveui 0 .id (cpuidLen - deveuiLen) deveuiLen
  else memory.memcpy .deveui (deveuiLen - cpuidLen) .id 0 deveuiLen

def forgeAppeui (memory : Memory) : Memory :=
  (memory.memcpy .appeui 0 .deveui 0 appeuiLen).memcpy .appeui (appeuiLen / 2) .appeuiMask 0
    (appeuiLen / 2)

/-- What sha1_update is given in turn. -/
def hashed (memory : Memory) : List UInt8 :=
  memory.block .deveui 0 deveuiLen ++ memory.block .appeui 0 appeuiLen ++
    memory.block .secret 0 appkeyLen

def forgeAppkey (sha1 : List UInt8 → Vector UInt8 sha1DigestLength) (memory : Memory) : Memory :=
  let updated := ((memory.read .deveui 0 deveuiLen).read .appeui 0 appeuiLen).read .secret 0
    appkeyLen
  let final := updated.write .digest 0 (sha1 (hashed memory)).toList
  final.memcpy .appkey 0 .digest 0 appkeyLen

/-- The whole function. `cpuid` is what cpuid_get writes to `id`, CPUID_LEN bytes. -/
def forgeEuisAndKey (sha1 : List UInt8 → Vector UInt8 sha1DigestLength) (cpuid : List UInt8)
    (memory : Memory) : Memory :=
  forgeAppkey sha1 (forgeAppeui (forgeDeveui cpuid.length (memory.write .id 0 cpuid)))

/-- The CPUID at the end of eight bytes, with zeroes in front or its first bytes left out. -/
def rightAligned (cpuid : List UInt8) : List UInt8 :=
  (List.replicate deveuiLen 0 ++ cpuid).drop cpuid.length

/-- The identities and the key are forged from the CPUID and the secret. -/
structure Forged (sha1 : List UInt8 → Vector UInt8 sha1DigestLength) (cpuid secret : List UInt8)
    (memory : Memory) : Prop where
  deveui : memory.block .deveui 0 deveuiLen = rightAligned cpuid
  appeui : memory.block .appeui 0 appeuiLen =
    (rightAligned cpuid).take 4 ++ [0xff, 0xff, 0xff, 0xff]
  appkey : memory.block .appkey 0 appkeyLen = (sha1 (rightAligned cpuid ++
    ((rightAligned cpuid).take 4 ++ [0xff, 0xff, 0xff, 0xff]) ++ secret)).toList.take appkeyLen

theorem rightAligned_long {cpuid : List UInt8} (long : deveuiLen ≤ cpuid.length) :
    rightAligned cpuid = cpuid.drop (cpuid.length - deveuiLen) := by
  rw [rightAligned, List.drop_append, List.length_replicate,
    List.drop_eq_nil_of_le (by rwa [List.length_replicate]), List.nil_append]

theorem rightAligned_eight {cpuid : List UInt8} (sized : cpuid.length = deveuiLen) :
    rightAligned cpuid = cpuid := by
  rw [rightAligned_long (Nat.le_of_eq sized.symm), sized, Nat.sub_self, List.drop_zero]

section Steps

variable {cpuidLen : Nat} {cpuid : List UInt8} {memory : Memory} {region : Region}
  (sha1 : List UInt8 → Vector UInt8 sha1DigestLength)

theorem forgeDeveui_cells (other : region ≠ .deveui) :
    (forgeDeveui cpuidLen memory).cells region = memory.cells region := by
  unfold forgeDeveui
  split
  all_goals exact Memory.memcpy_cells_other _ _ _ _ _ other

theorem forgeAppeui_cells (other : region ≠ .appeui) :
    (forgeAppeui memory).cells region = memory.cells region := by
  rw [forgeAppeui, Memory.memcpy_cells_other _ _ _ _ _ other,
    Memory.memcpy_cells_other _ _ _ _ _ other]

theorem forgeAppkey_cells (other : region ≠ .appkey) (other' : region ≠ .digest) :
    (forgeAppkey sha1 memory).cells region = memory.cells region := by
  rw [forgeAppkey, Memory.memcpy_cells_other _ _ _ _ _ other,
    Memory.write_cells_other _ _ _ other', Memory.read_cells, Memory.read_cells,
    Memory.read_cells]

/-- Of a CPUID of eight bytes or more both branches copy the last eight. -/
theorem forgeDeveui_long (long : deveuiLen ≤ cpuidLen) : forgeDeveui cpuidLen memory =
    memory.memcpy .deveui 0 .id (cpuidLen - deveuiLen) deveuiLen := by
  unfold forgeDeveui
  split
  · rfl
  · rw [show cpuidLen = deveuiLen by omega, Nat.sub_self]

theorem forgeDeveui_deveui (long : deveuiLen ≤ cpuid.length)
    (stored : memory.block .id 0 cpuid.length = cpuid) :
    (forgeDeveui cpuid.length memory).block .deveui 0 deveuiLen = rightAligned cpuid := by
  have copied := Cells.slice_store_self (memory.cells .deveui) 0
    (memory.block .id (cpuid.length - deveuiLen) deveuiLen)
  have last := Cells.drop_slice (memory.cells .id) 0 (cpuid.length - deveuiLen) cpuid.length
    (Nat.sub_le _ _)
  rw [Memory.block] at stored
  rw [stored, Nat.zero_add, Nat.sub_sub_self long] at last
  rw [Memory.block_length] at copied
  rw [forgeDeveui_long long, Memory.block, Memory.memcpy_cells_self, copied,
    rightAligned_long long, last, Memory.block]

theorem forgeAppeui_appeui (masked : memory.block .appeuiMask 0 (appeuiLen / 2) = appeuiMask) :
    (forgeAppeui memory).block .appeui 0 appeuiLen =
      (memory.block .deveui 0 deveuiLen).take 4 ++ appeuiMask := by
  have kept : (memory.memcpy .appeui 0 .deveui 0 appeuiLen).block .appeuiMask 0 (appeuiLen / 2) =
      appeuiMask := by
    rw [Memory.block, Memory.memcpy_cells_other _ _ _ _ _ (by decide)]
    exact masked
  have copied := Cells.slice_store_append
    ((memory.memcpy .appeui 0 .deveui 0 appeuiLen).cells .appeui) 0 4 appeuiMask
  have front := Cells.take_slice ((memory.memcpy .appeui 0 .deveui 0 appeuiLen).cells .appeui) 0 4
    appeuiLen (by decide)
  have whole := Cells.slice_store_self (memory.cells .appeui) 0
    (memory.block .deveui 0 appeuiLen)
  rw [Memory.block_length] at whole
  rw [Memory.memcpy_cells_self, whole] at front
  rw [forgeAppeui, Memory.block, Memory.memcpy_cells_self, kept]
  rw [Memory.memcpy_cells_self] at copied ⊢
  exact copied.trans (congrArg (· ++ appeuiMask) front.symm)

theorem forgeAppkey_appkey :
    (forgeAppkey sha1 memory).block .appkey 0 appkeyLen =
      (sha1 (hashed memory)).toList.take appkeyLen := by
  have digest : (sha1 (hashed memory)).toList.length = sha1DigestLength := Vector.length_toList
  have stored := Cells.slice_store_self (memory.cells .digest) 0 (sha1 (hashed memory)).toList
  have front := Cells.take_slice
    (Cells.store (memory.cells .digest) 0 (sha1 (hashed memory)).toList) 0 appkeyLen
    sha1DigestLength (by decide)
  rw [digest] at stored
  rw [stored] at front
  have copied := Cells.slice_store_self (memory.cells .appkey) 0
    ((sha1 (hashed memory)).toList.take appkeyLen)
  rw [List.length_take, digest, Nat.min_eq_left (by decide)] at copied
  rw [forgeAppkey, Memory.block, Memory.memcpy_cells_self, Memory.block,
    Memory.write_cells_self, Memory.write_cells_other _ _ _ (by decide)]
  exact (congrArg (fun items => Cells.slice (Cells.store (memory.cells .appkey) 0 items) 0
    appkeyLen) front.symm).trans copied

/-- Eight bytes are copied whatever the length of the CPUID. -/
theorem within_forgeDeveui : Within (size cpuidLen) (forgeDeveui cpuidLen memory).log ↔
    Within (size cpuidLen) memory.log ∧ deveuiLen ≤ cpuidLen := by
  unfold forgeDeveui
  split
  all_goals
    rw [Memory.within_memcpy]
    apply and_congr_right
    intro _
    simp only [size, deveuiLen] at *
    omega

theorem within_forgeAppeui : Within (size cpuidLen) (forgeAppeui memory).log ↔
    Within (size cpuidLen) memory.log := by
  rw [forgeAppeui, Memory.within_memcpy, Memory.within_memcpy, and_assoc]
  apply and_iff_left
  simp only [size]
  decide

theorem within_forgeAppkey : Within (size cpuidLen) (forgeAppkey sha1 memory).log ↔
    Within (size cpuidLen) memory.log := by
  rw [forgeAppkey, Memory.within_memcpy, Memory.within_write, Memory.within_read,
    Memory.within_read, Memory.within_read, Vector.length_toList, and_assoc, and_assoc, and_assoc,
    and_assoc]
  apply and_iff_left
  simp only [size]
  decide

end Steps

variable (sha1 : List UInt8 → Vector UInt8 sha1DigestLength) (cpuid : List UInt8)
  (others : Region → Nat → UInt8)

/-- Every access is inside its array exactly when the CPUID has eight bytes or more. -/
theorem within_forge :
    Within (size cpuid.length) (forgeEuisAndKey sha1 cpuid (entry others)).log ↔
      deveuiLen ≤ cpuid.length := by
  have read : Within (size cpuid.length) ((entry others).write .id 0 cpuid).log := by
    rw [Memory.within_write]
    exact ⟨fun _ member => absurd member List.not_mem_nil,
      fun _ => Nat.le_of_eq (Nat.zero_add _)⟩
  rw [forgeEuisAndKey, within_forgeAppkey, within_forgeAppeui, within_forgeDeveui]
  exact and_iff_right read

/-- From eight bytes on the identities and the key are right. -/
theorem forge_forged (long : deveuiLen ≤ cpuid.length) :
    Forged sha1 cpuid (Cells.slice (others .secret) 0 appkeyLen)
      (forgeEuisAndKey sha1 cpuid (entry others)) := by
  have stored : ((entry others).write .id 0 cpuid).block .id 0 cpuid.length = cpuid := by
    rw [Memory.block, Memory.write_cells_self, Cells.slice_store_self]
  have masked : (forgeDeveui cpuid.length ((entry others).write .id 0 cpuid)).block
      .appeuiMask 0 (appeuiLen / 2) = appeuiMask := by
    rw [Memory.block, forgeDeveui_cells (by decide), Memory.write_cells_other _ _ _ (by decide)]
    exact Cells.slice_store_self (others .appeuiMask) 0 appeuiMask
  have deveui := forgeDeveui_deveui long stored
  have appeui := forgeAppeui_appeui masked
  rw [deveui] at appeui
  have kept : (forgeAppeui (forgeDeveui cpuid.length ((entry others).write .id 0 cpuid))).block
      .deveui 0 deveuiLen = rightAligned cpuid := by
    rw [Memory.block, forgeAppeui_cells (by decide)]
    exact deveui
  have secret : (forgeAppeui (forgeDeveui cpuid.length ((entry others).write .id 0 cpuid))).block
      .secret 0 appkeyLen = Cells.slice (others .secret) 0 appkeyLen := by
    rw [Memory.block, forgeAppeui_cells (by decide), forgeDeveui_cells (by decide),
      Memory.write_cells_other _ _ _ (by decide)]
    rfl
  refine ⟨?_, ?_, ?_⟩
  · rw [forgeEuisAndKey, Memory.block, forgeAppkey_cells sha1 (by decide) (by decide)]
    exact kept
  · rw [forgeEuisAndKey, Memory.block, forgeAppkey_cells sha1 (by decide) (by decide)]
    exact appeui
  · rw [forgeEuisAndKey, forgeAppkey_appkey, hashed, kept, appeui, secret]
    rfl

/-- No other CPUID of the same length, eight bytes at most, gets the same DevEUI. -/
def Distinct : Prop :=
  ∀ other : List UInt8, other.length = cpuid.length → cpuid.length ≤ 8 →
    (forgeEuisAndKey sha1 other (entry others)).block .deveui 0 deveuiLen =
      (forgeEuisAndKey sha1 cpuid (entry others)).block .deveui 0 deveuiLen → other = cpuid

theorem forge_distinct (long : deveuiLen ≤ cpuid.length) : Distinct sha1 cpuid others := by
  intro other same short equal
  have eight : cpuid.length = deveuiLen := Nat.le_antisymm short long
  rw [(forge_forged sha1 cpuid others long).deveui,
    (forge_forged sha1 other others (same ▸ long)).deveui, rightAligned_eight eight,
    rightAligned_eight (same.trans eight)] at equal
  exact equal

/-- The function keeps to its arrays and forges what it should exactly for CPUIDs of eight bytes
or more. -/
theorem forge_correct_iff :
    (Within (size cpuid.length) (forgeEuisAndKey sha1 cpuid (entry others)).log ∧
        Forged sha1 cpuid (Cells.slice (others .secret) 0 appkeyLen)
          (forgeEuisAndKey sha1 cpuid (entry others)) ∧
        Distinct sha1 cpuid others) ↔ 8 ≤ cpuid.length := by
  rw [within_forge]
  constructor
  · exact And.left
  · exact fun long =>
      ⟨long, forge_forged sha1 cpuid others long, forge_distinct sha1 cpuid others long⟩

/-- Of a CPUID of four bytes eight are copied, to `deveui + 4`. -/
theorem short_cpuid_overruns :
    ¬ ∀ (sha1 : List UInt8 → Vector UInt8 sha1DigestLength) (cpuid : List UInt8)
      (others : Region → Nat → UInt8), 1 ≤ cpuid.length →
        Within (size cpuid.length) (forgeEuisAndKey sha1 cpuid (entry others)).log := by
  intro claim
  have within := claim (fun _ => Vector.replicate _ 0) [1, 2, 3, 4] (fun _ _ => 0) (by decide)
  rw [within_forge] at within
  exact absurd within (by decide)

end RiotNyAlesund.Forge
