import RiotNyAlesund.FirstMatch

set_option autoImplicit false

/- lora_relay/Endpoint/loramac_utils.c: the operator that the join loops log. -/
namespace RiotNyAlesund.Networks

open FirstMatch

structure LorawanNetwork where
  devaddrSubnet : BitVec 32
  devaddrMask : BitVec 32
  name : String
  deriving DecidableEq, Repr

def maskNetid1 : BitVec 32 := 0xFE000000

def maskNetid3 : BitVec 32 := 0xFFFE0000

def maskNetid6 : BitVec 32 := 0xFFFFFC00

def lorawanNetworks : List LorawanNetwork :=
  [⟨0x04000000, maskNetid1, "Actility"⟩,
    ⟨0x26000000, maskNetid1, "The Things Network"⟩,
    ⟨0x1E000000, maskNetid1, "Orange"⟩,
    ⟨0x0E000000, maskNetid1, "Bouygues Telecom"⟩,
    ⟨0x24000000, maskNetid1, "Kerlink"⟩,
    ⟨0x2A000000, maskNetid1, "Cisco Systems"⟩,
    ⟨0x22000000, maskNetid1, "Tata Communications"⟩,
    ⟨0x2E000000, maskNetid1, "Mulitech"⟩,
    ⟨0xE02E0000, maskNetid3, "Schneider Electric"⟩,
    ⟨0xFC00A000, maskNetid6, "Lacuna Space"⟩,
    ⟨0xFC008400, maskNetid6, "Hiber"⟩,
    ⟨0xFC006800, maskNetid6, "Requea"⟩,
    ⟨0xFC00AC00, maskNetid6, "Université Grenoble Alpes"⟩]

/-- IS_BELONGING_TO_NETWORK. -/
def Belongs (network : LorawanNetwork) (devaddr : BitVec 32) : Prop :=
  Matches network.devaddrSubnet network.devaddrMask devaddr

instance (network : LorawanNetwork) (devaddr : BitVec 32) : Decidable (Belongs network devaddr) :=
  inferInstanceAs (Decidable (_ = _))

/-- The name of the first row, in a table of networks. -/
def networkIn (networks : List LorawanNetwork) (devaddr : BitVec 32) : String :=
  match lookup Belongs networks devaddr with
  | some network => network.name
  | none => "Unknown"

/-- loramac_utils_get_lorawan_network. -/
def getLorawanNetwork (devaddr : BitVec 32) : String := networkIn lorawanNetworks devaddr

/-- A byte as the int it is promoted to. -/
def promoted (byte : UInt8) : BitVec 32 := byte.toBitVec.setWidth 32

/-- `_devaddr` of both join loops. -/
def assembled (devaddr : Vector UInt8 4) : BitVec 32 :=
  promoted devaddr[3] <<< 24 &&& promoted devaddr[2] <<< 16 &&& promoted devaddr[1] <<< 8 &&&
    promoted devaddr[0]

/-- The network that loramac_utils_join_retry_loop logs. -/
def otaaNetwork (devaddr : Vector UInt8 4) : String := getLorawanNetwork (assembled devaddr)

/-- The network that loramac_utils_abp_join_retry_loop logs. -/
def abpNetwork (devaddr : Vector UInt8 4) : String := getLorawanNetwork (assembled devaddr)

/-- The address whose bytes these are, least significant first. -/
def address (devaddr : Vector UInt8 4) : BitVec 32 :=
  devaddr[3].toBitVec ++ devaddr[2].toBitVec ++ devaddr[1].toBitVec ++ devaddr[0].toBitVec

/-- The name is that of the network the address belongs to, and "Unknown" when there is none. -/
structure Named (addr : BitVec 32) (name : String) : Prop where
  known : ∀ network ∈ lorawanNetworks, Belongs network addr → name = network.name
  unknown : name = "Unknown" ↔ ∀ network ∈ lorawanNetworks, ¬Belongs network addr

/-- No address belongs to two networks. -/
theorem networks_apart : Apart Belongs lorawanNetworks := by
  have differ : lorawanNetworks.Pairwise fun network other =>
      network.devaddrSubnet &&& other.devaddrMask ≠
        other.devaddrSubnet &&& network.devaddrMask := by decide
  exact differ.imp fun differ devaddr => not_matches_of_ne differ

theorem name_ne_unknown : ∀ network ∈ lorawanNetworks, network.name ≠ "Unknown" := by decide

/-- The lookup itself names every address. -/
theorem getLorawanNetwork_named (addr : BitVec 32) : Named addr (getLorawanNetwork addr) := by
  unfold getLorawanNetwork networkIn
  cases found : lookup Belongs lorawanNetworks addr with
  | none =>
      have none := lookup_eq_none_iff.mp found
      exact ⟨fun network member belongs => absurd belongs (none network member),
        iff_of_true rfl none⟩
  | some network =>
      obtain ⟨member, belongs⟩ := of_lookup_eq_some found
      refine ⟨?_, ?_⟩
      · intro other member' belongs'
        rw [networks_apart.unique member member' belongs belongs']
      · apply iff_of_false (name_ne_unknown network member)
        exact fun none => none network member belongs

/-- The bytes are shifted apart, so nothing is left of their conjunction. -/
theorem assembled_eq_zero (devaddr : Vector UInt8 4) : assembled devaddr = 0 := by
  have disjoint : promoted devaddr[1] <<< 8 &&& promoted devaddr[0] = 0 := by
    apply BitVec.eq_of_getLsbD_eq
    intro bit inside
    by_cases low : bit < 8
    · simp [promoted, low]
    · have beyond : devaddr[0].toBitVec.getLsbD bit = false :=
        BitVec.getLsbD_of_ge _ _ (Nat.not_lt.mp low)
      simp [promoted, beyond]
  rw [assembled, BitVec.and_assoc, disjoint]
  exact BitVec.and_zero

theorem otaaNetwork_eq (devaddr : Vector UInt8 4) : otaaNetwork devaddr = "Unknown" := by
  rw [otaaNetwork, assembled_eq_zero]
  decide

theorem abpNetwork_eq (devaddr : Vector UInt8 4) : abpNetwork devaddr = "Unknown" :=
  otaaNetwork_eq devaddr

theorem unknown_named_iff (addr : BitVec 32) :
    Named addr "Unknown" ↔ ∀ network ∈ lorawanNetworks, ¬Belongs network addr := by
  constructor
  · exact fun named => named.unknown.mp rfl
  · exact fun none => ⟨fun network member belongs => absurd belongs (none network member),
      iff_of_true rfl none⟩

/-- An address belongs to one network at most, the order of the networks does not matter, and
the loops log the right name exactly when the address belongs to none. -/
theorem networks_logged_iff (devaddr : Vector UInt8 4) :
    (∀ network ∈ lorawanNetworks, ∀ other ∈ lorawanNetworks, Belongs network (address devaddr) →
      Belongs other (address devaddr) → network = other) ∧
    (∀ networks, lorawanNetworks.Perm networks → ∀ addr,
      networkIn networks addr = getLorawanNetwork addr) ∧
    (Named (address devaddr) (otaaNetwork devaddr) ∧ Named (address devaddr) (abpNetwork devaddr) ↔
      ∀ network ∈ lorawanNetworks, ¬Belongs network (address devaddr)) := by
  refine ⟨?_, ?_, ?_⟩
  · exact fun network member other member' => networks_apart.unique member member'
  · intro networks same addr
    rw [networkIn, lookup_perm networks_apart same addr, getLorawanNetwork, networkIn]
  · rw [otaaNetwork_eq, abpNetwork_eq, and_self, unknown_named_iff]

/-- An address of The Things Network is logged as unknown. -/
theorem known_network_unknown :
    ¬ ∀ devaddr : Vector UInt8 4, Named (address devaddr) (otaaNetwork devaddr) := by
  intro claim
  have known := (claim #v[0, 0, 0, 0x26]).known ⟨0x26000000, maskNetid1, "The Things Network"⟩
    (by decide) (by decide)
  rw [otaaNetwork_eq] at known
  exact absurd known (by decide)

end RiotNyAlesund.Networks
