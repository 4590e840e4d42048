import Mathlib.Data.List.Pairwise

set_option autoImplicit false

/-! Tables searched for the first row that a key hits. -/
namespace FirstMatch

section Rows

variable {ρ κ : Type} {hits : ρ → κ → Prop} {rows others : List ρ} {row other : ρ} {key : κ}

/-- No key hits two rows. -/
def Apart (hits : ρ → κ → Prop) (rows : List ρ) : Prop :=
  rows.Pairwise fun row other => ∀ key, hits row key → ¬hits other key

theorem Apart.unique (apart : Apart hits rows) (member : row ∈ rows) (member' : other ∈ rows)
    (hit : hits row key) (hit' : hits other key) : row = other := by
  by_contra differ
  have : Std.Symm fun row other : ρ => ∀ key, hits row key → ¬hits other key :=
    ⟨fun _ _ apart key hit hit' => apart key hit' hit⟩
  exact List.Pairwise.forall apart member member' differ key hit hit'

theorem Apart.perm (apart : Apart hits rows) (same : rows.Perm others) : Apart hits others :=
  same.pairwise apart fun apart key hit hit' => apart key hit' hit

variable [∀ row key, Decidable (hits row key)]

variable (hits) in
/-- The first row the key hits. -/
def lookup (rows : List ρ) (key : κ) : Option ρ := rows.find? fun row => hits row key

theorem lookup_eq_none_iff : lookup hits rows key = none ↔ ∀ row ∈ rows, ¬hits row key := by
  simp only [lookup, List.find?_eq_none, decide_eq_true_eq]

theorem of_lookup_eq_some (found : lookup hits rows key = some row) :
    row ∈ rows ∧ hits row key := by
  have hit := List.find?_some (p := fun row => decide (hits row key)) found
  exact ⟨List.mem_of_find?_eq_some found, of_decide_eq_true hit⟩

/-- In a table whose rows are apart the row found is the one the key hits. -/
theorem lookup_eq_some_iff (apart : Apart hits rows) :
    lookup hits rows key = some row ↔ row ∈ rows ∧ hits row key := by
  constructor
  · exact of_lookup_eq_some
  · rintro ⟨member, hit⟩
    cases found : lookup hits rows key with
    | none => exact absurd hit (lookup_eq_none_iff.mp found row member)
    | some first =>
        obtain ⟨member', hit'⟩ := of_lookup_eq_some found
        rw [apart.unique member' member hit' hit]

/-- The order of the rows does not matter when they are apart. -/
theorem lookup_perm (apart : Apart hits rows) (same : rows.Perm others) (key : κ) :
    lookup hits others key = lookup hits rows key := by
  apply Option.ext
  intro row
  rw [lookup_eq_some_iff (apart.perm same), lookup_eq_some_iff apart, same.mem_iff]

end Rows

/-- The bits under the mask are those of the subnet. -/
def Matches {w : Nat} (subnet mask key : BitVec w) : Prop := subnet = key &&& mask

/-- Two subnets that differ under both masks have no key in common. -/
theorem not_matches_of_ne {w : Nat} {subnet mask subnet' mask' key : BitVec w}
    (differ : subnet &&& mask' ≠ subnet' &&& mask) (first : Matches subnet mask key) :
    ¬Matches subnet' mask' key := by
  intro second
  apply differ
  rw [first, second, BitVec.and_assoc, BitVec.and_assoc, BitVec.and_comm mask mask']

end FirstMatch
