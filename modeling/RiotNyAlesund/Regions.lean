import Mathlib.Logic.Function.Basic
import RiotNyAlesund.Cells

set_option autoImplicit false

/-! Regions of memory that are read and written in blocks, with a log of the accesses. -/
namespace Regions

variable {ρ β : Type}

/-- An access of one cell. -/
structure Access (ρ : Type) where
  region : ρ
  offset : Nat
  writes : Bool
  deriving DecidableEq, Repr

/-- What lies behind the end of a region is further cells of it. -/
structure Memory (ρ β : Type) where
  cells : ρ → Nat → β
  log : List (Access ρ)

def accesses (region : ρ) (start count : Nat) (writes : Bool) : List (Access ρ) :=
  (List.range count).map fun offset => ⟨region, start + offset, writes⟩

/-- Every access is inside its region. -/
def Within (size : ρ → Nat) (log : List (Access ρ)) : Prop :=
  ∀ access ∈ log, access.offset < size access.region

theorem within_append {size : ρ → Nat} {first second : List (Access ρ)} :
    Within size (first ++ second) ↔ Within size first ∧ Within size second :=
  List.forall_mem_append

theorem within_accesses {size : ρ → Nat} {region : ρ} {start count : Nat} {writes : Bool} :
    Within size (accesses region start count writes) ↔
      (0 < count → start + count ≤ size region) := by
  simp only [Within, accesses, List.forall_mem_map, List.mem_range]
  constructor
  · intro inside positive
    have last := inside (count - 1) (by omega)
    omega
  · intro fits offset before
    have bound := fits (by omega)
    omega

namespace Memory

section Reading

variable (memory : Memory ρ β) (region : ρ) (start count : Nat)

/-- `count` cells of a region. -/
def block : List β := Cells.slice (memory.cells region) start count

def read : Memory ρ β := { memory with log := memory.log ++ accesses region start count false }

@[simp] theorem block_length : (memory.block region start count).length = count :=
  Cells.slice_length _ _ _

@[simp] theorem read_cells : (memory.read region start count).cells = memory.cells := rfl

theorem within_read {size : ρ → Nat} : Within size (memory.read region start count).log ↔
    Within size memory.log ∧ (0 < count → start + count ≤ size region) := by
  rw [read, within_append, within_accesses]

end Reading

section Writing

variable [DecidableEq ρ] (memory : Memory ρ β)

def write (region : ρ) (start : Nat) (items : List β) : Memory ρ β where
  cells := Function.update memory.cells region (Cells.store (memory.cells region) start items)
  log := memory.log ++ accesses region start items.length true

/-- `count` cells from `src + start` copied to `dst + target`, in another region. -/
def memcpy (dst : ρ) (target : Nat) (src : ρ) (start count : Nat) : Memory ρ β :=
  (memory.read src start count).write dst target (memory.block src start count)

variable (region dst src : ρ) (target start count : Nat) (items : List β)

@[simp] theorem write_cells_self : (memory.write region start items).cells region =
    Cells.store (memory.cells region) start items :=
  Function.update_self _ _ _

@[simp] theorem memcpy_cells_self : (memory.memcpy dst target src start count).cells dst =
    Cells.store (memory.cells dst) target (memory.block src start count) :=
  Function.update_self _ _ _

variable {region dst}

theorem write_cells_other (other : region ≠ dst) :
    (memory.write dst start items).cells region = memory.cells region :=
  Function.update_of_ne other _ _

theorem memcpy_cells_other (other : region ≠ dst) :
    (memory.memcpy dst target src start count).cells region = memory.cells region :=
  Function.update_of_ne other _ _

variable {size : ρ → Nat}

theorem within_write : Within size (memory.write region start items).log ↔
    Within size memory.log ∧ (0 < items.length → start + items.length ≤ size region) := by
  rw [write, within_append, within_accesses]

theorem within_memcpy : Within size (memory.memcpy dst target src start count).log ↔
    Within size memory.log ∧
      (0 < count → start + count ≤ size src ∧ target + count ≤ size dst) := by
  rw [memcpy, within_write, within_read, block_length, and_assoc, imp_and]

end Writing

end Memory

end Regions
