import Mathlib.Data.List.Basic

set_option autoImplicit false

/-- A first-in first-out buffer with room for `capacity` items, oldest first. -/
structure Bounded (α : Type) (capacity : Nat) where
  items : List α
  fits : items.length ≤ capacity
  deriving DecidableEq, Repr

namespace Bounded

variable {α : Type} {capacity : Nat}

def empty : Bounded α capacity := ⟨[], Nat.zero_le _⟩

/-- Add an item. When there is no room the oldest item makes place. -/
def overwrite (buffer : Bounded α capacity) (item : α) : Bounded α capacity where
  items := (buffer.items ++ [item]).drop (buffer.items.length + 1 - capacity)
  fits := by
    rw [List.length_drop, List.length_append, List.length_singleton]
    omega

/-- Add an item if there is room. -/
def offer (buffer : Bounded α capacity) (item : α) : Bounded α capacity where
  items := (buffer.items ++ [item]).take capacity
  fits := List.length_take_le _ _

/-- All but the oldest item. -/
def rest (buffer : Bounded α capacity) : Bounded α capacity where
  items := buffer.items.tail
  fits := by
    rw [List.length_tail]
    exact Nat.le_trans (Nat.sub_le _ _) buffer.fits

@[simp] theorem empty_items : (empty : Bounded α capacity).items = [] := rfl

@[simp] theorem rest_items (buffer : Bounded α capacity) :
    buffer.rest.items = buffer.items.tail := rfl

theorem overwrite_items (buffer : Bounded α capacity) (item : α) :
    (buffer.overwrite item).items =
      (buffer.items ++ [item]).drop (buffer.items.length + 1 - capacity) := rfl

theorem offer_items (buffer : Bounded α capacity) (item : α) :
    (buffer.offer item).items = (buffer.items ++ [item]).take capacity := rfl

theorem overwrite_of_room (buffer : Bounded α capacity) (item : α)
    (room : buffer.items.length < capacity) :
    (buffer.overwrite item).items = buffer.items ++ [item] := by
  rw [overwrite_items, Nat.sub_eq_zero_of_le room, List.drop_zero]

theorem overwrite_of_full (buffer : Bounded α capacity) (item : α) (positive : 0 < capacity)
    (full : capacity ≤ buffer.items.length) :
    (buffer.overwrite item).items = buffer.items.tail ++ [item] := by
  have size := Nat.le_antisymm buffer.fits full
  have nonempty : buffer.items ≠ [] := by
    intro none
    rw [none, List.length_nil] at size
    omega
  rw [overwrite_items, size, Nat.add_sub_cancel_left, List.drop_one,
    List.tail_append_of_ne_nil nonempty]

/-- Overwriting brings in the new item only. -/
theorem mem_overwrite {buffer : Bounded α capacity} {item kept : α}
    (member : kept ∈ (buffer.overwrite item).items) : kept ∈ buffer.items ∨ kept = item := by
  have appended := List.mem_of_mem_drop member
  rwa [List.mem_append, List.mem_singleton] at appended

theorem offer_of_room (buffer : Bounded α capacity) (item : α)
    (room : buffer.items.length < capacity) :
    (buffer.offer item).items = buffer.items ++ [item] := by
  rw [offer_items, List.take_of_length_le]
  rw [List.length_append, List.length_singleton]
  exact room

theorem offer_of_full (buffer : Bounded α capacity) (item : α)
    (full : capacity ≤ buffer.items.length) : (buffer.offer item).items = buffer.items := by
  rw [offer_items, List.take_append_of_le_length full, List.take_of_length_le buffer.fits]

end Bounded
