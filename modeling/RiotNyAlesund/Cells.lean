import Mathlib.Data.List.Range

set_option autoImplicit false

/-! An unbounded array of cells: contiguous slices and contiguous stores. -/
namespace Cells

variable {α : Type}

/-- The `count` cells from `start` on. -/
def slice (cells : Nat → α) (start count : Nat) : List α :=
  (List.range count).map fun offset => cells (start + offset)

/-- `items` copied over the cells from `start` on. -/
def store (cells : Nat → α) (start : Nat) (items : List α) : Nat → α :=
  fun index => if start ≤ index then items[index - start]?.getD (cells index) else cells index

@[simp] theorem slice_length (cells : Nat → α) (start count : Nat) :
    (slice cells start count).length = count := by
  simp only [slice, List.length_map, List.length_range]

@[simp] theorem slice_zero (cells : Nat → α) (start : Nat) : slice cells start 0 = [] := rfl

theorem slice_succ (cells : Nat → α) (start count : Nat) :
    slice cells start (count + 1) = slice cells start count ++ [cells (start + count)] := by
  simp only [slice, List.range_succ, List.map_append, List.map_cons, List.map_nil]

theorem slice_add (cells : Nat → α) (start first second : Nat) :
    slice cells start (first + second) =
      slice cells start first ++ slice cells (start + first) second := by
  induction second with
  | zero => simp
  | succ second ih =>
      rw [← Nat.add_assoc, slice_succ, ih, slice_succ, List.append_assoc, Nat.add_assoc]

/-- A slice cut into its first `count` cells and the rest. -/
theorem slice_split (cells : Nat → α) (start count total : Nat) (fits : count ≤ total) :
    slice cells start count ++ slice cells (start + count) (total - count) =
      slice cells start total := by
  rw [← slice_add, Nat.add_sub_cancel' fits]

theorem take_slice (cells : Nat → α) (start count total : Nat) (fits : count ≤ total) :
    (slice cells start total).take count = slice cells start count := by
  rw [← slice_split cells start count total fits, List.take_left' (slice_length _ _ _)]

theorem drop_slice (cells : Nat → α) (start count total : Nat) (fits : count ≤ total) :
    (slice cells start total).drop count = slice cells (start + count) (total - count) := by
  rw [← slice_split cells start count total fits, List.drop_left' (slice_length _ _ _)]

theorem mem_slice {cells : Nat → α} {start count : Nat} {item : α} :
    item ∈ slice cells start count ↔ ∃ offset < count, cells (start + offset) = item := by
  simp only [slice, List.mem_map, List.mem_range]

theorem store_before (cells : Nat → α) (start : Nat) (items : List α) (index : Nat)
    (before : index < start) : store cells start items index = cells index := by
  simp only [store, show ¬start ≤ index by omega, ↓reduceIte]

theorem store_inside (cells : Nat → α) (start : Nat) (items : List α) (offset : Nat)
    (inside : offset < items.length) :
    store cells start items (start + offset) = items[offset] := by
  simp only [store, Nat.le_add_right, ↓reduceIte, Nat.add_sub_cancel_left,
    List.getElem?_eq_getElem inside, Option.getD_some]

theorem slice_congr {before after : Nat → α} {start count : Nat}
    (same : ∀ offset < count, before (start + offset) = after (start + offset)) :
    slice before start count = slice after start count := by
  apply List.map_congr_left
  intro offset member
  exact same offset (List.mem_range.mp member)

/-- A store above a slice leaves it alone. -/
theorem slice_store_above (cells : Nat → α) (position : Nat) (items : List α)
    (start count : Nat) (above : start + count ≤ position) :
    slice (store cells position items) start count = slice cells start count := by
  apply slice_congr
  intro offset inside
  exact store_before cells position items _ (by omega)

@[simp] theorem slice_store_self (cells : Nat → α) (start : Nat) (items : List α) :
    slice (store cells start items) start items.length = items := by
  apply List.ext_getElem (slice_length _ _ _)
  intro offset _ inside
  simp only [slice, List.getElem_map, List.getElem_range, store_inside _ _ _ _ inside]

/-- A store right after a slice extends it. -/
theorem slice_store_append (cells : Nat → α) (start count : Nat) (items : List α) :
    slice (store cells (start + count) items) start (count + items.length) =
      slice cells start count ++ items := by
  rw [slice_add, slice_store_above _ _ _ _ _ (Nat.le_refl _), slice_store_self]

/-- The cells below `total` in order, cut into slices of `size`, the last one being as short
as it has to be. -/
def pieces (cells : Nat → α) (size total : Nat) : List (List α) :=
  (List.range ((total + size - 1) / size)).map fun index =>
    slice cells (index * size) (min size (total - index * size))

@[simp] theorem pieces_length (cells : Nat → α) (size total : Nat) :
    (pieces cells size total).length = (total + size - 1) / size := by
  simp only [pieces, List.length_map, List.length_range]

theorem pieces_zero (cells : Nat → α) {size : Nat} (positive : 0 < size) :
    pieces cells size 0 = [] := by
  simp only [pieces, Nat.zero_add, Nat.div_eq_of_lt (Nat.sub_one_lt_of_lt positive),
    List.range_zero, List.map_nil]

/-- Whole pieces followed by a further one. -/
theorem pieces_append (cells : Nat → α) {size count : Nat} (whole : Nat) (positive : 0 < count)
    (short : count ≤ size) :
    pieces cells size (whole * size + count) =
      pieces cells size (whole * size) ++ [slice cells (whole * size) count] := by
  have number : ∀ rest, rest < size → (whole * size + rest) / size = whole := by
    intro rest below
    rw [Nat.add_comm, Nat.add_mul_div_right _ _ (by omega), Nat.div_eq_of_lt below, Nat.zero_add]
  have grown : (whole * size + count + size - 1) / size = whole + 1 := by
    have split : whole * size + count + size - 1 = (whole + 1) * size + (count - 1) := by
      rw [Nat.add_mul, Nat.one_mul]
      omega
    rw [split, Nat.add_comm, Nat.add_mul_div_right _ _ (by omega),
      Nat.div_eq_of_lt (by omega), Nat.zero_add]
  have before : (whole * size + size - 1) / size = whole := by
    rw [Nat.add_sub_assoc (by omega)]
    exact number _ (by omega)
  rw [pieces, pieces, grown, before, List.range_succ, List.map_append, List.map_singleton,
    Nat.add_sub_cancel_left, Nat.min_eq_right short]
  congr 1
  apply List.map_congr_left
  intro index member
  have earlier : (index + 1) * size ≤ whole * size :=
    Nat.mul_le_mul_right size (List.mem_range.mp member)
  rw [Nat.add_mul, Nat.one_mul] at earlier
  rw [Nat.min_eq_left (by omega), Nat.min_eq_left (by omega)]

/-- No piece is empty and none is longer than `size`. -/
theorem length_of_mem_pieces {cells : Nat → α} {size total : Nat} {piece : List α}
    (member : piece ∈ pieces cells size total) : 0 < piece.length ∧ piece.length ≤ size := by
  rw [pieces, List.mem_map] at member
  obtain ⟨index, inside, rfl⟩ := member
  rw [List.mem_range] at inside
  rw [slice_length]
  have positive : 0 < size := by
    apply Nat.pos_of_ne_zero
    rintro rfl
    rw [Nat.div_zero] at inside
    omega
  have bound := (Nat.le_div_iff_mul_le positive).mp (Nat.succ_le_of_lt inside)
  rw [Nat.succ_mul] at bound
  omega

/-- Together the pieces are the whole slice. -/
theorem flatten_pieces (cells : Nat → α) {size : Nat} (positive : 0 < size) (total : Nat) :
    (pieces cells size total).flatten = slice cells 0 total := by
  have whole : ∀ number, (pieces cells size (number * size)).flatten =
      slice cells 0 (number * size) := by
    intro number
    induction number with
    | zero => rw [Nat.zero_mul, pieces_zero cells positive, List.flatten_nil, slice_zero]
    | succ number ih =>
        rw [Nat.succ_mul, pieces_append cells number positive (Nat.le_refl _),
          List.flatten_append, ih, List.flatten_singleton, slice_add, Nat.zero_add]
  have split : total = total / size * size + total % size := (Nat.div_add_mod' total size).symm
  by_cases exact : total % size = 0
  · rw [split, exact, Nat.add_zero, whole]
  · have short : total % size ≤ size := Nat.le_of_lt (Nat.mod_lt _ positive)
    rw [split, pieces_append cells _ (Nat.pos_of_ne_zero exact) short, List.flatten_append, whole,
      List.flatten_singleton, slice_add, Nat.zero_add]

/-- Nothing is left out of pieces that are as long together as all of them. -/
theorem eq_of_sublist {kept all : List (List α)} (sub : kept.Sublist all)
    (positive : ∀ piece ∈ all, 0 < piece.length)
    (long : all.flatten.length ≤ kept.flatten.length) : kept = all := by
  have shorter : ∀ {kept all : List (List α)}, kept.Sublist all →
      kept.flatten.length ≤ all.flatten.length := by
    intro kept all sub
    induction sub with
    | slnil => exact Nat.le_refl _
    | cons piece _ ih =>
        rw [List.flatten_cons, List.length_append]
        omega
    | cons_cons piece _ ih =>
        rw [List.flatten_cons, List.flatten_cons, List.length_append, List.length_append]
        omega
  induction sub with
  | slnil => rfl
  | cons piece rest ih =>
      rw [List.forall_mem_cons] at positive
      rw [List.flatten_cons, List.length_append] at long
      have := shorter rest
      omega
  | cons_cons piece rest ih =>
      rw [List.forall_mem_cons] at positive
      rw [List.flatten_cons, List.flatten_cons, List.length_append, List.length_append] at long
      rw [ih positive.2 (by omega)]

/-- The cells below `total` repeat after `size` cells. -/
def Periodic (cells : Nat → α) (size total : Nat) : Prop :=
  ∀ index, index + size < total → cells (index + size) = cells index

/-- A slice that starts with a period is the slice at the front. -/
theorem Periodic.slice_eq {cells : Nat → α} {size total : Nat}
    (periodic : Periodic cells size total)
    (number count : Nat) (inside : number * size + count ≤ total) :
    slice cells (number * size) count = slice cells 0 count := by
  induction number with
  | zero => rw [Nat.zero_mul]
  | succ number ih =>
      rw [Nat.succ_mul] at inside ⊢
      rw [← ih (by omega)]
      apply List.map_congr_left
      intro offset member
      have below := List.mem_range.mp member
      rw [Nat.add_right_comm]
      exact periodic _ (by omega)

/-- The pieces of periodic cells are copies of one piece, and its beginning. -/
theorem Periodic.pieces_eq {cells : Nat → α} {size total : Nat} (positive : 0 < size)
    (periodic : Periodic cells size total) :
    pieces cells size total = List.replicate (total / size) (slice cells 0 size) ++
      if total % size = 0 then [] else [slice cells 0 (total % size)] := by
  have division := Nat.div_add_mod' total size
  have whole : ∀ number, number ≤ total / size →
      pieces cells size (number * size) = List.replicate number (slice cells 0 size) := by
    intro number bound
    induction number with
    | zero => rw [Nat.zero_mul, pieces_zero cells positive, List.replicate_zero]
    | succ number ih =>
        have inside : (number + 1) * size ≤ total / size * size := Nat.mul_le_mul_right size bound
        rw [Nat.succ_mul] at inside ⊢
        rw [pieces_append cells number positive (Nat.le_refl _), ih (by omega),
          periodic.slice_eq number size (by omega), List.replicate_succ']
  by_cases exact : total % size = 0
  · rw [if_pos exact, List.append_nil, ← whole _ (Nat.le_refl _)]
    congr 1
    omega
  · have short : total % size ≤ size := Nat.le_of_lt (Nat.mod_lt _ positive)
    have last := periodic.slice_eq (total / size) (total % size) (Nat.le_of_eq division)
    have joined := pieces_append cells (total / size) (Nat.pos_of_ne_zero exact) short
    rw [division, whole _ (Nat.le_refl _), last] at joined
    rw [if_neg exact, joined]

/-- Copies of the first period make up the front of periodic cells. -/
theorem Periodic.replicate_slice {cells : Nat → α} {size total : Nat}
    (periodic : Periodic cells size total) (number count : Nat)
    (inside : number * size + count ≤ total) :
    (List.replicate number (slice cells 0 size)).flatten ++ slice cells 0 count =
      slice cells 0 (number * size + count) := by
  have front : ∀ number, number * size ≤ total →
      (List.replicate number (slice cells 0 size)).flatten = slice cells 0 (number * size) := by
    intro number bound
    induction number with
    | zero => rw [Nat.zero_mul, slice_zero, List.replicate_zero, List.flatten_nil]
    | succ number ih =>
        rw [Nat.succ_mul] at bound ⊢
        rw [List.replicate_succ', List.flatten_append, ih (by omega), List.flatten_singleton,
          slice_add, Nat.zero_add, periodic.slice_eq number size bound]
  rw [front number (by omega), slice_add, Nat.zero_add, periodic.slice_eq number count inside]

/-- Whichever pieces of periodic cells are left out, the others together are the front of the
cells. -/
theorem Periodic.sublist_pieces {cells : Nat → α} {size total : Nat} (positive : 0 < size)
    (periodic : Periodic cells size total) {kept : List (List α)}
    (sub : kept.Sublist (pieces cells size total)) :
    kept.flatten = slice cells 0 kept.flatten.length ∧ kept.flatten.length ≤ total := by
  have division := Nat.div_add_mod' total size
  rw [periodic.pieces_eq positive, List.sublist_append_iff] at sub
  obtain ⟨front, last, rfl, copies, rest⟩ := sub
  obtain ⟨number, bound, rfl⟩ := List.sublist_replicate_iff.mp copies
  have room : number * size ≤ total / size * size := Nat.mul_le_mul_right size bound
  have tail : ∃ count, count ≤ total % size ∧ last.flatten = slice cells 0 count := by
    split at rest
    · exact ⟨0, Nat.zero_le _, by rw [List.sublist_nil.mp rest, List.flatten_nil, slice_zero]⟩
    · rcases List.sublist_singleton.mp rest with rfl | rfl
      · exact ⟨0, Nat.zero_le _, by rw [List.flatten_nil, slice_zero]⟩
      · exact ⟨total % size, Nat.le_refl _, List.flatten_singleton⟩
  obtain ⟨count, short, same⟩ := tail
  have joined := periodic.replicate_slice number count (by omega)
  rw [List.flatten_append, same, joined, slice_length]
  exact ⟨rfl, by omega⟩

end Cells
