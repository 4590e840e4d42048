import Mathlib.Data.List.Count
import Mathlib.Data.List.Infix

set_option autoImplicit false

/-! Lines that a separator ends, in one list. -/
namespace Lines

variable {α : Type}

/-- The lines in order, each ended by the separator. -/
def terminated (sep : α) (lines : List (List α)) : List α := lines.flatMap (· ++ [sep])

/-- Where a line is complete: at the start and behind a separator. -/
def Whole (sep : α) (items : List α) : Prop := items = [] ∨ ∃ front, items = front ++ [sep]

theorem terminated_cons (sep : α) (line : List α) (rest : List (List α)) :
    terminated sep (line :: rest) = line ++ sep :: terminated sep rest := by
  rw [terminated, List.flatMap_cons, List.append_assoc]
  rfl

theorem terminated_append (sep : α) (first second : List (List α)) :
    terminated sep (first ++ second) = terminated sep first ++ terminated sep second :=
  List.flatMap_append

/-- The lines between two places where a line is complete. -/
theorem terminated_between {sep : α} {lines : List (List α)} {earlier chunk : List α}
    {start count : Nat} (before : earlier = terminated sep (lines.take start))
    (upTo : earlier ++ chunk = terminated sep (lines.take (start + count))) :
    chunk = terminated sep ((lines.drop start).take count) := by
  rw [List.take_add, terminated_append, ← before] at upTo
  exact List.append_cancel_left upTo

theorem Whole.append {sep : α} {first second : List α} (before : Whole sep first)
    (behind : Whole sep second) : Whole sep (first ++ second) := by
  rcases behind with rfl | ⟨front, rfl⟩
  · rw [List.append_nil]
    exact before
  · exact Or.inr ⟨first ++ front, (List.append_assoc _ _ _).symm⟩

variable [DecidableEq α]

/-- What comes behind the first `skip` separators, without the separators. -/
def after (sep : α) : Nat → List α → List α
  | _, [] => []
  | skip, item :: rest =>
      if item = sep then after sep (skip - 1) rest
      else if skip = 0 then item :: after sep skip rest
      else after sep skip rest

theorem count_line {sep : α} {line : List α} (plain : sep ∉ line) (rest : List α) :
    (line ++ sep :: rest).count sep = rest.count sep + 1 := by
  rw [List.count_append, List.count_eq_zero_of_not_mem plain, List.count_cons_self, Nat.zero_add]

/-- One more item is kept unless it is a separator or comes too early. -/
theorem after_append_singleton (sep : α) (skip : Nat) (items : List α) (item : α) :
    after sep skip (items ++ [item]) = after sep skip items ++
      if item ≠ sep ∧ skip ≤ items.count sep then [item] else [] := by
  induction items generalizing skip with
  | nil =>
      by_cases ends : item = sep <;> by_cases now : skip = 0 <;> simp [after, ends, now]
  | cons first rest ih =>
      by_cases ends : first = sep
      · have fewer : skip - 1 ≤ rest.count sep ↔ skip ≤ rest.count sep + 1 := by omega
        simp only [List.cons_append, after, ends, ↓reduceIte, ih, List.count_cons_self, fewer]
      · by_cases now : skip = 0
        all_goals simp only [List.cons_append, after, ends, now, ↓reduceIte, ih,
          List.count_cons_of_ne ends]

/-- Where a line is complete, the lines so far are the first ones, as many as there are
separators. -/
theorem whole_prefix {sep : α} {lines : List (List α)} {items : List α}
    (plain : ∀ line ∈ lines, sep ∉ line) (whole : Whole sep items)
    (begins : items <+: terminated sep lines) :
    items = terminated sep (lines.take (items.count sep)) ∧ items.count sep ≤ lines.length := by
  induction lines generalizing items with
  | nil =>
      have none : items = [] := List.prefix_nil.mp begins
      rw [none]
      exact ⟨rfl, Nat.zero_le _⟩
  | cons line rest ih =>
      rw [List.forall_mem_cons] at plain
      rw [terminated_cons] at begins
      rcases whole with rfl | ⟨front, rfl⟩
      · exact ⟨rfl, Nat.zero_le _⟩
      obtain ⟨behind, same⟩ := begins
      rw [List.append_assoc, List.singleton_append, List.append_eq_append_iff] at same
      have first : front = line → (front ++ [sep]) = terminated sep ((line :: rest).take
          ((front ++ [sep]).count sep)) ∧ (front ++ [sep]).count sep ≤ (line :: rest).length := by
        rintro rfl
        rw [count_line plain.1, List.count_nil, List.take_succ_cons, List.take_zero,
          terminated_cons]
        exact ⟨rfl, Nat.le_add_left _ _⟩
      rcases same with ⟨more, inside, later⟩ | ⟨more, beyond, later⟩
      · -- The separator of a further line would be inside this one.
        cases more with
        | nil => exact first (by rw [inside, List.append_nil])
        | cons item more =>
            rw [List.cons_append, List.cons.injEq] at later
            rw [inside, ← later.1] at plain
            simp at plain
      · cases more with
        | nil => exact first (by rw [beyond, List.append_nil])
        | cons item more =>
            rw [List.cons_append, List.cons.injEq] at later
            obtain ⟨rfl, later⟩ := later
            have tail : more ++ [sep] <+: terminated sep rest :=
              ⟨behind, by rw [later, List.append_assoc, List.singleton_append]⟩
            obtain ⟨equal, fits⟩ := ih plain.2 (Or.inr ⟨more, rfl⟩) tail
            have split : front ++ [sep] = line ++ sep :: (more ++ [sep]) := by
              rw [beyond, List.append_assoc, List.cons_append]
            rw [split, count_line plain.1, List.take_succ_cons, terminated_cons, ← equal]
            exact ⟨rfl, Nat.succ_le_succ fits⟩

/-- Groups of `count` whole lines each, taken one after the other. -/
structure Groups (sep : α) (count : Nat) (groups : List (List α)) : Prop where
  whole : ∀ group ∈ groups, Whole sep group
  counted : ∀ group ∈ groups, group.count sep = count

theorem Groups.flatten {sep : α} {count : Nat} {groups : List (List α)}
    (all : Groups sep count groups) :
    Whole sep groups.flatten ∧ groups.flatten.count sep = count * groups.length := by
  obtain ⟨whole, counted⟩ := all
  induction groups with
  | nil => exact ⟨Or.inl rfl, rfl⟩
  | cons group rest ih =>
      rw [List.forall_mem_cons] at whole counted
      obtain ⟨tail, total⟩ := ih whole.2 counted.2
      refine ⟨whole.1.append tail, ?_⟩
      rw [List.flatten_cons, List.count_append, counted.1, total, List.length_cons, Nat.mul_succ,
        Nat.add_comm]

theorem Groups.take {sep : α} {count : Nat} {groups : List (List α)}
    (all : Groups sep count groups) (number : Nat) : Groups sep count (groups.take number) where
  whole := fun group member => all.whole group (List.mem_of_mem_take member)
  counted := fun group member => all.counted group (List.mem_of_mem_take member)

/-- Each group is the next `count` lines. -/
theorem Groups.lines {sep : α} {count number : Nat} {groups lines : List (List α)}
    {group : List α} (all : Groups sep count groups) (plain : ∀ line ∈ lines, sep ∉ line)
    (begins : groups.flatten <+: terminated sep lines) (at_number : groups[number]? = some group) :
    group = terminated sep ((lines.drop (count * number)).take count) ∧
      count * number + count ≤ lines.length := by
  have upTo : ∀ first ≤ groups.length,
      (groups.take first).flatten = terminated sep (lines.take (count * first)) ∧
        count * first ≤ lines.length := by
    intro first fits
    obtain ⟨whole, counted⟩ := (all.take first).flatten
    have start : (groups.take first).flatten <+: terminated sep lines := by
      refine List.IsPrefix.trans ⟨(groups.drop first).flatten, ?_⟩ begins
      rw [← List.flatten_append, List.take_append_drop]
    have equal := whole_prefix plain whole start
    rwa [counted, List.length_take_of_le fits] at equal
  obtain ⟨inside, found⟩ := List.getElem?_eq_some_iff.mp at_number
  obtain ⟨through, fits⟩ := upTo (number + 1) inside
  rw [List.take_succ_eq_append_getElem inside, List.flatten_append, List.flatten_singleton, found,
    Nat.mul_succ] at through
  exact ⟨terminated_between (upTo number (Nat.le_of_lt inside)).1 through, fits⟩

end Lines
