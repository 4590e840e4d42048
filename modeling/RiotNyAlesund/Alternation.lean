import Mathlib.Data.Nat.Bits

set_option autoImplicit false

/-! A listener that takes items of two kinds in turn and misses every item out of turn. -/
namespace Alternation

variable {α : Type} (kind : α → Bool)

/-- The items taken, when the first one must be of kind `turn`. -/
def follow (turn : Bool) : List α → List α
  | [] => []
  | item :: rest =>
      if kind item = turn then item :: follow (!turn) rest else follow turn rest

/-- Consecutive items are of different kinds, and the first one is of kind `turn`. -/
def Alternates (turn : Bool) : List α → Prop
  | [] => True
  | item :: rest => kind item = turn ∧ Alternates (!turn) rest

theorem follow_sublist (turn : Bool) (items : List α) :
    (follow kind turn items).Sublist items := by
  induction items generalizing turn with
  | nil => exact List.Sublist.slnil
  | cons item rest ih =>
      by_cases inTurn : kind item = turn
      · simp only [follow, inTurn, ↓reduceIte]
        exact (ih _).cons_cons item
      · simp only [follow, inTurn, ↓reduceIte]
        exact (ih _).cons item

/-- Whose turn it is after `items` depends on how many of them were taken. -/
theorem follow_append_singleton (turn : Bool) (items : List α) (item : α) :
    follow kind turn (items ++ [item]) = follow kind turn items ++
      if kind item = (turn ^^ (follow kind turn items).length.bodd) then [item] else [] := by
  induction items generalizing turn with
  | nil => simp [follow]
  | cons first rest ih =>
      by_cases inTurn : kind first = turn
      · simp only [List.cons_append, follow, inTurn, ↓reduceIte, ih, List.length_cons,
          Nat.bodd_succ, Bool.not_bne, Bool.bne_not]
      · simp only [List.cons_append, follow, inTurn, ↓reduceIte, ih]

theorem follow_eq_self_iff (turn : Bool) (items : List α) :
    follow kind turn items = items ↔ Alternates kind turn items := by
  induction items generalizing turn with
  | nil => exact iff_of_true rfl trivial
  | cons item rest ih =>
      by_cases inTurn : kind item = turn
      · simp only [follow, Alternates, inTurn, ↓reduceIte, List.cons.injEq, true_and, ih]
      · have shorter := (follow_sublist kind turn rest).length_le
        simp only [follow, Alternates, inTurn, ↓reduceIte, false_and, iff_false]
        intro same
        have lengths := congrArg List.length same
        rw [List.length_cons] at lengths
        omega

/-- Taking in turn misses nothing exactly when the items alternate. -/
theorem follow_length_eq_iff (turn : Bool) (items : List α) :
    (follow kind turn items).length = items.length ↔ Alternates kind turn items := by
  rw [← follow_eq_self_iff]
  constructor
  · exact (follow_sublist kind turn items).eq_of_length
  · exact congrArg List.length

end Alternation
