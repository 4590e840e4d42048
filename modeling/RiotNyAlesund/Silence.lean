set_option autoImplicit false

/-! A counter that is looked at from time to time and emptied when it has not changed since
the last look. What an emptying leaves in the record of the last count is a parameter. -/
namespace Silence

/-- `recorded` is the count of the last look that found something. `fresh` counts what has
arrived since the last look, and `found` is what that look found. `left` is what the last
emptying left in `recorded`, until a look finds something. -/
structure Detector where
  count : Nat
  recorded : Nat
  fresh : Nat
  found : Nat
  left : Option Nat

def arrive (d : Detector) (amount : Nat) : Detector :=
  { d with count := d.count + amount, fresh := d.fresh + amount }

/-- A look at the detector empties it. -/
def Fires (d : Detector) : Prop := 0 < d.count ∧ d.recorded = d.count

instance (d : Detector) : Decidable (Fires d) := inferInstanceAs (Decidable (_ ∧ _))

def look (leaves : Nat → Nat) (d : Detector) : Detector :=
  if 0 < d.count then
    if d.recorded = d.count then
      ⟨0, leaves d.count, 0, d.count, some (leaves d.count)⟩
    else ⟨d.count, d.count, 0, d.count, none⟩
  else { d with fresh := 0, found := 0 }

theorem look_fires (leaves : Nat → Nat) {d : Detector} (fires : Fires d) :
    look leaves d = ⟨0, leaves d.count, 0, d.count, some (leaves d.count)⟩ := by
  rw [look, if_pos fires.1, if_pos fires.2]

theorem look_records (leaves : Nat → Nat) {d : Detector} (arrived : 0 < d.count)
    (changed : d.recorded ≠ d.count) : look leaves d = ⟨d.count, d.count, 0, d.count, none⟩ := by
  rw [look, if_pos arrived, if_neg changed]

theorem look_idle (leaves : Nat → Nat) {d : Detector} (empty : ¬0 < d.count) :
    look leaves d = { d with fresh := 0, found := 0 } := by
  rw [look, if_neg empty]

/-- If a look at the detector empties it, nothing has arrived since the last look, and that
one found as much. -/
def Silent (d : Detector) : Prop := Fires d → d.fresh = 0 ∧ d.found = d.count

/-- The first look after an emptying that finds something does not find what that left in the
record. -/
def Distinct (d : Detector) : Prop := 0 < d.count → ∀ left, d.left = some left → d.count ≠ left

/-- The record is the last count, or else what the last emptying left of it. -/
def Sound (d : Detector) : Prop :=
  match d.left with
  | none => d.recorded + d.fresh = d.count ∧ d.found = d.recorded
  | some left => d.recorded = left ∧ d.fresh = d.count

theorem arrive_sound {d : Detector} (amount : Nat) (sound : Sound d) :
    Sound (arrive d amount) := by
  cases kept : d.left <;> simp only [Sound, arrive, kept] at sound ⊢
  all_goals omega

theorem look_sound (leaves : Nat → Nat) {d : Detector} (sound : Sound d) :
    Sound (look leaves d) := by
  by_cases arrived : 0 < d.count
  · by_cases same : d.recorded = d.count
    · rw [look_fires leaves ⟨arrived, same⟩]
      exact ⟨rfl, rfl⟩
    · rw [look_records leaves arrived same]
      exact ⟨Nat.add_zero _, rfl⟩
  · rw [look_idle leaves arrived]
    cases kept : d.left <;> simp only [Sound, kept] at sound ⊢
    all_goals omega

/-- Where nothing is fresh, the last look has found what there is. -/
theorem silent_iff_fresh {d : Detector} (sound : Sound d) :
    Silent d ↔ (Fires d → d.fresh = 0) := by
  constructor
  · intro silent fires
    exact (silent fires).1
  · rintro quiet ⟨arrived, same⟩
    have none := quiet ⟨arrived, same⟩
    cases kept : d.left <;> simp only [Sound, kept] at sound
    all_goals omega

/-- A detector empties in silence exactly when it does not mistake a count for one of before
the last emptying. -/
theorem silent_iff_distinct {d : Detector} (sound : Sound d) : Silent d ↔ Distinct d := by
  unfold Silent Distinct Fires
  cases kept : d.left with
  | none =>
      simp only [Sound, kept] at sound
      constructor
      · intro _ _ left impossible
        cases impossible
      · rintro _ ⟨_, same⟩
        omega
  | some left =>
      simp only [Sound, kept] at sound
      constructor
      · rintro silent arrived _ ⟨⟩ same
        have quiet := silent ⟨arrived, by omega⟩
        omega
      · rintro distinct ⟨arrived, same⟩
        exact absurd (by omega) (distinct arrived left rfl)

end Silence
