import Mathlib.Data.List.Induction
import Mathlib.Logic.Relation

set_option autoImplicit false

/-! Finite runs of a partial step function, and what its steps preserve. -/
namespace Transition

variable {σ τ α β : Type}

/-- The state after the actions in order. An action that is not enabled has no result. -/
def execute (step : σ → α → Option σ) : σ → List α → Option σ
  | state, [] => some state
  | state, action :: rest => (step state action).bind fun next => execute step next rest

/-- Every step the run takes is taken where `allowed` holds. -/
def Meets (step : σ → α → Option σ) (allowed : σ → α → Prop) : σ → List α → Prop
  | _, [] => True
  | state, action :: rest => ∀ next, step state action = some next →
      allowed state action ∧ Meets step allowed next rest

/-- Every state the run visits satisfies `good`, its two ends included. -/
def Always (step : σ → α → Option σ) (good : σ → Prop) : σ → List α → Prop
  | state, [] => good state
  | state, action :: rest => good state ∧
      ∀ next, step state action = some next → Always step good next rest

/-- The actions of another machine that the steps of a run stand for. -/
def mirror (step : σ → α → Option σ) (reflect : σ → α → List β) : σ → List α → List β
  | _, [] => []
  | state, action :: rest =>
      match step state action with
      | none => []
      | some next => reflect state action ++ mirror step reflect next rest

/-- What the actions cost altogether. -/
def total (cost : α → Nat) : List α → Nat
  | [] => 0
  | action :: rest => cost action + total cost rest

/-- What the steps of a run cost altogether, each in the state where it is taken. -/
def charge (step : σ → α → Option σ) (cost : σ → α → Nat) : σ → List α → Nat
  | _, [] => 0
  | state, action :: rest =>
      match step state action with
      | none => 0
      | some next => cost state action + charge step cost next rest

theorem total_append (cost : α → Nat) (first second : List α) :
    total cost (first ++ second) = total cost first + total cost second := by
  induction first with
  | nil => exact (Nat.zero_add _).symm
  | cons action rest ih => rw [List.cons_append, total, ih, total, Nat.add_assoc]

theorem total_take_le (cost : α → Nat) (actions : List α) (count : Nat) :
    total cost (actions.take count) ≤ total cost actions := by
  have split := total_append cost (actions.take count) (actions.drop count)
  rw [List.take_append_drop] at split
  omega

section Basic

variable (step : σ → α → Option σ)

theorem execute_cons (state : σ) (action : α) (rest : List α) :
    execute step state (action :: rest) =
      (step state action).bind fun next => execute step next rest := rfl

theorem execute_cons_of_step {state next : σ} {action : α} (rest : List α)
    (taken : step state action = some next) :
    execute step state (action :: rest) = execute step next rest := by
  rw [execute_cons, taken, Option.bind_some]

theorem execute_append (state : σ) (first second : List α) :
    execute step state (first ++ second) =
      (execute step state first).bind fun next => execute step next second := by
  induction first generalizing state with
  | nil => rfl
  | cons action rest ih =>
      simp only [List.cons_append, execute_cons, Option.bind_assoc, ih]

theorem execute_append_of_execute {state next : σ} {first : List α} (second : List α)
    (reached : execute step state first = some next) :
    execute step state (first ++ second) = execute step next second := by
  rw [execute_append, reached, Option.bind_some]

theorem execute_append_singleton (state : σ) (actions : List α) (action : α) :
    execute step state (actions ++ [action]) =
      (execute step state actions).bind fun next => step next action := by
  simp only [execute_append, execute, Option.bind_fun_some]

@[simp] theorem meets_nil (allowed : σ → α → Prop) (state : σ) :
    Meets step allowed state [] := trivial

theorem meets_cons_of_step {allowed : σ → α → Prop} {state next : σ} {action : α}
    (rest : List α) (taken : step state action = some next) :
    Meets step allowed state (action :: rest) ↔
      allowed state action ∧ Meets step allowed next rest := by
  simp only [Meets, taken, Option.some.injEq, forall_eq']

theorem meets_append {allowed : σ → α → Prop} {state next : σ} {first : List α}
    (second : List α) (reached : execute step state first = some next) :
    Meets step allowed state (first ++ second) ↔
      Meets step allowed state first ∧ Meets step allowed next second := by
  induction first generalizing state with
  | nil =>
      cases reached
      simp only [List.nil_append, meets_nil, true_and]
  | cons action rest ih =>
      rw [execute_cons, Option.bind_eq_some_iff] at reached
      obtain ⟨middle, taken, reached⟩ := reached
      rw [List.cons_append, meets_cons_of_step step _ taken, meets_cons_of_step step _ taken,
        ih reached, and_assoc]

theorem Meets.mono {allowed weaker : σ → α → Prop}
    (weaken : ∀ state action, allowed state action → weaker state action)
    {state : σ} {actions : List α} (met : Meets step allowed state actions) :
    Meets step weaker state actions := by
  induction actions generalizing state with
  | nil => trivial
  | cons action rest ih =>
      intro next taken
      exact ⟨weaken _ _ (met next taken).1, ih (met next taken).2⟩

theorem meets_and {first second : σ → α → Prop} {state : σ} {actions : List α} :
    Meets step (fun state action => first state action ∧ second state action) state actions ↔
      Meets step first state actions ∧ Meets step second state actions := by
  induction actions generalizing state with
  | nil => simp only [meets_nil, and_self]
  | cons action rest ih =>
      constructor
      · intro met
        exact ⟨fun next taken => ⟨(met next taken).1.1, (ih.mp (met next taken).2).1⟩,
          fun next taken => ⟨(met next taken).1.2, (ih.mp (met next taken).2).2⟩⟩
      · rintro ⟨met, met'⟩ next taken
        exact ⟨⟨(met next taken).1, (met' next taken).1⟩,
          ih.mpr ⟨(met next taken).2, (met' next taken).2⟩⟩

/-- A condition on the actions alone is met when every action satisfies it. -/
theorem meets_of_forall {allowed : α → Prop} (state : σ) {actions : List α}
    (all : ∀ action ∈ actions, allowed action) :
    Meets step (fun _ action => allowed action) state actions := by
  induction actions generalizing state with
  | nil => trivial
  | cons action rest ih =>
      intro next _
      exact ⟨all action (by simp), ih next fun later member => all later (by simp [member])⟩

instance Meets.instDecidable (allowed : σ → α → Prop)
    [∀ state action, Decidable (allowed state action)] :
    ∀ state actions, Decidable (Meets step allowed state actions)
  | _, [] => isTrue trivial
  | state, action :: rest =>
      match taken : step state action with
      | none => isTrue fun next reached => by rw [taken] at reached; cases reached
      | some next =>
          have := Meets.instDecidable allowed next rest
          decidable_of_iff (allowed state action ∧ Meets step allowed next rest)
            (meets_cons_of_step step rest taken).symm

instance Always.instDecidable (good : σ → Prop) [DecidablePred good] :
    ∀ state actions, Decidable (Always step good state actions)
  | state, [] => inferInstanceAs (Decidable (good state))
  | state, action :: rest =>
      match taken : step state action with
      | none => decidable_of_iff (good state) ⟨fun here => ⟨here, fun next reached => by
          rw [taken] at reached; cases reached⟩, And.left⟩
      | some next =>
          have := Always.instDecidable good next rest
          decidable_of_iff (good state ∧ Always step good next rest) (by
            simp only [Always, taken, Option.some.injEq, forall_eq'])

end Basic

section Rules

variable {step : σ → α → Option σ} {allowed : σ → α → Prop} {good : σ → Prop}

/-- What the allowed steps preserve holds at the end of every run of allowed steps. -/
theorem invariant
    (keeps : ∀ state action next, good state → allowed state action →
      step state action = some next → good next)
    {state final : σ} {actions : List α} (initial : good state)
    (met : Meets step allowed state actions)
    (reached : execute step state actions = some final) : good final := by
  induction actions generalizing state with
  | nil =>
      cases reached
      exact initial
  | cons action rest ih =>
      rw [execute_cons, Option.bind_eq_some_iff] at reached
      obtain ⟨next, taken, reached⟩ := reached
      obtain ⟨here, later⟩ := met next taken
      exact ih (keeps state action next initial here taken) later reached

/-- What every step preserves holds at the end of every run. -/
theorem invariant_of_step
    (keeps : ∀ state action next, good state → step state action = some next → good next)
    {state final : σ} {actions : List α} (initial : good state)
    (reached : execute step state actions = some final) : good final := by
  have met : Meets step (fun _ _ => True) state actions :=
    meets_of_forall step state fun _ _ => trivial
  exact invariant (fun state action next holds _ taken => keeps state action next holds taken)
    initial met reached

/-- What every step preserves of a state and its history holds at the end of every run. -/
theorem invariant_of_history {good : List α → σ → Prop} {start : σ} (initial : good [] start)
    (keeps : ∀ past action state next, good past state → step state action = some next →
      good (past ++ [action]) next)
    {actions : List α} {final : σ} (reached : execute step start actions = some final) :
    good actions final := by
  induction actions using List.reverseRecOn generalizing final with
  | nil =>
      cases reached
      exact initial
  | append_singleton past action ih =>
      rw [execute_append_singleton, Option.bind_eq_some_iff] at reached
      obtain ⟨state, reached, taken⟩ := reached
      exact keeps past action state final (ih reached) taken

theorem Always.start {state : σ} {actions : List α} (always : Always step good state actions) :
    good state := by
  cases actions with
  | nil => exact always
  | cons action rest => exact always.1

theorem Always.final {state final : σ} {actions : List α}
    (always : Always step good state actions)
    (reached : execute step state actions = some final) : good final := by
  induction actions generalizing state with
  | nil =>
      cases reached
      exact always
  | cons action rest ih =>
      rw [execute_cons, Option.bind_eq_some_iff] at reached
      obtain ⟨next, taken, reached⟩ := reached
      exact ih (always.2 next taken) reached

theorem Always.mono {weaker : σ → Prop} {state : σ} {actions : List α}
    (always : Always step good state actions) (weaken : ∀ state, good state → weaker state) :
    Always step weaker state actions := by
  induction actions generalizing state with
  | nil => exact weaken state always
  | cons action rest ih =>
      exact ⟨weaken state always.1, fun next taken => ih (always.2 next taken)⟩

theorem always_of_meets
    (keeps : ∀ state action next, good state → allowed state action →
      step state action = some next → good next)
    {state : σ} {actions : List α} (initial : good state)
    (met : Meets step allowed state actions) : Always step good state actions := by
  induction actions generalizing state with
  | nil => exact initial
  | cons action rest ih =>
      refine ⟨initial, fun next taken => ?_⟩
      obtain ⟨here, later⟩ := met next taken
      exact ih (keeps state action next initial here taken) later

/-- When, under an invariant, a step preserves `good` exactly where it is allowed, `good`
holds along a run exactly when the run's steps are allowed. -/
theorem always_iff_meets {inv : σ → Prop}
    (keeps : ∀ state action next, inv state → step state action = some next → inv next)
    (exact : ∀ state action next, inv state → good state → step state action = some next →
      (good next ↔ allowed state action))
    {state : σ} (actions : List α) (valid : inv state) (initial : good state) :
    Always step good state actions ↔ Meets step allowed state actions := by
  induction actions generalizing state with
  | nil => exact iff_of_true initial trivial
  | cons action rest ih =>
      constructor
      · intro always next taken
        have later := always.2 next taken
        have here := exact state action next valid initial taken
        have kept := keeps state action next valid taken
        exact ⟨here.mp later.start, (ih kept later.start).mp later⟩
      · intro met
        refine ⟨initial, fun next taken => ?_⟩
        obtain ⟨here, later⟩ := met next taken
        have holds := (exact state action next valid initial taken).mpr here
        exact (ih (keeps state action next valid taken) holds).mpr later

/-- Actions that fit wherever an invariant of theirs holds fit all along their run. -/
theorem meets_of_invariant {chosen : α → Prop}
    (keeps : ∀ state action next, good state → chosen action →
      step state action = some next → good next)
    (fits : ∀ state action, good state → chosen action → allowed state action)
    {state : σ} {actions : List α} (initial : good state)
    (all : ∀ action ∈ actions, chosen action) : Meets step allowed state actions := by
  induction actions generalizing state with
  | nil => trivial
  | cons action rest ih =>
      rw [List.forall_mem_cons] at all
      intro next taken
      exact ⟨fits state action initial all.1,
        ih (keeps state action next initial all.1 taken) all.2⟩

/-- Conditions that are the same under an invariant of the allowed steps are met by the same
allowed runs. -/
theorem meets_congr {first second : σ → α → Prop}
    (keeps : ∀ state action next, good state → allowed state action →
      step state action = some next → good next)
    (same : ∀ state action, good state → allowed state action →
      (first state action ↔ second state action))
    {state : σ} {actions : List α} (initial : good state)
    (met : Meets step allowed state actions) :
    Meets step first state actions ↔ Meets step second state actions := by
  induction actions generalizing state with
  | nil => exact Iff.rfl
  | cons action rest ih =>
      have here : ∀ next, step state action = some next →
          ((first state action ∧ Meets step first next rest) ↔
            (second state action ∧ Meets step second next rest)) := by
        intro next taken
        obtain ⟨fits, later⟩ := met next taken
        have kept := keeps state action next initial fits taken
        exact and_congr (same state action initial fits) (ih kept later)
      exact forall₂_congr here

/-- Along a run, an invariant and a property of every state may strengthen the condition. -/
theorem Meets.strengthen {inv : σ → Prop} {stronger : σ → α → Prop}
    (keeps : ∀ state action next, inv state → step state action = some next → inv next)
    (upgrade : ∀ state action, inv state → good state → allowed state action →
      stronger state action)
    {state : σ} {actions : List α} (initial : inv state)
    (always : Always step good state actions) (met : Meets step allowed state actions) :
    Meets step stronger state actions := by
  induction actions generalizing state with
  | nil => trivial
  | cons action rest ih =>
      intro next taken
      obtain ⟨here, later⟩ := met next taken
      exact ⟨upgrade state action initial always.start here,
        ih (keeps state action next initial taken) (always.2 next taken) later⟩

/-- A gauge that never falls, and that a step leaves alone exactly where it is allowed,
is unchanged over a run exactly when all the run's steps are allowed. -/
theorem gauge_eq_iff_meets {gauge : σ → Nat}
    (keeps : ∀ state action next, good state → step state action = some next → good next)
    (rises : ∀ state action next, good state → step state action = some next →
      gauge state ≤ gauge next ∧ (gauge next = gauge state ↔ allowed state action))
    {state final : σ} {actions : List α} (initial : good state)
    (reached : execute step state actions = some final) :
    gauge state ≤ gauge final ∧
      (gauge final = gauge state ↔ Meets step allowed state actions) := by
  induction actions generalizing state with
  | nil =>
      cases reached
      exact ⟨Nat.le_refl _, by simp only [meets_nil]⟩
  | cons action rest ih =>
      rw [execute_cons, Option.bind_eq_some_iff] at reached
      obtain ⟨next, taken, reached⟩ := reached
      obtain ⟨rise, same⟩ := rises state action next initial taken
      obtain ⟨laterRise, laterSame⟩ := ih (keeps state action next initial taken) reached
      rw [meets_cons_of_step step rest taken, ← same, ← laterSame]
      omega

/-- A gauge that every step raises by its cost is raised by what the run costs. -/
theorem gauge_eq_charge {gauge : σ → Nat} {cost : σ → α → Nat}
    (keeps : ∀ state action next, good state → step state action = some next → good next)
    (rises : ∀ state action next, good state → step state action = some next →
      gauge next = gauge state + cost state action)
    {state final : σ} {actions : List α} (initial : good state)
    (reached : execute step state actions = some final) :
    gauge final = gauge state + charge step cost state actions := by
  induction actions generalizing state with
  | nil =>
      cases reached
      rfl
  | cons action rest ih =>
      rw [execute_cons, Option.bind_eq_some_iff] at reached
      obtain ⟨next, taken, reached⟩ := reached
      simp only [charge, taken]
      rw [ih (keeps state action next initial taken) reached,
        rises state action next initial taken, Nat.add_assoc]

/-- A run costs nothing exactly when none of its steps does. -/
theorem charge_eq_zero_iff {cost : σ → α → Nat}
    (free : ∀ state action, cost state action = 0 ↔ allowed state action)
    {state final : σ} {actions : List α} (reached : execute step state actions = some final) :
    charge step cost state actions = 0 ↔ Meets step allowed state actions := by
  induction actions generalizing state with
  | nil => simp only [charge, meets_nil]
  | cons action rest ih =>
      rw [execute_cons, Option.bind_eq_some_iff] at reached
      obtain ⟨next, taken, reached⟩ := reached
      rw [meets_cons_of_step step rest taken, ← free, ← ih reached]
      simp only [charge, taken, Nat.add_eq_zero_iff]

/-- A step relation `move` that can follow every allowed step follows every run of them. -/
theorem simulates {represents : σ → τ → Prop} {move : τ → τ → Prop}
    (follows : ∀ state action next abstract, represents state abstract →
      allowed state action → step state action = some next →
      ∃ abstract', Relation.ReflTransGen move abstract abstract' ∧ represents next abstract')
    {state final : σ} {actions : List α} {abstract : τ} (initial : represents state abstract)
    (met : Meets step allowed state actions)
    (reached : execute step state actions = some final) :
    ∃ abstract', Relation.ReflTransGen move abstract abstract' ∧
      represents final abstract' := by
  induction actions generalizing state abstract with
  | nil =>
      cases reached
      exact ⟨abstract, .refl, initial⟩
  | cons action rest ih =>
      rw [execute_cons, Option.bind_eq_some_iff] at reached
      obtain ⟨next, taken, reached⟩ := reached
      obtain ⟨here, later⟩ := met next taken
      obtain ⟨middle, moved, held⟩ := follows state action next abstract initial here taken
      obtain ⟨abstract', moves, final⟩ := ih held later reached
      exact ⟨abstract', moved.trans moves, final⟩

/-- When every step of a machine is a run of another, so is every run of it. -/
theorem mirror_executes {project : σ → τ} {move : τ → β → Option τ} {reflect : σ → α → List β}
    (keeps : ∀ state action next, good state → step state action = some next → good next)
    (follows : ∀ state action next, good state → step state action = some next →
      execute move (project state) (reflect state action) = some (project next))
    {state final : σ} {actions : List α} (initial : good state)
    (reached : execute step state actions = some final) :
    execute move (project state) (mirror step reflect state actions) = some (project final) := by
  induction actions generalizing state with
  | nil =>
      cases reached
      rfl
  | cons action rest ih =>
      rw [execute_cons, Option.bind_eq_some_iff] at reached
      obtain ⟨next, taken, reached⟩ := reached
      simp only [mirror, taken]
      rw [execute_append_of_execute move _ (follows state action next initial taken)]
      exact ih (keeps state action next initial taken) reached

/-- What the allowed steps stand for, the run stands for. -/
theorem forall_mirror {reflect : σ → α → List β} {chosen : β → Prop}
    (here : ∀ state action, allowed state action → ∀ move ∈ reflect state action, chosen move)
    {state : σ} {actions : List α} (met : Meets step allowed state actions) :
    ∀ move ∈ mirror step reflect state actions, chosen move := by
  induction actions generalizing state with
  | nil => simp only [mirror, List.not_mem_nil, false_implies, implies_true]
  | cons action rest ih =>
      cases taken : step state action with
      | none => simp only [mirror, taken, List.not_mem_nil, false_implies, implies_true]
      | some next =>
          simp only [mirror, taken, List.forall_mem_append]
          obtain ⟨fits, later⟩ := met next taken
          exact ⟨here state action fits, ih later⟩

/-- What does not hold at the start of a run and holds at its end is brought about by one of
its steps. -/
theorem entered {state final : σ} {actions : List α} (before : ¬good state) (after : good final)
    (reached : execute step state actions = some final) :
    ∃ earlier action later middle next, actions = earlier ++ action :: later ∧
      execute step state earlier = some middle ∧ ¬good middle ∧
        step middle action = some next ∧ good next := by
  induction actions generalizing state with
  | nil =>
      cases reached
      exact absurd after before
  | cons action rest ih =>
      rw [execute_cons, Option.bind_eq_some_iff] at reached
      obtain ⟨next, taken, reached⟩ := reached
      by_cases now : good next
      · exact ⟨[], action, rest, state, next, rfl, rfl, before, taken, now⟩
      · obtain ⟨earlier, entry, later, middle, entering, split, came, notYet, moved, holds⟩ :=
          ih now reached
        refine ⟨action :: earlier, entry, later, middle, entering, ?_, ?_, notYet, moved, holds⟩
        · rw [split, List.cons_append]
        · rw [execute_cons_of_step step _ taken, came]

/-- When every step of an unfinished run brings it nearer to its goal, up to what the action
costs, the run is no longer than its costs and the work at its start allow. -/
theorem amortized {work : σ → Nat} {cost : α → Nat} {unfinished : σ → Prop}
    (pays : ∀ state action next, good state → allowed state action → unfinished state →
      step state action = some next → good next ∧ work next < work state + cost action)
    {state final : σ} {actions : List α} (initial : good state)
    (met : Meets step allowed state actions) (going : Always step unfinished state actions)
    (reached : execute step state actions = some final) :
    work final + actions.length ≤ work state + total cost actions := by
  induction actions generalizing state with
  | nil =>
      cases reached
      exact Nat.le_refl _
  | cons action rest ih =>
      rw [execute_cons, Option.bind_eq_some_iff] at reached
      obtain ⟨next, taken, reached⟩ := reached
      obtain ⟨here, later⟩ := met next taken
      obtain ⟨kept, less⟩ := pays state action next initial here going.1 taken
      have tail := ih kept later (going.2 next taken) reached
      rw [List.length_cons, total]
      omega

/-- When every unfinished state has an action that brings it nearer to its goal, the goal is
reached. -/
theorem leads_to {work : σ → Nat} {chosen : α → Prop} {finished : σ → Prop}
    (nearer : ∀ state, good state → ¬finished state → ∃ action next, chosen action ∧
      step state action = some next ∧ good next ∧ work next < work state)
    {state : σ} (initial : good state) :
    ∃ actions final, (∀ action ∈ actions, chosen action) ∧
      execute step state actions = some final ∧ good final ∧ finished final := by
  induction left : work state using Nat.strongRecOn generalizing state with
  | ind left ih =>
      by_cases done : finished state
      · exact ⟨[], state, by simp, rfl, initial, done⟩
      · obtain ⟨action, next, fits, taken, kept, less⟩ := nearer state initial done
        obtain ⟨actions, final, all, reached, ended⟩ := ih (work next) (left ▸ less) kept rfl
        refine ⟨action :: actions, final, ?_, ?_, ended⟩
        · rw [List.forall_mem_cons]
          exact ⟨fits, all⟩
        · rw [execute_cons_of_step step _ taken, reached]

/-- An action that brings every unfinished state nearer to its goal reaches it. -/
theorem repetition_leads_to {work : σ → Nat} {action : α} {finished : σ → Prop}
    (nearer : ∀ state, good state → ¬finished state →
      ∃ next, step state action = some next ∧ good next ∧ work next < work state)
    {state : σ} (initial : good state) :
    ∃ count final, execute step state (List.replicate count action) = some final ∧
      good final ∧ finished final := by
  have chosen : ∀ state, good state → ¬finished state → ∃ taken next, taken = action ∧
      step state taken = some next ∧ good next ∧ work next < work state := by
    intro state holds unfinished
    obtain ⟨next, approach⟩ := nearer state holds unfinished
    exact ⟨action, next, rfl, approach⟩
  obtain ⟨actions, final, all, reached, ended⟩ := leads_to chosen initial
  refine ⟨actions.length, final, ?_, ended⟩
  rw [← List.eq_replicate_of_mem all, reached]

/-- A run that repeats the only action until it is not enabled is the longest run. -/
theorem length_le_of_stuck {step : σ → Unit → Option σ} {state final last : σ} {count : Nat}
    {actions : List Unit}
    (reached : execute step state (List.replicate count ()) = some final)
    (stuck : step final () = none) (came : execute step state actions = some last) :
    actions.length ≤ count := by
  induction actions generalizing state count with
  | nil => exact Nat.zero_le _
  | cons action rest ih =>
      rw [execute_cons, Option.bind_eq_some_iff] at came
      obtain ⟨next, taken, came⟩ := came
      cases count with
      | zero =>
          cases reached
          rw [stuck] at taken
          cases taken
      | succ count =>
          rw [List.replicate_succ, execute_cons_of_step step _ taken] at reached
          rw [List.length_cons]
          exact Nat.succ_le_succ (ih reached came)

end Rules

end Transition
