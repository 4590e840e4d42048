import RiotNyAlesund.Transition

set_option autoImplicit false

/-! Machines with a clock: what their sleeps mean for the distance between events. -/
namespace Pace

open Transition

variable {σ α : Type}

/-- Each time comes at least `period` after every time before it. -/
def Spaced (period : Nat) (times : List Nat) : Prop :=
  times.Pairwise fun earlier later => earlier + period ≤ later

instance (period : Nat) (times : List Nat) : Decidable (Spaced period times) :=
  inferInstanceAs (Decidable (times.Pairwise _))

/-- The times in the `length` from `first` on. -/
def window (first length : Nat) (times : List Nat) : List Nat :=
  times.filter fun time => decide (first ≤ time ∧ time ≤ first + length)

theorem Spaced.later {period time : Nat} {times : List Nat} (spaced : Spaced period times)
    (after : ∀ earlier ∈ times, earlier + period ≤ time) : Spaced period (times ++ [time]) := by
  apply List.pairwise_append.mpr
  refine ⟨spaced, List.pairwise_singleton _ _, ?_⟩
  intro earlier member later last
  rw [List.mem_singleton.mp last]
  exact after earlier member

/-- Spaced times take the whole of the periods between them. -/
theorem Spaced.extent {period first last : Nat} {rest : List Nat}
    (spaced : Spaced period (first :: rest)) (bounded : ∀ time ∈ first :: rest, time ≤ last) :
    first + rest.length * period ≤ last := by
  induction rest generalizing first with
  | nil =>
      have := bounded first List.mem_cons_self
      simpa using this
  | cons second rest ih =>
      have later := List.pairwise_cons.mp spaced
      have apart := later.1 second List.mem_cons_self
      have tail := ih later.2 fun time member => bounded time (List.mem_cons_of_mem _ member)
      rw [List.length_cons, Nat.add_mul]
      omega

/-- No window holds more spaced times than it has room for. -/
theorem Spaced.window_length {period : Nat} {times : List Nat} (spaced : Spaced period times)
    (positive : 0 < period) (first length : Nat) :
    (window first length times).length ≤ length / period + 1 := by
  have inside : Spaced period (window first length times) := List.Pairwise.filter _ spaced
  have bounds : ∀ time ∈ window first length times, first ≤ time ∧ time ≤ first + length := by
    intro time member
    simpa using (List.mem_filter.mp member).2
  cases shape : window first length times with
  | nil => exact Nat.zero_le _
  | cons time rest =>
      rw [shape] at inside bounds
      have reach := inside.extent fun later member => (bounds later member).2
      have start := (bounds time List.mem_cons_self).1
      have fits : rest.length * period ≤ length := by omega
      have := (Nat.le_div_iff_mul_le positive).mpr fits
      rw [List.length_cons]
      omega

/-- A step function, how long the sleep lasts that a state is in, if it is in one, and the
steps that are events. -/
structure Sleeper (σ α : Type) where
  step : σ → α → Option σ
  sleeps : σ → Option Nat
  event : σ → α → Bool

/-- A state of the machine and its clock. A sleep has gone on from `since`, and `marks` has
the times of the events. -/
structure Timed (σ : Type) where
  inner : σ
  now : Nat
  since : Nat
  marks : List Nat
  deriving DecidableEq, Repr

/-- Time passes, or the machine takes a step. -/
inductive Action (α : Type)
  | pass (time : Nat)
  | act (action : α)
  deriving DecidableEq, Repr

def begin (state : σ) : Timed σ := ⟨state, 0, 0, []⟩

section

variable (m : Sleeper σ α)

/-- A step that ends a sleep comes no earlier than the sleep is over. -/
def Over (s : Timed σ) (next : σ) : Prop :=
  (m.sleeps next).isSome = true ∨ s.since + (m.sleeps s.inner).getD 0 ≤ s.now

instance (s : Timed σ) (next : σ) : Decidable (Over m s next) :=
  inferInstanceAs (Decidable (_ ∨ _))

def run (s : Timed σ) : Action α → Option (Timed σ)
  | .pass time => some { s with now := s.now + time }
  | .act action =>
      (m.step s.inner action).bind fun next =>
        if Over m s next then
          some {
            inner := next
            now := s.now
            since := if (m.sleeps s.inner).isSome then s.since else s.now
            marks := if m.event s.inner action then s.marks ++ [s.now] else s.marks }
        else none

end

variable {m : Sleeper σ α} {period : Nat} {good fresh rested : σ → Prop}

theorem run_act {s t : Timed σ} {action : α} (taken : run m s (.act action) = some t) :
    m.step s.inner action = some t.inner ∧ Over m s t.inner ∧ t.now = s.now ∧
      t.since = (if (m.sleeps s.inner).isSome then s.since else s.now) ∧
      t.marks = if m.event s.inner action then s.marks ++ [s.now] else s.marks := by
  simp only [run, Option.bind_eq_some_iff, Option.ite_none_right_eq_some,
    Option.some.injEq] at taken
  obtain ⟨next, stepped, ended, rfl⟩ := taken
  exact ⟨stepped, ended, rfl, rfl, rfl⟩

theorem run_count {count : σ → Nat}
    (counts : ∀ state action next, m.step state action = some next →
      count next = count state + if m.event state action then 1 else 0)
    (s : Timed σ) (action : Action α) (t : Timed σ)
    (counted : s.marks.length = count s.inner) (taken : run m s action = some t) :
    t.marks.length = count t.inner := by
  cases action with
  | pass time =>
      cases taken
      exact counted
  | act action =>
      obtain ⟨stepped, _, _, _, marks⟩ := run_act taken
      rw [counts _ _ _ stepped, marks, ← counted]
      split
      · exact List.length_append
      · rfl

/-- A count that grows with the events is the number of marks. -/
theorem marks_length {count : σ → Nat}
    (counts : ∀ state action next, m.step state action = some next →
      count next = count state + if m.event state action then 1 else 0)
    {state : σ} (initial : count state = 0) {actions : List (Action α)} {s : Timed σ}
    (reached : execute (run m) (begin state) actions = some s) :
    s.marks.length = count s.inner :=
  invariant_of_step (run_count counts)
    (show (begin state).marks.length = count state from initial.symm) reached

/-- An event comes first of all or from a rested state, which it leaves, and only a sleep of at
least `period` brings the machine to a rested state. -/
structure Rests (m : Sleeper σ α) (period : Nat) (good fresh rested : σ → Prop) : Prop where
  keeps : ∀ state action next, good state → m.step state action = some next → good next
  event : ∀ state action next, good state → m.step state action = some next →
    m.event state action = true →
      m.sleeps state = none ∧ (fresh state ∨ rested state) ∧ ¬fresh next ∧ ¬rested next
  stale : ∀ state action next, good state → m.step state action = some next →
    m.event state action = false → fresh next → fresh state
  sleep : ∀ state action next, good state → m.step state action = some next →
    m.event state action = false → rested next →
      rested state ∨ ∃ length, period ≤ length ∧ m.sleeps state = some length ∧
        m.sleeps next = none

/-- The marks are spaced, and a rested machine may add one at once. -/
structure Paced (m : Sleeper σ α) (period : Nat) (good fresh rested : σ → Prop)
    (s : Timed σ) : Prop where
  inner : good s.inner
  spaced : Spaced period s.marks
  past : ∀ time ∈ s.marks, time ≤ s.now
  asleep : (m.sleeps s.inner).isSome = true → ∀ time ∈ s.marks, time ≤ s.since
  fresh : fresh s.inner → s.marks = []
  rested : rested s.inner → ∀ time ∈ s.marks, time + period ≤ s.now

theorem begin_paced {state : σ} (initial : good state) :
    Paced m period good fresh rested (begin state) := by
  have none : ∀ time ∈ (begin state).marks, False := fun _ member => List.not_mem_nil member
  exact ⟨initial, List.Pairwise.nil, fun _ member => (none _ member).elim,
    fun _ _ member => (none _ member).elim, fun _ => rfl, fun _ _ member => (none _ member).elim⟩

theorem event_paced {s t : Timed σ} {action : α} (rests : Rests m period good fresh rested)
    (paced : Paced m period good fresh rested s) (taken : run m s (.act action) = some t)
    (event : m.event s.inner action = true) : Paced m period good fresh rested t := by
  obtain ⟨stepped, _, now, since, marks⟩ := run_act taken
  obtain ⟨awake, ready, used, tired⟩ := rests.event _ _ _ paced.inner stepped event
  simp only [awake, Option.isSome_none, Bool.false_eq_true, ↓reduceIte] at since
  simp only [event, ↓reduceIte] at marks
  have apart : ∀ time ∈ s.marks, time + period ≤ s.now := by
    rcases ready with first | ready
    · rw [paced.fresh first]
      exact fun _ member => absurd member List.not_mem_nil
    · exact paced.rested ready
  have past : ∀ time ∈ t.marks, time ≤ s.now := by
    rw [marks]
    intro time member
    rcases List.mem_append.mp member with member | last
    · exact paced.past time member
    · exact Nat.le_of_eq (List.mem_singleton.mp last)
  refine ⟨rests.keeps _ _ _ paced.inner stepped, ?_, ?_, ?_,
    fun first => absurd first used, fun ready => absurd ready tired⟩
  · rw [marks]
    exact paced.spaced.later apart
  · rw [now]
    exact past
  · rw [since]
    exact fun _ => past

theorem quiet_paced {s t : Timed σ} {action : α} (rests : Rests m period good fresh rested)
    (paced : Paced m period good fresh rested s) (taken : run m s (.act action) = some t)
    (quiet : m.event s.inner action = false) : Paced m period good fresh rested t := by
  obtain ⟨stepped, ended, now, since, marks⟩ := run_act taken
  simp only [quiet, Bool.false_eq_true, ↓reduceIte] at marks
  refine ⟨rests.keeps _ _ _ paced.inner stepped, ?_, ?_, ?_, ?_, ?_⟩
  · rw [marks]
    exact paced.spaced
  · rw [marks, now]
    exact paced.past
  · rw [marks, since]
    intro _
    split
    · exact paced.asleep ‹_›
    · exact paced.past
  · rw [marks]
    exact fun first => paced.fresh (rests.stale _ _ _ paced.inner stepped quiet first)
  · rw [marks, now]
    intro ready time member
    rcases rests.sleep _ _ _ paced.inner stepped quiet ready with before | slept
    · exact paced.rested before time member
    · obtain ⟨length, long, sleeping, awake⟩ := slept
      have began := paced.asleep (by rw [sleeping, Option.isSome_some]) time member
      simp only [Over, awake, Option.isSome_none, Bool.false_eq_true, sleeping, Option.getD_some,
        false_or] at ended
      omega

theorem run_paced (rests : Rests m period good fresh rested) (s : Timed σ) (action : Action α)
    (t : Timed σ) (paced : Paced m period good fresh rested s) (taken : run m s action = some t) :
    Paced m period good fresh rested t := by
  cases action with
  | pass time =>
      cases taken
      refine ⟨paced.inner, paced.spaced, ?_, paced.asleep, paced.fresh, ?_⟩
      · intro earlier member
        exact Nat.le_add_right_of_le (paced.past earlier member)
      · intro ready earlier member
        exact Nat.le_add_right_of_le (paced.rested ready earlier member)
  | act action =>
      cases event : m.event s.inner action with
      | true => exact event_paced rests paced taken event
      | false => exact quiet_paced rests paced taken event

/-- From the first mark on, every further mark has taken a period. -/
theorem Paced.elapsed {s : Timed σ} (paced : Paced m period good fresh rested s) :
    (s.marks.length - 1) * period ≤ s.now := by
  cases shape : s.marks with
  | nil => simp
  | cons first rest =>
      have spaced := paced.spaced
      have past := paced.past
      rw [shape] at spaced past
      have := spaced.extent past
      rw [List.length_cons, Nat.add_sub_cancel]
      omega

/-- The events of a machine that rests before each of them are spaced, in every run. -/
theorem Rests.paced (rests : Rests m period good fresh rested) {state : σ} (initial : good state)
    {actions : List (Action α)} {s : Timed σ}
    (reached : execute (run m) (begin state) actions = some s) :
    Paced m period good fresh rested s :=
  invariant_of_step (run_paced rests) (begin_paced initial) reached

end Pace
