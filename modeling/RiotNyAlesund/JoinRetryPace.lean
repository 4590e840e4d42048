import RiotNyAlesund.JoinRetry
import RiotNyAlesund.Pace

set_option autoImplicit false

/-! The join requests of a retry loop on a clock: xtimer_sleep keeps them apart. -/
namespace RiotNyAlesund.JoinRetry

open Transition Pace

/-- The loop between its joins. -/
structure Attempt where
  loop : State
  asleep : Bool
  deriving DecidableEq, Repr

inductive Event
  | join (result : JoinRes)
  | wake
  deriving DecidableEq, Repr

def attempt (mode : Mode) (floor : Nat) (most : UInt32) (a : Attempt) : Event → Option Attempt
  | .join result =>
      if a.asleep then none
      else (loop mode floor most a.loop result).map fun next => ⟨next, result == .failed⟩
  | .wake => if a.asleep then some { a with asleep := false } else none

def Call.isJoin : Call → Bool
  | .join _ _ => true
  | _ => false

/-- The join requests so far. -/
def joins (a : Attempt) : Nat := a.loop.calls.countP Call.isJoin

def Event.isJoin : Event → Bool
  | .join _ => true
  | .wake => false

/-- A retry loop with xtimer_sleep, on a clock in seconds. -/
def sleeper (mode : Mode) (floor : Nat) (most : UInt32) : Sleeper Attempt Event where
  step := attempt mode floor most
  sleeps a := if a.asleep then some a.loop.nextRetryTime.toNat else none
  event _ event := event.isJoin

/-- The loop has asked before, has slept since, and goes on. -/
structure Slept (a : Attempt) : Prop where
  asked : joins a ≠ 0
  awake : a.asleep = false
  trying : a.loop.joined = false

section

variable {mode : Mode} {floor : Nat} {most : UInt32} {period : Nat}

theorem attempt_join {a b : Attempt} {result : JoinRes}
    (taken : attempt mode floor most a (.join result) = some b) :
    a.asleep = false ∧ loop mode floor most a.loop result = some b.loop ∧
      b.asleep = (result == .failed) := by
  simp only [attempt, Option.ite_none_left_eq_some, Option.map_eq_some_iff, Bool.not_eq_true]
    at taken
  obtain ⟨awake, next, moved, rfl⟩ := taken
  exact ⟨awake, moved, rfl⟩

theorem attempt_wake {a b : Attempt} (taken : attempt mode floor most a .wake = some b) :
    a.asleep = true ∧ b = { a with asleep := false } := by
  simp only [attempt, Option.ite_none_right_eq_some, Option.some.injEq] at taken
  exact ⟨taken.1, taken.2.symm⟩

/-- Each iteration asks once. -/
theorem attempt_joins (a : Attempt) (event : Event) (b : Attempt)
    (taken : attempt mode floor most a event = some b) :
    joins b = joins a + if event.isJoin then 1 else 0 := by
  cases event with
  | wake =>
      obtain ⟨_, rfl⟩ := attempt_wake taken
      rfl
  | join result =>
      obtain ⟨_, moved, _⟩ := attempt_join taken
      unfold joins
      cases result with
      | succeeded =>
          obtain ⟨_, same⟩ := loop_succeeded moved
          rw [same, List.countP_append]
          rfl
      | failed =>
          obtain ⟨_, ⟨_, same⟩ | ⟨_, same⟩⟩ := loop_failed moved
          all_goals
            rw [same, List.countP_append]
            rfl

/-- Below a ceiling that leaves room for the increase no back-off goes under the first delay
and the ceiling. -/
theorem le_backOff {next : UInt32} (room : most.toNat + 42949673 ≤ UInt32.size)
    (first : period ≤ next.toNat) (ceiling : period ≤ most.toNat) :
    period ≤ (backOff next most).toNat := by
  by_cases below : next < most
  · have bound := increase_lt next
    have less := UInt32.lt_iff_toNat_lt.mp below
    rw [backOff_below below, Nat.mod_eq_of_lt (by omega)]
    omega
  · rw [backOff, if_neg below]
    exact ceiling

theorem attempt_keeps (room : most.toNat + 42949673 ≤ UInt32.size)
    (ceiling : period ≤ most.toNat) (a : Attempt) (event : Event) (b : Attempt)
    (long : period ≤ a.loop.nextRetryTime.toNat)
    (taken : attempt mode floor most a event = some b) :
    period ≤ b.loop.nextRetryTime.toNat := by
  cases event with
  | wake =>
      obtain ⟨_, rfl⟩ := attempt_wake taken
      exact long
  | join result =>
      obtain ⟨_, moved, _⟩ := attempt_join taken
      cases result with
      | succeeded =>
          obtain ⟨_, same⟩ := loop_succeeded moved
          rw [same]
          exact long
      | failed =>
          obtain ⟨_, ⟨_, same⟩ | ⟨_, same⟩⟩ := loop_failed moved
          · rw [same]
            exact long
          · rw [same]
            exact le_backOff room long ceiling

theorem sleeper_rests (mode : Mode) (floor : Nat) (room : most.toNat + 42949673 ≤ UInt32.size)
    (ceiling : period ≤ most.toNat) :
    Rests (sleeper mode floor most) period (fun a => period ≤ a.loop.nextRetryTime.toNat)
      (fun a => joins a = 0) Slept where
  keeps := attempt_keeps room ceiling
  event := by
    intro a event b _ taken asks
    cases event with
    | wake => cases asks
    | join result =>
        obtain ⟨awake, moved, after⟩ := attempt_join taken
        have grown : joins b = joins a + 1 := attempt_joins a (.join result) b taken
        have trying : a.loop.joined = false := by
          cases result with
          | succeeded => exact (loop_succeeded moved).1
          | failed => exact (loop_failed moved).1
        refine ⟨by simp only [sleeper, awake, Bool.false_eq_true, ↓reduceIte], ?_, by omega, ?_⟩
        · by_cases first : joins a = 0
          · exact Or.inl first
          · exact Or.inr ⟨first, awake, trying⟩
        · intro slept
          cases result with
          | succeeded =>
              have joined := slept.trying
              rw [(loop_succeeded moved).2] at joined
              cases joined
          | failed =>
              have asleep := slept.awake
              rw [after] at asleep
              cases asleep
  stale := by
    intro a event b _ taken quiet first
    rw [attempt_joins a event b taken] at first
    omega
  sleep := by
    intro a event b long taken quiet slept
    cases event with
    | join result => cases quiet
    | wake =>
        have woken : attempt mode floor most a .wake = some b := taken
        obtain ⟨asleep, rfl⟩ := attempt_wake woken
        exact Or.inr ⟨_, long, by simp only [sleeper, asleep, ↓reduceIte],
          by simp only [sleeper, Bool.false_eq_true, ↓reduceIte]⟩

/-- A loop asks the network to join at most once in its first delay, or in the ceiling if that
is shorter, whatever the joins return and however long they take. -/
theorem joins_paced (mode : Mode) (floor : Nat) (rate : UInt8) (next most : UInt32)
    (room : most.toNat + 42949673 ≤ UInt32.size) (actions : List (Pace.Action Event))
    (s : Timed Attempt)
    (reached : execute (run (sleeper mode floor most)) (begin ⟨entry rate next, false⟩) actions =
      some s) :
    s.marks.length = joins s.inner ∧ Spaced (min next.toNat most.toNat) s.marks ∧
      (0 < min next.toNat most.toNat → ∀ first length,
        (window first length s.marks).length ≤ length / min next.toNat most.toNat + 1) := by
  have rests := sleeper_rests mode floor room
    (Nat.min_le_right next.toNat most.toNat)
  have paced := rests.paced (Nat.min_le_left next.toNat most.toNat) reached
  refine ⟨?_, paced.spaced, ?_⟩
  · exact marks_length (m := sleeper mode floor most) attempt_joins rfl reached
  · exact fun positive first length => paced.spaced.window_length positive first length

/-- The rate is lowered once, then the delay grows to twelve seconds. -/
theorem joins_paced_thrice :
    ∃ s, execute (run (sleeper .otaa 0 100)) (begin ⟨entry 1 10, false⟩)
        [.act (.join .failed), .pass 10, .act .wake, .act (.join .failed), .pass 12, .act .wake,
          .act (.join .succeeded)] = some s ∧
      s.marks = [0, 10, 22] ∧ s.marks.length = joins s.inner ∧ Spaced 10 s.marks ∧
      (0 < 10 → ∀ first length, (window first length s.marks).length ≤ length / 10 + 1) :=
  ⟨_, rfl, rfl, joins_paced .otaa 0 1 10 100 (by decide)
    [.act (.join .failed), .pass 10, .act .wake, .act (.join .failed), .pass 12, .act .wake,
      .act (.join .succeeded)] _ rfl⟩

end

end RiotNyAlesund.JoinRetry
