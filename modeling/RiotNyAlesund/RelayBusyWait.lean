import Mathlib.Algebra.Group.Nat.Defs
import RiotNyAlesund.Transition

set_option autoImplicit false

/- wait of lora_relay/Relay/main.c, which lora_relay/ListenOnly/main.c repeats. -/
namespace RiotNyAlesund.BusyWait

open Transition

/-- An invocation of wait that has not returned. -/
structure Frame where
  timeToSleep : Int
  i : Int
  deriving DecidableEq, Repr

/-- The innermost invocation is the head of the stack. `invoked` is a history, the arguments
that wait was called with. -/
structure State where
  stack : List Frame
  invoked : List Int
  deriving DecidableEq, Repr

/-- wait is called, and its loop starts. -/
def call (s : State) (timeToSleep : Int) : State where
  stack := ⟨timeToSleep, 1⟩ :: s.stack
  invoked := s.invoked ++ [timeToSleep]

/-- A return, after which the caller's loop increments `i`. -/
def resume : List Frame → List Frame
  | [] => []
  | caller :: callers => { caller with i := caller.i + 1 } :: callers

/-- One test of the innermost loop, with the call or the return that it leads to. -/
def step (s : State) (_ : Unit) : Option State :=
  match s.stack with
  | [] => none
  | frame :: callers =>
      if frame.i < frame.timeToSleep then some (call s (frame.timeToSleep - frame.i))
      else some { s with stack := resume callers }

/-- wait(n) is called from outside. -/
def called (n : Int) : State := call ⟨[], []⟩ n

/-- The calls that a frame is yet to make, those they lead to included, when its loop has
`left` rounds left. -/
def nested : Nat → List Int
  | 0 => []
  | left + 1 => ((left + 1 : Nat) : Int) :: (nested left ++ nested left)

theorem nested_length (left : Nat) : (nested left).length + 1 = 2 ^ left := by
  induction left with
  | zero => rfl
  | succ left ih =>
      rw [nested, List.length_cons, List.length_append, Nat.pow_succ, ← ih]
      omega

theorem mem_nested {left : Nat} {argument : Int} (member : argument ∈ nested left) :
    1 ≤ argument ∧ argument ≤ left := by
  induction left with
  | zero => cases member
  | succ left ih =>
      rw [nested, List.mem_cons, List.mem_append, or_self] at member
      rcases member with rfl | member
      · omega
      · have range := ih member
        omega

theorem step_call {frame : Frame} {callers : List Frame} {invoked : List Int}
    (more : frame.i < frame.timeToSleep) :
    step ⟨frame :: callers, invoked⟩ () =
      some ⟨⟨frame.timeToSleep - frame.i, 1⟩ :: frame :: callers,
        invoked ++ [frame.timeToSleep - frame.i]⟩ := by
  simp only [step, call, if_pos more]

theorem step_return {frame : Frame} {callers : List Frame} {invoked : List Int}
    (done : frame.timeToSleep ≤ frame.i) :
    step ⟨frame :: callers, invoked⟩ () = some ⟨resume callers, invoked⟩ := by
  simp only [step, if_neg (Int.not_lt.mpr done)]

/-- The tests of a frame and of the calls that it makes. -/
def tests (left : Nat) : Nat := 2 * (nested left).length + 1

theorem tests_succ (left : Nat) : tests (left + 1) = tests left + tests left + 1 := by
  simp only [tests, nested, List.length_cons, List.length_append]
  omega

/-- A frame returns to its caller. Both a call and the frame that makes it then have one round
less to go. -/
theorem frame_returns (left : Nat) (frame : Frame) (callers : List Frame) (invoked : List Int)
    (rounds : (frame.timeToSleep - frame.i).toNat = left) :
    execute step ⟨frame :: callers, invoked⟩ (List.replicate (tests left) ()) =
      some ⟨resume callers, invoked ++ nested left⟩ := by
  induction left generalizing frame callers invoked with
  | zero =>
      show execute step _ [()] = _
      rw [execute_cons_of_step step [] (step_return (by omega)), nested, List.append_nil]
      rfl
  | succ left ih =>
      have argument : frame.timeToSleep - frame.i = ((left + 1 : Nat) : Int) := by omega
      have calleeLeft : (frame.timeToSleep - frame.i - 1).toNat = left := by omega
      have callerLeft : (frame.timeToSleep - (frame.i + 1)).toNat = left := by omega
      have callee := ih ⟨frame.timeToSleep - frame.i, 1⟩ (frame :: callers)
        (invoked ++ [frame.timeToSleep - frame.i]) calleeLeft
      have caller := ih { frame with i := frame.i + 1 } callers
        (invoked ++ [frame.timeToSleep - frame.i] ++ nested left) callerLeft
      -- The call, the callee up to its return, and the caller from its next round on.
      rw [tests_succ, List.replicate_succ, execute_cons_of_step step _ (step_call (by omega)),
        ← List.replicate_append_replicate, execute_append_of_execute step _ callee]
      show execute step ⟨{ frame with i := frame.i + 1 } :: callers, _⟩ _ = _
      rw [caller, argument, nested]
      simp only [List.append_assoc, List.cons_append, List.nil_append]

/-- wait(n) returns, after it has led to these calls. -/
theorem called_returns (n : Int) :
    execute step (called n) (List.replicate (tests (n - 1).toNat) ()) =
      some ⟨[], n :: nested (n - 1).toNat⟩ :=
  frame_returns (n - 1).toNat ⟨n, 1⟩ [] [n] rfl

/-- A frame with rounds left calls before it returns, and so does its call. -/
theorem frame_descends (left : Nat) (argument : Int) (callers : List Frame) (invoked : List Int)
    (rounds : (argument - 1).toNat = left) :
    ∃ s, execute step ⟨⟨argument, 1⟩ :: callers, invoked⟩ (List.replicate left ()) = some s ∧
      s.stack.length = callers.length + 1 + left := by
  induction left generalizing argument callers invoked with
  | zero => exact ⟨_, rfl, rfl⟩
  | succ left ih =>
      have more : 1 < argument := by omega
      obtain ⟨s, reached, depth⟩ := ih (argument - 1) (⟨argument, 1⟩ :: callers)
        (invoked ++ [argument - 1]) (by omega)
      refine ⟨s, ?_, ?_⟩
      · rw [List.replicate_succ, execute_cons_of_step step _ (step_call more)]
        exact reached
      · rw [depth, List.length_cons]
        omega

/-- The frames under an invocation with this argument: each has made the call above it, and the
outermost is wait(n). -/
def Calling (n : Int) : Int → List Frame → Prop
  | argument, [] => argument = n
  | argument, caller :: callers => argument = caller.timeToSleep - caller.i ∧
      1 ≤ caller.i ∧ 1 ≤ argument ∧ Calling n caller.timeToSleep callers

/-- No argument leaves the range of `n`, and no loop counter that of its bound. -/
def Sound (n : Int) (s : State) : Prop :=
  match s.stack with
  | [] => True
  | frame :: callers => 1 ≤ frame.i ∧ frame.i ≤ max 1 frame.timeToSleep ∧
      Calling n frame.timeToSleep callers

/-- Every call takes its argument down by one at least. -/
theorem Calling.depth {n argument : Int} {callers : List Frame}
    (calling : Calling n argument callers) :
    argument + callers.length ≤ n ∧ (callers = [] ∨ 1 ≤ argument) := by
  induction callers generalizing argument with
  | nil =>
      have outermost : argument = n := calling
      rw [outermost]
      exact ⟨Int.le_of_eq (Int.add_zero n), Or.inl rfl⟩
  | cons caller callers ih =>
      obtain ⟨rfl, started, positive, calling⟩ := calling
      have outer := (ih calling).1
      rw [List.length_cons]
      refine ⟨?_, Or.inr positive⟩
      omega

theorem Sound.depth {n : Int} {s : State} (sound : Sound n s) :
    s.stack.length ≤ max 1 n.toNat := by
  cases stack : s.stack with
  | nil => exact Nat.zero_le _
  | cons frame callers =>
      simp only [Sound, stack] at sound
      obtain ⟨bound, outermost | positive⟩ := sound.2.2.depth
      · rw [outermost]
        exact Nat.le_max_left _ _
      · rw [List.length_cons]
        omega

theorem step_sound {n : Int} (s : State) (action : Unit) (t : State) (sound : Sound n s)
    (taken : step s action = some t) : Sound n t := by
  rcases s with ⟨_ | ⟨frame, callers⟩, invoked⟩
  · cases taken
  · obtain ⟨started, bounded, calling⟩ := sound
    by_cases more : frame.i < frame.timeToSleep
    · rw [step_call more] at taken
      cases taken
      have positive : 1 ≤ frame.timeToSleep - frame.i := by omega
      exact ⟨Int.le_refl 1, Int.le_max_left _ _, rfl, started, positive, calling⟩
    · rw [step_return (Int.not_lt.mp more)] at taken
      cases taken
      cases callers with
      | nil => trivial
      | cons caller callers =>
          obtain ⟨argument, begun, positive, calling⟩ := calling
          have advanced : 1 ≤ caller.i + 1 ∧ caller.i + 1 ≤ max 1 caller.timeToSleep := by omega
          exact ⟨advanced.1, advanced.2, calling⟩

theorem called_sound {n : Int} {actions : List Unit} {s : State}
    (reached : execute step (called n) actions = some s) : Sound n s := by
  have initial : Sound n (called n) := ⟨Int.le_refl 1, Int.le_max_left _ _, rfl⟩
  exact invariant_of_step step_sound initial reached

/-- wait(n) has returned. -/
structure Returned (n : Int) (s : State) : Prop where
  stack : s.stack = []
  first : s.invoked.head? = some n
  others : ∀ argument ∈ s.invoked.tail, 1 ≤ argument ∧ argument < n
  doubles : 1 ≤ n → s.invoked.length = 2 ^ (n - 1).toNat
  single : n ≤ 1 → s.invoked.length = 1

theorem nested_returned (n : Int) : Returned n ⟨[], n :: nested (n - 1).toNat⟩ where
  stack := rfl
  first := rfl
  others := by
    intro argument member
    have range := mem_nested member
    omega
  doubles := by
    intro _
    exact nested_length _
  single := by
    intro low
    rw [Int.toNat_of_nonpos (by omega)]
    rfl

theorem wait_returns (n : Int) :
    (∃ count final, execute step (called n) (List.replicate count ()) = some final ∧
      Returned n final ∧
      ∀ actions s, execute step (called n) actions = some s → actions.length ≤ count) ∧
    (∀ actions s, execute step (called n) actions = some s →
      s.stack.length ≤ max 1 n.toNat) ∧
    ∃ actions s, execute step (called n) actions = some s ∧
      s.stack.length = max 1 n.toNat := by
  refine ⟨⟨_, _, called_returns n, nested_returned n, ?_⟩, ?_, ?_⟩
  · intro actions s came
    exact length_le_of_stuck (called_returns n) rfl came
  · intro actions s came
    exact (called_sound came).depth
  · obtain ⟨s, reached, depth⟩ := frame_descends (n - 1).toNat n [] [n] rfl
    refine ⟨_, s, reached, ?_⟩
    rw [depth, List.length_nil]
    omega

end RiotNyAlesund.BusyWait
