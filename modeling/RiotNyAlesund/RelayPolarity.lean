import RiotNyAlesund.Relay
import RiotNyAlesund.Transition
import Mathlib.Data.Nat.Bits

set_option autoImplicit false

namespace RiotNyAlesund.Relay

open Transition

/-- The packet in hand has been handed over and the direction is still the one it came from. -/
def Pc.ahead : Pc → Bool
  | .wdtKick | .waitTx | .clearTx | .flip => true
  | _ => false

/-- The direction has been flipped and the radio still has the old setting. -/
def Pc.stale : Pc → Bool
  | .setIqBack => true
  | _ => false

/-- The direction, `iqInverted` and the radio agree with the parity of the packets handed
over, but for the stretches that main takes to bring each of them up to date. -/
structure Polarized (s : State) : Prop where
  direction : s.iqInverted = decide (s.transmissionDirection = .fromGateway)
  parity : s.handed.length.bodd = (s.iqInverted ^^ s.pc.ahead)
  radio : s.radioIq = (s.iqInverted ^^ s.pc.stale)

theorem start_polarized : Polarized start := ⟨rfl, rfl, rfl⟩

theorem sent_polarized {s : State} {length : Nat} {read : List UInt8} (payload : List UInt8)
    (accepted : Bool) (polarized : Polarized s) (pc : s.pc = .driverSend length read) :
    Polarized (sent s payload accepted) := by
  obtain ⟨direction, parity, radio⟩ := polarized
  rw [pc] at parity radio
  refine ⟨direction, ?_, radio⟩
  simp only [sent, List.length_append, List.length_singleton, Nat.bodd_succ, parity, Pc.ahead,
    Bool.bne_false, Bool.bne_true]

theorem main_polarized {s : State} (polarized : Polarized s) : Polarized (main s) := by
  have ⟨direction, parity, radio⟩ := polarized
  cases pc : s.pc <;> rw [pc] at parity radio
  case driverSend length read =>
    by_cases more : read.length < length
    · simp only [main, pc, more, ↓reduceIte]
      exact ⟨direction, parity, radio⟩
    · simp only [main, pc, more, ↓reduceIte]
      exact sent_polarized read true polarized pc
  case head =>
    by_cases flag : s.flagMessageRecv = true
    all_goals
      simp only [main, pc, flag, Bool.false_eq_true, ↓reduceIte]
      exact ⟨direction, parity, radio⟩
  case waitTx =>
    by_cases done : s.flagTxDone = true
    all_goals
      simp only [main, pc, done, Bool.false_eq_true, ↓reduceIte]
      exact ⟨direction, parity, radio⟩
  case flip =>
    cases going : s.transmissionDirection
    all_goals
      simp only [going, reduceCtorEq, decide_true, decide_false] at direction
      rw [direction] at parity radio
      simp only [main, pc, going]
      exact ⟨rfl, parity, radio⟩
  case setIq | setIqBack =>
    simp only [main, pc]
    exact ⟨direction, parity, (Bool.bne_false _).symm⟩
  all_goals
    simp only [main, pc]
    exact ⟨direction, parity, radio⟩

theorem step_polarized (s : State) (action : Action) (t : State) (polarized : Polarized s)
    (taken : step s action = some t) : Polarized t := by
  cases action with
  | rx data =>
      cases taken
      exact ⟨polarized.direction, polarized.parity, polarized.radio⟩
  | main =>
      cases taken
      exact main_polarized polarized
  | refuse =>
      obtain ⟨length, pc, rfl⟩ := refuse_eq_sent taken
      exact sent_polarized _ false polarized pc
  | txEnd | txExpire | txCallback =>
      obtain ⟨_, _, rfl⟩ := radio_eq (by simp) taken
      exact ⟨polarized.direction, polarized.parity, polarized.radio⟩

/-- At the loop head the radio listens for what the parity of the relayed packets calls for. -/
theorem Polarized.atHead {s : State} (polarized : Polarized s) (waiting : s.pc = .head) :
    s.radioIq = s.handed.length.bodd := by
  have parity := polarized.parity
  have radio := polarized.radio
  simp only [waiting, Pc.ahead, Pc.stale, Bool.bne_false] at parity radio
  rw [radio, parity]

end RiotNyAlesund.Relay
