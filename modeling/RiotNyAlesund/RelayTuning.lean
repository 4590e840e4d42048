import RiotNyAlesund.RelayForward
import RiotNyAlesund.RelayWait
import RiotNyAlesund.RelayPolarity

set_option autoImplicit false

namespace RiotNyAlesund.Relay

open Transition

/-- Packets relayed: those that driver->send accepted. -/
def relayed (s : State) : Nat := s.handed.countP Handed.accepted

/-- Until it has handed the packet over, main keeps the radio at the setting that it was
heard with. A set flag that `clearFlag` has left behind is of a later reception. -/
structure Tuned (s : State) : Prop where
  polarized : Polarized s
  heard : Owes s → s.heardIq = s.radioIq
  handed : ∀ call ∈ s.handed, call.iq = call.heardIq

theorem start_tuned : Tuned start :=
  ⟨start_polarized, fun _ => rfl, fun call member => by cases member⟩

/-- A call of driver->send finds the radio at the setting its packet was heard with. -/
theorem sent_tuned {s : State} {length : Nat} {read : List UInt8} (payload : List UInt8)
    (accepted : Bool) (tuned : Tuned s) (pc : s.pc = .driverSend length read) :
    Tuned (sent s payload accepted) := by
  have owes : Owes s := by simp only [Owes, pc]
  refine ⟨sent_polarized payload accepted tuned.polarized pc, fun later => later.elim, ?_⟩
  intro call member
  rcases List.mem_append.mp member with earlier | last
  · exact tuned.handed call earlier
  · rw [List.mem_singleton.mp last]
    exact (tuned.heard owes).symm

/-- A statement of main that leaves the radio alone owes nothing it did not owe before. -/
theorem Tuned.stutter {s t : State} (tuned : Tuned s) (polarized : Polarized t)
    (owes : Owes t → Owes s) (same : SamePackets s t) (radioIq : t.radioIq = s.radioIq) :
    Tuned t := by
  refine ⟨polarized, ?_, ?_⟩
  · intro later
    rw [same.heardIq, radioIq]
    exact tuned.heard (owes later)
  · rw [same.handed]
    exact tuned.handed

/-- Until driver->send has copied its payload, main keeps the radio tuned. -/
theorem main_keeps_tuned {s : State} (tuned : Tuned s) (withholds : Withholds s) :
    Tuned (main s) := by
  have polarized := main_polarized tuned.polarized
  have same := main_samePackets withholds
  cases pc : s.pc
  case driverSend length read =>
    have more := withholds length read pc
    apply tuned.stutter polarized (fun _ => by simp only [Owes, pc]) same
    simp only [main, pc, more, ↓reduceIte]
  case setIq =>
    -- The radio already has the setting that main writes.
    have radio := tuned.polarized.radio
    simp only [pc, Pc.stale, Bool.bne_false] at radio
    apply tuned.stutter polarized (fun _ => by simp only [Owes, pc]) same
    simp only [main, pc, radio]
  case setIqBack =>
    simp only [main, pc] at polarized ⊢
    exact ⟨polarized, fun later => later.elim, tuned.handed⟩
  case head =>
    by_cases flag : s.flagMessageRecv = true
    · apply tuned.stutter polarized (fun _ => by simp only [Owes, pc, flag]) same
      simp only [main, pc]
    · rw [main_idle ⟨pc, Bool.eq_false_iff.mpr flag⟩]
      exact tuned
  case waitTx =>
    by_cases done : s.flagTxDone = true
    all_goals
      apply tuned.stutter polarized _ same
      all_goals simp [main, pc, done, Owes]
  case flip =>
    cases direction : s.transmissionDirection
    all_goals
      apply tuned.stutter polarized _ same
      all_goals simp only [main, pc, direction, Owes, false_implies]
  all_goals
    apply tuned.stutter polarized _ same
    all_goals simp [main, pc, Owes]

theorem main_tuned {s : State} (tuned : Tuned s) : Tuned (main s) := by
  by_cases withholds : Withholds s
  · exact main_keeps_tuned tuned withholds
  · obtain ⟨length, read, pc, _, handed⟩ := main_eq_sent withholds
    rw [handed]
    exact sent_tuned read true tuned pc

theorem step_tuned (s : State) (action : Action) (t : State) (tuned : Tuned s)
    (taken : step s action = some t) : Tuned t := by
  have polarized := step_polarized s action t tuned.polarized taken
  cases action with
  | rx data =>
      cases taken
      exact ⟨polarized, fun _ => rfl, tuned.handed⟩
  | main =>
      cases taken
      exact main_tuned tuned
  | refuse =>
      obtain ⟨length, pc, rfl⟩ := refuse_eq_sent taken
      exact sent_tuned _ false tuned pc
  | txEnd | txExpire | txCallback =>
      obtain ⟨_, _, rfl⟩ := radio_eq (by simp) taken
      exact ⟨polarized, tuned.heard, tuned.handed⟩

/-- Every call was accepted, or main is stuck behind one that was refused or timed out. -/
def Delivers (s : State) : Prop := (Paired s ∧ ∀ call ∈ s.handed, call.accepted = true) ∨ Stuck s

theorem start_delivers : Delivers start :=
  Or.inl ⟨⟨rfl, rfl⟩, fun call member => by cases member⟩

/-- Only driver->send adds to the calls. -/
theorem step_handed {s t : State} {action : Action} (taken : step s action = some t)
    (completes : Completes action) (accepted : ∀ call ∈ s.handed, call.accepted = true) :
    ∀ call ∈ t.handed, call.accepted = true := by
  cases action with
  | rx data =>
      cases taken
      exact accepted
  | main =>
      cases taken
      by_cases withholds : Withholds s
      · rw [(main_samePackets withholds).handed]
        exact accepted
      · obtain ⟨length, read, _, _, handed⟩ := main_eq_sent withholds
        rw [handed, sent, List.forall_mem_append, List.forall_mem_singleton]
        exact ⟨accepted, rfl⟩
  | refuse => exact completes.elim
  | txEnd | txExpire | txCallback =>
      obtain ⟨_, _, rfl⟩ := radio_eq (by simp) taken
      exact accepted

theorem step_delivers (s : State) (action : Action) (t : State) (delivers : Delivers s)
    (taken : step s action = some t) : Delivers t := by
  rcases delivers with ⟨paired, accepted⟩ | stuck
  · by_cases completes : Completes action
    · exact Or.inl ⟨step_paired s action t paired completes taken,
        step_handed taken completes accepted⟩
    · exact Or.inr (step_stuck paired completes taken)
  · exact Or.inr (stuck_stays s action t stuck taken)

/-- main comes back to its loop head from accepted transmissions only. -/
theorem Delivers.atHead {s : State} (delivers : Delivers s) (waiting : s.pc = .head) :
    relayed s = s.handed.length := by
  rcases delivers with ⟨_, accepted⟩ | ⟨waits, _⟩
  · exact List.countP_eq_length.mpr accepted
  · rw [waiting] at waits
    simp at waits

/-- At its loop head the relay listens for what the parity of the relayed packets calls for,
and it hands every packet over with the setting that it was heard with. -/
theorem tuned_to_turn (actions : List Action) (s : State)
    (reached : execute step start actions = some s) :
    (s.pc = .head → s.radioIq = s.iqInverted ∧
      (s.iqInverted = true ↔ s.transmissionDirection = .fromGateway) ∧
      (s.iqInverted = true ↔ relayed s % 2 = 1)) ∧
    (∀ length read, s.pc = .driverSend length read → s.radioIq = s.heardIq) ∧
    ∀ call ∈ s.handed, call.iq = call.heardIq := by
  have tuned : Tuned s := invariant_of_step step_tuned start_tuned reached
  have first : Delivers start := Or.inl ⟨⟨rfl, rfl⟩, fun call member => by cases member⟩
  have delivers : Delivers s := invariant_of_step step_delivers first reached
  refine ⟨?_, ?_, tuned.handed⟩
  · intro waiting
    have direction := tuned.polarized.direction
    have radio := tuned.polarized.radio
    have turn := tuned.polarized.atHead waiting
    simp only [waiting, Pc.stale, Bool.bne_false] at radio
    refine ⟨radio, ?_, ?_⟩
    · rw [direction, decide_eq_true_iff]
    · rw [← radio, turn, delivers.atHead waiting, Nat.mod_two_of_bodd]
      cases s.handed.length.bodd <;> simp
  · intro length read pc
    have owes : Owes s := by simp only [Owes, pc]
    exact (tuned.heard owes).symm

/-- At the loop head behind an uplink, and inside driver->send with the downlink after it. -/
theorem tuned_to_turn_once :
    (∃ s, execute step start (relaying 1) = some s ∧ s.iqInverted = true ∧
      (s.radioIq = s.iqInverted ∧ (s.iqInverted = true ↔ s.transmissionDirection = .fromGateway) ∧
        (s.iqInverted = true ↔ relayed s % 2 = 1)) ∧
      ∀ call ∈ s.handed, call.iq = call.heardIq) ∧
    ∃ s, execute step start (relaying 1 ++ .rx [2] :: List.replicate 5 .main) = some s ∧
      s.heardIq = true ∧ s.radioIq = s.heardIq :=
  ⟨⟨_, rfl, rfl, (tuned_to_turn (relaying 1) _ rfl).1 rfl, (tuned_to_turn (relaying 1) _ rfl).2.2⟩,
    ⟨_, rfl, rfl, (tuned_to_turn (relaying 1 ++ .rx [2] :: List.replicate 5 .main) _ rfl).2.1
      1 [] rfl⟩⟩

end RiotNyAlesund.Relay
