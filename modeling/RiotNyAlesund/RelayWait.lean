import RiotNyAlesund.Relay
import RiotNyAlesund.Transition

set_option autoImplicit false

namespace RiotNyAlesund.Relay

open Transition

/-- While main waits, the event it waits for can still come, and at its loop head no event
is outstanding. -/
def Awaited (s : State) : Prop :=
  (s.pc = .waitTx → s.flagTxDone = false → s.air = .sending ∨ s.air = .completePending) ∧
    (s.pc = .head → s.flagTxDone = false ∧ s.air = .idle)

instance (s : State) : Decidable (Awaited s) := inferInstanceAs (Decidable (_ ∧ _))

/-- Outside the stretch from driver->send to the reset of `flagTxDone` nothing is on air.
Inside it either a TX_COMPLETE is to come or it has come. -/
def Paired (s : State) : Prop :=
  match s.pc with
  | .wdtKick | .waitTx =>
      (s.flagTxDone = false ∧ (s.air = .sending ∨ s.air = .completePending)) ∨
        (s.flagTxDone = true ∧ s.air = .idle)
  | .clearTx => s.flagTxDone = true ∧ s.air = .idle
  | _ => s.flagTxDone = false ∧ s.air = .idle

theorem Paired.awaited {s : State} (paired : Paired s) : Awaited s := by
  unfold Awaited
  cases pc : s.pc <;> simp only [Paired, pc] at paired <;> simp [paired]
  case waitTx =>
    intro clear
    rcases paired with pending | done
    · exact pending.2
    · rw [done.1] at clear
      contradiction

/-- A transmission exists only between driver->send and the end of the wait. -/
theorem Paired.waits {s : State} (paired : Paired s) (busy : s.air ≠ .idle) :
    (s.pc = .wdtKick ∨ s.pc = .waitTx) ∧ s.flagTxDone = false ∧
      (s.air = .sending ∨ s.air = .completePending) := by
  cases pc : s.pc <;> simp only [Paired, pc, busy, and_false, or_false] at paired
  · exact ⟨Or.inl rfl, paired⟩
  · exact ⟨Or.inr rfl, paired⟩

theorem main_paired {s : State} (paired : Paired s) : Paired (main s) := by
  cases pc : s.pc <;> simp only [Paired, pc] at paired
  case head =>
    by_cases flag : s.flagMessageRecv = true <;> simp only [main, Paired, pc, flag,
      Bool.false_eq_true, ↓reduceIte, paired, and_self]
  case driverSend length read =>
    by_cases more : read.length < length <;> simp [main, sent, Paired, pc, more, paired]
  case waitTx =>
    by_cases done : s.flagTxDone = true
    · simp only [done, Bool.true_eq_false, false_and, true_and, false_or] at paired
      simp only [main, Paired, pc, done, ↓reduceIte, paired, and_self]
    · simpa only [main, Paired, pc, done, Bool.false_eq_true, ↓reduceIte] using paired
  case flip =>
    cases direction : s.transmissionDirection <;>
      simp only [main, Paired, pc, direction, paired, and_self]
  all_goals simp only [main, Paired, pc, paired, and_self]

/-- A transmission on air keeps main where it is, so the end of it finds main waiting. -/
theorem step_paired (s : State) (action : Action) (t : State) (paired : Paired s)
    (completes : Completes action) (taken : step s action = some t) : Paired t := by
  cases action with
  | rx data =>
      cases taken
      exact paired
  | main =>
      cases taken
      exact main_paired paired
  | refuse | txExpire => exact absurd completes id
  | txEnd =>
      simp only [step, Option.ite_none_right_eq_some, Option.some.injEq] at taken
      obtain ⟨sending, rfl⟩ := taken
      obtain ⟨waiting, clear, _⟩ := paired.waits (by rw [sending]; exact Air.noConfusion)
      rcases waiting with pc | pc <;> simp [Paired, pc, clear]
  | txCallback =>
      rcases txCallback_eq taken with ⟨pending, rfl⟩ | ⟨pending, rfl⟩
      · obtain ⟨waiting, _⟩ := paired.waits (by rw [pending]; exact Air.noConfusion)
        rcases waiting with pc | pc <;> simp [Paired, pc, eventCbTxComplete]
      · obtain ⟨_, _, onAir⟩ := paired.waits (by rw [pending]; exact Air.noConfusion)
        rw [pending] at onAir
        simp at onAir

/-- main is about to wait, or waits, for a TX_COMPLETE that nothing will cause. -/
def Stuck (s : State) : Prop :=
  (s.pc = .wdtKick ∨ s.pc = .waitTx) ∧ s.flagTxDone = false ∧
    (s.air = .idle ∨ s.air = .timeoutPending)

/-- A refusal and a timeout both leave main stuck. -/
theorem step_stuck {s t : State} {action : Action} (paired : Paired s)
    (fails : ¬Completes action) (taken : step s action = some t) : Stuck t := by
  cases action with
  | rx | main | txEnd | txCallback => exact absurd trivial fails
  | refuse =>
      obtain ⟨length, pc, rfl⟩ := refuse_eq_sent taken
      simp only [Paired, pc] at paired
      simp [Stuck, sent, paired]
  | txExpire =>
      simp only [step, Option.ite_none_right_eq_some, Option.some.injEq] at taken
      obtain ⟨sending, rfl⟩ := taken
      obtain ⟨waiting, clear, _⟩ := paired.waits (by rw [sending]; exact Air.noConfusion)
      exact ⟨waiting, clear, Or.inr rfl⟩

theorem main_stuck {s : State} (stuck : Stuck s) : Stuck (main s) ∧ (main s).pc = .waitTx := by
  obtain ⟨waiting, clear, quiet⟩ := stuck
  rcases waiting with pc | pc <;> simp [Stuck, main, pc, clear, quiet]

/-- Once stuck, main stays so whatever happens. -/
theorem stuck_stays (s : State) (action : Action) (t : State) (stuck : Stuck s)
    (taken : step s action = some t) : Stuck t := by
  have notSending : s.air ≠ .sending := by
    rcases stuck.2.2 with air | air <;> rw [air] <;> exact Air.noConfusion
  cases action with
  | rx data =>
      cases taken
      exact stuck
  | main =>
      cases taken
      exact (main_stuck stuck).1
  | refuse =>
      obtain ⟨length, pc, rfl⟩ := refuse_eq_sent taken
      rcases stuck.1 with waiting | waiting <;> rw [pc] at waiting <;> cases waiting
  | txEnd | txExpire =>
      simp only [step, notSending, ↓reduceIte, reduceCtorEq] at taken
  | txCallback =>
      rcases txCallback_eq taken with ⟨pending, rfl⟩ | ⟨pending, rfl⟩
      · rcases stuck.2.2 with air | air <;> rw [pending] at air <;> cases air
      · exact ⟨stuck.1, stuck.2.1, Or.inl rfl⟩

theorem Stuck.unawaited {s : State} (stuck : Stuck s) : ¬Awaited (main s) := by
  obtain ⟨⟨_, clear, quiet⟩, waiting⟩ := main_stuck stuck
  intro awaited
  have expected := awaited.1 waiting clear
  rcases quiet with air | air <;> rw [air] at expected <;> simp at expected

/-- When the action after a stuck state's run is main's, the run is seen to wait in vain. -/
theorem stuck_unawaited {s t : State} {actions : List Action} (stuck : Stuck s)
    (reached : execute step s actions = some t) :
    ¬Always step Awaited s (actions ++ [.main]) := by
  intro always
  have later : Stuck t := invariant_of_step stuck_stays stuck reached
  have final : execute step s (actions ++ [.main]) = some (main t) :=
    execute_append_of_execute step _ reached
  exact later.unawaited (always.final final)

/-- Where main never waits in vain, no send was refused and no transmission timed out. -/
theorem completes_of_awaited {s t : State} {actions : List Action} (paired : Paired s)
    (reached : execute step s actions = some t)
    (always : Always step Awaited s (actions ++ [.main])) :
    ∀ action ∈ actions, Completes action := by
  induction actions generalizing s with
  | nil => simp
  | cons action rest ih =>
      rw [execute_cons, Option.bind_eq_some_iff] at reached
      obtain ⟨next, taken, reached⟩ := reached
      have later := always.2 next taken
      have completes : Completes action := by
        apply Decidable.byContradiction
        intro fails
        exact stuck_unawaited (step_stuck paired fails taken) reached later
      have kept := step_paired s action next paired completes taken
      rw [List.forall_mem_cons]
      exact ⟨completes, ih kept reached later⟩

/-- In every state of a run, up to the one main's next statement leads to, main waits only
for what can come, exactly when every send was accepted and every transmission completed. -/
theorem awaited_iff_completes (actions : List Action) (s : State)
    (reached : execute step start actions = some s) :
    Always step Awaited start (actions ++ [.main]) ↔ ∀ action ∈ actions, Completes action := by
  have initial : Paired start := ⟨rfl, rfl⟩
  constructor
  · exact completes_of_awaited initial reached
  · intro all
    have completes : ∀ action ∈ actions ++ [.main], Completes action := by
      intro action member
      rcases List.mem_append.mp member with earlier | last
      · exact all action earlier
      · rw [List.mem_singleton.mp last]
        trivial
    have always := always_of_meets step_paired initial (meets_of_forall step start completes)
    exact always.mono fun _ => Paired.awaited

/-- Two packets that are relayed, and one that the driver refuses. -/
theorem awaited_iff_completes_once :
    Always step Awaited start (relaying 1 ++ relaying 2 ++ [.main]) ∧
      ¬Always step Awaited start
        (.rx [1] :: List.replicate 5 .main ++ [.refuse, .main] ++ [.main]) :=
  ⟨(awaited_iff_completes (relaying 1 ++ relaying 2) _ rfl).mpr (by decide),
    fun always => absurd ((awaited_iff_completes
      (.rx [1] :: List.replicate 5 .main ++ [.refuse, .main]) _ rfl).mp always) (by decide)⟩

/-- A refused send is followed by a wait for the end of a transmission that never began. -/
theorem refused_send_waits :
    ¬ ∀ (actions : List Action) (s : State), execute step start actions = some s →
      Awaited s := by
  intro claim
  have awaited := claim (.rx [1] :: List.replicate 5 .main ++ [.refuse, .main]) _ rfl
  exact absurd awaited (by decide)

end RiotNyAlesund.Relay
