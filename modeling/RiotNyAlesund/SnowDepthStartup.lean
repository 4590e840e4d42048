import RiotNyAlesund.SnowDepth
import RiotNyAlesund.Transition

set_option autoImplicit false

/-! The mutex keeps printer from its first cycle until main has joined the network. -/
namespace RiotNyAlesund.SnowDepth

open Transition

/-- printer has not taken the mutex. -/
def Pc.Waiting : Pc → Prop
  | .absent | .initQueue | .lock => True
  | _ => False

/-- main has taken the mutex and not released it. On a failed join it ends with it. -/
def MainPc.Holding : MainPc → Prop
  | .lock | .asleep => False
  | _ => True

/-- printer has neither powered the sensor up nor called semtech_loramac_send. -/
structure Inactive (s : State) : Prop where
  epoch : s.epoch = 0
  sensor : s.sensor = false
  payloads : s.payloads = []

instance (s : State) : Decidable (Inactive s) :=
  decidable_of_iff (s.epoch = 0 ∧ s.sensor = false ∧ s.payloads = [])
    ⟨fun ⟨epoch, sensor, payloads⟩ => ⟨epoch, sensor, payloads⟩,
      fun idle => ⟨idle.epoch, idle.sensor, idle.payloads⟩⟩

theorem Inactive.carry {s t : State} (idle : Inactive s) (epoch : t.epoch = s.epoch)
    (sensor : t.sensor = s.sensor) (payloads : t.payloads = s.payloads) : Inactive t :=
  ⟨epoch.trans idle.epoch, sensor.trans idle.sensor, payloads.trans idle.payloads⟩

/-- semtech_loramac_join has returned SEMTECH_LORAMAC_JOIN_SUCCEEDED. -/
def Joined (s : State) : Prop := s.main = .unlock ∨ s.main = .asleep

instance (s : State) : Decidable (Joined s) := inferInstanceAs (Decidable (_ ∨ _))

/-- While main holds the mutex printer waits, and a waiting printer has done nothing. -/
structure Gated (s : State) : Prop where
  ordered : Ordered s
  held : s.main.Holding → s.locked = true ∧ s.pc.Waiting
  inactive : s.pc.Waiting → Inactive s

theorem start_gated : Gated start :=
  ⟨start_ordered, fun holding => holding.elim, fun _ => ⟨rfl, rfl, rfl⟩⟩

theorem printer_gated {s t : State} {ok : Bool} (gated : Gated s)
    (taken : printer s ok = some t) : Gated t := by
  have step_taken : step s (.printer ok) = some t := taken
  have ordered := step_ordered s _ t gated.ordered step_taken
  obtain ⟨same, present, _⟩ := printer_main taken
  obtain ⟨_, held, inactive⟩ := gated
  cases pc : s.pc <;> simp only [printer, pc] at taken <;>
    simp only [pc, Pc.Waiting, and_true, and_false, imp_false, forall_const] at held inactive
  case absent => cases taken
  case initQueue =>
    cases taken
    exact ⟨ordered, fun holding => ⟨held holding, trivial⟩,
      fun _ => ⟨inactive.epoch, rfl, inactive.payloads⟩⟩
  case lock =>
    simp only [Option.ite_none_left_eq_some, Option.some.injEq] at taken
    obtain ⟨free, rfl⟩ := taken
    exact ⟨ordered, fun holding => absurd (held holding) free, fun waiting => waiting.elim⟩
  case receive =>
    obtain ⟨queue, msg, _, _, rfl⟩ := receive_eq taken
    exact ⟨ordered, fun holding => absurd holding held, fun waiting => waiting.elim⟩
  case getOne =>
    cases taken
    have moved : ¬(getOne s).pc.Waiting := by
      rw [getOne_pc, pc]
      split
      · split <;> exact id
      · exact id
    refine ⟨ordered, ?_, fun waiting => absurd waiting moved⟩
    rw [same]
    exact fun holding => absurd holding held
  all_goals
    cases taken
    exact ⟨ordered, fun holding => absurd holding held, fun waiting => waiting.elim⟩

theorem main_gated {s t : State} {ok : Bool} (gated : Gated s) (taken : main s ok = some t) :
    Gated t := by
  have step_taken : step s (.main ok) = some t := taken
  have ordered := step_ordered s _ t gated.ordered step_taken
  obtain ⟨before, held, inactive⟩ := gated
  cases stage : s.main <;> simp only [main, stage] at taken <;>
    simp only [stage, MainPc.Holding, forall_const, false_implies] at held
  case lock =>
    have absent : s.pc = .absent := before.absent (by rw [stage]; trivial)
    simp only [Option.ite_none_left_eq_some, Option.some.injEq] at taken
    obtain ⟨_, rfl⟩ := taken
    exact ⟨ordered, fun _ => ⟨rfl, by rw [absent]; trivial⟩,
      fun waiting => (inactive waiting).carry rfl rfl rfl⟩
  case createPrinter =>
    cases taken
    exact ⟨ordered, fun _ => ⟨held.1, trivial⟩, fun _ => (inactive held.2).carry rfl rfl rfl⟩
  case unlock =>
    cases taken
    exact ⟨ordered, fun holding => holding.elim,
      fun waiting => (inactive waiting).carry rfl rfl rfl⟩
  case asleep | failed => cases taken
  all_goals
    cases taken
    exact ⟨ordered, fun _ => held, fun waiting => (inactive waiting).carry rfl rfl rfl⟩

theorem step_gated (s : State) (action : Action) (t : State) (gated : Gated s)
    (taken : step s action = some t) : Gated t := by
  cases action with
  | rx data =>
      have ordered := step_ordered s _ t gated.ordered taken
      obtain ⟨_, rfl⟩ := rx_eq taken
      refine ⟨ordered, ?_, ?_⟩
      · have locked : (rxCb s data).locked = s.locked := by simp only [rxCb]
        rw [rxCb_main, rxCb_pc, locked]
        exact gated.held
      · rw [rxCb_pc]
        intro waiting
        exact (gated.inactive waiting).carry (rxCb_epoch s data) (rxCb_sensor s data)
          (rxCb_payloads s data)
  | printer ok => exact printer_gated gated taken
  | main ok => exact main_gated gated taken

/-- Before main is past the release of the mutex printer is inactive. -/
theorem Gated.before {s : State} (gated : Gated s) (awake : s.main ≠ .asleep) : Inactive s := by
  by_cases holding : s.main.Holding
  · exact gated.inactive (gated.held holding).2
  · have first : s.main = .lock := by
      cases stage : s.main <;> simp [stage, MainPc.Holding] at holding awake ⊢
    have absent : s.pc = .absent := gated.ordered.absent (by rw [first]; trivial)
    exact gated.inactive (by rw [absent]; trivial)

/-- Only a successful semtech_loramac_join makes main joined. -/
theorem joined_by {s t : State} {action : Action} (unjoined : ¬Joined s)
    (taken : step s action = some t) (joined : Joined t) :
    action = .main true ∧ s.main = .join := by
  cases action with
  | rx data =>
      obtain ⟨_, rfl⟩ := rx_eq taken
      rw [Joined, rxCb_main] at joined
      exact absurd joined unjoined
  | printer ok =>
      have same := (printer_main taken).1
      rw [Joined, same] at joined
      exact absurd joined unjoined
  | main ok =>
      cases stage : s.main <;> simp only [step, main, stage] at taken
      case lock =>
        simp only [Option.ite_none_left_eq_some, Option.some.injEq] at taken
        obtain ⟨_, rfl⟩ := taken
        simp [Joined] at joined
      case join =>
        cases taken
        cases ok <;> simp [Joined] at joined ⊢
      case unlock => exact absurd (Or.inl stage) unjoined
      case asleep | failed => cases taken
      all_goals
        cases taken
        simp [Joined] at joined

/-- A failed join is final. -/
theorem step_failed (s : State) (action : Action) (t : State) (failed : s.main = .failed)
    (taken : step s action = some t) : t.main = .failed := by
  cases action with
  | rx data =>
      obtain ⟨_, rfl⟩ := rx_eq taken
      rw [rxCb_main, failed]
  | printer ok => rw [(printer_main taken).1, failed]
  | main ok =>
      simp only [step, main, failed] at taken
      cases taken

/-- printer powers the sensor up and sends only after main's join has succeeded, and never
when it has failed. -/
theorem active_after_join (actions : List Action) (s : State)
    (reached : execute step start actions = some s) :
    (¬Inactive s → ∃ before after mid, actions = before ++ .main true :: after ∧
      execute step start before = some mid ∧ mid.main = .join ∧ Inactive mid) ∧
    (∀ before after mid, actions = before ++ .main false :: after →
      execute step start before = some mid → mid.main = .join → Inactive s) := by
  have gated : Gated s := invariant_of_step step_gated start_gated reached
  refine ⟨?_, ?_⟩
  · intro active
    have joined : Joined s := by
      apply Decidable.byContradiction
      intro unjoined
      exact active (gated.before fun asleep => unjoined (Or.inr asleep))
    obtain ⟨before, action, after, mid, next, split, came, unjoined, taken, entered⟩ :=
      Transition.entered (show ¬Joined start by decide) joined reached
    obtain ⟨rfl, joining⟩ := joined_by unjoined taken entered
    have earlier : Gated mid := invariant_of_step step_gated start_gated came
    exact ⟨before, after, mid, split, came, joining,
      earlier.before fun asleep => unjoined (Or.inr asleep)⟩
  · rintro before after mid rfl came joining
    have taken : step mid (.main false) = some { mid with main := .failed } := by
      simp only [step, main, joining, Bool.false_eq_true, ↓reduceIte]
    rw [execute_append_of_execute step _ came, execute_cons_of_step step _ taken] at reached
    have failed : s.main = .failed := invariant_of_step step_failed rfl reached
    exact gated.before (by rw [failed]; exact MainPc.noConfusion)

theorem active_after_join_once :
    ∃ s, execute step start (List.replicate 6 (.main true) ++ List.replicate 5 (.printer true)) =
        some s ∧
      (¬Inactive s → ∃ before after mid,
        List.replicate 6 (.main true) ++ List.replicate 5 (.printer true) =
          before ++ .main true :: after ∧
        execute step start before = some mid ∧ mid.main = .join ∧ Inactive mid) ∧
      (∀ before after mid,
        List.replicate 6 (.main true) ++ List.replicate 5 (.printer true) =
          before ++ .main false :: after →
        execute step start before = some mid → mid.main = .join → Inactive s) :=
  ⟨_, rfl, active_after_join
    (List.replicate 6 (.main true) ++ List.replicate 5 (.printer true)) _ rfl⟩

end RiotNyAlesund.SnowDepth
