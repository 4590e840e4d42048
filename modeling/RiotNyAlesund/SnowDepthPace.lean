import RiotNyAlesund.Pace
import RiotNyAlesund.SnowDepthStartup

set_option autoImplicit false

/-! The join and the uplinks of printer on a clock: ztimer_sleep keeps them apart. -/
namespace RiotNyAlesund.SnowDepth

open Transition Pace

/-- SEND_PERIOD*1000, in ms. -/
def sendPeriod : Nat := 300 * 1000

/-- The join that main succeeds in, or a call of semtech_loramac_send. -/
def joinsOrSends (s : State) : Action → Bool
  | .main ok => ok && s.main == .join
  | .printer _ => s.pc == .send
  | .rx _ => false

/-- printer and main with ztimer_sleep, on a clock in ms. -/
def sleeper : Sleeper State Action where
  step := step
  sleeps s := if s.pc = .asleep then some sendPeriod else none
  event := joinsOrSends

/-- printer has slept in this cycle and has not sent yet. -/
def Pc.Slept : Pc → Prop
  | .powerUp | .receive | .getOne | .send => True
  | _ => False

instance (pc : Pc) : Decidable pc.Slept := by
  unfold Pc.Slept
  split <;> infer_instance

/-- How often main has joined. -/
def MainPc.joins : MainPc → Nat
  | .unlock | .asleep => 1
  | _ => 0

theorem sleeps_eq_none {s : State} (awake : s.pc ≠ .asleep) : sleeper.sleeps s = none := by
  simp only [sleeper, awake, ↓reduceIte]

/-- A joined main stays joined. -/
theorem step_joined (s : State) (action : Action) (t : State) (joined : Joined s)
    (taken : step s action = some t) : Joined t := by
  cases action with
  | rx data =>
      obtain ⟨_, rfl⟩ := rx_eq taken
      rw [Joined, rxCb_main]
      exact joined
  | printer ok =>
      rw [Joined, (printer_main taken).1]
      exact joined
  | main ok =>
      rcases joined with stage | stage <;> simp only [step, main, stage] at taken <;> cases taken
      exact Or.inr rfl

/-- A printer that is past the mutex works for a main that has joined. -/
theorem Gated.joined {s : State} (gated : Gated s) (active : ¬s.pc.Waiting) : Joined s := by
  have released : ¬s.main.Holding := fun holding => active (gated.held holding).2
  cases stage : s.main
  case lock =>
    have absent : s.pc = .absent := gated.ordered.absent (by rw [stage]; trivial)
    exact absurd (by rw [absent]; trivial) active
  case asleep => exact Or.inr stage
  all_goals
    rw [stage] at released
    exact absurd trivial released

theorem Pc.Slept.active {pc : Pc} (slept : pc.Slept) : ¬pc.Waiting := by
  cases pc <;> simp [Pc.Slept, Pc.Waiting] at slept ⊢

/-- printer's steps to a state after its sleep. -/
theorem printer_slept {s t : State} {ok : Bool} (taken : printer s ok = some t)
    (slept : t.pc.Slept) : s.pc.Slept ∨ (s.pc = .asleep ∧ t.pc = .powerUp) := by
  cases pc : s.pc <;> simp only [printer, pc] at taken
  case absent => cases taken
  case lock =>
    simp only [Option.ite_none_left_eq_some, Option.some.injEq] at taken
    obtain ⟨_, rfl⟩ := taken
    exact absurd slept id
  case asleep =>
    cases taken
    exact Or.inr ⟨rfl, rfl⟩
  case powerUp | receive | getOne | send => exact Or.inl trivial
  all_goals
    cases taken
    exact absurd slept id

theorem printer_payloads {s t : State} {ok : Bool} (taken : printer s ok = some t) :
    t.payloads.length = s.payloads.length + if s.pc == .send then 1 else 0 := by
  cases pc : s.pc <;> simp only [printer, pc] at taken
  case absent => cases taken
  case lock =>
    simp only [Option.ite_none_left_eq_some, Option.some.injEq] at taken
    obtain ⟨_, rfl⟩ := taken
    rfl
  case receive =>
    obtain ⟨queue, msg, _, _, rfl⟩ := receive_eq taken
    rfl
  case getOne =>
    cases taken
    rw [getOne_payloads]
    rfl
  case send =>
    cases taken
    exact List.length_append
  all_goals
    cases taken
    rfl

theorem main_joins {s t : State} {ok : Bool} (taken : main s ok = some t) :
    t.main.joins = s.main.joins + (if ok && s.main == .join then 1 else 0) ∧
      t.payloads = s.payloads := by
  cases stage : s.main <;> simp only [main, stage] at taken
  case lock =>
    simp only [Option.ite_none_left_eq_some, Option.some.injEq] at taken
    obtain ⟨_, rfl⟩ := taken
    cases ok <;> exact ⟨rfl, rfl⟩
  case asleep | failed => cases taken
  all_goals
    cases taken
    cases ok <;> exact ⟨rfl, rfl⟩

/-- Only main's join changes whether main has joined, and only printer's send the payloads. -/
theorem step_counts (s : State) (action : Action) (t : State)
    (taken : step s action = some t) :
    t.main.joins + t.payloads.length =
      s.main.joins + s.payloads.length + if joinsOrSends s action then 1 else 0 := by
  cases action with
  | rx data =>
      obtain ⟨_, rfl⟩ := rx_eq taken
      rw [rxCb_main, rxCb_payloads]
      rfl
  | printer ok =>
      rw [(printer_main taken).1, printer_payloads taken, Nat.add_assoc]
      rfl
  | main ok =>
      obtain ⟨joins, payloads⟩ := main_joins taken
      rw [joins, payloads, Nat.add_right_comm]
      rfl

/-- printer sends in a cycle that it began with a sleep, for a main that has joined before. -/
theorem printer_rests {s t : State} {ok : Bool} (gated : Gated s)
    (taken : printer s ok = some t) (sends : s.pc = .send) :
    sleeper.sleeps s = none ∧ s.pc.Slept ∧ Joined t ∧ ¬t.pc.Slept := by
  have joined : Joined s := gated.joined (by rw [sends]; exact id)
  refine ⟨sleeps_eq_none (by rw [sends]; exact Pc.noConfusion), by rw [sends]; trivial, ?_, ?_⟩
  · rw [Joined, (printer_main taken).1]
    exact joined
  · simp only [printer, sends, Option.some.injEq] at taken
    rw [← taken]
    exact id

/-- While main joins printer waits for the mutex. -/
theorem join_rests {s t : State} (gated : Gated s) (taken : main s true = some t)
    (joins : s.main = .join) :
    sleeper.sleeps s = none ∧ ¬Joined s ∧ Joined t ∧ ¬t.pc.Slept := by
  have waiting : s.pc.Waiting := (gated.held (by rw [joins]; trivial)).2
  simp only [main, joins, ↓reduceIte, Option.some.injEq] at taken
  subst taken
  refine ⟨sleeps_eq_none ?_, ?_, Or.inl rfl, fun slept => slept.active waiting⟩
  · intro asleep
    rw [asleep] at waiting
    exact waiting
  · rintro (stage | stage) <;> rw [joins] at stage <;> cases stage

theorem sleeper_rests :
    Rests sleeper sendPeriod Gated (fun s => ¬Joined s) (fun s => s.pc.Slept) where
  keeps := step_gated
  event := by
    intro s action t gated taken event
    cases action with
    | rx data => cases event
    | printer ok =>
        have sends : s.pc = .send := eq_of_beq event
        obtain ⟨awake, slept, joined, tired⟩ := printer_rests gated taken sends
        exact ⟨awake, Or.inr slept, not_not_intro joined, tired⟩
    | main ok =>
        have both : ok = true ∧ (s.main == .join) = true := (Bool.and_eq_true_iff).mp event
        obtain ⟨rfl, joins⟩ := both
        obtain ⟨awake, unjoined, joined, tired⟩ := join_rests gated taken (eq_of_beq joins)
        exact ⟨awake, Or.inl unjoined, not_not_intro joined, tired⟩
  stale := fun s action t _ taken _ unjoined joined =>
    unjoined (step_joined s action t joined taken)
  sleep := by
    intro s action t gated taken quiet slept
    cases action with
    | rx data =>
        obtain ⟨_, rfl⟩ := rx_eq taken
        rw [rxCb_pc] at slept
        exact Or.inl slept
    | printer ok =>
        rcases printer_slept taken slept with before | ⟨asleep, awake⟩
        · exact Or.inl before
        · refine Or.inr ⟨sendPeriod, Nat.le_refl _, ?_, ?_⟩
          · simp only [sleeper, asleep, ↓reduceIte]
          · exact sleeps_eq_none (by rw [awake]; exact Pc.noConfusion)
    | main ok =>
        left
        rcases main_cases taken with ⟨_, rfl⟩ | ⟨_, rfl⟩ | ⟨_, _, _, rfl⟩
        · exact slept
        · exact absurd slept id
        · exact slept

/-- However printer, main, the interrupts and the clock interleave, the uplinks and the join
before them are at least SEND_PERIOD apart: no stretch of time holds more of them than that
allows, and the uplinks so far have taken a SEND_PERIOD each. -/
theorem uplinks_paced (actions : List (Pace.Action Action)) (s : Timed State)
    (reached : execute (run sleeper) (begin start) actions = some s) :
    s.marks.length = s.inner.main.joins + s.inner.payloads.length ∧
      Spaced sendPeriod s.marks ∧
      (∀ first length, (window first length s.marks).length ≤ length / sendPeriod + 1) ∧
      s.inner.payloads.length * sendPeriod ≤ s.now := by
  have paced := sleeper_rests.paced start_gated reached
  have counted := marks_length (m := sleeper) step_counts rfl reached
  refine ⟨counted, paced.spaced, fun first length => ?_, ?_⟩
  · exact paced.spaced.window_length (by decide) first length
  · have elapsed := paced.elapsed
    rw [counted] at elapsed
    by_cases done : s.inner.main = .asleep
    · rwa [done, MainPc.joins, Nat.add_sub_cancel_left] at elapsed
    · rw [(paced.inner.before done).payloads]
      exact Nat.zero_mul _ ▸ Nat.zero_le _

/-- The first cycle, with nine empty lines from the sensor. -/
def firstUplink : List (Pace.Action Action) :=
  List.replicate 6 (.act (.main true)) ++ List.replicate 3 (.act (.printer true)) ++
    [.pass sendPeriod, .act (.printer true), .act (.printer true)] ++
    (List.replicate 9 [.act (.rx cr), .act (.printer true), .act (.printer true)]).flatten ++
    [.act (.printer true)]

theorem uplinks_paced_once :
    ∃ s, execute (run sleeper) (begin start) firstUplink = some s ∧
      s.marks = [0, 300000] ∧
      s.marks.length = s.inner.main.joins + s.inner.payloads.length ∧
      Spaced sendPeriod s.marks ∧
      (∀ first length, (window first length s.marks).length ≤ length / sendPeriod + 1) ∧
      s.inner.payloads.length * sendPeriod ≤ s.now :=
  ⟨_, rfl, rfl, uplinks_paced firstUplink _ rfl⟩

end RiotNyAlesund.SnowDepth
