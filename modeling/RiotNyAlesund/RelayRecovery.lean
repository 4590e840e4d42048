import RiotNyAlesund.RelayTuning
import RiotNyAlesund.RelayWatchdog

set_option autoImplicit false

/-! Runs of the relay across the resets of its watchdog. -/
namespace RiotNyAlesund.Relay.Watchdog

open Transition

/-- What the relay's steps preserve from its start on, resets do not break. -/
theorem board_invariant {good : State → Prop} (initial : good Relay.start)
    (keeps : ∀ s action t, good s → Relay.step s action = some t → good t)
    {events : List Event} {board : Board} {reboots : Nat}
    (reached : execute step (boot reboots) events = some board) : good board.relay := by
  have kept : ∀ board event next, good board.relay → step board event = some next →
      good next.relay := by
    intro board event next holds taken
    cases event with
    | act action =>
        rw [step, act, Option.map_eq_some_iff] at taken
        obtain ⟨relay, moved, rfl⟩ := taken
        exact keeps board.relay action relay holds moved
    | millisecond =>
        cases taken
        unfold millisecond
        split
        · split
          · exact holds
          · exact initial
        · exact holds
  exact invariant_of_step kept initial reached

/-- main waits for a TX_COMPLETE that nothing will cause, with the watchdog running. -/
structure Hung (board : Board) : Prop where
  stuck : Stuck board.relay
  waiting : board.relay.pc = .waitTx
  running : board.running = true

/-- Nothing that happens to a hung relay gets it going, or stops its watchdog. -/
theorem act_hung {board next : Board} {action : Action} (hung : Hung board)
    (taken : act board action = some next) :
    Hung next ∧ next.elapsed = board.elapsed ∧ next.reboots = board.reboots := by
  rw [act, Option.map_eq_some_iff] at taken
  obtain ⟨relay, moved, rfl⟩ := taken
  have starts : ¬Starts board.relay action := by simp [Starts, hung.waiting]
  have kicks : ¬Kicks board.relay action := by simp [Kicks, hung.waiting]
  have waiting : relay.pc = .waitTx := by
    cases action with
    | rx data =>
        cases moved
        exact hung.waiting
    | main =>
        cases moved
        exact (main_stuck hung.stuck).2
    | refuse =>
        obtain ⟨length, pc, rfl⟩ := refuse_eq_sent moved
        have elsewhere := hung.waiting
        rw [pc] at elsewhere
        cases elsewhere
    | txEnd | txExpire | txCallback =>
        obtain ⟨_, _, rfl⟩ := radio_eq (by simp) moved
        exact hung.waiting
  refine ⟨⟨stuck_stays _ _ _ hung.stuck moved, waiting, ?_⟩, ?_, rfl⟩
  · simp only [hung.running, Bool.true_or]
  · simp only [starts, kicks, or_self, ↓reduceIte]

theorem reboots_mono {board next : Board} {events : List Event} (sound : Sound board)
    (reached : execute step board events = some next) : board.reboots ≤ next.reboots :=
  (gauge_eq_iff_meets step_sound step_reboots sound reached).1

/-- A hung relay is reset by the millisecond that brings the time since its last wdt_kick up
to `maxTime`, whatever else happens meanwhile. -/
theorem hung_run {board next : Board} {later : List Event} (sound : Sound board)
    (hung : Hung board) (ran : execute step board later = some next) :
    (next.reboots = board.reboots ↔ board.elapsed + later.count .millisecond < maxTime) ∧
      (board.elapsed + later.count .millisecond < maxTime → Hung next ∧
        next.elapsed = board.elapsed + later.count .millisecond) := by
  induction later generalizing board with
  | nil =>
      cases ran
      exact ⟨iff_of_true rfl sound.elapsed, fun _ => ⟨hung, rfl⟩⟩
  | cons event rest ih =>
      rw [execute_cons, Option.bind_eq_some_iff] at ran
      obtain ⟨middle, taken, ran⟩ := ran
      have sound' := step_sound board event middle sound taken
      cases event with
      | act action =>
          obtain ⟨hung', elapsed, reboots⟩ := act_hung hung taken
          have later := ih sound' hung' ran
          rw [elapsed, reboots] at later
          rw [List.count_cons_of_ne Event.noConfusion]
          exact later
      | millisecond =>
          cases taken
          rw [List.count_cons_self]
          by_cases early : board.elapsed + 1 < maxTime
          · have passed : millisecond board = { board with elapsed := board.elapsed + 1 } := by
              simp only [millisecond, hung.running, early, ↓reduceIte]
            rw [passed] at ran sound'
            have later := ih sound' ⟨hung.stuck, hung.waiting, hung.running⟩ ran
            rw [Nat.add_right_comm, Nat.add_assoc] at later
            exact later
          · have reset : millisecond board = boot (board.reboots + 1) := by
              simp only [millisecond, hung.running, early, ↓reduceIte]
            rw [reset] at ran sound'
            have counted : board.reboots + 1 ≤ next.reboots := reboots_mono sound' ran
            exact ⟨iff_of_false (by omega) (by omega), fun short => by omega⟩

/-- Across refused sends, timeouts and resets, every packet that the relay hands over goes out
with the setting that it was heard with, and a relay that waits in vain is back at its start
exactly when the time since its last wdt_kick comes up to `maxTime`. -/
theorem relay_recovers (events : List Event) (board : Board)
    (reached : execute step (boot 0) events = some board) :
    (∀ call ∈ board.relay.handed, call.iq = call.heardIq) ∧
      (Stuck board.relay ∨ ∀ call ∈ board.relay.handed, call.accepted = true) ∧
      (Stuck board.relay → board.relay.pc = .waitTx →
        ∀ later next, execute step board later = some next →
          (next.reboots = board.reboots ↔
            board.elapsed + later.count .millisecond < maxTime) ∧
          (board.elapsed + later.count .millisecond + 1 = maxTime →
            step next .millisecond = some (boot (board.reboots + 1)))) := by
  have sound : Sound board := invariant_of_step step_sound (boot_sound 0) reached
  have tuned : Tuned board.relay := board_invariant start_tuned step_tuned reached
  have delivers : Delivers board.relay := board_invariant start_delivers step_delivers reached
  refine ⟨tuned.handed, ?_, ?_⟩
  · rcases delivers with ⟨_, accepted⟩ | stuck
    · exact Or.inr accepted
    · exact Or.inl stuck
  · intro stuck waiting later next ran
    have transmits : Transmitting board.relay := Or.inr ⟨waiting, stuck.2.1⟩
    have hung : Hung board := ⟨stuck, waiting, sound.running_iff.mpr (Or.inl transmits)⟩
    obtain ⟨exact, still⟩ := hung_run sound hung ran
    refine ⟨exact, fun last => ?_⟩
    obtain ⟨hung', elapsed⟩ := still (by omega)
    have late : ¬next.elapsed + 1 < maxTime := by omega
    have same := exact.mpr (by omega)
    simp only [step, millisecond, hung'.running, late, ↓reduceIte, same]

/-- A relay whose first send is refused. -/
def refusedRun : List Event :=
  .act (.rx [1]) :: List.replicate 5 (.act .main) ++ [.act .refuse, .act .main]

theorem relay_recovers_refused :
    ∃ board, execute step (boot 0) refusedRun = some board ∧ Stuck board.relay ∧
      ∀ later next, execute step board later = some next →
        (next.reboots = board.reboots ↔
          board.elapsed + later.count .millisecond < maxTime) := by
  obtain ⟨board, reached, stuck, waiting⟩ : ∃ board, execute step (boot 0) refusedRun =
      some board ∧ Stuck board.relay ∧ board.relay.pc = .waitTx :=
    ⟨_, rfl, by unfold Stuck; decide, rfl⟩
  exact ⟨board, reached, stuck, fun later next ran =>
    ((relay_recovers refusedRun board reached).2.2 stuck waiting later next ran).1⟩

end RiotNyAlesund.Relay.Watchdog
