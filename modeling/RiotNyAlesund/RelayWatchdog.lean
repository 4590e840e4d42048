import RiotNyAlesund.Relay
import RiotNyAlesund.Transition

set_option autoImplicit false

/- The relay with the watchdog that main starts. Once started it runs until it resets the
board. -/
namespace RiotNyAlesund.Relay.Watchdog

open Transition

/-- MAX_TIME of wdt_setup_reboot, in ms. -/
def maxTime : Nat := 8000

/-- `elapsed` counts the ms since the last wdt_start or wdt_kick, and `reboots` the resets. -/
structure Board where
  relay : State
  running : Bool
  elapsed : Nat
  reboots : Nat

inductive Event
  | act (action : Action)
  | millisecond
  deriving DecidableEq, Repr

/-- The board as it comes up after the given number of resets. -/
def boot (reboots : Nat) : Board := ⟨Relay.start, false, 0, reboots⟩

/-- main executes wdt_start. -/
def Starts (s : State) (action : Action) : Prop := action = .main ∧ s.pc = .wdtStart

/-- main executes wdt_kick. -/
def Kicks (s : State) (action : Action) : Prop := action = .main ∧ s.pc = .wdtKick

instance (s : State) (action : Action) : Decidable (Starts s action) :=
  inferInstanceAs (Decidable (_ ∧ _))

instance (s : State) (action : Action) : Decidable (Kicks s action) :=
  inferInstanceAs (Decidable (_ ∧ _))

def act (board : Board) (action : Action) : Option Board :=
  (Relay.step board.relay action).map fun relay =>
    { relay := relay
      running := board.running || decide (Starts board.relay action)
      elapsed := if Starts board.relay action ∨ Kicks board.relay action then 0
        else board.elapsed
      reboots := board.reboots }

def millisecond (board : Board) : Board :=
  if board.running then
    if board.elapsed + 1 < maxTime then { board with elapsed := board.elapsed + 1 }
    else boot (board.reboots + 1)
  else board

def step (board : Board) : Event → Option Board
  | .act action => act board action
  | .millisecond => some (millisecond board)

def inTestSend : Pc → Bool
  | .captureLen | .driverSend _ _ => true
  | _ => false

/-- main is inside test_send, or waits for the TX_COMPLETE of what it has sent. -/
def Transmitting (s : State) : Prop :=
  inTestSend s.pc = true ∨ (s.pc = .waitTx ∧ s.flagTxDone = false)

/-- test_send returns in time after wdt_start, and TX_COMPLETE arrives in time after the
wdt_kick. -/
def Punctual (board : Board) : Event → Prop
  | .act _ => True
  | .millisecond => Transmitting board.relay → board.elapsed + 1 < maxTime

/-- With a packet relayed since the board came up, no time passes elsewhere either that
brings it up to `maxTime`. -/
def Timely (board : Board) : Event → Prop
  | .act _ => True
  | .millisecond => ¬Transmitting board.relay → board.relay.handed ≠ [] →
      board.elapsed + 1 < maxTime

instance (s : State) : Decidable (Transmitting s) := inferInstanceAs (Decidable (_ ∨ _))

instance (board : Board) (event : Event) : Decidable (Punctual board event) := by
  unfold Punctual
  split <;> infer_instance

instance (board : Board) (event : Event) : Decidable (Timely board event) := by
  unfold Timely
  split <;> infer_instance

/-- The watchdog runs from the first wdt_start on, and each pass of the loop hands a packet
over. -/
def Running (s : State) (running : Bool) : Prop :=
  match s.pc with
  | .head | .configure | .setIq | .wdtStart => running = true ↔ s.handed ≠ []
  | .captureLen | .driverSend _ _ => running = true
  | _ => running = true ∧ s.handed ≠ []

theorem sent_running {s : State} {running : Bool} (payload : List UInt8) (accepted : Bool)
    (on : running = true) : Running (sent s payload accepted) running := by
  refine ⟨on, ?_⟩
  rw [sent]
  exact List.append_ne_nil_of_right_ne_nil _ (List.cons_ne_nil _ _)

theorem main_running {s : State} {running : Bool} (kept : Running s running) :
    Running (main s) (running || decide (Starts s .main)) := by
  cases pc : s.pc <;> simp only [Running, pc] at kept
  case driverSend length read =>
    have quiet : ¬Starts s .main := by simp [Starts, pc]
    simp only [quiet, decide_false, Bool.or_false]
    by_cases more : read.length < length
    · simp only [main, pc, more, ↓reduceIte]
      exact kept
    · simp only [main, pc, more, ↓reduceIte]
      exact sent_running read true kept
  case head =>
    by_cases flag : s.flagMessageRecv = true <;> simpa [main, Running, Starts, pc, flag] using kept
  case waitTx =>
    by_cases done : s.flagTxDone = true <;> simpa [main, Running, Starts, pc, done] using kept
  case flip =>
    cases direction : s.transmissionDirection <;>
      simpa [main, Running, Starts, pc, direction] using kept
  case clearFlag =>
    simp [main, Running, Starts, pc, kept]
  all_goals simp [main, Running, Starts, pc, kept]

structure Sound (board : Board) : Prop where
  running : Running board.relay board.running
  elapsed : board.elapsed < maxTime

theorem boot_sound (reboots : Nat) : Sound (boot reboots) :=
  ⟨iff_of_false Bool.false_ne_true (fun nonempty => nonempty rfl), (by decide : 0 < 8000)⟩

theorem act_sound {board next : Board} {action : Action} (sound : Sound board)
    (taken : act board action = some next) : Sound next := by
  rw [act, Option.map_eq_some_iff] at taken
  obtain ⟨relay, moved, rfl⟩ := taken
  have positive : 0 < maxTime := by decide
  refine ⟨?_, by have := sound.elapsed; dsimp only; split <;> omega⟩
  have running := sound.running
  cases action with
  | rx data =>
      cases moved
      simp only [Starts, reduceCtorEq, false_and, decide_false, Bool.or_false]
      exact running
  | main =>
      cases moved
      exact main_running running
  | refuse =>
      obtain ⟨length, pc, rfl⟩ := refuse_eq_sent moved
      simp only [Running, pc] at running
      simp only [Starts, reduceCtorEq, false_and, decide_false, Bool.or_false]
      exact sent_running _ false running
  | txEnd | txExpire | txCallback =>
      obtain ⟨_, _, rfl⟩ := radio_eq (by simp) moved
      simp only [Starts, reduceCtorEq, false_and, decide_false, Bool.or_false]
      exact running

theorem millisecond_sound {board : Board} (sound : Sound board) : Sound (millisecond board) := by
  unfold millisecond
  split
  · split
    · rename_i early
      exact ⟨sound.running, early⟩
    · exact boot_sound _
  · exact sound

theorem step_sound (board : Board) (event : Event) (next : Board) (sound : Sound board)
    (taken : step board event = some next) : Sound next := by
  cases event with
  | act action => exact act_sound sound taken
  | millisecond =>
      cases taken
      exact millisecond_sound sound

/-- A transmission finds the watchdog running, and elsewhere it runs once a packet has been
handed over. -/
theorem Sound.running_iff {board : Board} (sound : Sound board) :
    board.running = true ↔ Transmitting board.relay ∨ board.relay.handed ≠ [] := by
  have running := sound.running
  cases pc : board.relay.pc <;> simp only [Running, pc] at running
  all_goals simp [Transmitting, inTestSend, pc, running]

/-- A step resets the board exactly where time passes that should not have. -/
theorem step_reboots (board : Board) (event : Event) (next : Board) (sound : Sound board)
    (taken : step board event = some next) :
    board.reboots ≤ next.reboots ∧
      (next.reboots = board.reboots ↔ Punctual board event ∧ Timely board event) := by
  cases event with
  | act action =>
      rw [step, act, Option.map_eq_some_iff] at taken
      obtain ⟨relay, _, rfl⟩ := taken
      exact ⟨Nat.le_refl _, iff_of_true rfl ⟨trivial, trivial⟩⟩
  | millisecond =>
      cases taken
      have running := sound.running_iff
      by_cases early : board.elapsed + 1 < maxTime
      · have kept : (millisecond board).reboots = board.reboots := by
          simp only [millisecond, early, ↓reduceIte]
          split <;> rfl
        rw [kept]
        exact ⟨Nat.le_refl _, iff_of_true rfl ⟨fun _ => early, fun _ _ => early⟩⟩
      · by_cases on : board.running = true
        · simp only [millisecond, on, early, ↓reduceIte, boot, Punctual, Timely]
          refine ⟨Nat.le_succ _, iff_of_false (Nat.succ_ne_self _) ?_⟩
          rintro ⟨punctual, timely⟩
          rcases running.mp on with transmitting | handed
          · exact punctual transmitting
          · exact timely punctual handed
        · have quiet := mt running.mpr on
          rw [not_or] at quiet
          simp only [millisecond, on, Bool.false_eq_true, ↓reduceIte]
          refine ⟨Nat.le_refl _, iff_of_true trivial ⟨?_, ?_⟩⟩
          · intro transmitting
            exact absurd transmitting quiet.1
          · intro _ handed
            exact absurd handed quiet.2

/-- A relay that waits for a packet for so long that the time since the last wdt_kick comes
up to `maxTime` is reset, if it has relayed a packet since it came up. -/
theorem idle_waits {board : Board} (sound : Sound board) (idle : Idle board.relay) (ms : Nat) :
    execute step board (List.replicate ms .millisecond) = some
      (if board.relay.handed = [] then board
        else if board.elapsed + ms < maxTime then { board with elapsed := board.elapsed + ms }
        else boot (board.reboots + 1)) := by
  have asleep : ¬Transmitting board.relay := by simp [Transmitting, inTestSend, idle.1]
  have running := sound.running_iff
  simp only [asleep, false_or] at running
  by_cases fresh : board.relay.handed = []
  · have off : board.running = false := by simpa [fresh] using running
    simp only [fresh, ↓reduceIte]
    induction ms with
    | zero => rfl
    | succ ms ih =>
        have taken : step board .millisecond = some board := by
          simp only [step, millisecond, off, Bool.false_eq_true, ↓reduceIte]
        rw [List.replicate_succ, execute_cons_of_step step _ taken, ih]
  · have on : board.running = true := running.mpr fresh
    simp only [fresh, ↓reduceIte]
    induction ms with
    | zero =>
        have early := sound.elapsed
        simp only [Nat.add_zero, early, ↓reduceIte, List.replicate_zero, execute]
    | succ ms ih =>
        rw [List.replicate_succ', execute_append_of_execute step _ ih]
        by_cases before : board.elapsed + ms < maxTime
        · by_cases early : board.elapsed + (ms + 1) < maxTime
          · simp only [before, early, ↓reduceIte, execute, step, millisecond, on,
              Option.bind_some, Nat.add_assoc]
          · simp only [before, early, ↓reduceIte, execute, step, millisecond, on,
              Option.bind_some, Nat.add_assoc]
        · have late : ¬board.elapsed + (ms + 1) < maxTime := by omega
          simp only [before, late, ↓reduceIte, execute, step, millisecond, boot, Option.bind_some,
            Bool.false_eq_true]

theorem idle_millisecond {board : Board} (idle : Idle board.relay) :
    Idle (millisecond board).relay := by
  unfold millisecond
  split
  · split
    · exact idle
    · exact ⟨rfl, rfl⟩
  · exact idle

/-- Waiting for a packet delays no transmission. -/
theorem idle_punctual {board : Board} (idle : Idle board.relay) (ms : Nat) :
    Meets step Punctual board (List.replicate ms .millisecond) := by
  induction ms generalizing board with
  | zero => trivial
  | succ ms ih =>
      rw [List.replicate_succ, meets_cons_of_step step _ (show step board .millisecond =
        some (millisecond board) from rfl)]
      refine ⟨fun transmitting => ?_, ih (idle_millisecond idle)⟩
      simp [Transmitting, inTestSend, idle.1] at transmitting

/-- When every test_send and every TX_COMPLETE is in time, the board is reset exactly by the
time that passes outside them, and of an idle relay exactly when it waits for too long. -/
theorem reboots_iff (events : List Event) (board : Board)
    (punctual : Meets step Punctual (boot 0) events)
    (reached : execute step (boot 0) events = some board) :
    (board.reboots = 0 ↔ Meets step Timely (boot 0) events) ∧
    (Idle board.relay → ∀ ms, execute step board (List.replicate ms .millisecond) = some
      (if board.relay.handed = [] then board
        else if board.elapsed + ms < maxTime then { board with elapsed := board.elapsed + ms }
        else boot (board.reboots + 1))) := by
  have sound : Sound board := invariant_of_step step_sound (boot_sound 0) reached
  have exact := (gauge_eq_iff_meets step_sound step_reboots (boot_sound 0) reached).2
  refine ⟨?_, fun idle ms => idle_waits sound idle ms⟩
  rw [meets_and] at exact
  exact exact.trans (and_iff_right punctual)

/-- A packet is relayed, with time passing inside test_send and while it is on air. -/
def timedPass : List Event :=
  .act (.rx [1]) :: List.replicate 6 (.act .main) ++ [.millisecond] ++
    List.replicate 2 (.act .main) ++ [.millisecond, .act .txEnd, .act .txCallback] ++
    List.replicate 5 (.act .main)

/-- One ms has passed since the wdt_kick: 7998 more reset nothing, one more than these does. -/
theorem reboots_iff_once :
    ∃ board, execute step (boot 0) timedPass = some board ∧
      Meets step Timely (boot 0) timedPass ∧
      execute step board (List.replicate 7998 .millisecond) =
        some { board with elapsed := board.elapsed + 7998 } ∧
      execute step board (List.replicate 7999 .millisecond) = some (boot 1) := by
  obtain ⟨board, reached, idle, handed, elapsed, fresh⟩ :
      ∃ board, execute step (boot 0) timedPass = some board ∧ Idle board.relay ∧
        board.relay.handed ≠ [] ∧ board.elapsed = 1 ∧ board.reboots = 0 :=
    ⟨_, rfl, by decide, by decide, rfl, rfl⟩
  obtain ⟨timely, waits⟩ := reboots_iff timedPass board (by decide) reached
  have before := waits idle 7998
  have after := waits idle 7999
  have limit : maxTime = 8000 := rfl
  rw [if_neg handed, if_pos (by omega)] at before
  rw [if_neg handed, if_neg (by omega), fresh] at after
  exact ⟨board, reached, timely.mp fresh, before, after⟩

/-- A relay that has relayed a packet and waits for the next one for eight seconds. -/
theorem idle_relay_reboots :
    ¬ ∀ (events : List Event) (board : Board), Meets step Punctual (boot 0) events →
      execute step (boot 0) events = some board → board.reboots = 0 := by
  intro claim
  let relayed : List Event := (relaying 1).map .act
  obtain ⟨board, reached, idle, handed, fresh⟩ : ∃ board, execute step (boot 0) relayed =
      some board ∧ Idle board.relay ∧ board.relay.handed ≠ [] ∧ board.elapsed = 0 :=
    ⟨_, rfl, by decide, by decide, by decide⟩
  have sound : Sound board := invariant_of_step step_sound (boot_sound 0) reached
  have waited := idle_waits sound idle maxTime
  simp only [handed, fresh, ↓reduceIte, Nat.zero_add, Nat.lt_irrefl] at waited
  have punctual : Meets step Punctual (boot 0)
      (relayed ++ List.replicate maxTime .millisecond) := by
    rw [meets_append step _ reached]
    exact ⟨by decide, idle_punctual idle maxTime⟩
  have clean := claim _ _ punctual (by rw [execute_append_of_execute step _ reached, waited])
  exact absurd clean (Nat.succ_ne_zero _)

end RiotNyAlesund.Relay.Watchdog
