import RiotNyAlesund.GpsBaseRuns
import RiotNyAlesund.Silence

set_option autoImplicit false

/-! The base station with every pass of main's loop, flush included, taken as one step. -/
namespace RiotNyAlesund.Gps.Base

open Transition

/-- What decides that a tick flushes the buffer. -/
def Flushes (s : State) : Prop := 0 < s.compteurin ∧ s.compteurin = s.oldcompteurin

instance (s : State) : Decidable (Flushes s) := inferInstanceAs (Decidable (_ ∧ _))

/-- The whole loop body of main after one wake-up. -/
def tick (s : State) : State :=
  if 0 < s.compteurin then
    if s.compteurin = s.oldcompteurin then
      { s with
        compteurin := 0
        oldcompteurin := leftOver s.oldcompteurin s.compteurin
        indice := s.compteurin / sx127xLoraMsgQueue * sx127xLoraMsgQueue
        sent := s.sent ++ Cells.pieces s.message sx127xLoraMsgQueue s.compteurin }
    else { s with oldcompteurin := s.compteurin }
  else s

inductive Event
  | uart (val : UInt8)
  | tick
  deriving DecidableEq, Repr

/-- The station with every tick taken as one step. -/
def react (s : State) : Event → State
  | .uart val => rstxThread s val
  | .tick => tick s

def run (s : State) (events : List Event) : State := events.foldl react s

/-- A tick that does not flush is a few accesses of main. -/
theorem tick_eq_main {s : State} (asleep : s.pc = .asleep) (waits : ¬Flushes s) :
    ∃ count, execute step s (List.replicate count .main) = some (tick s) := by
  obtain ⟨message, compteurin, oldcompteurin, indice, pc, accepted, sent⟩ := s
  cases asleep
  by_cases arrived : 0 < compteurin
  · have changed : ¬compteurin = oldcompteurin := fun same => waits ⟨arrived, same⟩
    refine ⟨4, ?_⟩
    simp [List.replicate, execute, step, main, tick, arrived, changed]
  · refine ⟨2, ?_⟩
    simp [List.replicate, execute, step, main, tick, arrived]

/-- A tick that flushes is a flush that nothing disturbs, whatever replies its sends get. -/
theorem tick_eq_flush {s : State} (asleep : s.pc = .asleep) (flushes : Flushes s)
    (bounded : s.compteurin ≤ bufsize) :
    ∃ first, execute step s (List.replicate 3 .main) = some first ∧ Flushing first ∧
      ∀ flush t, (∀ action ∈ flush, Undisturbed action) → execute step first flush = some t →
        ¬InFlush t → { t with pc := .asleep } = tick s := by
  obtain ⟨arrived, silent⟩ := flushes
  have reached : execute step s (List.replicate 3 .main) = some { s with pc := .announce } := by
    obtain ⟨message, compteurin, oldcompteurin, indice, pc, accepted, sent⟩ := s
    cases asleep
    cases silent
    simp only [List.replicate, execute, step, main, arrived, ↓reduceIte, Option.bind_some]
  have starts : Going { s with pc := .announce } { s with pc := .announce } :=
    start_going rfl arrived bounded
  refine ⟨_, reached, starts.flushing, ?_⟩
  intro flush t undisturbed ran outside
  have met := meets_of_forall step { s with pc := .announce } undisturbed
  have going := invariant step_going starts met ran
  obtain ⟨sent, none, old, indice⟩ := going.ended outside
  have message := going.message
  have accepted := going.accepted
  obtain ⟨_, _, _, _, _, _, _⟩ := t
  dsimp only at sent none old indice message accepted
  subst sent none old indice message accepted
  rw [tick, if_pos arrived, if_pos silent, asleep]

/-- main on its own takes each tick back to sleep. -/
theorem tick_ends {s : State} (asleep : s.pc = .asleep) (bounded : s.compteurin ≤ bufsize) :
    ∃ count, execute step s (List.replicate count .main) = some (tick s) := by
  by_cases flushes : Flushes s
  · obtain ⟨first, reached, flushing, ends⟩ := tick_eq_flush asleep flushes bounded
    obtain ⟨count, t, ran, outside⟩ := flush_ends flushing
    have alone := mains_undisturbed count
    have result := ends _ t alone ran outside
    have met := meets_of_forall step first alone
    have knows := (invariant step_flushing flushing met ran).knows
    have whole : execute step s (List.replicate (3 + count) .main) = some t := by
      rw [List.replicate_add, execute_append_of_execute step _ reached, ran]
    cases pc : t.pc <;> simp only [InFlush, Knows, pc, not_true_eq_false] at outside knows
    case asleep =>
      refine ⟨3 + count, ?_⟩
      rw [whole, ← result, ← pc]
    case testReceived =>
      refine ⟨3 + count + 1, ?_⟩
      have none : ¬0 < t.compteurin := by omega
      rw [List.replicate_add, execute_append_of_execute step _ whole, ← result]
      simp only [List.replicate, execute, step, main, pc, none, ↓reduceIte, Option.bind_some]
  · exact tick_eq_main asleep flushes

theorem react_asleep {s : State} (event : Event) (asleep : s.pc = .asleep)
    (bounded : s.compteurin ≤ bufsize) :
    (react s event).pc = .asleep ∧ (react s event).compteurin ≤ bufsize := by
  cases event with
  | uart val =>
      simp only [react]
      by_cases room : s.compteurin < bufsize
      · simp only [rstxThread, room, ↓reduceIte]
        exact ⟨asleep, room⟩
      · simp only [rstxThread, room, ↓reduceIte]
        exact ⟨asleep, bounded⟩
  | tick =>
      simp only [react]
      unfold tick
      split
      · split
        · exact ⟨asleep, Nat.zero_le _⟩
        · exact ⟨asleep, bounded⟩
      · exact ⟨asleep, bounded⟩

/-- A run by whole ticks is a run by accesses in which no UART byte disturbs a pass of the
loop. -/
theorem run_eq_execute {s : State} (events : List Event) (asleep : s.pc = .asleep)
    (bounded : s.compteurin ≤ bufsize) :
    ∃ actions, execute step s actions = some (run s events) := by
  induction events generalizing s with
  | nil => exact ⟨[], rfl⟩
  | cons event rest ih =>
      obtain ⟨still, within⟩ := react_asleep event asleep bounded
      obtain ⟨later, finished⟩ := ih still within
      cases event with
      | uart val => exact ⟨.uart val :: later, finished⟩
      | tick =>
          obtain ⟨count, body⟩ := tick_ends asleep bounded
          refine ⟨List.replicate count .main ++ later, ?_⟩
          rw [execute_append_of_execute step later body]
          exact finished

/-- `fresh` counts the bytes accepted since the last tick, and `found` is the count that tick
found. `flushed` is the length of the last flush, until a tick finds bytes again. -/
structure Observed where
  station : State
  fresh : Nat
  found : Nat
  flushed : Option Nat

def observed : Observed := ⟨start, 0, 0, none⟩

def observeUart (o : Observed) (val : UInt8) : Observed where
  station := rstxThread o.station val
  fresh := o.fresh + if o.station.compteurin < bufsize then 1 else 0
  found := o.found
  flushed := o.flushed

def observeTick (o : Observed) : Observed where
  station := tick o.station
  fresh := 0
  found := o.station.compteurin
  flushed := if Flushes o.station then some o.station.compteurin
    else if 0 < o.station.compteurin then none else o.flushed

def observe (o : Observed) : Event → Option Observed
  | .uart val => some (observeUart o val)
  | .tick => some (observeTick o)

/-- A flush starts only when no byte was accepted since the last tick, which found as many. -/
def Settled (o : Observed) : Event → Prop
  | .uart _ => True
  | .tick => Flushes o.station → o.fresh = 0 ∧ o.found = o.station.compteurin

/-- After a flush of a multiple of the chunk, the first tick that finds bytes does not find
as many as were flushed. -/
def Unlike (o : Observed) : Event → Prop
  | .uart _ => True
  | .tick => 0 < o.station.compteurin → ∀ count, o.flushed = some count →
      count % sx127xLoraMsgQueue = 0 → o.station.compteurin ≠ count

instance (o : Observed) (event : Event) : Decidable (Settled o event) := by
  unfold Settled
  split <;> infer_instance

instance (o : Observed) (event : Event) : Decidable (Unlike o event) :=
  match event with
  | .uart _ => isTrue trivial
  | .tick => decidable_of_iff (0 < o.station.compteurin → ∀ count ∈ o.flushed,
      count % sx127xLoraMsgQueue = 0 → o.station.compteurin ≠ count) Iff.rfl

/-- The station is a silence detector. -/
def detector (o : Observed) : Silence.Detector where
  count := o.station.compteurin
  recorded := o.station.oldcompteurin
  fresh := o.fresh
  found := o.found
  left := o.flushed.map fun count => leftOver count count

theorem detector_uart (o : Observed) (val : UInt8) :
    detector (observeUart o val) =
      Silence.arrive (detector o) (if o.station.compteurin < bufsize then 1 else 0) := by
  by_cases room : o.station.compteurin < bufsize <;>
    simp only [detector, observeUart, Silence.arrive, rstxThread, room, ↓reduceIte, Nat.add_zero]

theorem detector_tick (o : Observed) :
    detector (observeTick o) =
      Silence.look (fun count => leftOver count count) (detector o) := by
  by_cases arrived : 0 < o.station.compteurin
  · by_cases same : o.station.compteurin = o.station.oldcompteurin
    · have fires : Silence.Fires (detector o) := ⟨arrived, same.symm⟩
      have flushes : Flushes o.station := ⟨arrived, same⟩
      rw [Silence.look_fires _ fires]
      simp only [detector, observeTick, tick, flushes, arrived, ↓reduceIte, Option.map_some]
      simp only [same, ↓reduceIte]
    · have changed : (detector o).recorded ≠ (detector o).count := Ne.symm same
      have waits : ¬Flushes o.station := fun flushes => same flushes.2
      rw [Silence.look_records _ arrived changed]
      simp only [detector, observeTick, tick, waits, arrived, same, ↓reduceIte, Option.map_none]
  · have waits : ¬Flushes o.station := fun flushes => arrived flushes.1
    have none : o.station.compteurin = 0 := by omega
    rw [Silence.look_idle _ arrived]
    simp only [detector, observeTick, tick, waits, none, Nat.lt_irrefl, ↓reduceIte]

theorem observe_sound (o : Observed) (event : Event) (next : Observed)
    (sound : Silence.Sound (detector o)) (taken : observe o event = some next) :
    Silence.Sound (detector next) := by
  cases event with
  | uart val =>
      cases taken
      rw [detector_uart]
      exact Silence.arrive_sound _ sound
  | tick =>
      cases taken
      rw [detector_tick]
      exact Silence.look_sound _ sound

/-- What a flush leaves in `oldcompteurin` matters only when it is not reset. -/
theorem unlike_iff_distinct (o : Observed) :
    Unlike o .tick ↔ Silence.Distinct (detector o) := by
  have reset : ∀ count, o.station.compteurin ≠ leftOver count count ↔
      (count % sx127xLoraMsgQueue = 0 → o.station.compteurin ≠ count) ∧
        (count % sx127xLoraMsgQueue ≠ 0 → o.station.compteurin ≠ 0) := by
    intro count
    by_cases multiple : count % sx127xLoraMsgQueue = 0 <;> simp [leftOver, multiple]
  cases flushed : o.flushed with
  | none => simp [Unlike, Silence.Distinct, detector, flushed]
  | some count =>
      simp only [Unlike, Silence.Distinct, detector, flushed, Option.map_some, Option.some.injEq,
        forall_eq', reset]
      constructor
      · intro unlike arrived
        exact ⟨unlike arrived, fun _ => Nat.ne_of_gt arrived⟩
      · intro distinct arrived
        exact (distinct arrived).1

theorem settled_iff_unlike (o : Observed) (event : Event)
    (sound : Silence.Sound (detector o)) : Settled o event ↔ Unlike o event := by
  cases event with
  | uart val => exact Iff.rfl
  | tick =>
      have same : Settled o .tick ↔ Silence.Silent (detector o) := by
        simp only [Settled, Silence.Silent, Silence.Fires, Flushes, detector]
        rw [eq_comm (a := o.station.compteurin) (b := o.station.oldcompteurin)]
      rw [same, unlike_iff_distinct]
      exact Silence.silent_iff_distinct sound

/-- Every flush of a run starts in silence exactly when after each flush of a multiple of the
chunk the first tick that finds bytes does not find as many again. -/
theorem flush_settled_iff (events : List Event) :
    Meets observe Settled observed events ↔ Meets observe Unlike observed events := by
  have initial : Silence.Sound (detector observed) := ⟨rfl, rfl⟩
  have any : Meets observe (fun _ _ => True) observed events :=
    meets_of_forall observe observed fun _ _ => trivial
  exact meets_congr (fun o event next sound _ taken => observe_sound o event next sound taken)
    (fun o event sound _ => settled_iff_unlike o event sound) initial any

/-- A burst of as many bytes as the last flush sent is cut at the first tick that finds it. -/
theorem second_burst_cut :
    ¬ ∀ events : List Event, Meets observe Settled observed events := by
  intro claim
  have settled := claim (List.replicate 64 (.uart 7) ++ [.tick, .tick] ++
    List.replicate 64 (.uart 8) ++ [.tick])
  exact absurd settled (by decide +kernel)

end RiotNyAlesund.Gps.Base
