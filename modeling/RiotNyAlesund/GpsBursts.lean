import RiotNyAlesund.Bursts
import RiotNyAlesund.GpsBaseTick
import RiotNyAlesund.GpsRoverTick

set_option autoImplicit false

/-! Both nodes on a clock: main and _rsrx_thread wake up once in a period, and bursts that keep
clear of it are sent and written one by one. A pass of main with its flush and a wake-up of
_rsrx_thread with its dump are one step each. -/

namespace RiotNyAlesund.Gps.Base

open Transition Bursts

/-- `interval` of main, in µs. A pass of the loop comes at most `longest` after the one before. -/
def rhythm (longest : Nat) : Rhythm := ⟨25600, longest⟩

/-- The station, with the clock and the bursts beside it. -/
structure Clocked where
  station : State
  watch : Watch UInt8

def clocked : Clocked := ⟨start, begin⟩

def handle (s : State) : Bursts.Action UInt8 → State
  | .pass _ => s
  | .arrive items => items.foldl rstxThread s
  | .look => tick s

def clockedStep (longest : Nat) (c : Clocked) (action : Bursts.Action UInt8) : Option Clocked :=
  (Bursts.step (rhythm longest) (fun count => leftOver count count) c.watch action).map fun watch =>
    ⟨handle c.station action, watch⟩

/-- The buffer has room for what arrives. -/
def Room (s : State) : Bursts.Action UInt8 → Prop
  | .arrive items => s.compteurin + items.length ≤ bufsize
  | .pass _ | .look => True

instance (s : State) (action : Bursts.Action UInt8) : Decidable (Room s action) :=
  match action with
  | .arrive items => inferInstanceAs (Decidable (s.compteurin + items.length ≤ bufsize))
  | .pass _ | .look => isTrue trivial

/-- The bytes come in bursts, and a burst fits the buffer. -/
def Fitting (longest : Nat) (c : Clocked) (action : Bursts.Action UInt8) : Prop :=
  Bursty (rhythm longest) c.watch action ∧ Room c.station action

instance (longest : Nat) (c : Clocked) (action : Bursts.Action UInt8) :
    Decidable (Fitting longest c action) := inferInstanceAs (Decidable (_ ∧ _))

/-- The packets that a burst is sent in. -/
def chunks (bytes : List UInt8) : List (List UInt8) :=
  Cells.pieces (fun index => bytes.getD index 0) sx127xLoraMsgQueue bytes.length

/-- The station does what the collector of its bytes does. -/
structure Gathers (s : State) (c : Collector UInt8) : Prop where
  counted : s.compteurin = c.held.length
  bytes : Cells.slice s.message 0 s.compteurin = c.held
  recorded : s.oldcompteurin = c.recorded
  sent : s.sent = c.out.flatMap chunks

/-- The pieces of the buffer are the chunks of the bytes in it. -/
theorem pieces_eq_chunks {message : Nat → UInt8} {count : Nat} {bytes : List UInt8}
    (counted : count = bytes.length) (stored : Cells.slice message 0 count = bytes) :
    Cells.pieces message sx127xLoraMsgQueue count = chunks bytes := by
  have cell : ∀ index < count, message index = bytes.getD index 0 := by
    intro index inside
    have inside' : index < (Cells.slice message 0 count).length := by rwa [Cells.slice_length]
    rw [List.getD_eq_getElem?_getD, ← stored, List.getElem?_eq_getElem inside', Option.getD_some]
    simp only [Cells.slice, List.getElem_map, List.getElem_range, Nat.zero_add]
  rw [chunks, ← counted]
  apply List.map_congr_left
  intro index _
  apply Cells.slice_congr
  intro offset short
  apply cell
  omega

theorem rstxThread_gathers {s : State} {c : Collector UInt8} (val : UInt8)
    (gathers : Gathers s c) (room : s.compteurin < bufsize) :
    Gathers (rstxThread s val) (c.arrive [val]) := by
  have stored := Cells.slice_store_append s.message 0 s.compteurin [val]
  rw [Nat.zero_add, gathers.bytes] at stored
  rw [rstxThread, if_pos room]
  refine ⟨?_, stored, gathers.recorded, gathers.sent⟩
  show s.compteurin + 1 = (c.held ++ [val]).length
  rw [List.length_append, gathers.counted, List.length_singleton]

theorem arrive_gathers {items : List UInt8} {s : State} {c : Collector UInt8}
    (gathers : Gathers s c) (fits : s.compteurin + items.length ≤ bufsize) :
    Gathers (items.foldl rstxThread s) (c.arrive items) := by
  induction items generalizing s c with
  | nil =>
      have same : c.arrive [] = c := by rw [Collector.arrive, List.append_nil]
      rw [same]
      exact gathers
  | cons val rest ih =>
      rw [List.length_cons] at fits
      have first := rstxThread_gathers val gathers (by omega)
      have counted : (rstxThread s val).compteurin = s.compteurin + 1 := by
        rw [rstxThread, if_pos (by omega)]
      have later := ih first (by omega)
      have joined : (c.arrive [val]).arrive rest = c.arrive (val :: rest) := by
        simp only [Collector.arrive, List.append_assoc, List.cons_append, List.nil_append]
      rw [joined] at later
      exact later

theorem tick_gathers {s : State} {c : Collector UInt8} (gathers : Gathers s c) :
    Gathers (tick s) (c.look fun count => leftOver count count) := by
  obtain ⟨counted, bytes, recorded, sent⟩ := gathers
  by_cases empty : c.held = []
  · have none : ¬0 < s.compteurin := by rw [counted, empty]; exact Nat.lt_irrefl 0
    rw [Collector.look_empty _ empty, tick, if_neg none]
    exact ⟨counted, bytes, recorded, sent⟩
  · have arrived : 0 < s.compteurin := by rw [counted]; exact List.length_pos_iff.mpr empty
    by_cases fires : c.Fires
    · have silent : s.compteurin = s.oldcompteurin := by rw [counted, recorded, fires.2]
      rw [Collector.look_fires _ fires, tick, if_pos arrived, if_pos silent]
      refine ⟨rfl, rfl, ?_, ?_⟩
      · show leftOver s.oldcompteurin s.compteurin = leftOver c.held.length c.held.length
        rw [← silent, counted]
      · show s.sent ++ Cells.pieces s.message sx127xLoraMsgQueue s.compteurin = _
        rw [pieces_eq_chunks counted bytes, sent, List.flatMap_append, List.flatMap_singleton]
    · have changed : ¬s.compteurin = s.oldcompteurin := by
        rw [counted, recorded]
        exact fun same => fires ⟨empty, same⟩
      rw [Collector.look_records _ empty fires, tick, if_pos arrived, if_neg changed]
      exact ⟨counted, bytes, counted, sent⟩

/-- The station gathers, and its collector keeps the bursts. -/
structure Timely (longest : Nat) (c : Clocked) : Prop where
  gathers : Gathers c.station c.watch.collector
  kept : Kept (rhythm longest) c.watch

theorem step_timely {longest : Nat} (c : Clocked) (action : Bursts.Action UInt8) (next : Clocked)
    (timely : Timely longest c) (fitting : Fitting longest c action)
    (taken : clockedStep longest c action = some next) : Timely longest next := by
  rw [clockedStep, Option.map_eq_some_iff] at taken
  obtain ⟨watch, moved, rfl⟩ := taken
  refine ⟨?_, step_kept _ _ _ timely.kept fitting.1 moved⟩
  rw [step_collector moved]
  cases action with
  | pass time => exact timely.gathers
  | arrive items => exact arrive_gathers timely.gathers fitting.2
  | look => exact tick_gathers timely.gathers

theorem clocked_timely (longest : Nat) : Timely longest clocked :=
  ⟨⟨rfl, rfl, rfl, rfl⟩, begin_kept⟩

/-- With a pass and its flush as one step, bursts that fit the buffer, with less than a period
between their bytes and more than two passes between the bursts, are sent one after the other,
each in packets of its own. The last one is all in the buffer or all sent, and it is sent two
passes after its last byte. -/
theorem bursts_sent (longest : Nat) (actions : List (Bursts.Action UInt8)) (c : Clocked)
    (reached : execute (clockedStep longest) clocked actions = some c)
    (fitting : Meets (clockedStep longest) (Fitting longest) clocked actions) :
    ∃ done waiting, done ++ waiting = c.watch.bursts ∧ waiting.length ≤ 1 ∧
      c.station.sent = done.flatMap chunks ∧
      Cells.slice c.station.message 0 c.station.compteurin = waiting.flatten ∧
      (c.watch.arrived + 2 * longest < c.watch.now → waiting = []) := by
  have timely := invariant step_timely (clocked_timely longest) fitting reached
  refine ⟨c.watch.collector.out, c.watch.collector.waiting, timely.kept.bursts,
    Collector.waiting_length, timely.gathers.sent, ?_, ?_⟩
  · rw [timely.gathers.bytes, Collector.waiting_flatten]
  · exact fun quiet => Collector.waiting_empty (timely.kept.settled quiet)

/-- Three bytes around two wake-ups, and a fourth one after a silence. -/
def twoBursts : List (Bursts.Action UInt8) :=
  [.arrive [1], .pass 20000, .arrive [2], .pass 6000, .look, .pass 10000, .arrive [3],
    .pass 16000, .look, .pass 26000, .look, .pass 26000, .look, .arrive [4], .pass 26000, .look,
    .pass 26000, .look]

theorem bursts_sent_twice :
    ∃ c, execute (clockedStep 30000) clocked twoBursts = some c ∧
      c.watch.bursts = [[1, 2, 3], [4]] ∧
      ∃ done waiting, done ++ waiting = c.watch.bursts ∧ waiting.length ≤ 1 ∧
        c.station.sent = done.flatMap chunks ∧
        Cells.slice c.station.message 0 c.station.compteurin = waiting.flatten ∧
        (c.watch.arrived + 2 * 30000 < c.watch.now → waiting = []) := by
  have ran : (execute (clockedStep 30000) clocked twoBursts).map (fun c => c.watch.bursts) =
      some [[1, 2, 3], [4]] := by decide +kernel
  obtain ⟨c, reached, bursts⟩ := Option.map_eq_some_iff.mp ran
  exact ⟨c, reached, bursts, bursts_sent 30000 twoBursts c reached (by decide +kernel)⟩

end RiotNyAlesund.Gps.Base

namespace RiotNyAlesund.Gps.Rover

open Transition Bursts

/-- `interval` of _rsrx_thread, in µs. -/
def rhythm (longest : Nat) : Rhythm := ⟨25600 * 2, longest⟩

/-- The rover, with the clock and the bursts beside it. -/
structure Clocked where
  rover : State
  watch : Watch UInt8

def clocked : Clocked := ⟨start, begin⟩

def handle (s : State) : Bursts.Action UInt8 → State
  | .pass _ => s
  | .arrive data => eventCb s data
  | .look => wakeup s

/-- A dump leaves the count in `oldindexin`. -/
def clockedStep (longest : Nat) (c : Clocked) (action : Bursts.Action UInt8) : Option Clocked :=
  (Bursts.step (rhythm longest) id c.watch action).map fun watch => ⟨handle c.rover action, watch⟩

/-- The next dump writes the packet that arrives. -/
def Room (s : State) : Bursts.Action UInt8 → Prop
  | .arrive data => s.indexin + data.length ≤ dumpLimit
  | .pass _ | .look => True

instance (s : State) (action : Bursts.Action UInt8) : Decidable (Room s action) :=
  match action with
  | .arrive data => inferInstanceAs (Decidable (s.indexin + data.length ≤ dumpLimit))
  | .pass _ | .look => isTrue trivial

/-- The packets come in bursts, and a burst is within the limit of a dump. -/
def Fitting (longest : Nat) (c : Clocked) (action : Bursts.Action UInt8) : Prop :=
  Bursty (rhythm longest) c.watch action ∧ Room c.rover action

instance (longest : Nat) (c : Clocked) (action : Bursts.Action UInt8) :
    Decidable (Fitting longest c action) := inferInstanceAs (Decidable (_ ∧ _))

/-- The rover does what the collector of its bytes does. -/
structure Gathers (s : State) (c : Collector UInt8) : Prop where
  counted : s.indexin = c.held.length
  bytes : Cells.slice s.message 0 s.indexin = c.held
  recorded : s.oldindexin = c.recorded
  written : s.written = c.out
  bounded : s.indexin ≤ dumpLimit

theorem eventCb_gathers {s : State} {c : Collector UInt8} {data : List UInt8}
    (gathers : Gathers s c) (room : s.indexin + data.length ≤ dumpLimit) :
    Gathers (eventCb s data) (c.arrive data) := by
  have stored := Cells.slice_store_append s.message 0 s.indexin data
  rw [Nat.zero_add, gathers.bytes] at stored
  refine ⟨?_, stored, gathers.recorded, gathers.written, room⟩
  show s.indexin + data.length = (c.held ++ data).length
  rw [List.length_append, gathers.counted]

theorem wakeup_gathers {s : State} {c : Collector UInt8} (gathers : Gathers s c) :
    Gathers (wakeup s) (c.look id) := by
  obtain ⟨counted, bytes, recorded, written, bounded⟩ := gathers
  by_cases empty : c.held = []
  · have none : ¬0 < s.indexin := by rw [counted, empty]; exact Nat.lt_irrefl 0
    rw [Collector.look_empty _ empty, wakeup, if_neg none]
    exact ⟨counted, bytes, recorded, written, bounded⟩
  · have arrived : 0 < s.indexin := by rw [counted]; exact List.length_pos_iff.mpr empty
    by_cases fires : c.Fires
    · have silent : s.oldindexin = s.indexin := by rw [counted, recorded, fires.2]
      rw [Collector.look_fires _ fires, wakeup_dumps ⟨arrived, silent⟩]
      refine ⟨rfl, rfl, silent.trans counted, ?_, Nat.zero_le _⟩
      show s.written ++ [Cells.slice s.message 0 (min s.indexin dumpLimit)] = _
      rw [Nat.min_eq_left bounded, bytes, written]
    · have changed : ¬s.oldindexin = s.indexin := by
        rw [counted, recorded]
        exact fun same => fires ⟨empty, same.symm⟩
      rw [Collector.look_records _ empty fires, wakeup, if_pos arrived, if_neg changed]
      exact ⟨counted, bytes, counted, written, bounded⟩

/-- The rover gathers, and its collector keeps the bursts. -/
structure Timely (longest : Nat) (c : Clocked) : Prop where
  gathers : Gathers c.rover c.watch.collector
  kept : Kept (rhythm longest) c.watch

theorem step_timely {longest : Nat} (c : Clocked) (action : Bursts.Action UInt8) (next : Clocked)
    (timely : Timely longest c) (fitting : Fitting longest c action)
    (taken : clockedStep longest c action = some next) : Timely longest next := by
  rw [clockedStep, Option.map_eq_some_iff] at taken
  obtain ⟨watch, moved, rfl⟩ := taken
  refine ⟨?_, step_kept _ _ _ timely.kept fitting.1 moved⟩
  rw [step_collector moved]
  cases action with
  | pass time => exact timely.gathers
  | arrive data => exact eventCb_gathers timely.gathers fitting.2
  | look => exact wakeup_gathers timely.gathers

theorem clocked_timely (longest : Nat) : Timely longest clocked :=
  ⟨⟨rfl, rfl, rfl, rfl, Nat.zero_le _⟩, begin_kept⟩

/-- With a wake-up and its dump as one step, bursts within the limit, with less than a period
between their packets and more than two wake-ups between the bursts, are written one after the
other, each in one dump. The last one is all in the buffer or all written, and it is written two
wake-ups after its last packet. -/
theorem bursts_written (longest : Nat) (actions : List (Bursts.Action UInt8)) (c : Clocked)
    (reached : execute (clockedStep longest) clocked actions = some c)
    (fitting : Meets (clockedStep longest) (Fitting longest) clocked actions) :
    ∃ waiting, c.rover.written ++ waiting = c.watch.bursts ∧ waiting.length ≤ 1 ∧
      Cells.slice c.rover.message 0 c.rover.indexin = waiting.flatten ∧
      (c.watch.arrived + 2 * longest < c.watch.now → waiting = []) := by
  have timely := invariant step_timely (clocked_timely longest) fitting reached
  refine ⟨c.watch.collector.waiting, ?_, Collector.waiting_length, ?_, ?_⟩
  · rw [timely.gathers.written]
    exact timely.kept.bursts
  · rw [timely.gathers.bytes, Collector.waiting_flatten]
  · exact fun quiet => Collector.waiting_empty (timely.kept.settled quiet)

/-- Two packets around a wake-up, and a third one after a silence. -/
def twoBursts : List (Bursts.Action UInt8) :=
  [.arrive [1], .pass 40000, .arrive [2], .pass 12000, .look, .pass 52000, .look, .pass 52000,
    .look, .arrive [3], .pass 52000, .look, .pass 52000, .look]

theorem bursts_written_twice :
    ∃ c, execute (clockedStep 53000) clocked twoBursts = some c ∧
      c.watch.bursts = [[1, 2], [3]] ∧
      ∃ waiting, c.rover.written ++ waiting = c.watch.bursts ∧ waiting.length ≤ 1 ∧
        Cells.slice c.rover.message 0 c.rover.indexin = waiting.flatten ∧
        (c.watch.arrived + 2 * 53000 < c.watch.now → waiting = []) := by
  have ran : (execute (clockedStep 53000) clocked twoBursts).map (fun c => c.watch.bursts) =
      some [[1, 2], [3]] := by decide +kernel
  obtain ⟨c, reached, bursts⟩ := Option.map_eq_some_iff.mp ran
  exact ⟨c, reached, bursts, bursts_written 53000 twoBursts c reached (by decide +kernel)⟩

end RiotNyAlesund.Gps.Rover
