import RiotNyAlesund.GpsBaseBurst
import RiotNyAlesund.GpsRoverTick

set_option autoImplicit false

/-! The base station's flush, received by the rover. -/
namespace RiotNyAlesund.Gps.Link

open Transition

/-- A rover with an empty buffer. The histories start here. -/
structure Ready (r : Rover.State) : Prop where
  empty : r.indexin = 0
  received : r.received = []
  written : r.written = []

/-- The radio delivers the payloads it accepted, once each and in order. -/
def Delivers (sent : List (List UInt8)) (events : List Rover.Event) : Prop :=
  Rover.packets events = sent

theorem drained (r : Rover.State) (events : List Rover.Event) :
    (Rover.run r (events ++ [.wakeup, .wakeup])).indexin = 0 := by
  rw [Rover.run_append]
  exact Rover.wakeup_twice _

theorem packets_wakeups (events : List Rover.Event) :
    Rover.packets (events ++ [.wakeup, .wakeup]) = Rover.packets events := by
  rw [Rover.packets_append]
  exact List.append_nil _

/-- The flush ends. The rover's output is the burst exactly when no dump finds more than its
limit, which a burst within the limit rules out, and its buffer is empty in any case. -/
theorem burst_delivered (burst : List UInt8) (s t : Base.State) (r : Rover.State)
    (actions : List Base.Action) (events : List Rover.Event) (stored : Base.Stored s burst)
    (undisturbed : ∀ action ∈ actions, Base.Undisturbed action)
    (reached : execute Base.step s actions = some t) (outside : ¬Base.InFlush t)
    (ready : Ready r) (delivers : Delivers t.sent events) :
    (∃ count t, execute Base.step s (List.replicate count .main) = some t ∧
      ¬Base.InFlush t) ∧
    (Rover.run r (events ++ [.wakeup, .wakeup])).indexin = 0 ∧
    ((Rover.run r (events ++ [.wakeup, .wakeup])).written.flatten = burst ↔
      Meets Rover.tickStep Rover.Intact r (events ++ [.wakeup, .wakeup])) ∧
    (burst.length ≤ Rover.dumpLimit →
      (Rover.run r (events ++ [.wakeup, .wakeup])).written.flatten = burst) := by
  have sent := (Base.flush_complete stored undisturbed reached outside).1
  have empty := drained r events
  have exact := Rover.written_eq_iff_intact (events ++ [.wakeup, .wakeup]) ready.empty
    ready.written ready.received empty
  rw [packets_wakeups, delivers, sent] at exact
  refine ⟨Base.flush_ends stored.flushingState, empty, exact, fun short => exact.mpr ?_⟩
  apply Rover.intact_of_volume
  rw [ready.empty, Rover.volume, packets_wakeups, delivers, sent]
  omega

/-- The base station as it starts to flush `burst`. -/
def flushStart (burst : List UInt8) : Base.State where
  message := Cells.store (fun _ => 0) 0 burst
  compteurin := burst.length
  oldcompteurin := burst.length
  indice := 0
  pc := .announce
  accepted := burst
  sent := []

theorem flushStart_stored (burst : List UInt8) (positive : 0 < burst.length)
    (fits : burst.length ≤ bufsize) : Base.Stored (flushStart burst) burst :=
  ⟨rfl, positive, fits, rfl, Cells.slice_store_self (fun _ => 0) 0 burst, rfl, rfl⟩

theorem start_ready : Ready Rover.start := ⟨rfl, rfl, rfl⟩

/-- A burst that takes three packets. -/
def threePackets : List UInt8 := (List.range 130).map UInt8.ofNat

/-- The rover wakes up behind each of them. -/
def wakeups : List Rover.Event :=
  [.packet (threePackets.take 64), .wakeup, .packet ((threePackets.drop 64).take 64), .wakeup,
    .packet (threePackets.drop 128), .wakeup]

theorem burst_delivered_once :
    ∃ t, execute Base.step (flushStart threePackets) (List.replicate 153 .main) = some t ∧
      t.sent = Rover.packets wakeups ∧
      (Rover.run Rover.start (wakeups ++ [.wakeup, .wakeup])).indexin = 0 ∧
      (Rover.run Rover.start (wakeups ++ [.wakeup, .wakeup])).written.flatten = threePackets := by
  have flushes : (execute Base.step (flushStart threePackets) (List.replicate 153 .main)).map
      (fun t => (t.sent, decide (Base.InFlush t))) = some (Rover.packets wakeups, false) := by
    decide +kernel
  obtain ⟨t, reached, found⟩ := Option.map_eq_some_iff.mp flushes
  rw [Prod.mk.injEq, decide_eq_false_iff_not] at found
  have size : threePackets.length = 130 := by
    rw [threePackets, List.length_map, List.length_range]
  have stored := flushStart_stored threePackets (by rw [size]; decide) (by rw [size]; decide)
  obtain ⟨_, empty, _, written⟩ := burst_delivered threePackets (flushStart threePackets) t
    Rover.start (List.replicate 153 .main) wakeups stored (Base.mains_undisturbed 153) reached
    found.2 start_ready found.1.symm
  exact ⟨t, reached, found.1, empty, written (by rw [size]; decide)⟩

theorem packets_map (sent : List (List UInt8)) :
    Rover.packets (sent.map .packet) = sent := by
  induction sent with
  | nil => rfl
  | cons data rest ih => exact congrArg (data :: ·) ih

theorem run_packets (r : Rover.State) (sent : List (List UInt8)) :
    (Rover.run r (sent.map .packet)).indexin = r.indexin + sent.flatten.length ∧
      (Rover.run r (sent.map .packet)).oldindexin = r.oldindexin := by
  induction sent generalizing r with
  | nil => exact ⟨rfl, rfl⟩
  | cons data rest ih =>
      obtain ⟨counted, old⟩ := ih (Rover.eventCb r data)
      refine ⟨counted.trans ?_, old⟩
      simp only [Rover.eventCb, List.flatten_cons, List.length_append]
      omega

/-- A burst of 1433 bytes loses its last one when the wake-ups all come after it. -/
theorem burst_cut_at_limit :
    ¬ ∀ (burst : List UInt8) (s t : Base.State) (r : Rover.State)
        (actions : List Base.Action) (events : List Rover.Event),
      Base.Stored s burst → (∀ action ∈ actions, Base.Undisturbed action) →
      execute Base.step s actions = some t → ¬Base.InFlush t → Ready r →
      Delivers t.sent events →
      (Rover.run r (events ++ [.wakeup, .wakeup])).written.flatten = burst ∧
        (Rover.run r (events ++ [.wakeup, .wakeup])).indexin = 0 := by
  intro claim
  have size : (List.replicate 1433 (7 : UInt8)).length = 1433 := List.length_replicate
  have stored := flushStart_stored (List.replicate 1433 7) (by rw [size]; decide)
    (by rw [size]; decide)
  obtain ⟨count, t, reached, outside⟩ := Base.flush_ends stored.flushingState
  have undisturbed := Base.mains_undisturbed count
  have sent := (Base.flush_complete stored undisturbed reached outside).1
  have delivered := (claim _ _ t Rover.start _ (t.sent.map .packet) stored undisturbed reached
    outside start_ready (packets_map t.sent)).1
  have exact := Rover.written_eq_iff_intact (t.sent.map .packet ++ [.wakeup, .wakeup])
    start_ready.empty start_ready.written start_ready.received (drained _ _)
  rw [packets_wakeups, packets_map, sent] at exact
  have intact := exact.mp delivered
  rw [Rover.meets_tick_append] at intact
  obtain ⟨counted, old⟩ := run_packets Rover.start t.sent
  rw [sent, size] at counted
  generalize Rover.run Rover.start (t.sent.map .packet) = r at counted old intact
  -- The first wake-up only records the count, the second one dumps.
  have recorded : Rover.wakeup r = { r with oldindexin := r.indexin } := by
    simp [Rover.wakeup, counted, old, Rover.start]
  have second : Rover.Intact (Rover.wakeup r) .wakeup :=
    ((intact.2 (Rover.wakeup r) rfl).2 (Rover.wakeup (Rover.wakeup r)) rfl).1
  rw [recorded] at second
  have short : r.indexin ≤ Rover.dumpLimit := second ⟨by rw [counted]; decide, rfl⟩
  rw [counted] at short
  exact absurd short (by decide)

end RiotNyAlesund.Gps.Link
