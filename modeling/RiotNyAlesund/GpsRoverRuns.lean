import RiotNyAlesund.GpsRoverTick
import RiotNyAlesund.Silence

set_option autoImplicit false

/-! Whole runs of the rover: what each dump writes, and when it comes. -/
namespace RiotNyAlesund.Gps.Rover

open Transition

/-- `dumped` holds for each dump all the bytes received since the one before it, whether it
wrote them or not, and `since` those received since the last one. -/
structure Logged where
  rover : State
  dumped : List (List UInt8)
  since : List UInt8

def log (l : Logged) : Event → Logged
  | .packet data => ⟨eventCb l.rover data, l.dumped, l.since ++ data⟩
  | .wakeup =>
      if Silent l.rover then ⟨wakeup l.rover, l.dumped ++ [l.since], []⟩
      else ⟨wakeup l.rover, l.dumped, l.since⟩

def logged (events : List Event) : Logged := events.foldl log ⟨start, [], []⟩

/-- The counted part of the buffer is what was received since the last dump, and each dump
wrote its bytes up to the limit. -/
structure Faithful (l : Logged) : Prop where
  counted : l.rover.indexin = l.since.length
  bytes : Cells.slice l.rover.message 0 l.rover.indexin = l.since
  written : l.rover.written = l.dumped.map (List.take dumpLimit)
  nonempty : ∀ bytes ∈ l.dumped, bytes ≠ []
  received : l.rover.received.flatten = l.dumped.flatten ++ l.since

theorem start_faithful : Faithful ⟨start, [], []⟩ :=
  ⟨rfl, rfl, rfl, fun _ member => absurd member List.not_mem_nil, rfl⟩

theorem packet_faithful {l : Logged} (data : List UInt8) (faithful : Faithful l) :
    Faithful ⟨eventCb l.rover data, l.dumped, l.since ++ data⟩ := by
  have stored := Cells.slice_store_append l.rover.message 0 l.rover.indexin data
  rw [Nat.zero_add] at stored
  refine ⟨?_, ?_, faithful.written, faithful.nonempty, ?_⟩
  · simp only [eventCb, faithful.counted, List.length_append]
  · exact stored.trans (by rw [faithful.bytes])
  · simp only [eventCb, List.flatten_append, List.flatten_singleton, faithful.received,
      List.append_assoc]

theorem dump_faithful {l : Logged} (faithful : Faithful l) (silent : Silent l.rover) :
    Faithful ⟨wakeup l.rover, l.dumped ++ [l.since], []⟩ := by
  have output : Cells.slice l.rover.message 0 (min l.rover.indexin dumpLimit) =
      l.since.take dumpLimit := by
    rw [← Cells.take_slice _ 0 _ _ (Nat.min_le_left _ _), faithful.bytes, faithful.counted,
      Nat.min_comm, ← List.take_take, List.take_length]
  have positive : 0 < l.since.length := faithful.counted ▸ silent.1
  rw [wakeup_dumps silent]
  refine ⟨rfl, Cells.slice_zero _ _, ?_, ?_, ?_⟩
  · simp only [output, faithful.written, List.map_append, List.map_cons, List.map_nil]
  · rw [List.forall_mem_append, List.forall_mem_singleton]
    exact ⟨faithful.nonempty, List.ne_nil_of_length_pos positive⟩
  · simp only [faithful.received, List.flatten_append, List.flatten_singleton, List.append_nil]

theorem wait_faithful {l : Logged} (faithful : Faithful l) (loud : ¬Silent l.rover) :
    Faithful ⟨wakeup l.rover, l.dumped, l.since⟩ := by
  obtain ⟨_, same⟩ := wakeup_waits loud
  rw [same]
  exact ⟨faithful.counted, faithful.bytes, faithful.written, faithful.nonempty,
    faithful.received⟩

theorem log_faithful {l : Logged} (event : Event) (faithful : Faithful l) :
    Faithful (log l event) := by
  cases event with
  | packet data => exact packet_faithful data faithful
  | wakeup =>
      by_cases silent : Silent l.rover
      · simp only [log, silent, ↓reduceIte]
        exact dump_faithful faithful silent
      · simp only [log, silent, ↓reduceIte]
        exact wait_faithful faithful silent

theorem foldl_log {l : Logged} (events : List Event) (faithful : Faithful l) :
    Faithful (events.foldl log l) ∧ (events.foldl log l).rover = run l.rover events := by
  induction events generalizing l with
  | nil => exact ⟨faithful, rfl⟩
  | cons event rest ih =>
      obtain ⟨later, same⟩ := ih (log_faithful event faithful)
      refine ⟨later, same.trans ?_⟩
      have moved : (log l event).rover = tick l.rover event := by
        cases event with
        | packet data => rfl
        | wakeup =>
            simp only [log, tick]
            split <;> rfl
      rw [moved]
      rfl

/-- In every run the counter is the number of bytes received since the last dump, and each
dump has written the first of its bytes, up to the limit, however they came in packets. -/
theorem dumps_written (events : List Event) :
    ((run start events).indexin = (logged events).since.length ∧
      (run start events).written = (logged events).dumped.map (List.take dumpLimit) ∧
      (∀ bytes ∈ (logged events).dumped, bytes ≠ []) ∧
      (packets events).flatten = (logged events).dumped.flatten ++ (logged events).since) ∧
    ∀ other : List Event, (logged other).dumped = (logged events).dumped →
      (run start other).written = (run start events).written := by
  have whole : ∀ events, Faithful (logged events) ∧ (logged events).rover = run start events :=
    fun events => foldl_log events start_faithful
  obtain ⟨⟨counted, _, written, nonempty, received⟩, same⟩ := whole events
  rw [same] at counted written received
  rw [run_received, show start.received = [] from rfl, List.nil_append] at received
  refine ⟨⟨counted, written, nonempty, received⟩, ?_⟩
  intro other alike
  obtain ⟨⟨_, _, written', _, _⟩, same'⟩ := whole other
  rw [same'] at written'
  rw [written, written', alike]

/-- `fresh` are the packets received since the last wake-up, and `found` is the count it
found. `emptied` is the count of the last dump, until a wake-up finds bytes again. -/
structure Observed where
  rover : State
  fresh : List (List UInt8)
  found : Nat
  emptied : Option Nat

def observed : Observed := ⟨start, [], 0, none⟩

def observePacket (o : Observed) (data : List UInt8) : Observed :=
  { o with rover := eventCb o.rover data, fresh := o.fresh ++ [data] }

def observeWakeup (o : Observed) : Observed where
  rover := wakeup o.rover
  fresh := []
  found := o.rover.indexin
  emptied := if Silent o.rover then some o.rover.indexin
    else if 0 < o.rover.indexin then none else o.emptied

def observe (o : Observed) : Event → Option Observed
  | .packet data => some (observePacket o data)
  | .wakeup => some (observeWakeup o)

/-- A dump happens only when no packet was received since the last wake-up. -/
def Settled (o : Observed) : Event → Prop
  | .packet _ => True
  | .wakeup => Silent o.rover → o.fresh = []

/-- The first wake-up after a dump that finds bytes does not find as many as the dump did. -/
def Unlike (o : Observed) : Event → Prop
  | .packet _ => True
  | .wakeup => 0 < o.rover.indexin → ∀ count, o.emptied = some count → o.rover.indexin ≠ count

def Nonempty : Event → Prop
  | .packet data => data ≠ []
  | .wakeup => True

instance (o : Observed) (event : Event) : Decidable (Settled o event) :=
  match event with
  | .packet _ => isTrue trivial
  | .wakeup => inferInstanceAs (Decidable (Silent o.rover → o.fresh = []))

instance (o : Observed) (event : Event) : Decidable (Unlike o event) :=
  match event with
  | .packet _ => isTrue trivial
  | .wakeup => inferInstanceAs (Decidable
      (0 < o.rover.indexin → ∀ count ∈ o.emptied, o.rover.indexin ≠ count))

/-- The rover is a silence detector that keeps its record when it is emptied. -/
def detector (o : Observed) : Silence.Detector where
  count := o.rover.indexin
  recorded := o.rover.oldindexin
  fresh := o.fresh.flatten.length
  found := o.found
  left := o.emptied

theorem detector_packet (o : Observed) (data : List UInt8) :
    detector (observePacket o data) = Silence.arrive (detector o) data.length := by
  simp only [detector, observePacket, Silence.arrive, eventCb, List.flatten_append,
    List.flatten_singleton, List.length_append]

theorem detector_wakeup (o : Observed) :
    detector (observeWakeup o) = Silence.look id (detector o) := by
  by_cases arrived : 0 < o.rover.indexin
  · by_cases same : o.rover.oldindexin = o.rover.indexin
    · have fires : Silence.Fires (detector o) := ⟨arrived, same⟩
      have silent : Silent o.rover := ⟨arrived, same⟩
      rw [Silence.look_fires _ fires]
      simp only [detector, observeWakeup, wakeup, silent, arrived, same, ↓reduceIte, id,
        List.flatten_nil, List.length_nil]
    · have changed : (detector o).recorded ≠ (detector o).count := same
      have loud : ¬Silent o.rover := fun silent => same silent.2
      rw [Silence.look_records _ arrived changed]
      simp only [detector, observeWakeup, wakeup, loud, arrived, same, ↓reduceIte,
        List.flatten_nil, List.length_nil]
  · have loud : ¬Silent o.rover := fun silent => arrived silent.1
    rw [Silence.look_idle _ arrived]
    have none : o.rover.indexin = 0 := by omega
    simp only [detector, observeWakeup, wakeup, loud, none, Nat.lt_irrefl, ↓reduceIte,
      List.flatten_nil, List.length_nil]

/-- The detector is sound, and every packet counts. -/
def Sound (o : Observed) : Prop :=
  Silence.Sound (detector o) ∧ ∀ data ∈ o.fresh, data ≠ []

theorem observe_sound (o : Observed) (event : Event) (next : Observed) (sound : Sound o)
    (nonempty : Nonempty event) (taken : observe o event = some next) : Sound next := by
  obtain ⟨counts, packets⟩ := sound
  cases event with
  | packet data =>
      cases taken
      refine ⟨?_, ?_⟩
      · rw [detector_packet]
        exact Silence.arrive_sound _ counts
      · simp only [observePacket, List.forall_mem_append, List.forall_mem_singleton]
        exact ⟨packets, nonempty⟩
  | wakeup =>
      cases taken
      refine ⟨?_, fun data member => absurd member List.not_mem_nil⟩
      rw [detector_wakeup]
      exact Silence.look_sound _ counts

/-- The detector has seen fresh bytes exactly when there are fresh packets. -/
theorem Sound.fresh {o : Observed} (sound : Sound o) :
    (detector o).fresh = 0 ↔ o.fresh = [] := by
  constructor
  · intro none
    have empty := List.flatten_eq_nil_iff.mp (List.length_eq_zero_iff.mp none)
    apply List.eq_nil_iff_forall_not_mem.mpr
    intro data member
    exact sound.2 data member (empty data member)
  · intro none
    simp only [detector, none, List.flatten_nil, List.length_nil]

theorem settled_iff_unlike (o : Observed) (event : Event) (sound : Sound o) :
    Settled o event ↔ Unlike o event := by
  cases event with
  | packet data => exact Iff.rfl
  | wakeup =>
      have quiet : Settled o .wakeup ↔ Silence.Silent (detector o) := by
        rw [Silence.silent_iff_fresh sound.1, sound.fresh]
        exact Iff.rfl
      exact quiet.trans (Silence.silent_iff_distinct sound.1)

/-- Every dump of a run comes in silence exactly when after each dump the first wake-up that
finds bytes does not find as many again. -/
theorem dump_settled_iff (events : List Event) (nonempty : ∀ data ∈ packets events, data ≠ []) :
    Meets observe Settled observed events ↔ Meets observe Unlike observed events := by
  have initial : Sound observed := ⟨⟨rfl, rfl⟩, fun _ member => absurd member List.not_mem_nil⟩
  have each : ∀ event ∈ events, Nonempty event := by
    intro event member
    cases event with
    | packet data => exact nonempty data (List.mem_filterMap.mpr ⟨_, member, rfl⟩)
    | wakeup => trivial
  exact meets_congr observe_sound (fun o event sound _ => settled_iff_unlike o event sound) initial
    (meets_of_forall observe observed each)

/-- Two bursts, the second one of two bytes more than the first. -/
def unequal : List Event :=
  [.packet [7], .wakeup, .wakeup, .packet [8], .packet [9, 10], .wakeup, .wakeup]

theorem dump_settled_iff_once :
    (run start unequal).written = [[7], [8, 9, 10]] ∧ Meets observe Settled observed unequal :=
  ⟨rfl, (dump_settled_iff unequal (by decide)).mpr (by decide)⟩

/-- A burst that has grown to the size of the last one when a wake-up finds it is cut. -/
theorem same_size_cut :
    ¬ ∀ events : List Event, (∀ data ∈ packets events, data ≠ []) →
      Meets observe Settled observed events := by
  intro claim
  have settled := claim [.packet [7], .wakeup, .wakeup, .packet [8], .wakeup] (by decide)
  exact absurd settled (by decide)

end RiotNyAlesund.Gps.Rover
