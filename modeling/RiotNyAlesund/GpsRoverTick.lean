import RiotNyAlesund.Gps
import RiotNyAlesund.Transition

set_option autoImplicit false

/-! The rover with every wake-up taken as one step. -/
namespace RiotNyAlesund.Gps.Rover

open Transition

/-- Taken without interrupts, the statements of the loop body are one wake-up. -/
theorem wakeup_eq_thread (s : State) (asleep : s.pc = .asleep) :
    ∃ count, execute step s (List.replicate count .thread) = some (wakeup s) := by
  obtain ⟨message, indexin, oldindexin, pc, received, written, accumulated⟩ := s
  cases asleep
  by_cases arrived : 0 < indexin
  · by_cases silent : oldindexin = indexin
    · refine ⟨6, ?_⟩
      by_cases long : dumpLimit < indexin
      · simp [List.replicate, execute, step, rsrxThread, wakeup, arrived, silent, long,
          Nat.min_eq_right (Nat.le_of_lt long)]
      · simp [List.replicate, execute, step, rsrxThread, wakeup, arrived, silent, long,
          Nat.min_eq_left (Nat.le_of_not_lt long)]
    · refine ⟨4, ?_⟩
      simp [List.replicate, execute, step, rsrxThread, wakeup, arrived, silent]
  · refine ⟨2, ?_⟩
    simp [List.replicate, execute, step, rsrxThread, wakeup, arrived]

/-- A wake-up in silence writes what is counted, up to the limit, and counts anew. -/
theorem wakeup_dumps {s : State} (silent : Silent s) :
    wakeup s = { s with
      indexin := 0
      written := s.written ++ [Cells.slice s.message 0 (min s.indexin dumpLimit)]
      accumulated := 0 } := by
  simp only [wakeup, silent.1, silent.2, ↓reduceIte]

/-- Any other wake-up changes at most the count it remembers. -/
theorem wakeup_waits {s : State} (loud : ¬Silent s) :
    ∃ recorded, wakeup s = { s with oldindexin := recorded } := by
  unfold wakeup
  split
  · split
    · exact absurd ⟨‹_›, ‹_›⟩ loud
    · exact ⟨_, rfl⟩
  · exact ⟨s.oldindexin, rfl⟩

@[simp] theorem wakeup_pc (s : State) : (wakeup s).pc = s.pc := by
  by_cases silent : Silent s
  · rw [wakeup_dumps silent]
  · obtain ⟨_, same⟩ := wakeup_waits silent
    rw [same]

@[simp] theorem wakeup_received (s : State) : (wakeup s).received = s.received := by
  by_cases silent : Silent s
  · rw [wakeup_dumps silent]
  · obtain ⟨_, same⟩ := wakeup_waits silent
    rw [same]

theorem tick_pc (s : State) (event : Event) : (tick s event).pc = s.pc := by
  cases event with
  | packet data => rfl
  | wakeup => exact wakeup_pc s

/-- A run by whole wake-ups is a run by statements in which no packet interrupts the loop
body. -/
theorem run_eq_execute (s : State) (events : List Event) (asleep : s.pc = .asleep) :
    ∃ actions, execute step s actions = some (run s events) := by
  induction events generalizing s with
  | nil => exact ⟨[], rfl⟩
  | cons event rest ih =>
      obtain ⟨later, finished⟩ := ih (tick s event) ((tick_pc s event).trans asleep)
      cases event with
      | packet data => exact ⟨.packet data :: later, finished⟩
      | wakeup =>
          obtain ⟨count, body⟩ := wakeup_eq_thread s asleep
          refine ⟨List.replicate count .thread ++ later, ?_⟩
          rw [execute_append_of_execute step later body]
          exact finished

/-- `tick` as a step function that is always enabled. -/
def tickStep (s : State) (event : Event) : Option State := some (tick s event)

@[simp] theorem execute_tickStep (s : State) (events : List Event) :
    execute tickStep s events = some (run s events) := by
  induction events generalizing s with
  | nil => rfl
  | cons event rest ih => exact ih (tick s event)

theorem run_append (s : State) (first second : List Event) :
    run s (first ++ second) = run (run s first) second := List.foldl_append

theorem meets_tick_append (allowed : State → Event → Prop) (s : State)
    (first second : List Event) :
    Meets tickStep allowed s (first ++ second) ↔
      Meets tickStep allowed s first ∧ Meets tickStep allowed (run s first) second :=
  meets_append tickStep second (execute_tickStep s first)

theorem meets_tick_singleton (allowed : State → Event → Prop) (s : State) (event : Event) :
    Meets tickStep allowed s [event] ↔ allowed s event := by
  have taken : tickStep s event = some (tick s event) := rfl
  rw [meets_cons_of_step tickStep [] taken]
  exact and_iff_left trivial

@[simp] theorem packets_append (first second : List Event) :
    packets (first ++ second) = packets first ++ packets second := List.filterMap_append

/-- The bytes of all the packets among the events. -/
def volume (events : List Event) : Nat := (packets events).flatten.length

@[simp] theorem volume_append (first second : List Event) :
    volume (first ++ second) = volume first + volume second := by
  simp [volume]

@[simp] theorem volume_packet (data : List UInt8) : volume [.packet data] = data.length := by
  simp [volume, packets]

@[simp] theorem volume_wakeup : volume [.wakeup] = 0 := rfl

theorem wakeup_dump {s : State} (silent : Silent s) : (wakeup s).indexin = 0 := by
  rw [wakeup_dumps silent]

theorem wakeup_noDump {s : State} (loud : ¬Silent s) : (wakeup s).indexin = s.indexin := by
  obtain ⟨_, same⟩ := wakeup_waits loud
  rw [same]

theorem wakeup_indexin_le (s : State) : (wakeup s).indexin ≤ s.indexin := by
  by_cases silent : Silent s
  · rw [wakeup_dump silent]
    exact Nat.zero_le _
  · exact Nat.le_of_eq (wakeup_noDump silent)

theorem run_received (s : State) (events : List Event) :
    (run s events).received = s.received ++ packets events := by
  induction events generalizing s with
  | nil => exact (List.append_nil _).symm
  | cons event rest ih =>
      change (run (tick s event) rest).received = _
      rw [ih, ← List.singleton_append, packets_append]
      cases event with
      | packet data => exact List.append_assoc s.received [data] (packets rest)
      | wakeup => exact congrArg (· ++ packets rest) (wakeup_received s)

theorem tick_indexin_le (s : State) (event : Event) :
    (tick s event).indexin ≤ s.indexin + volume [event] := by
  cases event with
  | packet data =>
      rw [volume_packet]
      exact Nat.le_refl _
  | wakeup => exact wakeup_indexin_le s

/-- Two wake-ups in a row leave nothing in the buffer. -/
theorem wakeup_twice (s : State) : (wakeup (wakeup s)).indexin = 0 := by
  by_cases silent : Silent s
  · have empty := wakeup_dump silent
    have := wakeup_indexin_le (wakeup s)
    omega
  · by_cases arrived : 0 < s.indexin
    · have recorded : wakeup s = { s with oldindexin := s.indexin } := by
        have loud : ¬s.oldindexin = s.indexin := fun same => silent ⟨arrived, same⟩
        simp only [wakeup, arrived, loud, ↓reduceIte]
      rw [recorded]
      exact wakeup_dump ⟨arrived, rfl⟩
    · have idle : wakeup s = s := by simp only [wakeup, arrived, ↓reduceIte]
      rw [idle, idle]
      omega

/-- The event is not a wake-up that dumps more than it writes. -/
def Intact (s : State) : Event → Prop
  | .packet _ => True
  | .wakeup => Silent s → s.indexin ≤ dumpLimit

/-- Everything received is written or counted, in order. -/
def Conserved (s : State) : Prop :=
  s.written.flatten ++ Cells.slice s.message 0 s.indexin = s.received.flatten

theorem tick_conserved (s : State) (event : Event) (t : State) (conserved : Conserved s)
    (intact : Intact s event) (taken : tickStep s event = some t) : Conserved t := by
  cases taken
  unfold Conserved at *
  cases event with
  | packet data =>
      have stored := Cells.slice_store_append s.message 0 s.indexin data
      rw [Nat.zero_add] at stored
      change s.written.flatten ++ Cells.slice (Cells.store s.message s.indexin data) 0
        (s.indexin + data.length) = (s.received ++ [data]).flatten
      rw [stored, ← List.append_assoc, conserved, List.flatten_append, List.flatten_singleton]
  | wakeup =>
      change (wakeup s).written.flatten ++
        Cells.slice (wakeup s).message 0 (wakeup s).indexin = (wakeup s).received.flatten
      by_cases silent : Silent s
      · have short := Nat.min_eq_left (intact silent)
        rw [wakeup_dumps silent]
        simp only [short, List.flatten_append, List.flatten_singleton, Cells.slice_zero,
          List.append_nil]
        exact conserved
      · obtain ⟨_, same⟩ := wakeup_waits silent
        rw [same]
        exact conserved

/-- Bytes received that are neither written nor counted. -/
def cutOff (s : State) : Nat :=
  s.received.flatten.length - (s.written.flatten.length + s.indexin)

def WithinReceived (s : State) : Prop :=
  s.written.flatten.length + s.indexin ≤ s.received.flatten.length

theorem eventCb_cutOff {s : State} (data : List UInt8) (within : WithinReceived s) :
    WithinReceived (eventCb s data) ∧ cutOff (eventCb s data) = cutOff s := by
  have grown : (eventCb s data).received.flatten.length =
      s.received.flatten.length + data.length := by
    simp [eventCb]
  unfold WithinReceived cutOff at *
  rw [grown]
  simp only [eventCb]
  omega

/-- A dump forgets what it counted beyond its limit. -/
theorem wakeup_cutOff {s : State} (within : WithinReceived s) :
    WithinReceived (wakeup s) ∧
      cutOff (wakeup s) = cutOff s + if Silent s then s.indexin - dumpLimit else 0 := by
  unfold WithinReceived cutOff at *
  by_cases silent : Silent s
  · have output : (wakeup s).written.flatten.length =
        s.written.flatten.length + min s.indexin dumpLimit := by
      rw [wakeup_dumps silent]
      simp only [List.flatten_append, List.flatten_singleton, List.length_append,
        Cells.slice_length]
    rw [output, wakeup_received, wakeup_dump silent]
    simp only [silent, ↓reduceIte]
    omega
  · obtain ⟨_, same⟩ := wakeup_waits silent
    rw [same]
    simp only [silent, ↓reduceIte]
    omega

theorem tick_cutOff (s : State) (event : Event) (t : State) (within : WithinReceived s)
    (taken : tickStep s event = some t) :
    cutOff s ≤ cutOff t ∧ (cutOff t = cutOff s ↔ Intact s event) := by
  cases taken
  cases event with
  | packet data =>
      have same := (eventCb_cutOff data within).2
      exact ⟨Nat.le_of_eq same.symm, iff_of_true same trivial⟩
  | wakeup =>
      have cut := (wakeup_cutOff within).2
      change cutOff s ≤ cutOff (wakeup s) ∧ (cutOff (wakeup s) = cutOff s ↔ _)
      rw [cut]
      by_cases silent : Silent s <;> simp [Intact, silent, Nat.sub_eq_zero_iff_le]

theorem tick_withinReceived (s : State) (event : Event) (t : State)
    (within : WithinReceived s) (taken : tickStep s event = some t) : WithinReceived t := by
  cases taken
  cases event with
  | packet data => exact (eventCb_cutOff data within).1
  | wakeup => exact (wakeup_cutOff within).1

/-- A rover that starts empty and ends empty has written exactly what it received if and
only if every dump stayed within its limit. -/
theorem written_eq_iff_intact {s : State} (events : List Event) (empty : s.indexin = 0)
    (written : s.written = []) (received : s.received = [])
    (drained : (run s events).indexin = 0) :
    (run s events).written.flatten = (packets events).flatten ↔
      Meets tickStep Intact s events := by
  have within : WithinReceived s := by simp [WithinReceived, empty, written, received]
  have none : cutOff s = 0 := by simp [cutOff, received]
  have total : (run s events).received = packets events := by
    rw [run_received, received, List.nil_append]
  have gauge := (gauge_eq_iff_meets tick_withinReceived tick_cutOff within
    (execute_tickStep s events)).2
  constructor
  · intro complete
    apply gauge.mp
    rw [none, cutOff, total, complete]
    omega
  · intro intact
    have initial : Conserved s := by simp [Conserved, empty, written, received]
    have conserved := invariant tick_conserved initial intact (execute_tickStep s events)
    rwa [Conserved, drained, total, Cells.slice_zero, List.append_nil] at conserved

/-- A rover that starts empty never dumps beyond the limit if it receives no more than
that altogether. -/
theorem intact_of_volume {s : State} (events : List Event)
    (small : s.indexin + volume events ≤ dumpLimit) : Meets tickStep Intact s events := by
  induction events generalizing s with
  | nil => trivial
  | cons event rest ih =>
      intro t taken
      cases taken
      rw [← List.singleton_append, volume_append] at small
      have head := tick_indexin_le s event
      refine ⟨?_, ih (by omega)⟩
      cases event with
      | packet data => trivial
      | wakeup => exact fun _ => by omega

end RiotNyAlesund.Gps.Rover
