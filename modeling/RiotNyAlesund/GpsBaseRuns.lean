import RiotNyAlesund.GpsBaseBurst

set_option autoImplicit false

/-! What an undisturbed flush sends, piece by piece, and what it finds in the buffer. -/
namespace RiotNyAlesund.Gps.Base

open Transition

/-- What `oldcompteurin` is after a flush of `count` bytes: only the tail resets it. -/
def leftOver (oldcompteurin count : Nat) : Nat :=
  if count % sx127xLoraMsgQueue = 0 then oldcompteurin else 0

/-- The driver has read its part of the buffer as it was when the flush started. -/
def ReadFrom (first s : State) : Prop :=
  match s.pc with
  | .sendFull read | .sendTail _ read =>
      read = Cells.slice first.message s.indice read.length
  | _ => True

/-- `oldcompteurin` is as it was until the tail has been sent. -/
def Records (first s : State) : Prop :=
  match s.pc with
  | .clear | .clearOld => s.oldcompteurin = first.oldcompteurin ∧
      first.compteurin % sx127xLoraMsgQueue ≠ 0
  | _ => s.oldcompteurin = if pendingCount s = 0 then
      leftOver first.oldcompteurin first.compteurin else first.oldcompteurin

/-- `indice` once main has moved past the piece it has sent. -/
def cursor (s : State) : Nat :=
  match s.pc with
  | .advance => s.indice + sx127xLoraMsgQueue
  | _ => s.indice

/-- `s` is reached in an undisturbed flush that started at `first`: the bytes that are no
longer pending have been sent in pieces. -/
structure Going (first s : State) : Prop where
  flushing : Flushing s
  message : s.message = first.message
  accepted : s.accepted = first.accepted
  remains : pendingCount s ≤ first.compteurin
  sent : s.sent = first.sent ++ Cells.pieces first.message sx127xLoraMsgQueue
    (first.compteurin - pendingCount s)
  placed : 0 < pendingCount s → pendingFrom s + pendingCount s = first.compteurin ∧
    pendingFrom s % sx127xLoraMsgQueue = 0
  rests : pendingCount s = 0 →
    cursor s = first.compteurin / sx127xLoraMsgQueue * sx127xLoraMsgQueue
  read : ReadFrom first s
  records : Records first s

/-- An access that neither sends nor changes what is pending. -/
theorem Going.stutter {first s t : State} (going : Going first s) (flushing : Flushing t)
    (message : t.message = s.message) (accepted : t.accepted = s.accepted)
    (sent : t.sent = s.sent) (count : pendingCount t = pendingCount s)
    (placed : 0 < pendingCount s → pendingFrom t = pendingFrom s)
    (rests : pendingCount s = 0 → cursor t = cursor s) (read : ReadFrom first t)
    (records : Records first t) : Going first t := by
  refine ⟨flushing, message.trans going.message, accepted.trans going.accepted, ?_, ?_, ?_, ?_,
    read, records⟩
  · rw [count]
    exact going.remains
  · rw [sent, count]
    exact going.sent
  · rw [count]
    intro more
    rw [placed more]
    exact going.placed more
  · rw [count]
    intro none
    rw [rests none]
    exact going.rests none

/-- An accepted send adds the next piece. -/
theorem Going.send {first s t : State} (count : Nat) (going : Going first s)
    (flushing : Flushing t) (message : t.message = s.message)
    (accepted : t.accepted = s.accepted) (positive : 0 < count)
    (short : count ≤ sx127xLoraMsgQueue)
    (sent : t.sent = s.sent ++ [Cells.slice first.message (pendingFrom s) count])
    (pending : pendingCount s = pendingCount t + count)
    (placed : 0 < pendingCount t → pendingFrom t = pendingFrom s + sx127xLoraMsgQueue ∧
      count = sx127xLoraMsgQueue)
    (rests : pendingCount t = 0 → cursor t =
      (pendingFrom s + count) / sx127xLoraMsgQueue * sx127xLoraMsgQueue)
    (read : ReadFrom first t) (records : Records first t) : Going first t := by
  obtain ⟨total, aligned⟩ := going.placed (by omega)
  have remains := going.remains
  refine ⟨flushing, message.trans going.message, accepted.trans going.accepted, by omega, ?_, ?_,
    ?_, read, records⟩
  · have whole : pendingFrom s / sx127xLoraMsgQueue * sx127xLoraMsgQueue = pendingFrom s :=
      Nat.div_mul_cancel (Nat.dvd_of_mod_eq_zero aligned)
    have before : first.compteurin - pendingCount s =
        pendingFrom s / sx127xLoraMsgQueue * sx127xLoraMsgQueue := by omega
    have after : first.compteurin - pendingCount t =
        pendingFrom s / sx127xLoraMsgQueue * sx127xLoraMsgQueue + count := by omega
    rw [sent, going.sent, before, after, Cells.pieces_append _ _ positive short, whole,
      List.append_assoc]
  · intro more
    obtain ⟨moved, full⟩ := placed more
    refine ⟨by omega, ?_⟩
    rw [moved, Nat.add_mod_right]
    exact aligned
  · intro none
    rw [rests none, ← total, pending, none, Nat.zero_add]

theorem start_going {s : State} (flushing : s.pc = .announce) (positive : 0 < s.compteurin)
    (bounded : s.compteurin ≤ bufsize) : Going s s := by
  have count : pendingCount s = s.compteurin := by simp only [pendingCount, flushing]
  have whole : ¬s.compteurin = 0 := by omega
  refine ⟨⟨?_, bounded⟩, rfl, rfl, Nat.le_of_eq count, ?_, ?_, ?_, ?_, ?_⟩
  · simp only [Knows, flushing]
    exact positive
  · have chunk : 0 < sx127xLoraMsgQueue := by decide
    rw [count, Nat.sub_self, Cells.pieces_zero _ chunk, List.append_nil]
  · intro _
    rw [count]
    simp only [pendingFrom, flushing, Nat.zero_add, Nat.zero_mod, and_self]
  · rw [count]
    exact fun none => absurd none whole
  · simp only [ReadFrom, flushing]
  · simp only [Records, flushing, count, whole, ↓reduceIte]

/-- While bytes are pending `oldcompteurin` is what it was. -/
theorem Going.unchanged {first s : State} (going : Going first s) (pending : 0 < pendingCount s) :
    s.oldcompteurin = first.oldcompteurin := by
  have records := going.records
  have some : ¬pendingCount s = 0 := by omega
  cases pc : s.pc <;> simp only [Records, pc, some, ↓reduceIte] at records
  case clear | clearOld => exact records.1
  all_goals exact records

/-- After the last full piece of a multiple of the chunk the counter is 0. -/
theorem Going.records_chunk {first s : State} (going : Going first s)
    (full : sx127xLoraMsgQueue ≤ pendingCount s) :
    s.oldcompteurin = if pendingCount s - sx127xLoraMsgQueue = 0 then
      leftOver first.oldcompteurin first.compteurin else first.oldcompteurin := by
  have queue : sx127xLoraMsgQueue = 64 := rfl
  obtain ⟨total, aligned⟩ := going.placed (by omega)
  rw [going.unchanged (by omega)]
  split
  · have multiple : first.compteurin % sx127xLoraMsgQueue = 0 := by
      rw [← total, show pendingCount s = sx127xLoraMsgQueue by omega, Nat.add_mod_right]
      exact aligned
    simp only [leftOver, multiple, ↓reduceIte]
  · rfl

/-- send_cmd reads a byte of a full piece, or sends the piece. -/
theorem sendFull_going {first s : State} {bytes : List UInt8} (going : Going first s)
    (pc : s.pc = .sendFull bytes) : Going first (main s) := by
  have flushing := (main_flushing going.flushing).1
  have knows := going.flushing.knows
  have read := going.read
  have records := going.records
  have queue : sx127xLoraMsgQueue = 64 := rfl
  simp only [Knows, ReadFrom, Records, pendingCount, pc] at knows read records
  by_cases more : bytes.length < sx127xLoraMsgQueue
  · apply going.stutter flushing (main_message s) (main_accepted s)
    all_goals simp only [main, pc, more, ↓reduceIte, pendingCount, pendingFrom, cursor, ReadFrom,
      Records, implies_true]
    · rw [← going.message] at read ⊢
      exact read_next read
    · exact records
  · have full : bytes.length = sx127xLoraMsgQueue := by omega
    have chunk := going.records_chunk (by simp only [pendingCount, pc]; omega)
    obtain ⟨_, aligned⟩ := going.placed (by simp only [pendingCount, pc]; omega)
    simp only [pendingFrom, pc] at aligned
    apply going.send sx127xLoraMsgQueue flushing (main_message s) (main_accepted s)
      (by decide) (Nat.le_refl _)
    all_goals simp only [main, pc, more, ↓reduceIte, pendingCount, pendingFrom, cursor, ReadFrom,
      Records, implies_true, and_self]
    · rw [full] at read
      rw [← read]
    · omega
    · intro _
      rw [queue] at aligned ⊢
      omega
    · simpa only [pendingCount, pc] using chunk

/-- send_cmd reads a byte of the last piece, or sends it. -/
theorem sendTail_going {first s : State} {length : Nat} {bytes : List UInt8}
    (going : Going first s) (pc : s.pc = .sendTail length bytes) : Going first (main s) := by
  have flushing := (main_flushing going.flushing).1
  have knows := going.flushing.knows
  have read := going.read
  have records := going.records
  have queue : sx127xLoraMsgQueue = 64 := rfl
  simp only [Knows, ReadFrom, Records, pendingCount, pc] at knows read records
  obtain ⟨counted, positive, below, _⟩ := knows
  by_cases more : bytes.length < length
  · apply going.stutter flushing (main_message s) (main_accepted s)
    all_goals simp only [main, pc, more, ↓reduceIte, pendingCount, pendingFrom, cursor, ReadFrom,
      Records, implies_true]
    · rw [← going.message] at read ⊢
      exact read_next read
    · exact records
  · have full : bytes.length = s.compteurin := by omega
    have pending : pendingCount s = s.compteurin := by simp only [pendingCount, pc]
    obtain ⟨total, aligned⟩ := going.placed (by omega)
    apply going.send s.compteurin flushing (main_message s) (main_accepted s)
      (by omega) (by omega)
    all_goals simp only [main, pc, more, ↓reduceIte, pendingCount, pendingFrom, cursor, ReadFrom,
      Records, Nat.lt_irrefl, false_implies, Nat.zero_add]
    · rw [full] at read
      rw [← read]
    · intro _
      simp only [pendingFrom, pc] at aligned
      rw [queue] at aligned below ⊢
      omega
    · refine ⟨going.unchanged (by omega), ?_⟩
      rw [queue] at aligned below ⊢
      omega

theorem main_going {first s : State} (going : Going first s) : Going first (main s) := by
  have flushing := (main_flushing going.flushing).1
  have knows := going.flushing.knows
  have bounded := going.flushing.bounded
  have records := going.records
  cases pc : s.pc <;> simp only [Knows, Records, pendingCount, pc] at knows records
  case sendFull bytes => exact sendFull_going going pc
  case sendTail length bytes => exact sendTail_going going pc
  case testFull =>
    by_cases full : sx127xLoraMsgQueue ≤ s.compteurin
    all_goals
      apply going.stutter flushing (main_message s) (main_accepted s)
      all_goals simp only [main, pc, full, ↓reduceIte, pendingCount, pendingFrom, cursor, ReadFrom,
        Records, implies_true, List.length_nil, Cells.slice_zero]
      exact records
  case testMore =>
    by_cases more : 0 < s.compteurin
    all_goals
      apply going.stutter flushing (main_message s) (main_accepted s)
      all_goals simp only [main, pc, more, ↓reduceIte, pendingCount, pendingFrom, cursor, ReadFrom,
        Records, implies_true, false_implies]
      exact records
  case testReceived =>
    have none : ¬0 < s.compteurin := by omega
    apply going.stutter flushing (main_message s) (main_accepted s)
    all_goals simp only [main, pc, none, ↓reduceIte, pendingCount, pendingFrom, cursor, ReadFrom,
      Records, implies_true]
    exact records
  case subWrite counted =>
    have reduced := u32Sub_queue knows.2 (by omega)
    apply going.stutter flushing (main_message s) (main_accepted s)
    all_goals simp only [main, pc, reduced, pendingCount, pendingFrom, cursor, ReadFrom, Records,
      implies_true]
    exact records
  case clear =>
    apply going.stutter flushing (main_message s) (main_accepted s)
    all_goals simp only [main, pc, pendingCount, pendingFrom, cursor, ReadFrom, Records,
      implies_true]
    exact records
  case clearOld =>
    apply going.stutter flushing (main_message s) (main_accepted s)
    all_goals simp only [main, pc, pendingCount, pendingFrom, cursor, ReadFrom, Records,
      implies_true, knows, ↓reduceIte, leftOver, records.2]
  case announce =>
    apply going.stutter flushing (main_message s) (main_accepted s)
    all_goals simp only [main, pc, pendingCount, pendingFrom, cursor, ReadFrom, Records,
      implies_true]
    · exact fun none => absurd none (Nat.ne_of_gt knows)
    · exact records
  all_goals
    apply going.stutter flushing (main_message s) (main_accepted s)
    all_goals simp only [main, pc, pendingCount, pendingFrom, cursor, ReadFrom, Records,
      implies_true, List.length_nil, Cells.slice_zero]
    exact records

theorem step_going {first : State} (s : State) (action : Action) (t : State)
    (going : Going first s) (undisturbed : Undisturbed action) (taken : step s action = some t) :
    Going first t := by
  have flushing := step_flushing s action t going.flushing undisturbed taken
  cases action with
  | uart val => exact absurd undisturbed id
  | main =>
      cases taken
      exact main_going going
  | busy =>
      obtain ⟨_, rfl⟩ | ⟨length, pc, rfl⟩ := busy_eq taken
      · exact going
      · have records := going.records
        simp only [Records, pendingCount, pc] at records
        refine going.stutter flushing rfl rfl rfl ?_ ?_ ?_ trivial records
        all_goals simp only [pendingCount, pendingFrom, cursor, pc, implies_true]

/-- After the flush everything has been sent. -/
theorem Going.ended {first t : State} (going : Going first t) (outside : ¬InFlush t) :
    t.sent = first.sent ++ Cells.pieces first.message sx127xLoraMsgQueue first.compteurin ∧
      t.compteurin = 0 ∧ t.oldcompteurin = leftOver first.oldcompteurin first.compteurin ∧
      t.indice = first.compteurin / sx127xLoraMsgQueue * sx127xLoraMsgQueue := by
  have rests := going.rests
  have knows := going.flushing.knows
  have sent := going.sent
  have records := going.records
  cases pc : t.pc <;> simp only [InFlush, pc, not_true_eq_false] at outside
  all_goals simp only [Knows, pendingCount, cursor, Records, pc] at knows sent rests records
  all_goals
    rw [knows, Nat.sub_zero] at sent
    simp only [knows, ↓reduceIte] at records
    exact ⟨sent, knows, records, rests knows⟩

/-- What one busy reply adds to the work of a flush: reading the tail's length again. -/
def retries : Action → Nat
  | .busy => 70
  | _ => 0

theorem step_pays (s : State) (action : Action) (t : State) (flushing : Flushing s)
    (undisturbed : Undisturbed action) (inside : InFlush s) (taken : step s action = some t) :
    Flushing t ∧ work t < work s + retries action := by
  refine ⟨step_flushing s action t flushing undisturbed taken, ?_⟩
  cases action with
  | uart val => exact absurd undisturbed id
  | main =>
      cases taken
      exact (main_flushing flushing).2 inside
  | busy =>
      obtain ⟨_, rfl⟩ | ⟨length, pc, rfl⟩ := busy_eq taken
      · simp only [retries]
        omega
      · have knows := flushing.knows
        simp only [Knows, pc] at knows
        simp only [work, retries, pc, List.length_nil]
        omega

/-- A flush takes no more steps than its bytes and its busy replies account for. -/
theorem flush_length {first t : State} {flush : List Action} (flushing : Flushing first)
    (undisturbed : ∀ action ∈ flush, Undisturbed action)
    (inside : Always step InFlush first flush) (reached : execute step first flush = some t) :
    flush.length ≤ work first + 70 * flush.count .busy := by
  have met := meets_of_forall step first undisturbed
  have bound := amortized step_pays flushing met inside reached
  have costs : total retries flush = 70 * flush.count .busy := by
    clear met bound reached inside undisturbed
    induction flush with
    | nil => rfl
    | cons action rest ih =>
        rw [total, ih, List.count_cons]
        cases action <;> simp only [retries, beq_iff_eq, reduceCtorEq, ↓reduceIte] <;> omega
  omega

/-- The station with the UART bytes that have arrived since its last flush. -/
structure Watched where
  station : State
  since : List UInt8

def arrives : Action → List UInt8
  | .uart val => [val]
  | _ => []

/-- A flush that ends starts the list anew. -/
def watchedStep (w : Watched) (action : Action) : Option Watched :=
  (step w.station action).map fun station =>
    ⟨station, if InFlush w.station ∧ ¬InFlush station then []
      else w.since ++ arrives action⟩

/-- No UART byte is handled during a flush. -/
def Apart (w : Watched) : Action → Prop
  | .uart _ => ¬InFlush w.station
  | _ => True

instance (w : Watched) (action : Action) : Decidable (Apart w action) :=
  match action with
  | .uart _ => inferInstanceAs (Decidable (¬InFlush w.station))
  | .main | .busy => isTrue trivial

/-- `since` counted and cut at BUFSIZE is what the buffer holds. -/
structure Holds (s : State) (since : List UInt8) : Prop where
  counted : s.compteurin = min since.length bufsize
  bytes : Cells.slice s.message 0 s.compteurin = since.take bufsize

theorem Holds.carry {s t : State} {since : List UInt8} (holds : Holds s since)
    (message : t.message = s.message) (compteurin : t.compteurin = s.compteurin) :
    Holds t since := by
  refine ⟨compteurin.trans holds.counted, ?_⟩
  rw [message, compteurin]
  exact holds.bytes

theorem rstxThread_holds {s : State} {since : List UInt8} (val : UInt8) (holds : Holds s since) :
    Holds (rstxThread s val) (since ++ [val]) := by
  obtain ⟨counted, bytes⟩ := holds
  have taken : (since.take bufsize).length = min bufsize since.length := List.length_take
  by_cases room : s.compteurin < bufsize
  · have short : since.length < bufsize := by omega
    have stored := Cells.slice_store_append s.message 0 s.compteurin [val]
    rw [Nat.zero_add] at stored
    simp only [rstxThread, room, ↓reduceIte]
    refine ⟨by simp only [List.length_append, List.length_singleton]; omega, ?_⟩
    refine stored.trans ?_
    rw [bytes, List.take_of_length_le (Nat.le_of_lt short), List.take_of_length_le]
    rw [List.length_append, List.length_singleton]
    exact short
  · have long : bufsize ≤ since.length := by omega
    simp only [rstxThread, room, ↓reduceIte]
    refine ⟨by rw [List.length_append]; omega, ?_⟩
    rw [bytes, List.take_append_of_le_length long]

theorem holds_nil {s : State} (none : s.compteurin = 0) : Holds s [] := by
  constructor
  all_goals
    rw [none]
    rfl

/-- A byte that has arrived is counted. -/
theorem Holds.positive {s : State} {since : List UInt8} {val : UInt8}
    (holds : Holds s (since ++ [val])) : 0 < s.compteurin := by
  rw [holds.counted, List.length_append, List.length_singleton]
  exact Nat.lt_min.mpr ⟨Nat.succ_pos _, by decide⟩

/-- Outside a flush, and at its start, the buffer holds what has arrived since the last one. -/
structure Gathered (w : Watched) : Prop where
  holds : ¬InFlush w.station ∨ w.station.pc = .announce → Holds w.station w.since
  silence : w.station.pc = .testSilence → 0 < w.station.compteurin
  flushing : InFlush w.station → Flushing w.station

/-- Once a flush has left its start, nothing is asked of the buffer before it has ended. -/
theorem Gathered.within {w : Watched} (flushing : Flushing w.station)
    (inside : InFlush w.station) (ahead : w.station.pc ≠ .announce) : Gathered w := by
  refine ⟨?_, ?_, fun _ => flushing⟩
  · rintro (outside | starting)
    · exact absurd inside outside
    · exact absurd starting ahead
  · intro testing
    rw [InFlush, testing] at inside
    exact inside.elim

/-- A flush starts at the silence test only. -/
theorem main_not_announce {s : State} (inside : InFlush s) : (main s).pc ≠ .announce := by
  cases pc : s.pc <;> simp only [InFlush, pc] at inside
  all_goals
    simp only [main, pc]
    try split
  all_goals exact Pc.noConfusion

theorem busy_inFlush {s t : State} (taken : busy s = some t) :
    InFlush s ∧ InFlush t ∧ t.pc ≠ .announce := by
  obtain ⟨pc, rfl⟩ | ⟨length, pc, rfl⟩ := busy_eq taken
  · refine ⟨?_, ?_, by rw [pc]; exact Pc.noConfusion⟩ <;> simp only [InFlush, pc]
  · exact ⟨by simp only [InFlush, pc], trivial, Pc.noConfusion⟩

/-- An access of main outside a flush leaves the buffer alone. -/
theorem main_outside {s : State} {since : List UInt8} (outside : ¬InFlush s)
    (holds : Holds s since) (silence : s.pc = .testSilence → 0 < s.compteurin) :
    Holds (main s) since ∧ ((main s).pc = .testSilence → 0 < (main s).compteurin) ∧
      (InFlush (main s) → Flushing (main s)) := by
  have bounded : s.compteurin ≤ bufsize := by have := holds.counted; omega
  cases pc : s.pc <;> simp only [InFlush, pc, not_true_eq_false] at outside
  case asleep | record =>
    simp only [main, pc]
    exact ⟨holds.carry rfl rfl, fun next => Pc.noConfusion next, fun inside => inside.elim⟩
  case testReceived =>
    by_cases arrived : 0 < s.compteurin
    · simp only [main, pc, arrived, ↓reduceIte]
      exact ⟨holds.carry rfl rfl, fun _ => trivial, fun inside => inside.elim⟩
    · simp only [main, pc, arrived, ↓reduceIte]
      exact ⟨holds.carry rfl rfl, fun next => Pc.noConfusion next, fun inside => inside.elim⟩
  case testSilence =>
    have positive := silence pc
    by_cases silent : s.compteurin = s.oldcompteurin
    · have moved : main s = { s with pc := .announce } := by
        simp only [main, pc, silent, ↓reduceIte]
      rw [moved]
      exact ⟨holds.carry rfl rfl, fun next => Pc.noConfusion next, fun _ => ⟨positive, bounded⟩⟩
    · simp only [main, pc, silent, ↓reduceIte]
      exact ⟨holds.carry rfl rfl, fun next => Pc.noConfusion next, fun inside => inside.elim⟩

theorem step_gathered (w : Watched) (action : Action) (v : Watched) (gathered : Gathered w)
    (apart : Apart w action) (taken : watchedStep w action = some v) : Gathered v := by
  rw [watchedStep, Option.map_eq_some_iff] at taken
  obtain ⟨t, moved, rfl⟩ := taken
  obtain ⟨holds, silence, flushing⟩ := gathered
  cases action with
  | uart val =>
      cases moved
      have same : (rstxThread w.station val).pc = w.station.pc := rstxThread_pc w.station val
      have outside : ¬InFlush w.station := apart
      have later : ¬InFlush (rstxThread w.station val) := by
        rw [InFlush, same]
        exact outside
      have stored := rstxThread_holds val (holds (Or.inl outside))
      simp only [outside, false_and, ↓reduceIte, arrives]
      exact ⟨fun _ => stored, fun _ => stored.positive, fun inside => absurd inside later⟩
  | main =>
      cases moved
      by_cases inside : InFlush w.station
      · have after := (main_flushing (flushing inside)).1
        by_cases still : InFlush (main w.station)
        · exact Gathered.within after still (main_not_announce inside)
        · obtain ⟨none, away⟩ := after.emptied still
          simp only [inside, still, not_false_eq_true, and_self, ↓reduceIte]
          exact ⟨fun _ => holds_nil none, fun testing => absurd testing away, fun reentered =>
            absurd reentered still⟩
      · have calm := main_outside inside (holds (Or.inl inside)) silence
        simp only [inside, false_and, ↓reduceIte, arrives, List.append_nil]
        exact ⟨fun _ => calm.1, calm.2.1, calm.2.2⟩
  | busy =>
      obtain ⟨inside, still, ahead⟩ := busy_inFlush moved
      exact Gathered.within (busy_flushing (flushing inside) moved) still ahead

theorem start_gathered : Gathered ⟨start, []⟩ :=
  ⟨fun _ => ⟨rfl, rfl⟩, fun testing => Pc.noConfusion testing, fun inside => inside.elim⟩

/-- In a run where no UART byte is handled during a flush, each flush finds the first BUFSIZE
bytes since the last one. Whatever replies its sends get, it ends, and by then it has sent
them in pieces, once each and in order, and emptied the buffer. -/
theorem flush_sends_pieces (actions : List Action) (w : Watched)
    (apart : Meets watchedStep Apart ⟨start, []⟩ actions)
    (reached : execute watchedStep ⟨start, []⟩ actions = some w)
    (starting : w.station.pc = .announce) :
    (0 < w.station.compteurin ∧ w.station.compteurin ≤ bufsize ∧
      Cells.slice w.station.message 0 w.station.compteurin = w.since.take bufsize) ∧
    ∀ flush t, (∀ action ∈ flush, Undisturbed action) →
      execute step w.station flush = some t →
      (Always step InFlush w.station flush →
        flush.length ≤ 100 * w.station.compteurin + 93 + 70 * flush.count .busy) ∧
      (¬InFlush t → ∃ payloads, t.sent = w.station.sent ++ payloads ∧
        payloads = Cells.pieces w.station.message sx127xLoraMsgQueue w.station.compteurin ∧
        payloads.length = (w.station.compteurin + sx127xLoraMsgQueue - 1) / sx127xLoraMsgQueue ∧
        (∀ payload ∈ payloads, 0 < payload.length ∧ payload.length ≤ sx127xLoraMsgQueue) ∧
        payloads.flatten = w.since.take bufsize ∧ t.compteurin = 0) := by
  have gathered := invariant step_gathered start_gathered apart reached
  have inside : InFlush w.station := by
    unfold InFlush
    rw [starting]
    trivial
  have holds := gathered.holds (Or.inr starting)
  have flushing := gathered.flushing inside
  have positive : 0 < w.station.compteurin := by
    have knows := flushing.knows
    unfold Knows at knows
    rwa [starting] at knows
  refine ⟨⟨positive, flushing.bounded, holds.bytes⟩, ?_⟩
  intro flush t undisturbed ran
  refine ⟨?_, ?_⟩
  · intro going
    have bound := flush_length flushing undisturbed going ran
    rwa [work, starting] at bound
  · intro outside
    have met := meets_of_forall step w.station undisturbed
    have going := invariant step_going (start_going starting positive flushing.bounded) met ran
    obtain ⟨sent, none, _⟩ := going.ended outside
    refine ⟨_, sent, rfl, Cells.pieces_length _ _ _, fun payload =>
      Cells.length_of_mem_pieces, ?_, none⟩
    rw [Cells.flatten_pieces _ (by decide : 0 < sx127xLoraMsgQueue), holds.bytes]

/-- 65 bytes, up to the start of their flush. -/
def gather : List Action := List.replicate 65 (.uart 7) ++ List.replicate 7 .main

/-- Their flush, in two pieces that both find the radio busy. -/
def twoPieces : List Action :=
  List.replicate 2 .main ++ .busy :: List.replicate 72 .main ++ .busy :: List.replicate 6 .main

theorem flush_sends_pieces_once :
    ∃ w t payloads, execute watchedStep ⟨start, []⟩ gather = some w ∧
      execute step w.station twoPieces = some t ∧ t.sent = w.station.sent ++ payloads ∧
      payloads.length = 2 ∧ payloads.flatten = w.since.take bufsize ∧ t.compteurin = 0 := by
  have gathers : (execute watchedStep ⟨start, []⟩ gather).map (fun w => (w.station.pc,
      w.station.compteurin, (execute step w.station twoPieces).map fun t => decide (InFlush t))) =
        some (.announce, 65, some false) := by decide +kernel
  obtain ⟨w, reached, found⟩ := Option.map_eq_some_iff.mp gathers
  simp only [Prod.mk.injEq, Option.map_eq_some_iff, decide_eq_false_iff_not] at found
  obtain ⟨starting, counted, t, ran, outside⟩ := found
  have undisturbed : ∀ action ∈ twoPieces, Undisturbed action := by decide
  obtain ⟨payloads, sent, _, count, _, whole, none⟩ :=
    ((flush_sends_pieces gather w (by decide +kernel) reached starting).2 twoPieces t undisturbed
      ran).2 outside
  rw [counted] at count
  exact ⟨w, t, payloads, reached, ran, sent, count, whole, none⟩

end RiotNyAlesund.Gps.Base
