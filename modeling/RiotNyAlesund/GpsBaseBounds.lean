import RiotNyAlesund.Gps
import RiotNyAlesund.Transition

set_option autoImplicit false

namespace RiotNyAlesund.Gps.Base

open Transition

/-- Every access to `message` main or the UART thread is about to make lies inside it, and
the subtraction main is about to store does not wrap. -/
structure InBounds (s : State) : Prop where
  stored : ∀ val index, bufsize ≤ index → (rstxThread s val).message index = s.message index
  full : ∀ read, s.pc = .sendFull read → s.indice + sx127xLoraMsgQueue ≤ bufsize
  tail : ∀ length read, s.pc = .sendTail length read → s.indice + length ≤ bufsize
  reduced : ∀ counted, s.pc = .subWrite counted → sx127xLoraMsgQueue ≤ counted

/-- One past the last byte of `message` that main is still going to send. -/
def reach (s : State) : Nat :=
  match s.pc with
  | .asleep | .testReceived | .testSilence | .record | .announce => s.compteurin
  | .subRead => s.indice + s.compteurin - sx127xLoraMsgQueue
  | .subWrite counted => s.indice + counted - sx127xLoraMsgQueue
  | .sendTail length _ => s.indice + length
  | .clear => s.indice
  | _ => s.indice + s.compteurin

/-- Inside a flush no UART byte is stored once main is to send up to the end of the buffer,
unless the counter that includes it is overwritten before it is read. A last piece that is
busy is no longer than the rest of the buffer when its length is read again. -/
def Roomy (s : State) : Action → Prop
  | .uart _ =>
      match s.pc with
      | .asleep | .testReceived | .testSilence | .record | .announce => True
      | .subWrite _ | .sendTail _ _ | .clear => True
      | _ => s.compteurin < bufsize → reach s < bufsize
  | .main => True
  | .busy =>
      match s.pc with
      | .sendTail _ _ => s.indice + s.compteurin ≤ bufsize
      | _ => True

/-- Where a byte that is stored has to find room. -/
def Pc.exposed : Pc → Bool
  | .asleep | .testReceived | .testSilence | .record | .announce => false
  | .subWrite _ | .sendTail _ _ | .clear => false
  | _ => true

/-- Where a busy reply has the length of a piece read again. -/
def Pc.sendsTail : Pc → Bool
  | .sendTail _ _ => true
  | _ => false

instance (s : State) (action : Action) : Decidable (Roomy s action) :=
  match action with
  | .uart _ => decidable_of_iff
      (s.pc.exposed = true → s.compteurin < bufsize → reach s < bufsize)
      (by cases pc : s.pc <;> simp [Roomy, Pc.exposed, pc])
  | .main => isTrue trivial
  | .busy => decidable_of_iff (s.pc.sendsTail = true → s.indice + s.compteurin ≤ bufsize)
      (by cases pc : s.pc <;> simp [Roomy, Pc.sendsTail, pc])

/-- The counter is within the buffer, and main reduces one that was at least a chunk. -/
structure Counted (s : State) : Prop where
  bounded : s.compteurin ≤ bufsize
  chunk : match s.pc with
    | .sendFull _ | .advance | .subRead => sx127xLoraMsgQueue ≤ s.compteurin
    | .subWrite counted => sx127xLoraMsgQueue ≤ counted ∧ counted ≤ bufsize
    | _ => True

theorem start_counted : Counted start := ⟨Nat.zero_le _, trivial⟩

theorem rstxThread_counted {s : State} (val : UInt8) (counted : Counted s) :
    Counted (rstxThread s val) := by
  obtain ⟨bounded, chunk⟩ := counted
  by_cases room : s.compteurin < bufsize
  · simp only [rstxThread, room, ↓reduceIte]
    refine ⟨room, ?_⟩
    cases pc : s.pc <;> simp only [pc] at chunk ⊢
    all_goals omega
  · simp only [rstxThread, room, ↓reduceIte]
    exact ⟨bounded, chunk⟩

theorem main_counted {s : State} (counted : Counted s) : Counted (main s) := by
  obtain ⟨bounded, chunk⟩ := counted
  cases pc : s.pc <;> simp only [pc] at chunk
  case testReceived =>
    by_cases arrived : 0 < s.compteurin
    all_goals
      simp only [main, pc, arrived, ↓reduceIte]
      exact ⟨bounded, trivial⟩
  case testSilence =>
    by_cases silent : s.compteurin = s.oldcompteurin
    all_goals
      simp only [main, pc, silent, ↓reduceIte]
      exact ⟨by dsimp only; omega, trivial⟩
  case testFull =>
    by_cases full : sx127xLoraMsgQueue ≤ s.compteurin
    · simp only [main, pc, full, ↓reduceIte]
      exact ⟨bounded, full⟩
    · simp only [main, pc, full, ↓reduceIte]
      exact ⟨bounded, trivial⟩
  case sendFull read =>
    by_cases more : read.length < sx127xLoraMsgQueue
    all_goals
      simp only [main, pc, more, ↓reduceIte]
      exact ⟨bounded, chunk⟩
  case subRead =>
    simp only [main, pc]
    exact ⟨bounded, chunk, bounded⟩
  case subWrite counted =>
    have reduced := u32Sub_queue chunk.1 chunk.2
    simp only [main, pc, reduced]
    exact ⟨by dsimp only; omega, trivial⟩
  case sendTail length read =>
    by_cases more : read.length < length
    all_goals
      simp only [main, pc, more, ↓reduceIte]
      exact ⟨bounded, trivial⟩
  case testMore =>
    by_cases more : 0 < s.compteurin
    all_goals
      simp only [main, pc, more, ↓reduceIte]
      exact ⟨bounded, trivial⟩
  case advance =>
    simp only [main, pc]
    exact ⟨bounded, chunk⟩
  case clear =>
    simp only [main, pc]
    exact ⟨Nat.zero_le _, trivial⟩
  all_goals
    simp only [main, pc]
    exact ⟨bounded, trivial⟩

theorem busy_counted {s t : State} (counted : Counted s) (taken : busy s = some t) :
    Counted t := by
  obtain ⟨_, rfl⟩ | ⟨_, _, rfl⟩ := busy_eq taken
  · exact counted
  · exact ⟨counted.bounded, trivial⟩

theorem step_counted (s : State) (action : Action) (t : State) (counted : Counted s)
    (taken : step s action = some t) : Counted t := by
  cases action with
  | uart val =>
      cases taken
      exact rstxThread_counted val counted
  | main =>
      cases taken
      exact main_counted counted
  | busy => exact busy_counted counted taken

/-- Main's own accesses only bring down what is still to be sent. -/
theorem main_reach {s : State} (counted : Counted s) : reach (main s) ≤ reach s := by
  obtain ⟨bounded, chunk⟩ := counted
  cases pc : s.pc <;> simp only [pc] at chunk
  case testReceived =>
    by_cases arrived : 0 < s.compteurin <;>
      simp only [main, reach, pc, arrived, ↓reduceIte, Nat.le_refl]
  case testSilence =>
    by_cases silent : s.compteurin = s.oldcompteurin <;>
      simp only [main, reach, pc, silent, ↓reduceIte, Nat.le_refl]
  case testFull =>
    by_cases full : sx127xLoraMsgQueue ≤ s.compteurin <;>
      simp only [main, reach, pc, full, ↓reduceIte, Nat.le_refl]
  case sendFull read =>
    by_cases more : read.length < sx127xLoraMsgQueue <;>
      simp only [main, reach, pc, more, ↓reduceIte, Nat.le_refl]
  case sendTail length read =>
    by_cases more : read.length < length <;>
      simp only [main, reach, pc, more, ↓reduceIte, Nat.le_refl, Nat.le_add_right]
  case testMore =>
    by_cases more : 0 < s.compteurin <;>
      simp only [main, reach, pc, more, ↓reduceIte, Nat.le_refl, Nat.le_add_left]
  case subWrite counted =>
    have reduced := u32Sub_queue chunk.1 chunk.2
    simp only [main, reach, pc, reduced]
    omega
  all_goals
    simp only [main, reach, pc]
    omega

/-- The step of the UART thread or of a busy driver keeps the bytes still to be sent inside
the buffer exactly where there is room. -/
theorem reach_iff_roomy (s : State) (action : Action) (t : State) (counted : Counted s)
    (inside : reach s ≤ bufsize) (taken : step s action = some t) :
    reach t ≤ bufsize ↔ Roomy s action := by
  cases action with
  | uart val =>
      cases taken
      have bounded := (rstxThread_counted val counted).bounded
      obtain ⟨_, chunk⟩ := counted
      by_cases room : s.compteurin < bufsize
      · simp only [rstxThread, room, ↓reduceIte] at bounded ⊢
        cases pc : s.pc <;> simp only [pc, reach, Roomy, iff_true] at chunk inside ⊢
        all_goals omega
      · simp only [rstxThread, room, ↓reduceIte]
        cases pc : s.pc <;> simp only [pc, Roomy, room, false_implies, iff_true]
        all_goals exact inside
  | main =>
      cases taken
      exact iff_of_true (Nat.le_trans (main_reach counted) inside) trivial
  | busy =>
      obtain ⟨pc, rfl⟩ | ⟨length, pc, rfl⟩ := busy_eq taken
      · simp only [Roomy, pc, iff_true]
        exact inside
      · simp only [Roomy, reach, pc]

theorem inBounds_of_reach {s : State} (counted : Counted s) (inside : reach s ≤ bufsize) :
    InBounds s := by
  obtain ⟨_, chunk⟩ := counted
  refine ⟨?_, ?_, ?_, ?_⟩
  · intro val index outside
    by_cases room : s.compteurin < bufsize
    · simp only [rstxThread, room, ↓reduceIte]
      have beyond : ([val] : List UInt8)[index - s.compteurin]? = none := by
        rw [List.getElem?_eq_none_iff, List.length_singleton]
        omega
      simp only [Cells.store, beyond, Option.getD_none, ite_self]
    · simp only [rstxThread, room, ↓reduceIte]
  · intro read pc
    simp only [pc, reach] at chunk inside
    omega
  · intro length read pc
    simpa only [pc, reach] using inside
  · intro counted pc
    simp only [pc] at chunk
    exact chunk.1

/-- Where main's next slice starts is inside the buffer, as long as every slice was. -/
def Placed (s : State) : Prop :=
  match s.pc with
  | .asleep | .testReceived | .testSilence | .record | .announce => True
  | .sendFull _ | .advance => s.indice + sx127xLoraMsgQueue ≤ bufsize
  | _ => s.indice ≤ bufsize

theorem step_placed {s t : State} {action : Action} (placed : Placed s)
    (taken : step s action = some t) (inside : InBounds t) : Placed t := by
  cases action with
  | uart val =>
      cases taken
      unfold rstxThread
      split <;> exact placed
  | main =>
      cases taken
      cases pc : s.pc <;> simp only [Placed, pc] at placed
      case testFull =>
        by_cases full : sx127xLoraMsgQueue ≤ s.compteurin
        · have fits := inside.full [] (by simp only [main, pc, full, ↓reduceIte])
          simpa only [main, Placed, pc, full, ↓reduceIte] using fits
        · simpa only [main, Placed, pc, full, ↓reduceIte] using placed
      case sendFull read =>
        by_cases more : read.length < sx127xLoraMsgQueue <;>
          simpa only [main, Placed, pc, more, ↓reduceIte] using placed
      case sendTail length read =>
        by_cases more : read.length < length <;>
          simpa only [main, Placed, pc, more, ↓reduceIte] using placed
      case testReceived =>
        by_cases arrived : 0 < s.compteurin <;> simp only [main, Placed, pc, arrived, ↓reduceIte]
      case testSilence =>
        by_cases silent : s.compteurin = s.oldcompteurin <;>
          simp only [main, Placed, pc, silent, ↓reduceIte]
      case testMore =>
        by_cases more : 0 < s.compteurin <;> simp only [main, Placed, pc, more, ↓reduceIte]
        exact placed
      case announce =>
        simp only [main, Placed, pc]
        exact Nat.zero_le _
      case asleep | record => simp only [main, Placed, pc]
      all_goals simpa only [main, Placed, pc] using placed
  | busy =>
      obtain ⟨_, rfl⟩ | ⟨length, pc, rfl⟩ := busy_eq taken
      · exact placed
      · simpa only [Placed, pc] using placed

/-- main is going to read past the end of the buffer, and has not done so yet. -/
structure Overrun (s : State) : Prop where
  counted : Counted s
  placed : Placed s
  beyond : bufsize < reach s

/-- Where an overrun state is in bounds, only its next accesses are not. -/
theorem Overrun.pc_ne {s : State} (overrun : Overrun s) (inside : InBounds s) :
    InFlush s ∧ s.pc ≠ .announce ∧ s.pc ≠ .clear ∧
      ∀ length read, s.pc ≠ .sendTail length read := by
  obtain ⟨⟨bounded, _⟩, placed, beyond⟩ := overrun
  refine ⟨?_, ?_, ?_, ?_⟩
  · cases pc : s.pc <;> simp only [InFlush, pc, reach] at beyond ⊢
    all_goals omega
  · intro pc
    simp only [reach, pc] at beyond
    omega
  · intro pc
    simp only [Placed, reach, pc] at placed beyond
    omega
  · intro length read pc
    have fits := inside.tail length read pc
    simp only [reach, pc] at beyond
    omega

theorem rstxThread_overrun {s : State} (val : UInt8) (overrun : Overrun s) :
    bufsize < reach (rstxThread s val) := by
  obtain ⟨_, _, beyond⟩ := overrun
  by_cases room : s.compteurin < bufsize
  · simp only [rstxThread, room, ↓reduceIte]
    cases pc : s.pc <;> simp only [pc, reach] at beyond ⊢
    all_goals omega
  · simp only [rstxThread, room, ↓reduceIte]
    exact beyond

theorem main_overrun {s : State} (overrun : Overrun s) (inside : InBounds s) :
    bufsize < reach (main s) := by
  obtain ⟨flushing, ahead, uncleared, notTail⟩ := overrun.pc_ne inside
  obtain ⟨⟨bounded, chunk⟩, placed, beyond⟩ := overrun
  cases pc : s.pc <;> simp only [InFlush, Placed, reach, pc] at chunk placed beyond flushing
  case announce => exact absurd pc ahead
  case clear => exact absurd pc uncleared
  case sendTail length read => exact absurd pc (notTail length read)
  case testFull =>
    by_cases full : sx127xLoraMsgQueue ≤ s.compteurin <;>
      simpa only [main, reach, pc, full, ↓reduceIte] using beyond
  case sendFull read =>
    by_cases more : read.length < sx127xLoraMsgQueue <;>
      simpa only [main, reach, pc, more, ↓reduceIte] using beyond
  case testMore =>
    have more : 0 < s.compteurin := by omega
    simpa only [main, reach, pc, more, ↓reduceIte] using beyond
  case subWrite counted =>
    have reduced := u32Sub_queue chunk.1 chunk.2
    simp only [main, reach, pc, reduced]
    omega
  all_goals
    simp only [main, reach, pc]
    omega

/-- No step brings an overrun back inside the buffer. -/
theorem step_overrun {s t : State} {action : Action} (overrun : Overrun s) (inside : InBounds s)
    (taken : step s action = some t) (later : InBounds t) : Overrun t := by
  refine ⟨step_counted s action t overrun.counted taken,
    step_placed overrun.placed taken later, ?_⟩
  cases action with
  | uart val =>
      cases taken
      exact rstxThread_overrun val overrun
  | main =>
      cases taken
      exact main_overrun overrun inside
  | busy =>
      obtain ⟨_, rfl⟩ | ⟨length, pc, _⟩ := busy_eq taken
      · exact overrun.beyond
      · exact absurd pc ((overrun.pc_ne inside).2.2.2 length [])

/-- Bound on main's accesses before it reads past the end of the buffer. -/
def toOverrun (s : State) : Nat :=
  match s.pc with
  | .sendFull read => 2 * (bufsize - s.indice) + 10 + (sx127xLoraMsgQueue - read.length)
  | .advance => 2 * (bufsize - s.indice) + 9
  | .subRead => 2 * (bufsize - s.indice) + 99
  | .subWrite _ => 2 * (bufsize - s.indice) + 98
  | .clearOld => 2 * (bufsize - s.indice) + 97
  | .pause => 2 * (bufsize - s.indice) + 97
  | .testMore => 2 * (bufsize - s.indice) + 96
  | .testFull => 2 * (bufsize - s.indice) + 95
  | .tailLength => 2 * (bufsize - s.indice) + 1
  | _ => 0

theorem main_toOverrun {s : State} (overrun : Overrun s) (inside : InBounds s) :
    toOverrun (main s) < toOverrun s := by
  obtain ⟨flushing, ahead, uncleared, notTail⟩ := overrun.pc_ne inside
  obtain ⟨_, placed, beyond⟩ := overrun
  have queue : sx127xLoraMsgQueue = 64 := rfl
  cases pc : s.pc <;> simp only [InFlush, Placed, reach, pc] at placed beyond flushing
  case announce => exact absurd pc ahead
  case clear => exact absurd pc uncleared
  case sendTail length read => exact absurd pc (notTail length read)
  case testFull =>
    by_cases full : sx127xLoraMsgQueue ≤ s.compteurin
    all_goals
      simp only [main, toOverrun, pc, full, ↓reduceIte, List.length_nil]
      omega
  case sendFull read =>
    by_cases more : read.length < sx127xLoraMsgQueue
    all_goals
      simp only [main, toOverrun, pc, more, ↓reduceIte, List.length_append, List.length_singleton]
      omega
  case testMore =>
    have more : 0 < s.compteurin := by omega
    simp only [main, toOverrun, pc, more, ↓reduceIte]
    omega
  all_goals
    simp only [main, toOverrun, pc]
    omega

/-- main on its own comes to read past the end of the buffer. -/
theorem overrun_leads_out {s : State} (overrun : Overrun s) :
    ∃ count t, execute step s (List.replicate count .main) = some t ∧ ¬InBounds t := by
  have nearer : ∀ s, (InBounds s → Overrun s) → ¬¬InBounds s →
      ∃ t, step s .main = some t ∧ (InBounds t → Overrun t) ∧ toOverrun t < toOverrun s := by
    intro s beyond inside
    have inside : InBounds s := Classical.not_not.mp inside
    have taken : step s .main = some (main s) := rfl
    exact ⟨main s, taken, fun later => step_overrun (beyond inside) inside taken later,
      main_toOverrun (beyond inside) inside⟩
  obtain ⟨count, t, reached, _, outside⟩ := repetition_leads_to nearer fun _ => overrun
  exact ⟨count, t, reached, outside⟩

/-- The run goes on with main alone, for as long as it likes. -/
def ContinuesInside (s : State) (actions : List Action) : Prop :=
  ∀ count, Always step InBounds s (actions ++ List.replicate count .main)

theorem ContinuesInside.rest {s t : State} {action : Action} {rest : List Action}
    (continues : ContinuesInside s (action :: rest)) (taken : step s action = some t) :
    ContinuesInside t rest := fun count => (continues count).2 t taken

/-- Where main never leaves the buffer, not even later, it is not going to. -/
theorem reach_of_continues {s t : State} {actions : List Action} (counted : Counted s)
    (placed : Placed s) (reached : execute step s actions = some t)
    (continues : ContinuesInside s actions) : reach s ≤ bufsize := by
  apply Nat.le_of_not_lt
  intro beyond
  have overrun : Overrun s := ⟨counted, placed, beyond⟩
  clear beyond counted placed
  induction actions generalizing s with
  | nil =>
      obtain ⟨count, final, ended, outside⟩ := overrun_leads_out overrun
      exact outside ((continues count).final ended)
  | cons action rest ih =>
      rw [execute_cons, Option.bind_eq_some_iff] at reached
      obtain ⟨next, taken, reached⟩ := reached
      have inside : InBounds s := (continues 0).1
      have later := continues.rest taken
      exact ih reached later (step_overrun overrun inside taken (later 0).start)

/-- A run and all that main does after it stay inside the buffer exactly when the bytes to
be sent never end past it. -/
theorem continues_iff_reach {s t : State} {actions : List Action} (counted : Counted s)
    (placed : Placed s) (reached : execute step s actions = some t) :
    ContinuesInside s actions ↔ Always step (fun s => reach s ≤ bufsize) s actions := by
  induction actions generalizing s with
  | nil =>
      constructor
      · exact reach_of_continues counted placed reached
      · intro inside count
        have keeps : ∀ (s : State) (action : Action) (t : State),
            Counted s ∧ reach s ≤ bufsize → action = .main → step s action = some t →
              Counted t ∧ reach t ≤ bufsize := by
          rintro s _ t ⟨counted, inside⟩ rfl taken
          cases taken
          exact ⟨main_counted counted, Nat.le_trans (main_reach counted) inside⟩
        have own : Meets step (fun _ action => action = .main) s (List.replicate count .main) :=
          meets_of_forall step s fun action member => List.eq_of_mem_replicate member
        exact (always_of_meets keeps ⟨counted, inside⟩ own).mono
          fun _ holds => inBounds_of_reach holds.1 holds.2
  | cons action rest ih =>
      have whole := reached
      rw [execute_cons, Option.bind_eq_some_iff] at reached
      obtain ⟨next, taken, reached⟩ := reached
      have kept := step_counted s action next counted taken
      constructor
      · intro continues
        have later := continues.rest taken
        have moved := step_placed placed taken (later 0).start
        refine ⟨reach_of_continues counted placed whole continues, fun next' taken' => ?_⟩
        obtain rfl : next = next' := Option.some.inj (taken.symm.trans taken')
        exact (ih kept moved reached).mp later
      · intro always count
        have inside := inBounds_of_reach counted always.1
        have later := always.2 next taken
        have moved := step_placed placed taken (inBounds_of_reach kept later.start)
        refine ⟨inside, fun next' taken' => ?_⟩
        obtain rfl : next = next' := Option.some.inj (taken.symm.trans taken')
        exact (ih kept moved reached).mpr later count

/-- Whatever main does after a run, every access of it and of the run lies in the buffer
exactly when the run left room for each byte it stored in the middle of a flush. -/
theorem in_bounds_iff (actions : List Action) (s : State)
    (reached : execute step start actions = some s) :
    (∀ count, Always step InBounds start (actions ++ List.replicate count .main)) ↔
      Meets step Roomy start actions := by
  have inside : reach start ≤ bufsize := Nat.zero_le _
  have same := always_iff_meets step_counted reach_iff_roomy actions start_counted inside
  exact (continues_iff_reach start_counted trivial reached).trans same

theorem in_bounds_iff_once :
    ∃ s, execute step start lateBytes = some s ∧
      ∀ count, Always step InBounds start (lateBytes ++ List.replicate count .main) :=
  ⟨_, rfl, (in_bounds_iff lateBytes _ rfl).mpr (by decide)⟩

/-- UART bytes on their own fill the buffer. -/
theorem uart_fills (val : UInt8) (count : Nat) (fits : count ≤ bufsize) :
    ∃ message accepted, execute step start (List.replicate count (.uart val)) =
      some { start with message := message, compteurin := count, accepted := accepted } := by
  induction count with
  | zero => exact ⟨_, _, rfl⟩
  | succ count ih =>
      obtain ⟨message, accepted, reached⟩ := ih (by omega)
      have room : count < bufsize := by omega
      rw [List.replicate_succ', execute_append_of_execute step _ reached]
      simp only [execute, step, rstxThread, room, ↓reduceIte, Option.bind_some]
      exact ⟨_, _, rfl⟩

/-- main on its own has the driver read a chunk byte by byte. -/
theorem driver_reads {s : State} (pc : s.pc = .sendFull []) (count : Nat)
    (short : count ≤ sx127xLoraMsgQueue) :
    execute step s (List.replicate count .main) =
      some { s with pc := .sendFull (Cells.slice s.message s.indice count) } := by
  induction count with
  | zero =>
      cases s
      cases pc
      rfl
  | succ count ih =>
      have reached := ih (by omega)
      have more : count < sx127xLoraMsgQueue := by omega
      rw [List.replicate_succ', execute_append_of_execute step _ reached, Cells.slice_succ]
      simp only [execute, step, main, Cells.slice_length, more, ↓reduceIte, Option.bind_some]

/-- The first chunk of a full buffer has been sent. -/
def chunkSent (message : Nat → UInt8) (accepted : List UInt8) : State where
  message := message
  compteurin := bufsize - sx127xLoraMsgQueue
  oldcompteurin := bufsize
  indice := sx127xLoraMsgQueue
  pc := .pause
  accepted := accepted
  sent := [Cells.slice message 0 sx127xLoraMsgQueue]

theorem full_buffer_sends (message : Nat → UInt8) (accepted : List UInt8) :
    execute step { start with message := message, compteurin := bufsize, accepted := accepted }
      (List.replicate 9 .main ++ (List.replicate sx127xLoraMsgQueue .main ++
        List.replicate 4 .main)) = some (chunkSent message accepted) := by
  have flushing : execute step
      { start with message := message, compteurin := bufsize, accepted := accepted }
      (List.replicate 9 .main) = some
        { start with message := message, compteurin := bufsize, oldcompteurin := bufsize,
                     accepted := accepted, pc := .sendFull [] } := rfl
  have reads := driver_reads (s :=
    { start with message := message, compteurin := bufsize, oldcompteurin := bufsize,
                 accepted := accepted, pc := .sendFull [] }) rfl _ (Nat.le_refl _)
  rw [execute_append_of_execute step _ flushing, execute_append_of_execute step _ reads]
  simp only [execute, step, List.replicate, Option.bind_some, main, Cells.slice_length,
    Nat.lt_irrefl, ↓reduceIte]
  rfl

/-- A byte stored in the middle of the flush of a full buffer is read from past its end. -/
theorem flush_reads_past_end :
    ¬ ∀ (actions : List Action) (s : State), execute step start actions = some s →
      InBounds s := by
  intro claim
  obtain ⟨message, accepted, filled⟩ := uart_fills 0 bufsize (Nat.le_refl _)
  have sent := full_buffer_sends message accepted
  have counted : Counted (rstxThread (chunkSent message accepted) 0) :=
    rstxThread_counted 0 ⟨by unfold chunkSent; dsimp only; omega, trivial⟩
  have overrun : Overrun (rstxThread (chunkSent message accepted) 0) :=
    ⟨counted, (by decide : 64 ≤ 3072), (by decide : 3072 < 64 + 3009)⟩
  obtain ⟨count, t, later, outside⟩ := overrun_leads_out overrun
  have taken : step (chunkSent message accepted) (.uart 0) =
    some (rstxThread (chunkSent message accepted) 0) := rfl
  rw [← execute_cons_of_step step _ taken, ← execute_append_of_execute step _ sent,
    ← execute_append_of_execute step _ filled] at later
  exact outside (claim _ t later)

end RiotNyAlesund.Gps.Base
