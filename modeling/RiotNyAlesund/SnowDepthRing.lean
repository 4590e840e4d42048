import RiotNyAlesund.SnowDepth
import RiotNyAlesund.Transition

set_option autoImplicit false

namespace RiotNyAlesund.SnowDepth

open Transition

/-- Number of carriage returns in the ring. -/
def lines (s : State) : Nat := s.ring.items.countP fun cell => cell.byte = cr

/-- Number of notifications in printer's queue. -/
def waiting (s : State) : Nat :=
  match s.queue with
  | none => 0
  | some queue => queue.items.length

/-- One while printer works on a notification whose line it has not finished. -/
def working (s : State) : Nat := if s.pc = .getOne then 1 else 0

/-- Every notification has its line in the ring, and printer never reads an empty ring. -/
def Backed (s : State) : Prop :=
  waiting s + working s ≤ lines s ∧ (s.pc = .getOne → s.ring.items ≠ [])

instance (s : State) : Decidable (Backed s) := inferInstanceAs (Decidable (_ ∧ _))

/-- A byte that overwrites a carriage return leaves one for every notification, or is a
carriage return that notifies no one. -/
def Spared (s : State) : Action → Prop
  | .rx data => uartBufsize ≤ s.ring.items.length → (oldest s).byte = cr →
      waiting s + working s < lines s ∨ (data = cr ∧ msgQueue ≤ waiting s)
  | _ => True

instance (s : State) (action : Action) : Decidable (Spared s action) := by
  unfold Spared
  split <;> infer_instance

/-- A line for the notification printer works on is a byte for it to read. -/
theorem backed_iff (s : State) : Backed s ↔ waiting s + working s ≤ lines s := by
  constructor
  · exact And.left
  · intro enough
    refine ⟨enough, ?_⟩
    intro reads none
    have empty : lines s = 0 := by rw [lines, none, List.countP_nil]
    have busy : working s = 1 := by rw [working, reads, if_pos rfl]
    omega

/-- Taking the oldest byte takes a line when it is a carriage return. -/
theorem rest_lines {s : State} (nonempty : s.ring.items ≠ []) :
    s.ring.items.tail.countP (fun cell => cell.byte = cr) +
      (if (oldest s).byte = cr then 1 else 0) = lines s := by
  obtain ⟨cell, rest, ring⟩ := List.exists_cons_of_ne_nil nonempty
  rw [lines, oldest_of_ring ring, ring, List.tail_cons, List.countP_cons]
  simp only [decide_eq_true_eq]

theorem rxCb_lines_of_room {s : State} (data : UInt8)
    (room : s.ring.items.length < uartBufsize) :
    lines (rxCb s data) = lines s + if data = cr then 1 else 0 := by
  rw [lines, rxCb_ring, Bounded.overwrite_of_room _ _ room, List.countP_append,
    List.countP_singleton, lines]
  simp only [decide_eq_true_eq]

theorem nonempty_of_full {s : State} (full : uartBufsize ≤ s.ring.items.length) :
    s.ring.items ≠ [] := by
  intro none
  rw [none] at full
  exact absurd full (by decide)

theorem rxCb_lines_of_full {s : State} (data : UInt8)
    (full : uartBufsize ≤ s.ring.items.length) :
    lines (rxCb s data) + (if (oldest s).byte = cr then 1 else 0) =
      lines s + if data = cr then 1 else 0 := by
  have rest := rest_lines (nonempty_of_full full)
  rw [lines, rxCb_ring, Bounded.overwrite_of_full _ _ (by decide) full, List.countP_append,
    List.countP_singleton]
  simp only [decide_eq_true_eq]
  omega

theorem rxCb_working (s : State) (data : UInt8) : working (rxCb s data) = working s := by
  rw [working, rxCb_pc, working]

/-- A carriage return adds a notification when printer has a queue with room. -/
theorem rxCb_waiting (s : State) (data : UInt8) :
    waiting (rxCb s data) = waiting s +
      if data = cr ∧ s.queue.isSome = true ∧ waiting s < msgQueue then 1 else 0 := by
  unfold waiting
  rw [rxCb_queue]
  by_cases line : data = cr
  · cases set : s.queue with
    | none => simp [line]
    | some queue =>
        by_cases room : queue.items.length < msgQueue
        · simp [line, room, Bounded.offer_of_room]
        · have full : msgQueue ≤ queue.items.length := by omega
          simp [line, room, Bounded.offer_of_full queue 1 full]
  · simp [line]

/-- Where an interrupt leaves every notification with its line. -/
theorem rxCb_backed_iff {s : State} (data : UInt8) (ordered : Ordered s) (backed : Backed s) :
    Backed (rxCb s data) ↔ Spared s (.rx data) := by
  have enough := backed.1
  have notified := rxCb_waiting s data
  have unset : s.queue.isSome = false → waiting s = 0 ∧ working s = 0 := by
    intro missing
    rw [Option.isSome_eq_false_iff, Option.isNone_iff_eq_none] at missing
    refine ⟨by rw [waiting, missing], ?_⟩
    rcases ordered.queued missing with pc | pc <;> simp [working, pc]
  rw [backed_iff, rxCb_working]
  unfold Spared
  by_cases full : uartBufsize ≤ s.ring.items.length
  · have counted := rxCb_lines_of_full data full
    have rest := rest_lines (nonempty_of_full full)
    by_cases drops : (oldest s).byte = cr
    · by_cases line : data = cr <;> cases set : s.queue.isSome
      all_goals
        simp only [set, line, drops, full, true_and, false_and, forall_const, or_false,
          Bool.false_eq_true, reduceCtorEq, false_implies, ↓reduceIte]
          at rest counted notified unset ⊢
      case pos.true => split at notified <;> omega
      all_goals omega
    · simp only [drops, full, false_implies, implies_true, iff_true, ↓reduceIte] at counted ⊢
      by_cases line : data = cr
      all_goals simp only [line, true_and, false_and, ↓reduceIte] at counted notified ⊢
      · split at notified <;> omega
      · omega
  · have room : s.ring.items.length < uartBufsize := by omega
    have counted := rxCb_lines_of_room data room
    simp only [full, false_implies, iff_true]
    by_cases line : data = cr
    all_goals simp only [line, true_and, false_and, ↓reduceIte] at counted notified ⊢
    · split at notified <;> omega
    · omega

/-- printer's own steps take a notification and its line together. -/
theorem printer_balance {s t : State} {ok : Bool} (away : s.pc ≠ .initQueue)
    (found : s.pc = .getOne → s.ring.items ≠ []) (taken : printer s ok = some t) :
    waiting t + working t + lines s = waiting s + working s + lines t := by
  cases pc : s.pc <;> simp only [printer, pc] at taken
  case absent => cases taken
  case initQueue => exact absurd pc away
  case lock =>
    simp only [Option.ite_none_left_eq_some, Option.some.injEq] at taken
    obtain ⟨_, rfl⟩ := taken
    simp only [waiting, working, lines, pc, reduceCtorEq, ↓reduceIte]
  case receive =>
    obtain ⟨queue, msg, waits, oldest, rfl⟩ := receive_eq taken
    obtain ⟨rest, items⟩ := List.head?_eq_some_iff.mp oldest
    simp only [waiting, working, lines, pc, waits, items, List.length_cons, reduceCtorEq,
      ↓reduceIte, Bounded.rest_items, List.tail_cons]
  case getOne =>
    cases taken
    have rest := rest_lines (found pc)
    have same : waiting (getOne s) = waiting s := by rw [waiting, getOne_queue, waiting]
    have busy : working s = 1 := by rw [working, pc, if_pos rfl]
    have left : lines (getOne s) = s.ring.items.tail.countP fun cell => cell.byte = cr := by
      rw [lines, getOne_ring, Bounded.rest_items]
    have done : working (getOne s) = if (oldest s).byte = cr then 0 else 1 := by
      rw [working, getOne_pc, pc]
      split
      · split <;> rfl
      · rfl
    rw [same, left, done, busy]
    split at rest <;> simp only [*, ↓reduceIte] <;> omega
  all_goals
    cases taken
    simp only [waiting, working, lines, pc, reduceCtorEq, ↓reduceIte]

theorem printer_backed {s t : State} {ok : Bool} (backed : Backed s)
    (taken : printer s ok = some t) : Backed t := by
  have enough := backed.1
  rw [backed_iff]
  by_cases pc : s.pc = .initQueue
  · simp only [printer, pc] at taken
    cases taken
    exact Nat.zero_le _
  · have balance := printer_balance pc backed.2 taken
    omega

theorem main_backed {s t : State} {ok : Bool} (ordered : Ordered s) (backed : Backed s)
    (taken : main s ok = some t) : Backed t := by
  have enough := backed.1
  rw [backed_iff]
  rcases main_cases taken with ⟨stage, rfl⟩ | ⟨_, rfl⟩ | ⟨_, _, _, rfl⟩
  · have absent : s.pc = .absent := ordered.absent (by rw [stage]; trivial)
    simp [waiting, working, absent, ordered.queueless absent]
  · simp only [waiting, working, lines, reduceCtorEq, ↓reduceIte] at enough ⊢
    omega
  · exact enough

/-- Every notification has its line, and no empty ring is read, exactly in the runs in which
no overwritten carriage return was needed. -/
theorem always_backed_iff (actions : List Action) :
    Always step Backed start actions ↔ Meets step Spared start actions := by
  have exact : ∀ (s : State) (action : Action) (t : State), Ordered s → Backed s →
      step s action = some t → (Backed t ↔ Spared s action) := by
    intro s action t ordered backed taken
    cases action with
    | rx data =>
        obtain ⟨_, rfl⟩ := rx_eq taken
        exact rxCb_backed_iff data ordered backed
    | printer ok => exact iff_of_true (printer_backed backed taken) trivial
    | main ok => exact iff_of_true (main_backed ordered backed taken) trivial
  exact always_iff_meets step_ordered exact actions start_ordered (by decide)

/-- A carriage return with 128 other bytes behind it is overwritten, its notification not. -/
theorem overwritten_line_notifies :
    ¬ ∀ (actions : List Action) (s : State), execute step start actions = some s →
      Backed s := by
  intro claim
  have backed := claim
    (List.replicate 4 (.main true) ++ .printer true :: .rx cr ::
      List.replicate 128 (.rx 48)) _ rfl
  exact absurd backed (by decide +kernel)

end RiotNyAlesund.SnowDepth
