import RiotNyAlesund.SnowDepth
import RiotNyAlesund.Transition

set_option autoImplicit false

namespace RiotNyAlesund.SnowDepth

open Transition

/-- A line end, or a byte received after that many power-ups and before the next. -/
def Current (epoch : Nat) (cell : Cell) : Prop :=
  cell.byte = cr ∨ cell.born = some epoch

instance (epoch : Nat) (cell : Cell) : Decidable (Current epoch cell) :=
  inferInstanceAs (Decidable (_ ∨ _))

/-- When printer turns to the first line it collects, nothing but line ends is left in the
ring from before the power-up. While it collects it finds bytes to read, and it has collected
one when it sends. -/
def Cleared (s : State) : Action → Prop
  | .printer _ =>
      match s.pc with
      | .receive => s.decompte = 6 → ∀ cell ∈ s.ring.items, Current s.epoch cell
      | .getOne => 5 < s.decompte → s.ring.items ≠ []
      | .send => 0 < s.index
      | _ => True
  | _ => True

instance (s : State) (action : Action) : Decidable (Cleared s action) := by
  unfold Cleared
  split
  · split <;> infer_instance
  · infer_instance

/-- printer keeps the bytes it reads. -/
def Collecting (s : State) : Prop := 6 < s.decompte ∨ (s.decompte = 6 ∧ s.pc = .getOne)

/-- printer is between two cycles, or before the first. -/
def Pc.Resting : Pc → Prop
  | .absent | .initQueue | .lock | .powerDown | .asleep | .powerUp => True
  | _ => False

/-- The collected bytes are of this cycle, and so is all that can still be collected. -/
structure Fresh (s : State) : Prop where
  ordered : Ordered s
  resting : s.pc.Resting → s.decompte = 0
  clean : Collecting s → ∀ cell ∈ s.ring.items, Current s.epoch cell
  collected : ∀ position < s.index, (s.val position).born = some s.epoch
  payloads : ∀ payload ∈ s.payloads, ∀ cell ∈ payload.cells, cell.born = some payload.epoch

theorem start_fresh : Fresh start where
  ordered := start_ordered
  resting := fun _ => rfl
  clean := fun collecting => by simp [Collecting, start] at collecting
  collected := fun _ before => absurd before (Nat.not_lt_zero _)
  payloads := fun _ member => by simp [start] at member

/-- A step that leaves the collection and its history alone keeps it fresh. -/
theorem Fresh.frame {s t : State} (fresh : Fresh s) (ordered : Ordered t)
    (resting : t.pc.Resting → t.decompte = 0)
    (clean : Collecting t → ∀ cell ∈ t.ring.items, Current t.epoch cell)
    (index : t.index = s.index) (val : t.val = s.val) (epoch : t.epoch = s.epoch)
    (payloads : t.payloads = s.payloads) : Fresh t where
  ordered := ordered
  resting := resting
  clean := clean
  collected := by
    rw [index, val, epoch]
    exact fresh.collected
  payloads := by
    rw [payloads]
    exact fresh.payloads

theorem rxCb_fresh {s : State} (data : UInt8) (fresh : Fresh s) (ordered : Ordered (rxCb s data)) :
    Fresh (rxCb s data) := by
  apply fresh.frame ordered ?_ ?_ (rxCb_index s data) (rxCb_val s data) (rxCb_epoch s data)
    (rxCb_payloads s data)
  · rw [rxCb_pc, rxCb_decompte]
    exact fresh.resting
  · unfold Collecting Current
    rw [rxCb_pc, rxCb_decompte, rxCb_ring, rxCb_epoch]
    intro collecting cell member
    rcases Bounded.mem_overwrite member with kept | rfl
    · exact fresh.clean collecting cell kept
    · exact Or.inr rfl

/-- The payload of a cycle that collected something is a part of what it collected. -/
theorem sendLength_le {index : Nat} (positive : 0 < index) : sendLength index ≤ index := by
  unfold sendLength
  omega

theorem send_fresh {s : State} (fresh : Fresh s) (positive : 0 < s.index) :
    ∀ cell ∈ Cells.slice s.val 0 (sendLength s.index), cell.born = some s.epoch := by
  intro cell member
  obtain ⟨offset, inside, rfl⟩ := Cells.mem_slice.mp member
  have within := sendLength_le positive
  rw [Nat.zero_add]
  exact fresh.collected offset (by omega)

/-- What printer stores while it collects is of this cycle. -/
theorem store_fresh {s : State} (fresh : Fresh s) (cell : Cell)
    (current : cell.born = some s.epoch) :
    ∀ position < s.index + 1,
      (Cells.store s.val s.index [cell] position).born = some s.epoch := by
  intro position below
  by_cases last : position = s.index
  · have stored := Cells.store_inside s.val s.index [cell] 0 Nat.zero_lt_one
    rw [Nat.add_zero] at stored
    rw [last, stored]
    exact current
  · rw [Cells.store_before _ _ _ _ (by omega)]
    exact fresh.collected position (by omega)

theorem oldest_mem {s : State} (nonempty : s.ring.items ≠ []) : oldest s ∈ s.ring.items := by
  obtain ⟨cell, rest, ring⟩ := List.exists_cons_of_ne_nil nonempty
  rw [oldest_of_ring ring, ring]
  exact List.mem_cons_self

theorem getOne_fresh {s : State} (fresh : Fresh s) (reads : s.pc = .getOne)
    (found : 5 < s.decompte → s.ring.items ≠ []) (ordered : Ordered (getOne s)) :
    Fresh (getOne s) := by
  have kept : Collecting s → ∀ cell ∈ s.ring.items.tail, Current s.epoch cell :=
    fun collecting cell member => fresh.clean collecting cell (List.mem_of_mem_tail member)
  have keeps : 5 < s.decompte → Collecting s := by
    intro collects
    unfold Collecting
    by_cases first : s.decompte = 6
    · exact Or.inr ⟨first, reads⟩
    · exact Or.inl (by omega)
  by_cases line : (oldest s).byte = cr
  · simp only [getOne, line, ↓reduceIte] at ordered ⊢
    apply fresh.frame ordered ?_ ?_ rfl rfl rfl rfl
    · dsimp only
      split <;> exact fun resting => absurd resting id
    · intro collecting
      have collects : 5 < s.decompte := by
        rcases collecting with later | ⟨_, again⟩
        · dsimp only at later
          omega
        · dsimp only at again
          split at again <;> cases again
      exact kept (keeps collects)
  · by_cases collects : 5 < s.decompte
    · have current : (oldest s).born = some s.epoch := by
        rcases fresh.clean (keeps collects) _ (oldest_mem (found collects)) with ended | current
        · exact absurd ended line
        · exact current
      simp only [getOne, line, collects, ↓reduceIte] at ordered ⊢
      exact ⟨ordered, fresh.resting, fun _ => kept (keeps collects),
        store_fresh fresh _ current, fresh.payloads⟩
    · simp only [getOne, line, collects, ↓reduceIte] at ordered ⊢
      exact fresh.frame ordered fresh.resting kept rfl rfl rfl rfl

theorem printer_fresh {s t : State} {ok : Bool} (fresh : Fresh s)
    (cleared : Cleared s (.printer ok)) (ordered : Ordered t) (taken : printer s ok = some t) :
    Fresh t := by
  have clean := fresh.clean
  have resting := fresh.resting
  cases pc : s.pc <;>
    simp only [printer, Cleared, pc, Collecting, Pc.Resting, reduceCtorEq, and_false, or_false,
      and_true, false_implies, forall_const] at taken cleared clean resting
  case lock =>
    simp only [Option.ite_none_left_eq_some, Option.some.injEq] at taken
    obtain ⟨_, rfl⟩ := taken
    apply fresh.frame ordered (fun _ => resting) ?_ rfl rfl rfl rfl
    simpa only [Collecting, reduceCtorEq, and_false, or_false] using clean
  case powerUp =>
    cases taken
    refine ⟨ordered, fun rests => absurd rests id, ?_, ?_, fresh.payloads⟩
    · simp [Collecting, resting]
    · exact fun _ before => absurd before (Nat.not_lt_zero _)
  case receive =>
    obtain ⟨queue, msg, _, _, rfl⟩ := receive_eq taken
    apply fresh.frame ordered (fun rests => absurd rests id) ?_ rfl rfl rfl rfl
    intro collecting
    rcases collecting with later | first
    · exact clean later
    · exact cleared first.1
  case getOne =>
    cases taken
    exact getOne_fresh fresh pc cleared ordered
  case send =>
    cases taken
    refine ⟨ordered, fun rests => absurd rests id, ?_, fresh.collected, ?_⟩
    · simpa only [Collecting, reduceCtorEq, and_false, or_false] using clean
    · intro payload member
      rcases List.mem_append.mp member with earlier | last
      · exact fresh.payloads payload earlier
      · rw [List.mem_singleton.mp last]
        exact send_fresh fresh cleared
  case sending =>
    cases taken
    apply fresh.frame ordered (fun rests => absurd rests id) ?_ rfl rfl rfl rfl
    simpa only [Collecting, reduceCtorEq, and_false, or_false] using clean
  case report =>
    cases taken
    refine ⟨ordered, fun _ => rfl, ?_, ?_, fresh.payloads⟩
    · simp [Collecting]
    · exact fun _ before => absurd before (Nat.not_lt_zero _)
  all_goals
    cases taken
    apply fresh.frame ordered (fun _ => resting) ?_ rfl rfl rfl rfl
    simpa only [Collecting, reduceCtorEq, and_false, or_false] using clean

theorem main_fresh {s t : State} {ok : Bool} (fresh : Fresh s) (ordered : Ordered t)
    (taken : main s ok = some t) : Fresh t := by
  rcases main_cases taken with ⟨_, rfl⟩ | ⟨stage, rfl⟩ | ⟨_, _, _, rfl⟩
  · apply fresh.frame ordered fresh.resting ?_ rfl rfl rfl rfl
    intro _ cell member
    rw [Bounded.empty_items] at member
    exact absurd member List.not_mem_nil
  · have absent : s.pc = .absent := fresh.ordered.absent (by rw [stage]; trivial)
    have zero : s.decompte = 0 := fresh.resting (by rw [absent]; trivial)
    apply fresh.frame ordered (fun _ => zero) ?_ rfl rfl rfl rfl
    simp [Collecting, zero]
  · exact fresh.frame ordered fresh.resting fresh.clean rfl rfl rfl rfl

theorem step_fresh (s : State) (action : Action) (t : State) (fresh : Fresh s)
    (cleared : Cleared s action) (taken : step s action = some t) : Fresh t := by
  have ordered := step_ordered s action t fresh.ordered taken
  cases action with
  | rx data =>
      obtain ⟨_, rfl⟩ := rx_eq taken
      exact rxCb_fresh data fresh ordered
  | printer ok => exact printer_fresh fresh cleared ordered taken
  | main ok => exact main_fresh fresh ordered taken

/-- The node starts, joins, and powers its sensor up for the first time. -/
def boot : List Action :=
  List.replicate 4 (.main true) ++ [.printer true, .main true, .main true] ++
    List.replicate 4 (.printer true)

def arrives (data : List UInt8) : List Action := data.map .rx ++ [.rx cr]

/-- A line arrives, and printer reads it. -/
def arrivesRead (data : List UInt8) : List Action :=
  arrives data ++ List.replicate (data.length + 2) (.printer true)

/-- Six lines to throw away and three readings, up to the call of semtech_loramac_send. -/
def firstCycle : List Action :=
  boot ++ (List.replicate 6 (arrivesRead [])).flatten ++ arrivesRead [49] ++ arrivesRead [50] ++
    arrivesRead [51] ++ [.printer true]

end RiotNyAlesund.SnowDepth
