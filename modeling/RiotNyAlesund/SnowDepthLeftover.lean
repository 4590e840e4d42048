import RiotNyAlesund.SnowDepthFresh

set_option autoImplicit false

namespace RiotNyAlesund.SnowDepth

open Transition

/-- What is left of the ring's content behind its first `count` lines. -/
def afterLines : Nat → List Cell → List Cell
  | 0, cells => cells
  | _ + 1, [] => []
  | count + 1, cell :: rest =>
      if cell.byte = cr then afterLines count rest else afterLines (count + 1) rest

theorem afterLines_zero (cells : List Cell) : afterLines 0 cells = cells := by
  rw [afterLines]

theorem afterLines_nil (count : Nat) : afterLines count [] = [] := by
  cases count <;> rfl

/-- A line more behind, and what is left is a part of what was left. -/
theorem mem_afterLines_succ {cells : List Cell} {cell : Cell} {count : Nat}
    (member : cell ∈ afterLines (count + 1) cells) : cell ∈ afterLines count cells := by
  induction cells generalizing count with
  | nil => simp [afterLines_nil] at member
  | cons first rest ih =>
      cases count with
      | zero =>
          by_cases line : first.byte = cr
          · simp only [afterLines, line, ↓reduceIte] at member ⊢
            exact List.mem_cons_of_mem first member
          · simp only [afterLines, line, ↓reduceIte] at member ⊢
            have kept := ih member
            rw [afterLines_zero] at kept
            exact List.mem_cons_of_mem first kept
      | succ count =>
          by_cases line : first.byte = cr
          · simp only [afterLines, line, ↓reduceIte] at member ⊢
            exact ih member
          · simp only [afterLines, line, ↓reduceIte] at member ⊢
            exact ih member

/-- Forgetting the oldest byte forgets at most a line. -/
theorem mem_afterLines_tail {cells : List Cell} {cell : Cell} {count : Nat}
    (member : cell ∈ afterLines count cells.tail) : cell ∈ afterLines count cells := by
  cases cells with
  | nil => exact member
  | cons first rest =>
      cases count with
      | zero =>
          rw [afterLines_zero] at member ⊢
          exact List.mem_cons_of_mem first member
      | succ count =>
          by_cases line : first.byte = cr
          · simp only [afterLines, line, ↓reduceIte]
            exact mem_afterLines_succ member
          · simp only [afterLines, line, ↓reduceIte]
            exact member

theorem mem_afterLines_append {cells : List Cell} {last cell : Cell} {count : Nat}
    (member : cell ∈ afterLines count (cells ++ [last])) :
    cell ∈ afterLines count cells ∨ cell = last := by
  induction cells generalizing count with
  | nil =>
      cases count with
      | zero => exact Or.inr (List.mem_singleton.mp member)
      | succ count =>
          simp only [List.nil_append, afterLines, afterLines_nil, ite_self] at member
          exact absurd member List.not_mem_nil
  | cons first rest ih =>
      cases count with
      | zero =>
          rw [afterLines_zero] at member ⊢
          rcases List.mem_append.mp member with kept | new
          · exact Or.inl kept
          · exact Or.inr (List.mem_singleton.mp new)
      | succ count =>
          by_cases line : first.byte = cr
          all_goals
            simp only [List.cons_append, afterLines, line, ↓reduceIte] at member ⊢
            exact ih member

/-- At power-up the ring has nothing but line ends behind the six lines that are thrown away. -/
def ShortLeftover (s : State) : Action → Prop
  | .printer _ =>
      match s.pc with
      | .powerUp => ∀ cell ∈ afterLines 6 s.ring.items, cell.byte = cr
      | .getOne => 5 < s.decompte → s.ring.items ≠ []
      | .send => 0 < s.index
      | _ => True
  | _ => True

/-- What is old in the ring is within the lines that are still to be thrown away. -/
def Draining (s : State) : Prop :=
  s.pc = .receive ∨ s.pc = .getOne →
    ∀ cell ∈ afterLines (6 - s.decompte) s.ring.items, Current s.epoch cell

theorem rxCb_draining {s : State} (data : UInt8) (draining : Draining s) :
    Draining (rxCb s data) := by
  unfold Draining at *
  rw [rxCb_pc, rxCb_decompte, rxCb_ring, rxCb_epoch]
  intro reads cell member
  by_cases room : s.ring.items.length < uartBufsize
  · rw [Bounded.overwrite_of_room _ _ room] at member
    rcases mem_afterLines_append member with kept | rfl
    · exact draining reads cell kept
    · exact Or.inr rfl
  · rw [Bounded.overwrite_of_full _ _ (by decide) (by omega)] at member
    rcases mem_afterLines_append member with kept | rfl
    · exact draining reads cell (mem_afterLines_tail kept)
    · exact Or.inr rfl

theorem getOne_draining {s : State} (draining : Draining s) (reads : s.pc = .getOne) :
    Draining (getOne s) := by
  have current := draining (Or.inr reads)
  intro _ cell member
  rw [getOne_ring, Bounded.rest_items] at member
  by_cases line : (oldest s).byte = cr
  · simp only [getOne, line, ↓reduceIte] at member ⊢
    apply current
    by_cases thrown : s.decompte < 6
    · obtain ⟨first, rest, ring⟩ : ∃ first rest, s.ring.items = first :: rest := by
        apply List.exists_cons_of_ne_nil
        intro none
        rw [oldest, none] at line
        exact absurd line (by decide)
      have behind : 6 - s.decompte = 6 - (s.decompte + 1) + 1 := by omega
      rw [oldest_of_ring ring] at line
      rw [ring, List.tail_cons] at member
      rw [behind, ring]
      simpa only [afterLines, line, ↓reduceIte] using member
    · rw [show 6 - (s.decompte + 1) = 6 - s.decompte by omega] at member
      exact mem_afterLines_tail member
  · by_cases collects : 5 < s.decompte
    all_goals
      simp only [getOne, line, collects, ↓reduceIte] at member ⊢
      exact current cell (mem_afterLines_tail member)

theorem printer_draining {s t : State} {ok : Bool} (fresh : Fresh s) (draining : Draining s)
    (short : ShortLeftover s (.printer ok)) (taken : printer s ok = some t) : Draining t := by
  cases pc : s.pc <;> simp only [printer, ShortLeftover, pc] at taken short
  case absent => cases taken
  case lock =>
    simp only [Option.ite_none_left_eq_some, Option.some.injEq] at taken
    obtain ⟨_, rfl⟩ := taken
    simp [Draining]
  case powerUp =>
    cases taken
    have zero : s.decompte = 0 := fresh.resting (by rw [pc]; trivial)
    intro _ cell member
    simp only [zero, Nat.sub_zero] at member
    exact Or.inl (short cell member)
  case receive =>
    obtain ⟨queue, msg, _, _, rfl⟩ := receive_eq taken
    exact fun _ => draining (Or.inl pc)
  case getOne =>
    cases taken
    exact getOne_draining draining pc
  all_goals
    cases taken
    simp [Draining]

theorem main_draining {s t : State} {ok : Bool} (draining : Draining s)
    (taken : main s ok = some t) : Draining t := by
  rcases main_cases taken with ⟨_, rfl⟩ | ⟨_, rfl⟩ | ⟨_, _, _, rfl⟩
  · intro _ cell member
    rw [Bounded.empty_items, afterLines_nil] at member
    exact absurd member List.not_mem_nil
  · simp [Draining]
  · exact draining

/-- A leftover within the six lines is out of the ring when printer begins to collect. -/
theorem cleared_of_draining (s : State) (action : Action) (draining : Draining s)
    (short : ShortLeftover s action) : Cleared s action := by
  cases action with
  | rx | main => trivial
  | printer ok =>
      cases pc : s.pc <;> simp only [ShortLeftover, Cleared, pc] at short ⊢
      case receive =>
        intro six
        have current := draining (Or.inl pc)
        rw [six, afterLines_zero] at current
        exact current
      case getOne | send => exact short

/-- With at most six lines left over at each power-up, every byte sent was received after the
power-up of its cycle. -/
theorem payloads_fresh_of_leftover (actions : List Action) (s : State)
    (reached : execute step start actions = some s)
    (short : Meets step ShortLeftover start actions) :
    ∀ payload ∈ s.payloads, ∀ cell ∈ payload.cells, cell.born = some payload.epoch := by
  have keeps : ∀ (s : State) (action : Action) (t : State), Fresh s ∧ Draining s →
      ShortLeftover s action → step s action = some t → Fresh t ∧ Draining t := by
    intro s action t valid short taken
    have cleared := cleared_of_draining s action valid.2 short
    refine ⟨step_fresh s action t valid.1 cleared taken, ?_⟩
    cases action with
    | rx data =>
        obtain ⟨_, rfl⟩ := rx_eq taken
        exact rxCb_draining data valid.2
    | printer ok => exact printer_draining valid.1 valid.2 short taken
    | main ok => exact main_draining valid.2 taken
  have initial : Fresh start ∧ Draining start := by
    refine ⟨start_fresh, ?_⟩
    simp [Draining, start]
  exact (invariant keeps initial short reached).1.payloads

end RiotNyAlesund.SnowDepth
