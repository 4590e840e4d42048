import RiotNyAlesund.SnowDepthFresh
import RiotNyAlesund.Lines

set_option autoImplicit false

/-! What each cycle of printer takes from the ring, what it makes of it and what it sends. -/
namespace RiotNyAlesund.SnowDepth

open Transition

/-- The size of `val`. -/
def valSize : Nat := 128

/-- printer has called semtech_loramac_send in this cycle. -/
def Pc.Sent : Pc → Prop
  | .sending | .report _ => True
  | _ => False

instance (pc : Pc) : Decidable pc.Sent :=
  match pc with
  | .sending | .report _ => isTrue trivial
  | .absent | .initQueue | .lock | .powerDown | .asleep | .powerUp | .receive | .getOne | .send =>
      isFalse id

/-- While it takes bytes printer has not sent. -/
theorem getOne_unsent {s : State} (pc : s.pc = .getOne) : ¬(getOne s).pc.Sent := by
  rw [getOne_pc, pc]
  split
  · split <;> exact id
  · exact id

/-- A step that takes no byte, sends nothing and echoes nothing. -/
structure Quiet (s t : State) : Prop where
  ring : t.ring = s.ring
  payloads : t.payloads = s.payloads
  echoes : t.echoes = s.echoes
  sent : t.pc.Sent ↔ s.pc.Sent
  collected : s.pc.Sent → t.val = s.val ∧ t.index = s.index

theorem printer_quiet {s t : State} {ok : Bool} (taken : printer s ok = some t)
    (reads : s.pc ≠ .getOne) (sends : s.pc ≠ .send) (echoes : ∀ done, s.pc ≠ .report done) :
    Quiet s t := by
  cases pc : s.pc <;> simp only [printer, pc] at taken
  case getOne => exact absurd pc reads
  case send => exact absurd pc sends
  case report done => exact absurd pc (echoes done)
  case absent => cases taken
  case lock =>
    simp only [Option.ite_none_left_eq_some, Option.some.injEq] at taken
    obtain ⟨_, rfl⟩ := taken
    exact ⟨rfl, rfl, rfl, by simp [pc, Pc.Sent], by simp [pc, Pc.Sent]⟩
  case receive =>
    obtain ⟨queue, msg, _, _, rfl⟩ := receive_eq taken
    exact ⟨rfl, rfl, rfl, by simp [pc, Pc.Sent], by simp [pc, Pc.Sent]⟩
  all_goals
    cases taken
    exact ⟨rfl, rfl, rfl, by simp [pc, Pc.Sent], by simp [pc, Pc.Sent]⟩

/-- What a cycle has taken from the ring and collected when it calls semtech_loramac_send. -/
structure Cycle where
  taken : List UInt8
  collected : List Cell
  deriving DecidableEq, Repr

/-- The node with its histories: all bytes received, what this cycle has taken from the ring
and the positions of `val` it has stored at, and the cycles that have called
semtech_loramac_send. -/
structure Followed where
  node : State
  stream : List UInt8
  taken : List UInt8
  stored : List Nat
  cycles : List Cycle

def followed : Followed := ⟨start, [], [], [], []⟩

/-- The byte printer takes is stored in `val`. -/
def Stores (s : State) : Prop := (oldest s).byte ≠ cr ∧ 5 < s.decompte

instance (s : State) : Decidable (Stores s) := inferInstanceAs (Decidable (_ ∧ _))

def followPrinter (f : Followed) (node : State) : Followed :=
  match f.node.pc with
  | .getOne =>
      { f with
        node := node
        taken := f.taken ++ [(oldest f.node).byte]
        stored := if Stores f.node then f.stored ++ [f.node.index] else f.stored }
  | .send =>
      { f with
        node := node
        cycles := f.cycles ++ [⟨f.taken, Cells.slice f.node.val 0 f.node.index⟩] }
  | .report _ => { f with node := node, taken := [], stored := [] }
  | _ => { f with node := node }

def follow (f : Followed) : Action → Option Followed
  | .rx data => (step f.node (.rx data)).map fun node =>
      { f with node := node, stream := f.stream ++ [data] }
  | .printer ok => (step f.node (.printer ok)).map (followPrinter f)
  | .main ok => (step f.node (.main ok)).map fun node => { f with node := node }

theorem followPrinter_quiet {f : Followed} (node : State) (reads : f.node.pc ≠ .getOne)
    (sends : f.node.pc ≠ .send) (echoes : ∀ done, f.node.pc ≠ .report done) :
    followPrinter f node = { f with node := node } := by
  cases pc : f.node.pc
  case getOne => exact absurd pc reads
  case send => exact absurd pc sends
  case report done => exact absurd pc (echoes done)
  all_goals simp only [followPrinter, pc]

theorem follow_cases {f g : Followed} {action : Action} (taken : follow f action = some g) :
    (∃ data node, action = .rx data ∧ step f.node (.rx data) = some node ∧
      g = { f with node := node, stream := f.stream ++ [data] }) ∨
    (∃ ok node, action = .printer ok ∧ printer f.node ok = some node ∧ g = followPrinter f node) ∨
    ∃ ok node, action = .main ok ∧ main f.node ok = some node ∧ g = { f with node := node } := by
  cases action with
  | rx data =>
      obtain ⟨node, moved, rfl⟩ := Option.map_eq_some_iff.mp taken
      exact Or.inl ⟨data, node, rfl, moved, rfl⟩
  | printer ok =>
      obtain ⟨node, moved, rfl⟩ := Option.map_eq_some_iff.mp taken
      exact Or.inr (Or.inl ⟨ok, node, rfl, moved, rfl⟩)
  | main ok =>
      obtain ⟨node, moved, rfl⟩ := Option.map_eq_some_iff.mp taken
      exact Or.inr (Or.inr ⟨ok, node, rfl, moved, rfl⟩)

/-- How many lines a cycle has ended at each statement of printer. -/
def Staged (s : State) : Prop :=
  match s.pc with
  | .receive | .getOne => s.decompte < 9
  | .send | .sending | .report _ => s.decompte = 9
  | _ => s.decompte = 0

/-- `decompte`, `index` and `val` are what the bytes taken make of them. -/
structure Tracks (f : Followed) : Prop where
  ordered : Ordered f.node
  staged : Staged f.node
  counted : f.node.decompte = f.taken.count cr
  stored : f.stored = List.range f.node.index
  collected : (Cells.slice f.node.val 0 f.node.index).map Cell.byte = Lines.after cr 6 f.taken
  resting : f.node.pc.Resting → f.taken = []
  whole : f.node.pc ≠ .getOne → Lines.Whole cr f.taken

theorem followed_tracks : Tracks followed where
  ordered := start_ordered
  staged := rfl
  counted := rfl
  stored := rfl
  collected := rfl
  resting := fun _ => rfl
  whole := fun _ => Or.inl rfl

/-- A step that takes and stores nothing. -/
theorem Tracks.frame {f g : Followed} (tracks : Tracks f) (ordered : Ordered g.node)
    (staged : Staged g.node) (decompte : g.node.decompte = f.node.decompte)
    (index : g.node.index = f.node.index) (val : g.node.val = f.node.val)
    (taken : g.taken = f.taken) (stored : g.stored = f.stored)
    (resting : g.node.pc.Resting → f.taken = [])
    (whole : g.node.pc ≠ .getOne → Lines.Whole cr f.taken) : Tracks g where
  ordered := ordered
  staged := staged
  counted := by rw [decompte, taken, tracks.counted]
  stored := by rw [stored, index, tracks.stored]
  collected := by rw [val, index, taken, tracks.collected]
  resting := by
    rw [taken]
    exact resting
  whole := by
    rw [taken]
    exact whole

/-- As many bytes are collected as there are behind the sixth carriage return. -/
theorem Tracks.index_eq {f : Followed} (tracks : Tracks f) :
    f.node.index = (Lines.after cr 6 f.taken).length := by
  rw [← tracks.collected, List.length_map, Cells.slice_length]

/-- A cycle begins with nothing taken and nothing collected. -/
theorem Tracks.atRest {f : Followed} (tracks : Tracks f) (rests : f.node.pc.Resting) :
    f.node.decompte = 0 ∧ f.node.index = 0 := by
  have none := tracks.resting rests
  refine ⟨?_, ?_⟩
  · rw [tracks.counted, none, List.count_nil]
  · rw [tracks.index_eq, none]
    rfl

/-- A carriage return ends a line and is not stored. -/
theorem getOne_line {f : Followed} (tracks : Tracks f) (pc : f.node.pc = .getOne)
    (line : (oldest f.node).byte = cr) (ordered : Ordered (getOne f.node)) :
    Tracks (followPrinter f (getOne f.node)) := by
  have below := tracks.staged
  simp only [Staged, pc] at below
  have quiet : ¬Stores f.node := fun stores => stores.1 line
  simp only [followPrinter, pc, quiet, line, ↓reduceIte]
  simp only [getOne, line, ↓reduceIte] at ordered ⊢
  refine ⟨ordered, ?_, ?_, tracks.stored, ?_, ?_, fun _ => Or.inr ⟨_, rfl⟩⟩
  · by_cases more : f.node.decompte + 1 < 9
    · simp only [Staged, more, ↓reduceIte]
    · simp only [Staged, more, ↓reduceIte]
      omega
  · rw [tracks.counted, List.count_append, List.count_singleton_self]
  · rw [Lines.after_append_singleton, ← tracks.collected]
    simp only [ne_eq, not_true_eq_false, false_and, ↓reduceIte, List.append_nil]
  · by_cases more : f.node.decompte + 1 < 9 <;> simp [more, Pc.Resting]

/-- Any other byte is stored behind the sixth carriage return. -/
theorem getOne_byte {f : Followed} (tracks : Tracks f) (pc : f.node.pc = .getOne)
    (other : (oldest f.node).byte ≠ cr) (ordered : Ordered (getOne f.node)) :
    Tracks (followPrinter f (getOne f.node)) := by
  have below := tracks.staged
  simp only [Staged, pc] at below
  have grown := Lines.after_append_singleton cr 6 f.taken (oldest f.node).byte
  have same : (f.taken ++ [(oldest f.node).byte]).count cr = f.taken.count cr := by
    rw [List.count_append, List.count_singleton, beq_eq_false_iff_ne.mpr other]
    rfl
  by_cases collects : 5 < f.node.decompte
  · have stores : Stores f.node := ⟨other, collects⟩
    have late : 6 ≤ f.taken.count cr := by rw [← tracks.counted]; exact collects
    simp only [other, late, ne_eq, not_false_eq_true, and_self, ↓reduceIte] at grown
    simp only [followPrinter, pc, stores, ↓reduceIte]
    simp only [getOne, other, collects, ↓reduceIte] at ordered ⊢
    refine ⟨ordered, ?_, ?_, ?_, ?_, ?_, fun away => absurd pc away⟩
    · simpa only [Staged, pc] using below
    · rw [same, tracks.counted]
    · rw [tracks.stored, List.range_succ]
    · have stored := Cells.slice_store_append f.node.val 0 f.node.index [oldest f.node]
      rw [Nat.zero_add] at stored
      rw [grown, ← tracks.collected]
      refine (congrArg (List.map Cell.byte) stored).trans ?_
      rw [List.map_append, List.map_singleton]
    · simp only [pc, Pc.Resting, false_implies]
  · have quiet : ¬Stores f.node := fun stores => collects stores.2
    have early : ¬6 ≤ f.taken.count cr := by rw [← tracks.counted]; exact collects
    simp only [early, and_false, ↓reduceIte, List.append_nil] at grown
    simp only [followPrinter, pc, quiet, ↓reduceIte]
    simp only [getOne, other, collects, ↓reduceIte] at ordered ⊢
    refine ⟨ordered, ?_, ?_, tracks.stored, ?_, ?_, fun away => absurd pc away⟩
    · simpa only [Staged, pc] using below
    · rw [same, tracks.counted]
    · rw [grown, tracks.collected]
    · simp only [pc, Pc.Resting, false_implies]

theorem printer_tracks {f : Followed} {node : State} {ok : Bool} (tracks : Tracks f)
    (taken : printer f.node ok = some node) : Tracks (followPrinter f node) := by
  have ordered := step_ordered f.node (.printer ok) node tracks.ordered taken
  have staged := tracks.staged
  have resting := tracks.resting
  have whole := tracks.whole
  cases pc : f.node.pc <;> simp only [printer, pc] at taken
  case getOne =>
    cases taken
    by_cases line : (oldest f.node).byte = cr
    · exact getOne_line tracks pc line ordered
    · exact getOne_byte tracks pc line ordered
  all_goals
    simp only [Staged, pc, Pc.Resting, forall_const, false_implies] at staged resting
    simp only [pc, ne_eq, reduceCtorEq, not_false_eq_true, forall_const] at whole
    simp only [followPrinter, pc]
  case absent => cases taken
  case lock =>
    simp only [Option.ite_none_left_eq_some, Option.some.injEq] at taken
    obtain ⟨_, rfl⟩ := taken
    exact tracks.frame ordered staged rfl rfl rfl rfl rfl (fun _ => resting) (fun _ => whole)
  case receive =>
    obtain ⟨queue, msg, _, _, rfl⟩ := receive_eq taken
    exact tracks.frame ordered staged rfl rfl rfl rfl rfl (fun rests => absurd rests id)
      (fun _ => whole)
  case powerUp =>
    cases taken
    have empty := (tracks.atRest (by rw [pc]; trivial)).2
    refine tracks.frame ordered ?_ rfl empty.symm rfl rfl rfl (fun rests => absurd rests id)
      (fun _ => whole)
    rw [Staged, staged]
    exact Nat.succ_pos 8
  case report =>
    cases taken
    exact ⟨ordered, rfl, rfl, rfl, rfl, fun _ => rfl, fun _ => Or.inl rfl⟩
  case send | sending =>
    cases taken
    exact tracks.frame ordered staged rfl rfl rfl rfl rfl (fun rests => absurd rests id)
      (fun _ => whole)
  all_goals
    cases taken
    exact tracks.frame ordered staged rfl rfl rfl rfl rfl (fun _ => resting) (fun _ => whole)

theorem main_tracks {f : Followed} {node : State} {ok : Bool} (tracks : Tracks f)
    (taken : main f.node ok = some node) : Tracks { f with node := node } := by
  have ordered := step_ordered f.node (.main ok) node tracks.ordered taken
  rcases main_cases taken with ⟨_, rfl⟩ | ⟨stage, rfl⟩ | ⟨_, _, _, rfl⟩
  · exact tracks.frame ordered tracks.staged rfl rfl rfl rfl rfl tracks.resting tracks.whole
  · have absent : f.node.pc = .absent := tracks.ordered.absent (by rw [stage]; trivial)
    have staged := tracks.staged
    have resting : f.taken = [] := tracks.resting (by rw [absent]; trivial)
    rw [Staged, absent] at staged
    exact tracks.frame ordered staged rfl rfl rfl rfl rfl (fun _ => resting)
      (fun _ => Or.inl resting)
  · exact tracks.frame ordered tracks.staged rfl rfl rfl rfl rfl tracks.resting tracks.whole

theorem rx_tracks {f : Followed} {node : State} {data : UInt8} (tracks : Tracks f)
    (taken : step f.node (.rx data) = some node) :
    Tracks { f with node := node, stream := f.stream ++ [data] } := by
  have ordered := step_ordered f.node (.rx data) node tracks.ordered taken
  obtain ⟨_, rfl⟩ := rx_eq taken
  refine tracks.frame ordered ?_ (rxCb_decompte _ _) (rxCb_index _ _) (rxCb_val _ _) rfl rfl ?_ ?_
  · rw [Staged, rxCb_pc, rxCb_decompte]
    exact tracks.staged
  · rw [rxCb_pc]
    exact tracks.resting
  · rw [rxCb_pc]
    exact tracks.whole

theorem follow_tracks (f : Followed) (action : Action) (g : Followed) (tracks : Tracks f)
    (taken : follow f action = some g) : Tracks g := by
  rcases follow_cases taken with ⟨data, node, rfl, moved, rfl⟩ | ⟨ok, node, rfl, moved, rfl⟩ |
    ⟨ok, node, rfl, moved, rfl⟩
  · exact rx_tracks tracks moved
  · exact printer_tracks tracks moved
  · exact main_tracks tracks moved

end RiotNyAlesund.SnowDepth
