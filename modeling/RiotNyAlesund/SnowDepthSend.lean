import Mathlib.Data.List.Forall2
import RiotNyAlesund.SnowDepthCycle

set_option autoImplicit false

/-! The payload, the echo and the positions of `val` that printer uses, against what the cycle
has collected. -/
namespace RiotNyAlesund.SnowDepth

open Transition

/-- The payload is as long as the length argument says, and begins like the bytes collected. -/
structure Cut (payload : Payload) (cycle : Cycle) : Prop where
  length : payload.cells.length = sendLength cycle.collected.length
  begins : cycle.collected ≠ [] →
    payload.cells = cycle.collected.take (sendLength cycle.collected.length)

/-- The bytes of the cycle that has sent and not yet echoed. -/
def unechoed (s : State) : List (List Cell) :=
  if s.pc.Sent then [Cells.slice s.val 0 s.index] else []

/-- Each cycle has sent one payload, and echoed what it collected once it has echoed. -/
structure Logged (f : Followed) : Prop where
  tracks : Tracks f
  sent : List.Forall₂ Cut f.node.payloads f.cycles
  echoed : f.node.echoes.map Echo.cells ++ unechoed f.node = f.cycles.map Cycle.collected

theorem followed_logged : Logged followed where
  tracks := followed_tracks
  sent := List.Forall₂.nil
  echoed := rfl

/-- The length argument is never the number of bytes collected. -/
theorem sendLength_ne (index : Nat) : sendLength index ≠ index := by
  unfold sendLength
  omega

theorem sendLength_eq {index : Nat} (positive : 0 < index) (short : index ≤ 256) :
    sendLength index = index - 1 := by
  unfold sendLength
  omega

theorem cut_of_send (s : State) (taken : List UInt8) :
    Cut ⟨s.epoch, Cells.slice s.val 0 (sendLength s.index)⟩
      ⟨taken, Cells.slice s.val 0 s.index⟩ where
  length := by rw [Cells.slice_length, Cells.slice_length]
  begins := by
    intro some
    have positive : 0 < s.index := by
      apply Nat.pos_of_ne_zero
      intro zero
      rw [zero, Cells.slice_zero] at some
      exact some rfl
    rw [Cells.slice_length, Cells.take_slice _ _ _ _ (sendLength_le positive)]

/-- The payload is not what was collected: it lacks the last byte, or is 255 bytes when there
are none. -/
theorem Cut.ne {payload : Payload} {cycle : Cycle} (cut : Cut payload cycle) :
    payload.cells ≠ cycle.collected := by
  intro equal
  have length := cut.length
  rw [equal] at length
  exact sendLength_ne _ length.symm

theorem Cut.dropLast {payload : Payload} {cycle : Cycle} (cut : Cut payload cycle)
    (positive : 0 < cycle.collected.length) (short : cycle.collected.length ≤ 256) :
    payload.cells = cycle.collected.dropLast := by
  rw [cut.begins (List.ne_nil_of_length_pos positive), sendLength_eq positive short,
    List.dropLast_eq_take]

theorem Cut.wraps {payload : Payload} {cycle : Cycle} (cut : Cut payload cycle)
    (none : cycle.collected = []) : payload.cells.length = 255 := by
  rw [cut.length, none]
  rfl

/-- A step that neither sends nor echoes. -/
theorem Logged.frame {f g : Followed} (logged : Logged f) (tracks : Tracks g)
    (payloads : g.node.payloads = f.node.payloads) (echoes : g.node.echoes = f.node.echoes)
    (cycles : g.cycles = f.cycles) (owed : unechoed g.node = unechoed f.node) : Logged g where
  tracks := tracks
  sent := by
    rw [payloads, cycles]
    exact logged.sent
  echoed := by
    rw [echoes, owed, cycles]
    exact logged.echoed

theorem rx_logged {f : Followed} {node : State} {data : UInt8} (logged : Logged f)
    (taken : step f.node (.rx data) = some node) :
    Logged { f with node := node, stream := f.stream ++ [data] } := by
  have tracks := rx_tracks logged.tracks taken
  obtain ⟨_, rfl⟩ := rx_eq taken
  apply logged.frame tracks (rxCb_payloads _ _) (rxCb_echoes _ _) rfl
  rw [unechoed, rxCb_pc, rxCb_val, rxCb_index, unechoed]

theorem main_logged {f : Followed} {node : State} {ok : Bool} (logged : Logged f)
    (taken : main f.node ok = some node) : Logged { f with node := node } := by
  have tracks := main_tracks logged.tracks taken
  rcases main_cases taken with ⟨_, rfl⟩ | ⟨stage, rfl⟩ | ⟨_, _, _, rfl⟩
  · exact logged.frame tracks rfl rfl rfl rfl
  · have absent : f.node.pc = .absent := logged.tracks.ordered.absent (by rw [stage]; trivial)
    apply logged.frame tracks rfl rfl rfl
    rw [unechoed, unechoed, absent]
    rfl
  · exact logged.frame tracks rfl rfl rfl rfl

/-- Taking a byte neither sends nor echoes. -/
theorem getOne_logged {f : Followed} (logged : Logged f) (pc : f.node.pc = .getOne)
    (tracks : Tracks (followPrinter f (getOne f.node))) :
    Logged (followPrinter f (getOne f.node)) := by
  simp only [followPrinter, pc] at tracks ⊢
  apply logged.frame tracks (getOne_payloads f.node) (getOne_echoes f.node) rfl
  rw [unechoed, if_neg (getOne_unsent pc), unechoed, pc]
  rfl

theorem quiet_logged {f : Followed} {node : State} (logged : Logged f) (quiet : Quiet f.node node)
    (tracks : Tracks { f with node := node }) : Logged { f with node := node } := by
  apply logged.frame tracks quiet.payloads quiet.echoes rfl
  by_cases sent : f.node.pc.Sent
  · obtain ⟨val, index⟩ := quiet.collected sent
    rw [unechoed, unechoed, if_pos sent, if_pos (quiet.sent.mpr sent), val, index]
  · rw [unechoed, unechoed, if_neg sent, if_neg fun after => sent (quiet.sent.mp after)]

theorem printer_logged {f : Followed} {node : State} {ok : Bool} (logged : Logged f)
    (taken : printer f.node ok = some node) : Logged (followPrinter f node) := by
  have tracks := printer_tracks logged.tracks taken
  have echoed := logged.echoed
  cases pc : f.node.pc
  case getOne =>
    simp only [printer, pc] at taken
    cases taken
    exact getOne_logged logged pc tracks
  case send =>
    simp only [printer, pc] at taken
    simp only [followPrinter, pc] at tracks ⊢
    simp only [unechoed, pc, Pc.Sent, ↓reduceIte, List.append_nil] at echoed
    cases taken
    refine ⟨tracks, ?_, ?_⟩
    · exact List.rel_append logged.sent (.cons (cut_of_send f.node f.taken) .nil)
    · simp only [unechoed, Pc.Sent, ↓reduceIte, echoed, List.map_append, List.map_cons,
        List.map_nil]
  case report =>
    simp only [printer, pc] at taken
    simp only [followPrinter, pc] at tracks ⊢
    simp only [unechoed, pc, Pc.Sent, ↓reduceIte] at echoed
    cases taken
    refine ⟨tracks, logged.sent, ?_⟩
    simp only [unechoed, Pc.Sent, ↓reduceIte, List.append_nil, List.map_append, List.map_cons,
      List.map_nil, echoed]
  all_goals
    have quiet := printer_quiet taken (by simp [pc]) (by simp [pc]) (by simp [pc])
    rw [followPrinter_quiet node (by simp [pc]) (by simp [pc]) (by simp [pc])] at tracks ⊢
    exact quiet_logged logged quiet tracks

theorem follow_logged (f : Followed) (action : Action) (g : Followed) (logged : Logged f)
    (taken : follow f action = some g) : Logged g := by
  rcases follow_cases taken with ⟨data, node, rfl, moved, rfl⟩ | ⟨ok, node, rfl, moved, rfl⟩ |
    ⟨ok, node, rfl, moved, rfl⟩
  · exact rx_logged logged moved
  · exact printer_logged logged moved
  · exact main_logged logged moved

/-- No payload is what its cycle collected and echoes: the last byte is cut off, and a cycle
that collected nothing sends 255 bytes. -/
theorem payloads_cut (actions : List Action) (f : Followed)
    (reached : execute follow followed actions = some f) :
    List.Forall₂ (fun payload cycle => payload.cells ≠ cycle.collected ∧
      (0 < cycle.collected.length → cycle.collected.length ≤ 256 →
        payload.cells = cycle.collected.dropLast) ∧
      (cycle.collected = [] → payload.cells.length = 255)) f.node.payloads f.cycles ∧
    f.node.echoes.map Echo.cells <+: f.cycles.map Cycle.collected := by
  have logged := invariant_of_step follow_logged followed_logged reached
  constructor
  · apply logged.sent.imp
    intro payload cycle cut
    exact ⟨cut.ne, cut.dropLast, cut.wraps⟩
  · rw [← logged.echoed]
    exact List.prefix_append _ _

theorem payloads_cut_once : ∃ f, execute follow followed firstCycle = some f ∧
    List.Forall₂ (fun payload cycle => payload.cells ≠ cycle.collected ∧
      (0 < cycle.collected.length → cycle.collected.length ≤ 256 →
        payload.cells = cycle.collected.dropLast) ∧
      (cycle.collected = [] → payload.cells.length = 255)) f.node.payloads f.cycles ∧
    f.node.echoes.map Echo.cells <+: f.cycles.map Cycle.collected :=
  ⟨_, rfl, payloads_cut firstCycle _ rfl⟩

/-- Of the readings 1, 2 and 3 the first two are sent. -/
theorem last_digit_cut :
    ¬ ∀ (actions : List Action) (f : Followed), execute follow followed actions = some f →
      List.Forall₂ (fun payload cycle => payload.cells = cycle.collected)
        f.node.payloads f.cycles := by
  intro claim
  exact absurd (claim firstCycle _ rfl) (by decide +kernel)

/-- A step stores within `val`, and sends and echoes only positions stored in this cycle. -/
def InBounds (f : Followed) : Action → Prop
  | .printer _ =>
      match f.node.pc with
      | .getOne => Stores f.node → f.node.index < valSize
      | .send => ∀ position < sendLength f.node.index, position ∈ f.stored
      | .report _ => ∀ position < f.node.index, position ∈ f.stored
      | _ => True
  | _ => True

/-- Behind its sixth line a cycle takes at most 128 bytes before the ninth ends, line ends
apart, and at least one. -/
def Fitting (f : Followed) : Action → Prop
  | .printer _ =>
      match f.node.pc with
      | .getOne => (oldest f.node).byte ≠ cr → 6 ≤ f.taken.count cr →
          (Lines.after cr 6 f.taken).length < valSize
      | .send => Lines.after cr 6 f.taken ≠ []
      | _ => True
  | _ => True

theorem sendLength_le_iff (index : Nat) : sendLength index ≤ index ↔ 0 < index := by
  constructor
  · unfold sendLength
    omega
  · exact sendLength_le

theorem forall_mem_range_iff (count bound : Nat) :
    (∀ position < bound, position ∈ List.range count) ↔ bound ≤ count := by
  simp only [List.mem_range]
  constructor
  · intro inside
    by_contra beyond
    exact Nat.lt_irrefl count (inside count (by omega))
  · exact fun fits position before => Nat.lt_of_lt_of_le before fits

theorem inBounds_iff (f : Followed) (action : Action) (tracks : Tracks f) :
    InBounds f action ↔ Fitting f action := by
  have index := tracks.index_eq
  cases action with
  | rx data => exact Iff.rfl
  | main ok => exact Iff.rfl
  | printer ok =>
      unfold InBounds Fitting
      cases pc : f.node.pc
      case getOne =>
        have collects : 5 < f.node.decompte ↔ 6 ≤ f.taken.count cr := by
          rw [tracks.counted]
          exact Nat.succ_le_iff.symm
        simp only [Stores, collects, index, and_imp]
      case send =>
        simp only [tracks.stored, forall_mem_range_iff, sendLength_le_iff, index,
          List.length_pos_iff]
      case report => simp only [tracks.stored, forall_mem_range_iff, Nat.le_refl]
      all_goals exact Iff.rfl

/-- printer keeps to `val` and to what the cycle has stored exactly in the runs whose cycles
collect at least one byte and at most 128. -/
theorem in_bounds_iff_fitting (actions : List Action) :
    Meets follow InBounds followed actions ↔ Meets follow Fitting followed actions := by
  have all : Meets follow (fun _ _ => True) followed actions :=
    meets_of_forall follow followed fun _ _ => trivial
  apply meets_congr (fun f action g tracks _ taken => follow_tracks f action g tracks taken)
    (fun f action tracks _ => inBounds_iff f action tracks) followed_tracks all

/-- Nine empty lines, up to the call of semtech_loramac_send. -/
def emptyCycle : List Action := boot ++ (List.replicate 9 (arrivesRead [])).flatten

/-- The send after nine empty lines reads 255 bytes that were not stored. -/
theorem empty_lines_out_of_bounds :
    ¬ ∀ actions : List Action, Meets follow InBounds followed actions := by
  intro claim
  have met := claim (emptyCycle ++ [.printer true])
  rw [meets_append follow _ (rfl : execute follow followed emptyCycle = some _)] at met
  have sends := (met.2 _ rfl).1 0 (by decide +kernel)
  exact absurd sends (by decide +kernel)

end RiotNyAlesund.SnowDepth
