import RiotNyAlesund.Gps
import RiotNyAlesund.Transition
import RiotNyAlesund.Channel

set_option autoImplicit false

namespace RiotNyAlesund.Gps.Rover

open Transition

/-- Number of received bytes the thread still has to write. From the call of stdio_write, where
its length is read, to `indexin=0` nothing counts any more: `indexin` is about to be reset
whatever its value. -/
def heldCount (s : State) : Nat :=
  match s.pc with
  | .reset => 0
  | _ => s.indexin

/-- Steps that forget no byte: nothing lands from the call of stdio_write, where its length is
read, to `indexin=0`, and nothing is cut off by the clamp. -/
def Lossless (s : State) : Action → Prop
  | .packet data => s.pc = .reset → data = []
  | .thread => s.pc = .clamp → s.indexin ≤ dumpLimit

/-- No byte lands from the call of stdio_write, where its length is read, to `indexin=0`. -/
def Unbroken (s : State) : Action → Prop
  | .packet data => s.pc = .reset → data = []
  | .thread => True

instance (s : State) (action : Action) : Decidable (Unbroken s action) := by
  unfold Unbroken
  split <;> infer_instance

/-- The rover implements a lossless channel from the radio to its UART. -/
structure Represents (s : State) (channel : Channel UInt8) : Prop where
  taken : channel.taken = s.received.flatten
  passed : channel.passed = s.written.flatten
  held : channel.held = Cells.slice s.message 0 (heldCount s)

theorem start_represents : Represents start Channel.empty := ⟨rfl, rfl, rfl⟩

theorem Represents.conserved {s : State} {channel : Channel UInt8}
    (represents : Represents s channel) :
    s.written.flatten ++ Cells.slice s.message 0 (heldCount s) = s.received.flatten := by
  rw [← represents.taken, ← represents.passed, ← represents.held, channel.conserved]

/-- A packet stored at `indexin` extends the counted part of the buffer. -/
theorem eventCb_slice (s : State) (data : List UInt8) :
    Cells.slice (eventCb s data).message 0 (eventCb s data).indexin =
      Cells.slice s.message 0 s.indexin ++ data := by
  have stored := Cells.slice_store_append s.message 0 s.indexin data
  rwa [Nat.zero_add] at stored

theorem eventCb_heldCount {s : State} (data : List UInt8) (landed : s.pc ≠ .reset) :
    heldCount s = s.indexin ∧ heldCount (eventCb s data) = s.indexin + data.length := by
  cases pc : s.pc <;> simp_all [heldCount, eventCb]

theorem eventCb_follows {s : State} {channel : Channel UInt8} (data : List UInt8)
    (represents : Represents s channel) (lossless : Lossless s (.packet data)) :
    ∃ channel', Relation.ReflTransGen Channel.Move channel channel' ∧
      Represents (eventCb s data) channel' := by
  by_cases landed : s.pc = .reset
  · obtain rfl := lossless landed
    refine ⟨channel, .refl, ?_, represents.passed, ?_⟩
    · simpa [eventCb] using represents.taken
    · simpa [eventCb, heldCount, landed] using represents.held
  · obtain ⟨before, after⟩ := eventCb_heldCount data landed
    refine ⟨channel.accept data, .single (.accept _ _), ?_, represents.passed, ?_⟩
    · change channel.taken ++ data = _
      rw [represents.taken, eventCb, List.flatten_append, List.flatten_singleton]
    · change channel.held ++ data = _
      rw [represents.held, before, after]
      exact (eventCb_slice s data).symm

theorem rsrxThread_follows {s : State} {channel : Channel UInt8}
    (represents : Represents s channel) (lossless : Lossless s .thread) :
    ∃ channel', Relation.ReflTransGen Channel.Move channel channel' ∧
      Represents (rsrxThread s) channel' := by
  obtain ⟨taken, passed, held⟩ := represents
  cases pc : s.pc
  case write =>
    simp only [heldCount, pc] at held
    refine ⟨channel.pass s.indexin, .single (.pass _ _), ?_, ?_, ?_⟩
    · exact taken.trans (by simp only [rsrxThread, pc])
    · change channel.passed ++ channel.held.take s.indexin = _
      rw [passed, held, Cells.take_slice _ _ _ _ (Nat.le_refl _)]
      simp only [rsrxThread, pc, List.flatten_append, List.flatten_singleton]
    · change channel.held.drop s.indexin = _
      rw [held, Cells.drop_slice _ _ _ _ (Nat.le_refl _), Nat.sub_self]
      simp only [rsrxThread, pc, heldCount, Cells.slice_zero]
  case clamp =>
    have short := lossless pc
    refine ⟨channel, .refl, ?_, ?_, ?_⟩
    all_goals simp only [rsrxThread, pc, heldCount, show ¬dumpLimit < s.indexin by omega,
      ↓reduceIte] at held ⊢
    · exact taken
    · exact passed
    · exact held
  case testReceived =>
    by_cases arrived : 0 < s.indexin
    all_goals
      refine ⟨channel, .refl, ?_, ?_, ?_⟩
      all_goals simp only [rsrxThread, pc, heldCount, arrived, ↓reduceIte] at held ⊢
      all_goals assumption
  case compare =>
    by_cases silent : s.oldindexin = s.indexin
    all_goals
      refine ⟨channel, .refl, ?_, ?_, ?_⟩
      all_goals simp only [rsrxThread, pc, heldCount, silent, ↓reduceIte] at held ⊢
      all_goals assumption
  all_goals
    refine ⟨channel, .refl, ?_, ?_, ?_⟩
    all_goals simp only [rsrxThread, pc, heldCount] at held ⊢
    all_goals assumption

theorem step_follows (s : State) (action : Action) (t : State) (channel : Channel UInt8)
    (represents : Represents s channel) (lossless : Lossless s action)
    (taken : step s action = some t) :
    ∃ channel', Relation.ReflTransGen Channel.Move channel channel' ∧
      Represents t channel' := by
  cases action with
  | packet data =>
      cases taken
      exact eventCb_follows data represents lossless
  | thread =>
      cases taken
      exact rsrxThread_follows represents lossless

/-- Bytes received that are neither written nor still to be written. -/
def lost (s : State) : Nat :=
  s.received.flatten.length - (s.written.flatten.length + heldCount s)

/-- No byte is written twice. -/
def Counted (s : State) : Prop :=
  s.written.flatten.length + heldCount s ≤ s.received.flatten.length

theorem rsrxThread_received (s : State) : (rsrxThread s).received = s.received := by
  cases pc : s.pc <;> simp only [rsrxThread, pc]

theorem rsrxThread_written {s : State} (elsewhere : s.pc ≠ .write) :
    (rsrxThread s).written = s.written := by
  cases pc : s.pc <;> first | exact absurd pc elsewhere | simp only [rsrxThread, pc]

theorem rsrxThread_heldCount {s : State} (notWrite : s.pc ≠ .write) (notClamp : s.pc ≠ .clamp) :
    heldCount (rsrxThread s) = heldCount s := by
  cases pc : s.pc
  case write => exact absurd pc notWrite
  case clamp => exact absurd pc notClamp
  case testReceived =>
    by_cases arrived : 0 < s.indexin <;> simp only [rsrxThread, heldCount, pc, arrived, ↓reduceIte]
  case compare =>
    by_cases silent : s.oldindexin = s.indexin <;>
      simp only [rsrxThread, heldCount, pc, silent, ↓reduceIte]
  all_goals simp only [rsrxThread, heldCount, pc]

theorem eventCb_lost {s : State} (data : List UInt8) (counted : Counted s) :
    Counted (eventCb s data) ∧
      lost (eventCb s data) = lost s + if s.pc = .reset then data.length else 0 := by
  have grown : (eventCb s data).received.flatten.length =
      s.received.flatten.length + data.length := by
    simp [eventCb]
  have same : (eventCb s data).written = s.written := rfl
  unfold Counted lost at *
  rw [grown, same]
  by_cases landed : s.pc = .reset
  · have none : heldCount s = 0 ∧ heldCount (eventCb s data) = 0 := by
      simp [heldCount, eventCb, landed]
    simp only [landed, ↓reduceIte]
    omega
  · obtain ⟨before, after⟩ := eventCb_heldCount data landed
    simp only [landed, ↓reduceIte]
    omega

theorem rsrxThread_lost {s : State} (counted : Counted s) :
    Counted (rsrxThread s) ∧
      lost (rsrxThread s) = lost s + if s.pc = .clamp then s.indexin - dumpLimit else 0 := by
  unfold Counted lost at *
  rw [rsrxThread_received]
  by_cases writes : s.pc = .write
  · have before : heldCount s = s.indexin := by simp only [heldCount, writes]
    have after : heldCount (rsrxThread s) = 0 := by simp only [heldCount, rsrxThread, writes]
    have output : (rsrxThread s).written.flatten.length =
        s.written.flatten.length + s.indexin := by
      simp only [rsrxThread, writes, List.flatten_append, List.flatten_singleton,
        List.length_append, Cells.slice_length]
    simp only [output, after, before, writes, reduceCtorEq, ↓reduceIte] at counted ⊢
    omega
  · rw [rsrxThread_written writes]
    by_cases clamps : s.pc = .clamp
    · have before : heldCount s = s.indexin := by simp only [heldCount, clamps]
      have after : heldCount (rsrxThread s) =
          if dumpLimit < s.indexin then dumpLimit else s.indexin := by
        simp only [heldCount, rsrxThread, clamps]
      simp only [before, after, clamps, ↓reduceIte] at counted ⊢
      split <;> omega
    · rw [rsrxThread_heldCount writes clamps]
      simp only [clamps, ↓reduceIte]
      omega

/-- Bytes are lost by a packet that lands between the call of stdio_write and the reset, and by
the clamp. -/
theorem step_lost (s : State) (action : Action) (t : State) (counted : Counted s)
    (taken : step s action = some t) :
    lost s ≤ lost t ∧ (lost t = lost s ↔ Lossless s action) := by
  cases action with
  | packet data =>
      cases taken
      rw [(eventCb_lost data counted).2]
      by_cases landed : s.pc = .reset <;> simp [Lossless, landed]
  | thread =>
      cases taken
      rw [(rsrxThread_lost counted).2]
      by_cases clamps : s.pc = .clamp <;> simp [Lossless, clamps, Nat.sub_eq_zero_iff_le]

theorem step_counted (s : State) (action : Action) (t : State) (counted : Counted s)
    (taken : step s action = some t) : Counted t := by
  cases action <;> cases taken
  · exact (eventCb_lost _ counted).1
  · exact (rsrxThread_lost counted).1

/-- Outside the reset, what is counted has arrived since the last stdio_write. -/
def Recent (s : State) : Prop := s.pc ≠ .reset → s.indexin ≤ s.accumulated

theorem step_recent (s : State) (action : Action) (t : State) (recent : Recent s)
    (taken : step s action = some t) : Recent t := by
  unfold Recent at *
  cases action with
  | packet data =>
      cases taken
      intro landed
      have := recent landed
      simp only [eventCb]
      omega
  | thread =>
      cases taken
      cases pc : s.pc <;> simp only [rsrxThread, pc, ne_eq, reduceCtorEq, not_false_eq_true,
        forall_const, not_true_eq_false, false_implies, Nat.zero_le] at recent ⊢
      case clamp => split <;> omega
      all_goals first | exact recent | (intro _; exact recent)

/-- Below the limit the clamp cuts nothing off, so only the reset can lose bytes. -/
theorem lossless_of_unbroken {actions : List Action}
    (small : Always step (fun s => s.accumulated ≤ dumpLimit) start actions)
    (unbroken : Meets step Unbroken start actions) : Meets step Lossless start actions := by
  refine Meets.strengthen step_recent ?_ (fun _ => Nat.le_refl _) small unbroken
  intro s action recent small unbroken
  cases action with
  | packet data => exact unbroken
  | thread =>
      intro clamps
      have := recent (by rw [clamps]; exact Pc.noConfusion)
      omega

theorem unbroken_of_lossless (s : State) (action : Action) (lossless : Lossless s action) :
    Unbroken s action := by
  cases action with
  | packet data => exact lossless
  | thread => trivial

theorem dump_lossless_iff (actions : List Action) (s : State)
    (reached : execute step start actions = some s)
    (small : Always step (fun s => s.accumulated ≤ dumpLimit) start actions)
    (asleep : s.pc = .asleep) :
    s.written.flatten ++ Cells.slice s.message 0 s.indexin = s.received.flatten ↔
      Meets step Unbroken start actions := by
  have held : heldCount s = s.indexin := by simp only [heldCount, asleep]
  constructor
  · intro complete
    have nothing : lost s = 0 := by
      have lengths := congrArg List.length complete
      rw [List.length_append, Cells.slice_length] at lengths
      unfold lost
      omega
    have exact := (gauge_eq_iff_meets step_counted step_lost
      (show Counted start from Nat.le_refl _) reached).2
    exact Meets.mono step unbroken_of_lossless (exact.mp nothing)
  · intro unbroken
    obtain ⟨channel, _, represents⟩ := simulates step_follows start_represents
      (lossless_of_unbroken small unbroken) reached
    rw [← held]
    exact represents.conserved

/-- A packet that is recorded, a second one right before the call of stdio_write, and a third one
after the dump. -/
def aroundDump : List Action :=
  .packet [7] :: List.replicate 8 .thread ++ .packet [8] :: List.replicate 2 .thread ++
    [.packet [9]]

theorem dump_lossless_iff_once :
    ∃ s, execute step start aroundDump = some s ∧ s.written = [[7, 8]] ∧
      s.written.flatten ++ Cells.slice s.message 0 s.indexin = s.received.flatten :=
  ⟨_, rfl, rfl, (dump_lossless_iff aroundDump _ rfl (by decide) rfl).mpr (by decide)⟩

/-- A packet that lands while the dump drains is forgotten. -/
theorem dump_drops_packet :
    ¬ ∀ (actions : List Action) (s : State), execute step start actions = some s →
      Always step (fun s => s.accumulated ≤ dumpLimit) start actions → s.pc = .asleep →
      s.written.flatten ++ Cells.slice s.message 0 s.indexin = s.received.flatten := by
  intro claim
  have lost := claim
    (.packet [7] :: List.replicate 9 .thread ++ [.packet [8], .thread]) _ rfl (by decide) rfl
  exact absurd lost (by decide)

end RiotNyAlesund.Gps.Rover
