import RiotNyAlesund.GpsBaseFlush

set_option autoImplicit false

/-! A flush that no UART byte disturbs. -/
namespace RiotNyAlesund.Gps.Base

open Transition

/-- `burst` fills the counted part of the buffer and its flush is about to start. The
histories start with it. -/
structure Stored (s : State) (burst : List UInt8) : Prop where
  flushing : s.pc = .announce
  positive : 0 < burst.length
  fits : burst.length ≤ bufsize
  counted : s.compteurin = burst.length
  bytes : Cells.slice s.message 0 burst.length = burst
  accepted : s.accepted = burst
  sent : s.sent = []

/-- The UART thread does not run. -/
def Undisturbed : Action → Prop
  | .uart _ => False
  | .main | .busy => True

instance (action : Action) : Decidable (Undisturbed action) :=
  match action with
  | .uart _ => isFalse id
  | .main | .busy => isTrue trivial

theorem mains_undisturbed (count : Nat) :
    ∀ action ∈ List.replicate count Action.main, Undisturbed action := by
  intro action member
  rw [List.eq_of_mem_replicate member]
  trivial

/-- What an undisturbed main knows at each access of a flush, or after it. -/
def Knows (s : State) : Prop :=
  match s.pc with
  | .asleep | .testReceived | .clearOld => s.compteurin = 0
  | .testSilence | .record => False
  | .announce | .testFull => 0 < s.compteurin
  | .sendFull read => sx127xLoraMsgQueue ≤ s.compteurin ∧ read.length ≤ sx127xLoraMsgQueue
  | .advance | .subRead => sx127xLoraMsgQueue ≤ s.compteurin
  | .subWrite counted => counted = s.compteurin ∧ sx127xLoraMsgQueue ≤ counted
  | .tailLength => 0 < s.compteurin ∧ s.compteurin < sx127xLoraMsgQueue
  | .sendTail length read => length = s.compteurin ∧ 0 < length ∧
      length < sx127xLoraMsgQueue ∧ read.length ≤ length
  | .pause | .clear | .testMore => True

/-- `Knows` for a counter within the buffer. -/
structure Flushing (s : State) : Prop where
  knows : Knows s
  bounded : s.compteurin ≤ bufsize

/-- After an undisturbed flush the counter is 0. -/
theorem Flushing.emptied {s : State} (flushing : Flushing s) (outside : ¬InFlush s) :
    s.compteurin = 0 ∧ s.pc ≠ .testSilence := by
  have knows := flushing.knows
  cases pc : s.pc <;> simp only [InFlush, Knows, pc, not_true_eq_false] at outside knows
  all_goals exact ⟨knows, Pc.noConfusion⟩

/-- Bound on the accesses left before the flush ends, if no more send is refused. -/
def work (s : State) : Nat :=
  match s.pc with
  | .asleep | .testReceived | .testSilence | .record => 0
  | .announce => 100 * s.compteurin + 93
  | .testFull => 100 * s.compteurin + 90
  | .sendFull read => 100 * s.compteurin + 10 + (sx127xLoraMsgQueue - read.length)
  | .advance => 100 * s.compteurin + 9
  | .subRead => 100 * s.compteurin + 8
  | .subWrite _ => 100 * s.compteurin + 7
  | .pause => 100 * s.compteurin + 92
  | .tailLength => 100 * s.compteurin + 80
  | .sendTail length read => 100 * s.compteurin + 10 + (length - read.length)
  | .clear => 100
  | .clearOld => 95
  | .testMore => 100 * s.compteurin + 91

/-- One undisturbed access keeps what main knows and, inside the flush, leaves less work. -/
theorem main_flushing {s : State} (flushing : Flushing s) :
    Flushing (main s) ∧ (InFlush s → work (main s) < work s) := by
  obtain ⟨knows, bounded⟩ := flushing
  have queue : sx127xLoraMsgQueue = 64 := rfl
  cases pc : s.pc <;> simp only [Knows, pc] at knows
  case testReceived =>
    have none : ¬0 < s.compteurin := by omega
    simp only [main, pc, none, ↓reduceIte, InFlush, false_implies, and_true]
    exact ⟨knows, bounded⟩
  case testFull =>
    by_cases full : sx127xLoraMsgQueue ≤ s.compteurin
    all_goals
      simp only [main, pc, full, ↓reduceIte, InFlush, true_implies]
      refine ⟨⟨?_, bounded⟩, ?_⟩ <;> simp only [Knows, work, pc, List.length_nil]
      all_goals omega
  case sendFull read =>
    by_cases more : read.length < sx127xLoraMsgQueue
    all_goals
      simp only [main, pc, more, ↓reduceIte, InFlush, true_implies]
      refine ⟨⟨?_, bounded⟩, ?_⟩ <;>
        simp only [Knows, work, pc, List.length_append, List.length_singleton]
      all_goals omega
  case subWrite counted =>
    have reduced := u32Sub_queue knows.2 (by omega)
    simp only [main, pc, reduced, InFlush, true_implies]
    refine ⟨⟨trivial, ?_⟩, ?_⟩ <;> simp only [work, pc]
    all_goals omega
  case sendTail length read =>
    by_cases more : read.length < length
    all_goals
      simp only [main, pc, more, ↓reduceIte, InFlush, true_implies]
      refine ⟨⟨?_, bounded⟩, ?_⟩ <;>
        simp only [Knows, work, pc, List.length_append, List.length_singleton]
      all_goals omega
  case testMore =>
    by_cases more : 0 < s.compteurin
    all_goals
      simp only [main, pc, more, ↓reduceIte, InFlush, true_implies]
      refine ⟨⟨?_, bounded⟩, ?_⟩ <;> simp only [Knows, work, pc]
      all_goals omega
  all_goals
    simp only [main, pc, InFlush, false_implies, true_implies, and_true]
  case asleep => exact ⟨knows, bounded⟩
  all_goals
    refine ⟨⟨?_, ?_⟩, ?_⟩ <;>
      simp only [Knows, work, pc, List.length_nil, Nat.zero_le, true_and, and_true]
    all_goals omega

theorem busy_flushing {s t : State} (flushing : Flushing s) (taken : busy s = some t) :
    Flushing t := by
  obtain ⟨_, rfl⟩ | ⟨length, pc, rfl⟩ := busy_eq taken
  · exact flushing
  · obtain ⟨knows, bounded⟩ := flushing
    simp only [Knows, pc] at knows
    obtain ⟨counted, positive, short, _⟩ := knows
    rw [counted] at positive short
    exact ⟨⟨positive, short⟩, bounded⟩

theorem step_flushing (s : State) (action : Action) (t : State) (flushing : Flushing s)
    (undisturbed : Undisturbed action) (taken : step s action = some t) : Flushing t := by
  cases action with
  | uart val => exact absurd undisturbed id
  | main =>
      cases taken
      exact (main_flushing flushing).1
  | busy => exact busy_flushing flushing taken

/-- Nothing is accepted while the UART thread does not run. -/
theorem step_accepted (s : State) (action : Action) (t : State)
    (undisturbed : Undisturbed action) (taken : step s action = some t) :
    t.accepted = s.accepted := by
  cases action with
  | uart val => exact absurd undisturbed id
  | main =>
      cases taken
      exact main_accepted s
  | busy => obtain ⟨_, rfl⟩ | ⟨_, _, rfl⟩ := busy_eq taken <;> rfl

theorem quiet_of_flushing (s : State) (action : Action) (flushing : Flushing s)
    (undisturbed : Undisturbed action) : Quiet s action := by
  cases action with
  | uart val => exact absurd undisturbed id
  | main =>
      have knows := flushing.knows
      cases pc : s.pc <;> simp only [Quiet, Knows, pc] at knows ⊢
      intro _
      exact knows.1.symm
  | busy => trivial

theorem Stored.flushingState {s : State} {burst : List UInt8} (stored : Stored s burst) :
    Flushing s := by
  have positive := stored.positive
  have counted := stored.counted
  refine ⟨?_, by rw [counted]; exact stored.fits⟩
  simp only [Knows, stored.flushing]
  omega

theorem Stored.represents {s : State} {burst : List UInt8} (stored : Stored s burst) :
    Represents s ⟨burst, [], burst, rfl⟩ := by
  refine ⟨stored.accepted.symm, ?_, ?_, ?_, by rw [stored.counted]; exact stored.fits⟩
  · rw [stored.sent]
    rfl
  · simp only [pending, pendingFrom, pendingCount, stored.flushing, stored.counted, stored.bytes]
  · simp only [Read, stored.flushing]

/-- An undisturbed flush that has ended has sent the burst, whatever sends were refused. -/
theorem flush_complete {s t : State} {burst : List UInt8} {actions : List Action}
    (stored : Stored s burst) (undisturbed : ∀ action ∈ actions, Undisturbed action)
    (reached : execute step s actions = some t) (outside : ¬InFlush t) :
    t.sent.flatten = burst ∧ t.compteurin = 0 := by
  have met : Meets step (fun _ action => Undisturbed action) s actions :=
    meets_of_forall step s undisturbed
  have keeps : ∀ (s : State) (action : Action) (t : State),
      Flushing s ∧ s.accepted = burst → Undisturbed action → step s action = some t →
        Flushing t ∧ t.accepted = burst := fun s action t holds undisturbed taken =>
    ⟨step_flushing s action t holds.1 undisturbed taken,
      (step_accepted s action t undisturbed taken).trans holds.2⟩
  have initial : Flushing s ∧ s.accepted = burst := ⟨stored.flushingState, stored.accepted⟩
  obtain ⟨flushing, accepted⟩ := invariant keeps initial met reached
  have follows : ∀ (s : State) (action : Action) (t : State) (channel : Channel UInt8),
      Flushing s ∧ Represents s channel → Undisturbed action → step s action = some t →
        ∃ channel', Relation.ReflTransGen Channel.Move channel channel' ∧
          Flushing t ∧ Represents t channel' := by
    intro s action t channel holds undisturbed taken
    obtain ⟨channel', moves, represents⟩ := step_follows s action t channel holds.2
      (quiet_of_flushing s action holds.1 undisturbed) taken
    exact ⟨channel', moves, step_flushing s action t holds.1 undisturbed taken, represents⟩
  obtain ⟨channel, _, _, represents⟩ :=
    simulates follows ⟨stored.flushingState, stored.represents⟩ met reached
  have none : t.compteurin = 0 := (flushing.emptied outside).1
  have conserved := represents.conserved
  rw [pending_outside outside, none, Cells.slice_zero, List.append_nil, accepted] at conserved
  exact ⟨conserved, none⟩

/-- An undisturbed flush whose sends are accepted ends. -/
theorem flush_ends {s : State} (flushing : Flushing s) :
    ∃ count t, execute step s (List.replicate count .main) = some t ∧ ¬InFlush t := by
  have nearer : ∀ s, Flushing s → ¬¬InFlush s →
      ∃ t, step s .main = some t ∧ Flushing t ∧ work t < work s := by
    intro s flushing inside
    obtain ⟨next, less⟩ := main_flushing flushing
    exact ⟨main s, rfl, next, less (Decidable.not_not.mp inside)⟩
  obtain ⟨count, t, reached, _, outside⟩ := repetition_leads_to nearer flushing
  exact ⟨count, t, reached, outside⟩

end RiotNyAlesund.Gps.Base
