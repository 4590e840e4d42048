import RiotNyAlesund.Gps
import RiotNyAlesund.Transition
import RiotNyAlesund.Channel

set_option autoImplicit false

namespace RiotNyAlesund.Gps.Base

open Transition

/-- Position in `message` of the oldest byte no send has taken yet. -/
def pendingFrom (s : State) : Nat :=
  match s.pc with
  | .asleep | .testReceived | .testSilence | .record | .announce => 0
  | .advance => s.indice + sx127xLoraMsgQueue
  | _ => s.indice

/-- Number of bytes main still owes the radio. Between a send and the store of the reduced
counter it is less than `compteurin`. -/
def pendingCount (s : State) : Nat :=
  match s.pc with
  | .advance | .subRead => s.compteurin - sx127xLoraMsgQueue
  | .subWrite counted => counted - sx127xLoraMsgQueue
  | .clear => 0
  | _ => s.compteurin

def pending (s : State) : List UInt8 :=
  Cells.slice s.message (pendingFrom s) (pendingCount s)

/-- What main has read on its way to the access it is at. -/
def Read (s : State) : Prop :=
  match s.pc with
  | .sendFull read => sx127xLoraMsgQueue ≤ s.compteurin ∧ read.length ≤ sx127xLoraMsgQueue ∧
      read = Cells.slice s.message s.indice read.length
  | .advance | .subRead => sx127xLoraMsgQueue ≤ s.compteurin
  | .subWrite counted => counted = s.compteurin ∧ sx127xLoraMsgQueue ≤ counted
  | .sendTail length read => length ≤ s.compteurin ∧ read.length ≤ length ∧
      read = Cells.slice s.message s.indice read.length
  | _ => True

/-- The counter the UART thread stores at is one past the last byte main will send. This is
lost from the first reduction of `compteurin` in a flush until the flush ends, and, for the
last piece, once its send has been accepted. -/
def Aligned (s : State) : Prop :=
  match s.pc with
  | .asleep | .testReceived | .testSilence | .record | .announce => True
  | .subRead => s.indice = sx127xLoraMsgQueue
  | .subWrite _ | .clear => False
  | _ => s.indice = 0

/-- No UART byte is stored while the counter is out of step with the buffer, nor between
the length read of the last piece and its accepted send. -/
def Quiet (s : State) : Action → Prop
  | .uart _ => s.compteurin < bufsize → Aligned s
  | .main =>
      match s.pc with
      | .sendTail length read => length ≤ read.length → s.compteurin = length
      | _ => True
  | .busy => True

instance (s : State) : Decidable (Aligned s) := by
  unfold Aligned
  split <;> infer_instance

instance (s : State) (action : Action) : Decidable (Quiet s action) := by
  unfold Quiet
  split
  · infer_instance
  · split <;> infer_instance
  · infer_instance

/-- The station implements a lossless channel from UART to radio. -/
structure Represents (s : State) (channel : Channel UInt8) : Prop where
  taken : channel.taken = s.accepted
  passed : channel.passed = s.sent.flatten
  held : channel.held = pending s
  read : Read s
  bounded : s.compteurin ≤ bufsize

theorem start_represents : Represents start Channel.empty :=
  ⟨rfl, rfl, rfl, trivial, Nat.zero_le _⟩

theorem Represents.conserved {s : State} {channel : Channel UInt8}
    (represents : Represents s channel) :
    s.sent.flatten ++ pending s = s.accepted := by
  rw [← represents.taken, ← represents.passed, ← represents.held, channel.conserved]

/-- While aligned, what is pending ends where the next UART byte goes. -/
theorem pending_end {s : State} (read : Read s) (aligned : Aligned s) :
    pendingFrom s + pendingCount s = s.compteurin := by
  cases pc : s.pc <;> simp only [Read, Aligned, pendingFrom, pendingCount, pc] at read aligned ⊢
  all_goals omega

theorem rstxThread_follows {s : State} {channel : Channel UInt8} (val : UInt8)
    (represents : Represents s channel) (room : s.compteurin < bufsize)
    (aligned : Aligned s) :
    Represents (rstxThread s val) (channel.accept [val]) := by
  have position := pending_end represents.read aligned
  have read := represents.read
  simp only [rstxThread, room, ↓reduceIte]
  refine ⟨?_, represents.passed, ?_, ?_, room⟩
  · exact congrArg (· ++ [val]) represents.taken
  · have stored := Cells.slice_store_append s.message (pendingFrom s) (pendingCount s) [val]
    rw [position] at stored
    change channel.held ++ [val] = _
    rw [represents.held]
    refine stored.symm.trans ?_
    have count : pendingCount s + [val].length = pendingCount
        { s with
          message := Cells.store s.message s.compteurin [val]
          compteurin := s.compteurin + 1
          accepted := s.accepted ++ [val] } := by
      cases pc : s.pc <;> simp only [Read, Aligned, pendingCount, pc, List.length_singleton]
        at read aligned ⊢
      all_goals omega
    rw [count]
    rfl
  · cases pc : s.pc <;> simp only [Read, Aligned, pc] at read aligned ⊢
    case sendFull bytes =>
      refine ⟨by omega, read.2.1, read.2.2.trans ?_⟩
      rw [Cells.slice_store_above _ _ _ _ _ (by omega)]
    case sendTail length bytes =>
      refine ⟨by omega, read.2.1, read.2.2.trans ?_⟩
      rw [Cells.slice_store_above _ _ _ _ _ (by omega)]
    all_goals omega

/-- An access that stores nothing and sends nothing leaves the channel as it is. -/
theorem Represents.stutter {s t : State} {channel : Channel UInt8}
    (represents : Represents s channel) (accepted : t.accepted = s.accepted)
    (sent : t.sent = s.sent) (same : pending t = pending s) (read : Read t)
    (bounded : t.compteurin ≤ bufsize) : Represents t channel :=
  ⟨represents.taken.trans accepted.symm, by rw [represents.passed, sent],
    represents.held.trans same.symm, read, bounded⟩

/-- An accepted send passes on the oldest pending bytes. -/
theorem Represents.send {s t : State} {channel : Channel UInt8} (count : Nat)
    (represents : Represents s channel) (fits : count ≤ pendingCount s)
    (accepted : t.accepted = s.accepted)
    (sent : t.sent = s.sent ++ [Cells.slice s.message (pendingFrom s) count])
    (rest : pending t =
      Cells.slice s.message (pendingFrom s + count) (pendingCount s - count))
    (read : Read t) (bounded : t.compteurin ≤ bufsize) :
    Represents t (channel.pass count) := by
  refine ⟨represents.taken.trans accepted.symm, ?_, ?_, read, bounded⟩
  · change channel.passed ++ channel.held.take count = _
    rw [represents.passed, represents.held, pending, Cells.take_slice _ _ _ _ fits, sent,
      List.flatten_append, List.flatten_singleton]
  · change channel.held.drop count = _
    rw [represents.held, pending, Cells.drop_slice _ _ _ _ fits, rest]

/-- A byte read inside send_cmd extends the copy of the slice by one cell. -/
theorem read_next {message : Nat → UInt8} {position : Nat} {read : List UInt8}
    (copied : read = Cells.slice message position read.length) :
    read ++ [message (position + read.length)] =
      Cells.slice message position (read ++ [message (position + read.length)]).length := by
  rw [List.length_append, List.length_singleton, Cells.slice_succ, ← copied]

/-- send_cmd reads a byte of a full piece, or passes the piece on. -/
theorem sendFull_follows {s : State} {channel : Channel UInt8} {bytes : List UInt8}
    (represents : Represents s channel) (pc : s.pc = .sendFull bytes) :
    ∃ channel', Relation.ReflTransGen Channel.Move channel channel' ∧
      Represents (main s) channel' := by
  have read := represents.read
  have bounded := represents.bounded
  simp only [Read, pc] at read
  obtain ⟨full, short, copied⟩ := read
  by_cases more : bytes.length < sx127xLoraMsgQueue
  · refine ⟨channel, .refl, ?_⟩
    apply represents.stutter (main_accepted s)
    all_goals simp only [main, pc, more, ↓reduceIte, pending, pendingFrom, pendingCount]
    · refine ⟨full, ?_, read_next copied⟩
      rw [List.length_append, List.length_singleton]
      exact more
    · exact bounded
  · have length : bytes.length = sx127xLoraMsgQueue := by omega
    rw [length] at copied
    refine ⟨channel.pass sx127xLoraMsgQueue, .single (.pass _ _),
      represents.send _ ?_ (main_accepted s) ?_ ?_ ?_ ?_⟩
    all_goals simp only [main, pc, more, ↓reduceIte, pending, pendingFrom, pendingCount]
    · exact full
    · rw [← copied]
    · exact full
    · exact bounded

/-- send_cmd reads a byte of the last piece, or passes on all that is pending, provided its
length is still the count. -/
theorem sendTail_follows {s : State} {channel : Channel UInt8} {length : Nat}
    {bytes : List UInt8} (represents : Represents s channel) (quiet : Quiet s .main)
    (pc : s.pc = .sendTail length bytes) :
    ∃ channel', Relation.ReflTransGen Channel.Move channel channel' ∧
      Represents (main s) channel' := by
  have read := represents.read
  have bounded := represents.bounded
  simp only [Read, pc] at read
  obtain ⟨within, short, copied⟩ := read
  by_cases more : bytes.length < length
  · refine ⟨channel, .refl, ?_⟩
    apply represents.stutter (main_accepted s)
    all_goals simp only [main, pc, more, ↓reduceIte, pending, pendingFrom, pendingCount]
    · refine ⟨within, ?_, read_next copied⟩
      rw [List.length_append, List.length_singleton]
      exact more
    · exact bounded
  · simp only [Quiet, pc] at quiet
    have counted := quiet (by omega)
    have size : bytes.length = s.compteurin := by omega
    rw [size] at copied
    refine ⟨channel.pass s.compteurin, .single (.pass _ _),
      represents.send _ ?_ (main_accepted s) ?_ ?_ ?_ ?_⟩
    all_goals simp only [main, pc, more, ↓reduceIte, pending, pendingFrom, pendingCount]
    · exact Nat.le_refl _
    · rw [← copied]
    · rw [Nat.sub_self, Cells.slice_zero, Cells.slice_zero]
    · trivial
    · exact bounded

/-- Outside send_cmd main passes nothing on. -/
theorem main_stutters {s : State} {channel : Channel UInt8} (represents : Represents s channel)
    (full : ∀ bytes, s.pc ≠ .sendFull bytes)
    (tail : ∀ length bytes, s.pc ≠ .sendTail length bytes) : Represents (main s) channel := by
  have read := represents.read
  have bounded := represents.bounded
  cases pc : s.pc
  case sendFull bytes => exact absurd pc (full bytes)
  case sendTail length bytes => exact absurd pc (tail length bytes)
  case testFull =>
    by_cases full : sx127xLoraMsgQueue ≤ s.compteurin
    all_goals
      apply represents.stutter (main_accepted s)
      all_goals simp only [main, pc, full, ↓reduceIte, pending, pendingFrom, pendingCount, Read]
    · exact ⟨trivial, Nat.zero_le _, rfl⟩
    all_goals exact bounded
  case testMore =>
    by_cases more : 0 < s.compteurin
    all_goals
      apply represents.stutter (main_accepted s)
      all_goals simp only [main, pc, more, ↓reduceIte, pending, pendingFrom, pendingCount, Read]
    · exact bounded
    · rw [show s.compteurin = 0 by omega, Cells.slice_zero, Cells.slice_zero]
    · exact bounded
  case testReceived =>
    by_cases arrived : 0 < s.compteurin
    all_goals
      apply represents.stutter (main_accepted s)
      all_goals simp only [main, pc, arrived, ↓reduceIte, pending, pendingFrom, pendingCount,
        Read]
    all_goals exact bounded
  case testSilence =>
    by_cases silent : s.compteurin = s.oldcompteurin
    all_goals
      apply represents.stutter (main_accepted s)
      all_goals simp only [main, pc, silent, ↓reduceIte, pending, pendingFrom, pendingCount,
        Read]
    all_goals omega
  case subWrite counted =>
    simp only [Read, pc] at read
    have reduced := u32Sub_queue read.2 (by omega)
    apply represents.stutter (main_accepted s)
    all_goals simp only [main, pc, pending, pendingFrom, pendingCount, Read, reduced]
    omega
  case subRead =>
    simp only [Read, pc] at read
    apply represents.stutter (main_accepted s)
    all_goals simp only [main, pc, pending, pendingFrom, pendingCount, Read]
    · exact ⟨trivial, read⟩
    · exact bounded
  case tailLength =>
    apply represents.stutter (main_accepted s)
    all_goals simp only [main, pc, pending, pendingFrom, pendingCount, Read]
    · simp only [Nat.le_refl, List.length_nil, Nat.zero_le, Cells.slice_zero, and_self]
    · exact bounded
  case advance =>
    simp only [Read, pc] at read
    apply represents.stutter (main_accepted s)
    all_goals simp only [main, pc, pending, pendingFrom, pendingCount, Read]
    · exact read
    · exact bounded
  all_goals
    apply represents.stutter (main_accepted s)
    all_goals simp only [main, pc, pending, pendingFrom, pendingCount, Read]
    all_goals first
      | exact bounded
      | exact Nat.zero_le _

theorem main_follows {s : State} {channel : Channel UInt8}
    (represents : Represents s channel) (quiet : Quiet s .main) :
    ∃ channel', Relation.ReflTransGen Channel.Move channel channel' ∧
      Represents (main s) channel' := by
  cases pc : s.pc
  case sendFull bytes => exact sendFull_follows represents pc
  case sendTail length bytes => exact sendTail_follows represents quiet pc
  all_goals
    refine ⟨channel, .refl, main_stutters represents ?_ ?_⟩
    all_goals
      rw [pc]
      simp only [ne_eq, reduceCtorEq, not_false_eq_true, implies_true]

theorem busy_follows {s t : State} {channel : Channel UInt8}
    (represents : Represents s channel) (taken : busy s = some t) : Represents t channel := by
  obtain ⟨_, rfl⟩ | ⟨length, pc, rfl⟩ := busy_eq taken
  · exact represents
  · refine represents.stutter rfl rfl ?_ trivial represents.bounded
    simp only [pending, pendingFrom, pendingCount, pc]

/-- Every quiet step of the station is matched by a step of the channel, or by none. -/
theorem step_follows (s : State) (action : Action) (t : State) (channel : Channel UInt8)
    (represents : Represents s channel) (quiet : Quiet s action)
    (taken : step s action = some t) :
    ∃ channel', Relation.ReflTransGen Channel.Move channel channel' ∧
      Represents t channel' := by
  cases action with
  | uart val =>
      cases taken
      by_cases room : s.compteurin < bufsize
      · exact ⟨channel.accept [val], .single (.accept _ _),
          rstxThread_follows val represents room (quiet room)⟩
      · simp only [rstxThread, room, ↓reduceIte]
        exact ⟨channel, .refl, represents⟩
  | main =>
      cases taken
      exact main_follows represents quiet
  | busy => exact ⟨channel, .refl, busy_follows represents taken⟩

/-- Over a quiet run the station is a lossless channel: the payloads taken by the radio
followed by what is pending are the accepted bytes, in order. -/
theorem represents_of_quiet {s t : State} {channel : Channel UInt8} {actions : List Action}
    (represents : Represents s channel) (quiet : Meets step Quiet s actions)
    (reached : execute step s actions = some t) :
    ∃ channel', Relation.ReflTransGen Channel.Move channel channel' ∧
      Represents t channel' :=
  simulates step_follows represents quiet reached

/-- Outside a flush all that is pending is the counted part of the buffer. -/
theorem pending_outside {s : State} (outside : ¬InFlush s) :
    pending s = Cells.slice s.message 0 s.compteurin := by
  cases pc : s.pc <;> simp only [InFlush, pc, not_true_eq_false] at outside
  all_goals simp only [pending, pendingFrom, pendingCount, pc]

theorem flush_lossless (actions : List Action) (s : State)
    (reached : execute step start actions = some s)
    (quiet : Meets step Quiet start actions) (outside : ¬InFlush s) :
    s.sent.flatten ++ Cells.slice s.message 0 s.compteurin = s.accepted := by
  obtain ⟨channel, _, represents⟩ := represents_of_quiet start_represents quiet reached
  rw [← pending_outside outside]
  exact represents.conserved

theorem flush_lossless_once :
    ∃ s, execute step start lateBytes = some s ∧ s.sent = [[7, 8, 9]] ∧
      s.sent.flatten ++ Cells.slice s.message 0 s.compteurin = s.accepted :=
  ⟨_, rfl, rfl, flush_lossless lateBytes _ rfl (by decide) (by decide)⟩

/-- A second byte that arrives between the accepted send and the store of 0 is forgotten. -/
theorem flush_drops_byte :
    ¬ ∀ (actions : List Action) (s : State), execute step start actions = some s →
      ¬InFlush s → s.sent.flatten ++ Cells.slice s.message 0 s.compteurin = s.accepted := by
  intro claim
  have lost := claim
    (.uart 7 :: List.replicate 12 .main ++ .uart 8 :: List.replicate 3 .main) _ rfl (by decide)
  exact absurd lost (by decide)

end RiotNyAlesund.Gps.Base
