import RiotNyAlesund.Relay
import RiotNyAlesund.Transition
import RiotNyAlesund.Channel

set_option autoImplicit false

namespace RiotNyAlesund.Relay

open Transition

/-- main has a packet in `message` that it has not handed to the driver yet. -/
def Owes (s : State) : Prop :=
  match s.pc with
  | .head => s.flagMessageRecv = true
  | .configure | .setIq | .wdtStart | .captureLen | .driverSend _ _ => True
  | _ => False

instance (s : State) : Decidable (Owes s) := by
  unfold Owes
  split <;> infer_instance

def owed (s : State) : List (List UInt8) :=
  if Owes s then [Cells.slice s.message 0 s.len] else []

def payloads (s : State) : List (List UInt8) := s.handed.map Handed.payload

/-- A packet arrives only while no earlier one is being relayed. -/
def Alone (s : State) : Action → Prop
  | .rx _ => s.flagMessageRecv = false
  | _ => True

instance (s : State) (action : Action) : Decidable (Alone s action) := by
  unfold Alone
  split <;> infer_instance

/-- Away from the loop head the flag is set. -/
def Flagged (s : State) : Prop := s.pc ≠ .head → s.flagMessageRecv = true

theorem main_flagged {s : State} (flagged : Flagged s) : Flagged (main s) := by
  unfold Flagged at *
  cases pc : s.pc
  case head =>
    by_cases flag : s.flagMessageRecv = true <;> simp [main, pc, flag]
  case driverSend length read =>
    have set := flagged (by rw [pc]; exact Pc.noConfusion)
    by_cases more : read.length < length <;> simp [main, sent, pc, more, set]
  case flip =>
    have set := flagged (by rw [pc]; exact Pc.noConfusion)
    cases direction : s.transmissionDirection <;> simp [main, pc, direction, set]
  case clearFlag => simp [main, pc]
  all_goals
    have set := flagged (by rw [pc]; exact Pc.noConfusion)
    simp [main, pc, set]

theorem step_flagged (s : State) (action : Action) (t : State) (flagged : Flagged s)
    (taken : step s action = some t) : Flagged t := by
  cases action with
  | rx data =>
      cases taken
      exact fun _ => rfl
  | main =>
      cases taken
      exact main_flagged flagged
  | refuse =>
      obtain ⟨length, pc, rfl⟩ := refuse_eq_sent taken
      exact fun _ => flagged (by rw [pc]; exact Pc.noConfusion)
  | txEnd | txExpire | txCallback =>
      obtain ⟨_, _, rfl⟩ := radio_eq (by simp) taken
      exact flagged

/-- Packets received that main has neither handed over nor still to hand over. -/
def missing (s : State) : Nat :=
  s.received.length - (s.handed.length + (owed s).length)

/-- No packet is handed over twice. -/
def Counted (s : State) : Prop :=
  Flagged s ∧ s.handed.length + (owed s).length ≤ s.received.length

theorem owed_length (s : State) : (owed s).length = if Owes s then 1 else 0 := by
  by_cases owes : Owes s <;> simp only [owed, owes, ↓reduceIte, List.length_cons, List.length_nil]

/-- An arriving packet takes the place of the one in hand, if there is one. -/
theorem eventCbRxComplete_owes {s : State} (data : List UInt8) (flagged : Flagged s) :
    Owes (eventCbRxComplete s data) ↔ Owes s ∨ s.flagMessageRecv = false := by
  unfold Flagged at flagged
  cases pc : s.pc <;> cases flag : s.flagMessageRecv <;>
    simp_all [Owes, eventCbRxComplete]

theorem main_owes {s : State} (withholds : Withholds s) : Owes (main s) ↔ Owes s := by
  cases pc : s.pc
  case head =>
    by_cases flag : s.flagMessageRecv = true <;>
      simp only [main, Owes, pc, flag, Bool.false_eq_true, ↓reduceIte]
  case driverSend length read =>
    have more := withholds length read pc
    simp only [main, Owes, pc, more, ↓reduceIte]
  case waitTx =>
    by_cases done : s.flagTxDone = true <;>
      simp only [main, Owes, pc, done, Bool.false_eq_true, ↓reduceIte]
  case flip =>
    cases direction : s.transmissionDirection <;> simp only [main, Owes, pc, direction]
  all_goals simp only [main, Owes, pc, Bool.false_eq_true]

theorem main_owed {s : State} (withholds : Withholds s) : owed (main s) = owed s := by
  have same := main_samePackets withholds
  simp only [owed, main_owes withholds, same.message, same.len]

/-- A call of driver->send settles the packet in hand. -/
theorem sent_settles {s : State} {length : Nat} {read : List UInt8} (payload : List UInt8)
    (accepted : Bool) (pc : s.pc = .driverSend length read) :
    (sent s payload accepted).received = s.received ∧
      (sent s payload accepted).handed.length + (owed (sent s payload accepted)).length =
        s.handed.length + (owed s).length := by
  rw [owed_length, owed_length]
  simp only [sent, Owes, pc, ↓reduceIte, List.length_append, List.length_cons, List.length_nil,
    and_self]

/-- A step of main settles what it hands over and nothing else. -/
theorem main_settles {s : State} :
    (main s).received = s.received ∧
      (main s).handed.length + (owed (main s)).length = s.handed.length + (owed s).length := by
  by_cases withholds : Withholds s
  · have same := main_samePackets withholds
    rw [same.received, same.handed, main_owed withholds]
    exact ⟨rfl, rfl⟩
  · obtain ⟨length, read, pc, _, handed⟩ := main_eq_sent withholds
    rw [handed]
    exact sent_settles read true pc

theorem refuse_settles {s t : State} (taken : refuse s = some t) :
    t.received = s.received ∧
      t.handed.length + (owed t).length = s.handed.length + (owed s).length := by
  obtain ⟨length, pc, rfl⟩ := refuse_eq_sent taken
  exact sent_settles _ false pc

theorem flag_of_owes {s : State} (flagged : Flagged s) (owes : Owes s) :
    s.flagMessageRecv = true := by
  by_cases waiting : s.pc = .head
  · simpa only [Owes, waiting] using owes
  · exact flagged waiting

/-- A packet that finds the flag set costs one packet: itself or the one in hand. -/
theorem eventCbRxComplete_missing {s : State} (data : List UInt8) (counted : Counted s) :
    Counted (eventCbRxComplete s data) ∧
      missing (eventCbRxComplete s data) =
        missing s + if s.flagMessageRecv then 1 else 0 := by
  obtain ⟨flagged, bounded⟩ := counted
  have owes := eventCbRxComplete_owes data flagged
  have received : (eventCbRxComplete s data).received.length = s.received.length + 1 := by
    simp only [eventCbRxComplete, List.length_append, List.length_singleton]
  have handed : (eventCbRxComplete s data).handed = s.handed := rfl
  unfold Counted missing
  rw [owed_length] at bounded
  rw [received, handed, owed_length, owed_length]
  cases flag : s.flagMessageRecv with
  | true =>
      simp only [flag, Bool.true_eq_false, or_false] at owes
      simp only [owes, ↓reduceIte]
      exact ⟨⟨fun _ => rfl, by omega⟩, by omega⟩
  | false =>
      have free : ¬Owes s := by
        intro held
        rw [flag_of_owes flagged held] at flag
        contradiction
      simp only [flag, or_true, iff_true] at owes
      simp only [free, ↓reduceIte] at bounded
      simp only [owes, free, Bool.false_eq_true, ↓reduceIte]
      exact ⟨⟨fun _ => rfl, by omega⟩, by omega⟩

theorem step_counted (s : State) (action : Action) (t : State) (counted : Counted s)
    (taken : step s action = some t) : Counted t := by
  refine ⟨step_flagged s action t counted.1 taken, ?_⟩
  have bounded := counted.2
  cases action with
  | rx data =>
      cases taken
      exact (eventCbRxComplete_missing data counted).1.2
  | main =>
      cases taken
      rw [main_settles.1, main_settles.2]
      exact bounded
  | refuse =>
      obtain ⟨received, settled⟩ := refuse_settles taken
      rw [received, settled]
      exact bounded
  | txEnd | txExpire | txCallback =>
      obtain ⟨_, _, rfl⟩ := radio_eq (by simp) taken
      exact bounded

/-- Packets go missing exactly where one arrives while another is being relayed. -/
theorem step_missing (s : State) (action : Action) (t : State) (counted : Counted s)
    (taken : step s action = some t) :
    missing s ≤ missing t ∧ (missing t = missing s ↔ Alone s action) := by
  cases action with
  | rx data =>
      cases taken
      rw [(eventCbRxComplete_missing data counted).2]
      cases flag : s.flagMessageRecv <;> simp [Alone, flag]
  | main =>
      cases taken
      simp [missing, main_settles.1, main_settles.2, Alone]
  | refuse =>
      obtain ⟨received, settled⟩ := refuse_settles taken
      simp [missing, received, settled, Alone]
  | txEnd | txExpire | txCallback =>
      obtain ⟨_, _, rfl⟩ := radio_eq (by simp) taken
      exact ⟨Nat.le_refl _, iff_of_true rfl trivial⟩

/-- Inside test_send the length is that of the packet in `message`, and what the driver has
read is a prefix of it. -/
def Copied (s : State) : Prop :=
  match s.pc with
  | .driverSend length read => length = s.len ∧ read.length ≤ length ∧
      read = Cells.slice s.message 0 read.length
  | _ => True

/-- The relay implements a lossless channel from one side of the radio to the other. -/
structure Represents (s : State) (channel : Channel (List UInt8)) : Prop where
  taken : channel.taken = s.received
  passed : channel.passed = payloads s
  held : channel.held = owed s
  flagged : Flagged s
  copied : Copied s

theorem start_represents : Represents start Channel.empty :=
  ⟨rfl, rfl, rfl, fun moved => absurd rfl moved, trivial⟩

/-- A step that neither receives nor hands over leaves the channel as it is. -/
theorem Represents.stutter {s t : State} {channel : Channel (List UInt8)}
    (represents : Represents s channel) (received : t.received = s.received)
    (handed : t.handed = s.handed) (same : owed t = owed s) (flagged : Flagged t)
    (copied : Copied t) : Represents t channel :=
  ⟨represents.taken.trans received.symm, by rw [represents.passed, payloads, payloads, handed],
    represents.held.trans same.symm, flagged, copied⟩

/-- A call of driver->send passes on the packet in hand. -/
theorem sent_represents {s : State} {channel : Channel (List UInt8)} {length : Nat}
    {read : List UInt8} (accepted : Bool) (represents : Represents s channel)
    (pc : s.pc = .driverSend length read) :
    Represents (sent s (Cells.slice s.message 0 length) accepted) (channel.pass 1) := by
  have copied := represents.copied
  simp only [Copied, pc] at copied
  have held : channel.held = [Cells.slice s.message 0 length] := by
    rw [represents.held, owed, copied.1]
    simp only [Owes, pc, ↓reduceIte]
  have set : s.flagMessageRecv = true := represents.flagged (by rw [pc]; exact Pc.noConfusion)
  refine ⟨represents.taken, ?_, ?_, fun _ => set, trivial⟩
  · change channel.passed ++ channel.held.take 1 = _
    rw [represents.passed, held]
    simp only [payloads, sent, List.map_append, List.map_cons, List.map_nil, List.take_succ_cons,
      List.take_zero]
  · change channel.held.drop 1 = _
    rw [held]
    simp only [owed, Owes, sent, ↓reduceIte, List.drop_succ_cons, List.drop_zero]

/-- What the driver is still to copy is copied from the packet in `message`. -/
theorem main_copied {s : State} (copied : Copied s) (withholds : Withholds s) :
    Copied (main s) := by
  cases pc : s.pc
  case driverSend length read =>
    have more := withholds length read pc
    simp only [Copied, pc] at copied
    obtain ⟨counted, short, prefixed⟩ := copied
    simp only [main, pc, more, ↓reduceIte, Copied]
    refine ⟨counted, ?_, ?_⟩
    · rw [List.length_append, List.length_singleton]
      exact more
    · rw [List.length_append, List.length_singleton, Cells.slice_succ, ← prefixed, Nat.zero_add]
  case captureLen =>
    simp only [main, pc, Copied]
    exact ⟨trivial, Nat.zero_le _, rfl⟩
  case head =>
    by_cases flag : s.flagMessageRecv = true <;>
      simp only [main, pc, flag, Bool.false_eq_true, ↓reduceIte, Copied]
  case waitTx =>
    by_cases done : s.flagTxDone = true <;>
      simp only [main, pc, done, Bool.false_eq_true, ↓reduceIte, Copied]
  case flip =>
    cases direction : s.transmissionDirection <;> simp only [main, pc, direction, Copied]
  all_goals simp only [main, pc, Copied]

theorem main_follows {s : State} {channel : Channel (List UInt8)}
    (represents : Represents s channel) :
    ∃ channel', Relation.ReflTransGen Channel.Move channel channel' ∧
      Represents (main s) channel' := by
  by_cases withholds : Withholds s
  · have same := main_samePackets withholds
    exact ⟨channel, .refl, represents.stutter same.received same.handed (main_owed withholds)
      (main_flagged represents.flagged) (main_copied represents.copied withholds)⟩
  · obtain ⟨length, read, pc, copiedAll, handed⟩ := main_eq_sent withholds
    have copied := represents.copied
    simp only [Copied, pc] at copied
    obtain ⟨_, short, prefixed⟩ := copied
    have size : read.length = length := by omega
    rw [size] at prefixed
    refine ⟨channel.pass 1, .single (.pass _ _), ?_⟩
    rw [handed, prefixed]
    exact sent_represents true represents pc

/-- With nothing being relayed, an arriving packet is the only one the relay holds. -/
theorem eventCbRxComplete_follows {s : State} {channel : Channel (List UInt8)}
    (data : List UInt8) (represents : Represents s channel)
    (free : s.flagMessageRecv = false) :
    Represents (eventCbRxComplete s data) (channel.accept [data]) := by
  have waiting : s.pc = .head := by
    apply Decidable.byContradiction
    intro moved
    rw [represents.flagged moved] at free
    contradiction
  refine ⟨congrArg (· ++ [data]) represents.taken, represents.passed, ?_, fun _ => rfl, ?_⟩
  · change channel.held ++ [data] = _
    rw [represents.held]
    simp only [owed, Owes, eventCbRxComplete, waiting, free, Bool.false_eq_true, ↓reduceIte,
      List.nil_append, Cells.slice_store_self]
  · simp only [Copied, eventCbRxComplete, waiting]

theorem step_follows (s : State) (action : Action) (t : State) (channel : Channel (List UInt8))
    (represents : Represents s channel) (alone : Alone s action) (taken : step s action = some t) :
    ∃ channel', Relation.ReflTransGen Channel.Move channel channel' ∧
      Represents t channel' := by
  cases action with
  | rx data =>
      cases taken
      exact ⟨channel.accept [data], .single (.accept _ _),
        eventCbRxComplete_follows data represents alone⟩
  | main =>
      cases taken
      exact main_follows represents
  | refuse =>
      obtain ⟨length, pc, rfl⟩ := refuse_eq_sent taken
      exact ⟨channel.pass 1, .single (.pass _ _), sent_represents false represents pc⟩
  | txEnd | txExpire | txCallback =>
      obtain ⟨_, _, rfl⟩ := radio_eq (by simp) taken
      exact ⟨channel, .refl, represents.stutter rfl rfl rfl represents.flagged represents.copied⟩

/-- Statements main has left before it has handed over the packet in hand. -/
def toHandOver (s : State) : Nat :=
  match s.pc with
  | .head => s.len + 6
  | .configure => s.len + 5
  | .setIq => s.len + 4
  | .wdtStart => s.len + 3
  | .captureLen => s.len + 2
  | .driverSend length read => length - read.length + 1
  | _ => 0

theorem main_nearer {s : State} (owes : Owes s) : toHandOver (main s) < toHandOver s := by
  cases pc : s.pc <;> simp only [Owes, pc] at owes
  case head => simp only [toHandOver, main, pc, owes, ↓reduceIte, Nat.lt_succ_self]
  case driverSend length read =>
    by_cases more : read.length < length
    · simp only [toHandOver, main, pc, more, ↓reduceIte, List.length_append,
        List.length_singleton]
      omega
    · simp only [toHandOver, main, sent, pc, more, ↓reduceIte]
      omega
  all_goals
    simp only [toHandOver, main, pc, List.length_nil]
    omega

/-- main on its own hands over the packet it has in hand. -/
theorem hands_over {s : State} {channel : Channel (List UInt8)}
    (represents : Represents s channel) :
    ∃ count t, execute step s (List.replicate count .main) = some t ∧
      payloads t = t.received := by
  have nearer : ∀ s, (∃ channel, Represents s channel) → ¬¬Owes s →
      ∃ t, step s .main = some t ∧ (∃ channel, Represents t channel) ∧
        toHandOver t < toHandOver s := by
    rintro s ⟨channel, represents⟩ owes
    obtain ⟨channel', _, followed⟩ := main_follows represents
    exact ⟨main s, rfl, ⟨channel', followed⟩, main_nearer (Decidable.not_not.mp owes)⟩
  obtain ⟨count, t, reached, ⟨channel', final⟩, settled⟩ :=
    repetition_leads_to nearer ⟨channel, represents⟩
  refine ⟨count, t, reached, ?_⟩
  have drained : channel'.held = [] := by
    rw [final.held]
    simp only [owed, settled, ↓reduceIte]
  rw [← final.passed, ← final.taken, Channel.passed_eq_taken channel' drained]

/-- Left to itself main comes to have handed every packet to the driver, once and in order,
exactly when none has arrived while another was being relayed. -/
theorem forward_lossless_iff (actions : List Action) (s : State)
    (reached : execute step start actions = some s) :
    (∃ count t, execute step s (List.replicate count .main) = some t ∧
      payloads t = t.received) ↔ Meets step Alone start actions := by
  constructor
  · rintro ⟨count, t, later, complete⟩
    have whole : execute step start (actions ++ List.replicate count .main) = some t := by
      rw [execute_append_of_execute step _ reached, later]
    have nothing : missing t = 0 := by
      have lengths := congrArg List.length complete
      rw [payloads, List.length_map] at lengths
      unfold missing
      omega
    have exact := (gauge_eq_iff_meets step_counted step_missing
      (show Counted start from ⟨fun moved => absurd rfl moved, by decide⟩) whole).2
    exact ((meets_append step _ reached).mp (exact.mp nothing)).1
  · intro alone
    obtain ⟨channel, _, represents⟩ := simulates step_follows start_represents alone reached
    exact hands_over represents

/-- A second packet that arrives at the loop head, and one that arrives while the first one is
on air. -/
theorem forward_lossless_iff_once :
    (∃ s, execute step start (relaying 1 ++ [.rx [2], .main]) = some s ∧ payloads s = [[1]] ∧
      ∃ count t, execute step s (List.replicate count .main) = some t ∧
        payloads t = t.received) ∧
    ∃ s, execute step start (.rx [1] :: List.replicate 8 .main ++ [.rx [2]]) = some s ∧
      payloads s = [[1]] ∧
      ¬∃ count t, execute step s (List.replicate count .main) = some t ∧
        payloads t = t.received :=
  ⟨⟨_, rfl, rfl, (forward_lossless_iff (relaying 1 ++ [.rx [2], .main]) _ rfl).mpr (by decide)⟩,
    ⟨_, rfl, rfl, fun complete => absurd ((forward_lossless_iff
      (.rx [1] :: List.replicate 8 .main ++ [.rx [2]]) _ rfl).mp complete) (by decide)⟩⟩

theorem idle_stays {s t : State} {count : Nat} (idle : Idle s)
    (later : execute step s (List.replicate count .main) = some t) : t = s := by
  induction count with
  | zero =>
      cases later
      rfl
  | succ count ih =>
      have taken : step s .main = some s := congrArg some (main_idle idle)
      rw [List.replicate_succ, execute_cons_of_step step _ taken] at later
      exact ih later

/-- A packet that arrives between TX_COMPLETE and the store that clears the flag is
discarded by that store. -/
theorem forward_drops_packet :
    ¬ ∀ (actions : List Action) (s : State), (∀ action ∈ actions, Completes action) →
      execute step start actions = some s →
      ∃ count t, execute step s (List.replicate count .main) = some t ∧
        payloads t = t.received := by
  intro claim
  obtain ⟨count, t, later, complete⟩ := claim
    (.rx [1] :: List.replicate 8 .main ++ [.txEnd, .txCallback] ++ List.replicate 4 .main ++
      [.rx [2], .main]) _ (by decide) rfl
  obtain rfl := idle_stays (by decide) later
  exact absurd complete (by decide)

end RiotNyAlesund.Relay
