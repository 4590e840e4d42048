import RiotNyAlesund.RelayForward
import RiotNyAlesund.RelayWait
import RiotNyAlesund.RelayPolarity
import RiotNyAlesund.Alternation

set_option autoImplicit false

/- The relay between an endpoint and its gateway. Each packet on air finds the relay at its
loop head, and the radio reports it when its polarity is the configured one. -/
namespace RiotNyAlesund.Relay.Protocol

open Transition

/-- A packet on air: an endpoint's uplink, or with inverted IQ a gateway's downlink. -/
structure OnAir where
  payload : List UInt8
  inverted : Bool
  deriving DecidableEq, Repr

structure Link where
  relay : State
  offered : List OnAir

inductive Event
  | onAir (packet : OnAir)
  | main
  | txEnd
  | txCallback
  deriving DecidableEq, Repr

def start : Link := ⟨Relay.start, []⟩

def onAir (s : Link) (packet : OnAir) : Link where
  relay := if packet.inverted = s.relay.radioIq then
    eventCbRxComplete s.relay packet.payload else s.relay
  offered := s.offered ++ [packet]

def step (s : Link) : Event → Option Link
  | .onAir packet => if Idle s.relay then some (onAir s packet) else none
  | .main => (Relay.step s.relay .main).map (⟨·, s.offered⟩)
  | .txEnd => (Relay.step s.relay .txEnd).map (⟨·, s.offered⟩)
  | .txCallback => (Relay.step s.relay .txCallback).map (⟨·, s.offered⟩)

/-- Away from the air the relay takes one of its own steps. -/
theorem step_own {s t : Link} {event : Event} (taken : step s event = some t) :
    (∃ packet, event = .onAir packet ∧ Idle s.relay ∧ t = onAir s packet) ∨
      ∃ action, Relay.step s.relay action = some t.relay ∧ Completes action ∧
        (∀ data, action ≠ .rx data) ∧ t.offered = s.offered := by
  have own : ∀ action, Completes action → (∀ data, action ≠ .rx data) →
      (Relay.step s.relay action).map (⟨·, s.offered⟩) = some t →
      ∃ action, Relay.step s.relay action = some t.relay ∧ Completes action ∧
        (∀ data, action ≠ .rx data) ∧ t.offered = s.offered := by
    intro action completes inside taken
    rw [Option.map_eq_some_iff] at taken
    obtain ⟨relay, moved, rfl⟩ := taken
    exact ⟨action, moved, completes, inside, rfl⟩
  cases event with
  | onAir packet =>
      simp only [step, Option.ite_none_right_eq_some, Option.some.injEq] at taken
      exact Or.inl ⟨packet, rfl, taken.1, taken.2.symm⟩
  | main => exact Or.inr (own .main trivial (fun _ => Action.noConfusion) taken)
  | txEnd => exact Or.inr (own .txEnd trivial (fun _ => Action.noConfusion) taken)
  | txCallback => exact Or.inr (own .txCallback trivial (fun _ => Action.noConfusion) taken)

/-- Only the radio callback receives. -/
theorem step_received {s t : State} {action : Action} (inside : ∀ data, action ≠ .rx data)
    (taken : Relay.step s action = some t) : t.received = s.received := by
  cases action with
  | rx data => exact absurd rfl (inside data)
  | main =>
      cases taken
      exact main_settles.1
  | refuse => exact (refuse_settles taken).1
  | txEnd | txExpire | txCallback =>
      obtain ⟨_, _, rfl⟩ := radio_eq (by simp) taken
      rfl

/-- The packets the relay hears when it listens for uplinks and downlinks in turn. -/
def heard (offered : List OnAir) : List OnAir :=
  Alternation.follow OnAir.inverted false offered

/-- The relay follows the alternation, and is a lossless channel for what it hears. -/
structure Follows (s : Link) : Prop where
  paired : Paired s.relay
  polarized : Polarized s.relay
  represents : ∃ channel, Represents s.relay channel
  heard : s.relay.received = (heard s.offered).map OnAir.payload

theorem start_follows : Follows start :=
  ⟨⟨rfl, rfl⟩, start_polarized, ⟨_, start_represents⟩, rfl⟩

/-- At its idle loop head the relay has handed over all it has received. -/
theorem idle_payloads {s : State} (represents : ∃ channel, Represents s channel)
    (idle : Idle s) : payloads s = s.received := by
  obtain ⟨channel, represents⟩ := represents
  have drained : channel.held = [] := by
    rw [represents.held]
    simp only [owed, Owes, idle.1, idle.2, Bool.false_eq_true, ↓reduceIte]
  rw [← represents.passed, ← represents.taken, Channel.passed_eq_taken channel drained]

/-- What an idle relay listens for is whose turn it is. -/
theorem Follows.turn {s : Link} (follows : Follows s) (idle : Idle s.relay) :
    s.relay.radioIq = (Protocol.heard s.offered).length.bodd := by
  have lengths := congrArg List.length (idle_payloads follows.represents idle)
  rw [payloads, List.length_map, follows.heard, List.length_map] at lengths
  rw [follows.polarized.atHead idle.1, lengths]

theorem heard_append_singleton (offered : List OnAir) (packet : OnAir) :
    heard (offered ++ [packet]) = heard offered ++
      if packet.inverted = (heard offered).length.bodd then [packet] else [] := by
  have followed := Alternation.follow_append_singleton OnAir.inverted false offered packet
  rw [Bool.false_xor] at followed
  exact followed

theorem onAir_follows {s : Link} (packet : OnAir) (follows : Follows s) (idle : Idle s.relay) :
    Follows (onAir s packet) := by
  have turn := follows.turn idle
  by_cases inTurn : packet.inverted = s.relay.radioIq
  · obtain ⟨channel, represents⟩ := follows.represents
    have taken : Relay.step s.relay (.rx packet.payload) =
        some (eventCbRxComplete s.relay packet.payload) := rfl
    simp only [onAir, inTurn, ↓reduceIte]
    refine ⟨follows.paired, step_polarized _ _ _ follows.polarized taken,
      ⟨_, eventCbRxComplete_follows packet.payload represents idle.2⟩, ?_⟩
    rw [heard_append_singleton, ← turn]
    simp only [inTurn, ↓reduceIte, List.map_append, List.map_cons, List.map_nil, ← follows.heard,
      eventCbRxComplete]
  · simp only [onAir, inTurn, ↓reduceIte]
    refine ⟨follows.paired, follows.polarized, follows.represents, ?_⟩
    rw [heard_append_singleton, ← turn]
    simp only [inTurn, ↓reduceIte, List.append_nil, follows.heard]

theorem step_follows (s : Link) (event : Event) (t : Link) (follows : Follows s)
    (taken : step s event = some t) : Follows t := by
  rcases step_own taken with ⟨packet, rfl, idle, rfl⟩ | ⟨action, own, completes, inside, same⟩
  · exact onAir_follows packet follows idle
  · obtain ⟨channel, represents⟩ := follows.represents
    have alone : Alone s.relay action := by
      cases action with
      | rx data => exact absurd rfl (inside data)
      | main | refuse | txEnd | txExpire | txCallback => trivial
    obtain ⟨channel', _, represented⟩ :=
      Relay.step_follows s.relay action t.relay channel represents alone own
    refine ⟨step_paired _ _ _ follows.paired completes own,
      step_polarized _ _ _ follows.polarized own, ⟨channel', represented⟩, ?_⟩
    rw [step_received inside own, same, follows.heard]

/-- Steps left until the relay is back at its idle loop head, with nothing more on air. -/
def toIdle (s : State) : Nat :=
  match s.pc with
  | .head => if s.flagMessageRecv then s.len + 18 else 0
  | .configure => s.len + 17
  | .setIq => s.len + 16
  | .wdtStart => s.len + 15
  | .captureLen => s.len + 14
  | .driverSend length read => length - read.length + 12
  | .wdtKick => 11
  | .waitTx => match s.air with
    | .sending => 7
    | .completePending => 6
    | _ => 5
  | .clearTx => 4
  | .flip => 3
  | .setIqBack => 2
  | .clearFlag => 1

/-- Where main does not wait, its next statement brings the relay nearer to its loop head. -/
theorem main_toIdle {s : State} (busy : ¬Idle s)
    (moves : s.pc = .waitTx → s.flagTxDone = true ∧ s.air = .idle) :
    toIdle (main s) < toIdle s := by
  cases pc : s.pc
  case head =>
    have flag : s.flagMessageRecv = true := by
      simpa only [Idle, pc, true_and, Bool.not_eq_false] using busy
    simp only [toIdle, main, pc, flag, ↓reduceIte]
    omega
  case driverSend length read =>
    by_cases more : read.length < length
    · simp only [toIdle, main, pc, more, ↓reduceIte, List.length_append, List.length_singleton]
      omega
    · simp only [toIdle, main, sent, pc, more, ↓reduceIte]
      omega
  case waitTx =>
    obtain ⟨done, idle⟩ := moves pc
    simp only [toIdle, main, pc, done, idle, ↓reduceIte]
    omega
  case wdtKick =>
    simp only [toIdle, main, pc]
    split <;> omega
  case flip =>
    cases direction : s.transmissionDirection
    all_goals
      simp only [toIdle, main, pc, direction]
      omega
  all_goals
    simp only [toIdle, main, pc, List.length_nil, Bool.false_eq_true, ↓reduceIte]
    omega

/-- A busy relay has a step of its own that brings it nearer to its loop head. -/
theorem nearer_idle (s : Link) (follows : Follows s) (busy : ¬Idle s.relay) :
    ∃ event t, (∀ packet, event ≠ .onAir packet) ∧ step s event = some t ∧ Follows t ∧
      toIdle t.relay < toIdle s.relay := by
  have paired := follows.paired
  by_cases waits : s.relay.pc = .waitTx ∧ s.relay.flagTxDone = false
  · obtain ⟨waiting, clear⟩ := waits
    simp only [Paired, waiting, clear, Bool.false_eq_true, false_and, true_and, or_false]
      at paired
    rcases paired with sending | pending
    · have taken : step s .txEnd =
          some ⟨{ s.relay with air := .completePending }, s.offered⟩ := by
        simp only [step, Relay.step, sending, ↓reduceIte, Option.map_some]
      refine ⟨.txEnd, _, fun _ => Event.noConfusion, taken, step_follows s _ _ follows taken, ?_⟩
      simp only [toIdle, waiting, sending]
      omega
    · have taken : step s .txCallback = some ⟨eventCbTxComplete s.relay, s.offered⟩ := by
        simp only [step, Relay.step, txCallback, pending, Option.map_some]
      refine ⟨.txCallback, _, fun _ => Event.noConfusion, taken,
        step_follows s _ _ follows taken, ?_⟩
      simp only [toIdle, eventCbTxComplete, waiting, pending]
      omega
  · have moves : s.relay.pc = .waitTx → s.relay.flagTxDone = true ∧ s.relay.air = .idle := by
      intro waiting
      have done : s.relay.flagTxDone = true := by
        simpa only [waiting, true_and, Bool.not_eq_false] using waits
      simpa only [Paired, waiting, done, Bool.true_eq_false, false_and, true_and, false_or]
        using paired
    have taken : step s .main = some ⟨main s.relay, s.offered⟩ := rfl
    exact ⟨.main, _, fun _ => Event.noConfusion, taken, step_follows s _ _ follows taken,
      main_toIdle busy moves⟩

/-- The relay comes back to its idle loop head without another packet on air. -/
theorem returns_to_idle {s : Link} (follows : Follows s) :
    ∃ more t, execute step s more = some t ∧ Idle t.relay ∧ t.offered = s.offered := by
  have nearer : ∀ t : Link, Follows t ∧ t.offered = s.offered → ¬Idle t.relay →
      ∃ event u, (∀ packet, event ≠ .onAir packet) ∧ step t event = some u ∧
        (Follows u ∧ u.offered = s.offered) ∧ toIdle u.relay < toIdle t.relay := by
    rintro t ⟨follows, same⟩ busy
    obtain ⟨event, u, own, taken, kept, less⟩ := nearer_idle t follows busy
    refine ⟨event, u, own, taken, ⟨kept, ?_⟩, less⟩
    rcases step_own taken with ⟨packet, rfl, _⟩ | ⟨_, _, _, _, unoffered⟩
    · exact absurd rfl (own packet)
    · rw [unoffered, same]
  obtain ⟨more, t, _, reached, ⟨_, same⟩, idle⟩ := leads_to nearer ⟨follows, rfl⟩
  exact ⟨more, t, reached, idle, same⟩

/-- The relay always comes back to its loop head, and there it has relayed the uplinks and
downlinks that came in turn: all packets exactly when they alternate, an uplink first. -/
theorem relays_in_turn (events : List Event) (s : Link)
    (reached : execute step start events = some s) :
    (∃ more t, execute step s more = some t ∧ Idle t.relay ∧ t.offered = s.offered) ∧
    (Idle s.relay →
      payloads s.relay = (heard s.offered).map OnAir.payload ∧
      (payloads s.relay = s.offered.map OnAir.payload ↔
        Alternation.Alternates OnAir.inverted false s.offered)) := by
  have follows : Follows s := invariant_of_step step_follows start_follows reached
  refine ⟨returns_to_idle follows, ?_⟩
  intro idle
  have relayed : payloads s.relay = (heard s.offered).map OnAir.payload := by
    rw [idle_payloads follows.represents idle, follows.heard]
  refine ⟨relayed, ?_⟩
  rw [relayed, ← Alternation.follow_length_eq_iff]
  constructor
  · intro same
    have lengths := congrArg List.length same
    rwa [List.length_map, List.length_map] at lengths
  · intro lengths
    rw [heard, (Alternation.follow_sublist OnAir.inverted false s.offered).eq_of_length lengths]

/-- The relay works off a packet of one byte. -/
def relays : List Event :=
  List.replicate 8 .main ++ [.txEnd, .txCallback] ++ List.replicate 5 .main

/-- An uplink, a second one that the relay does not hear, and a downlink. -/
def unanswered : List Event :=
  .onAir ⟨[1], false⟩ :: relays ++ .onAir ⟨[2], false⟩ :: .onAir ⟨[3], true⟩ :: relays

theorem relays_in_turn_once :
    ∃ s, execute step start unanswered = some s ∧ payloads s.relay = [[1], [3]] ∧
      (∃ more t, execute step s more = some t ∧ Idle t.relay ∧ t.offered = s.offered) ∧
      payloads s.relay = (heard s.offered).map OnAir.payload ∧
      (payloads s.relay = s.offered.map OnAir.payload ↔
        Alternation.Alternates OnAir.inverted false s.offered) :=
  ⟨_, rfl, rfl, (relays_in_turn unanswered _ rfl).1,
    (relays_in_turn unanswered _ rfl).2 (by decide)⟩

/-- An uplink that follows an unanswered uplink is not heard. -/
theorem second_uplink_unheard :
    ¬ ∀ (events : List Event) (s : Link), execute step start events = some s →
      Idle s.relay → payloads s.relay = s.offered.map OnAir.payload := by
  intro claim
  have relayed := claim
    (.onAir ⟨[1], false⟩ :: List.replicate 8 .main ++ [.txEnd, .txCallback] ++
      List.replicate 5 .main ++ [.onAir ⟨[2], false⟩]) _ rfl (by decide)
  exact absurd relayed (by decide)

end RiotNyAlesund.Relay.Protocol
