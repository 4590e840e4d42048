import RiotNyAlesund.Cells

set_option autoImplicit false

/- lora_relay/Relay/main.c: main's endless loop, interleaved with the radio callbacks that
the receiver thread runs. -/
namespace RiotNyAlesund.Relay

inductive Direction
  | fromGateway
  | fromEndpoint
  deriving DecidableEq, Repr

/-- What the radio still owes main: nothing, the end of an accepted transmission, or the
callback that reports this end. -/
inductive Air
  | idle
  | sending
  | completePending
  | timeoutPending
  deriving DecidableEq, Repr

/-- The statement main is at. `configure` stands for everything between the test of
`flagMessageRecv` and the first write of the IQ setting; none of it writes shared data.
`driverSend` is inside test_send, with the length its caller read and the payload bytes the
driver has copied so far. -/
inductive Pc
  | head
  | configure
  | setIq
  | wdtStart
  | captureLen
  | driverSend (length : Nat) (read : List UInt8)
  | wdtKick
  | waitTx
  | clearTx
  | flip
  | setIqBack
  | clearFlag
  deriving DecidableEq, Repr

/-- One call of driver->send, with the IQ setting at the call and the one in force when the
packet then in `message` was received. -/
structure Handed where
  payload : List UInt8
  accepted : Bool
  iq : Bool
  heardIq : Bool
  deriving DecidableEq, Repr

/-- NETOPT_ENABLE is `true`. `received` and `handed` are histories, and so is `heardIq`, the
IQ setting of the radio when the packet in `message` was received. -/
structure State where
  message : Nat → UInt8
  len : Nat
  flagMessageRecv : Bool
  flagTxDone : Bool
  iqInverted : Bool
  transmissionDirection : Direction
  radioIq : Bool
  air : Air
  pc : Pc
  received : List (List UInt8)
  handed : List Handed
  heardIq : Bool

/-- `main` executes main's next statement, `refuse` lets driver->send return -ENOTSUP,
`txEnd` and `txExpire` end the transmission on air, `txCallback` runs the pending callback. -/
inductive Action
  | rx (data : List UInt8)
  | main
  | refuse
  | txEnd
  | txExpire
  | txCallback
  deriving DecidableEq, Repr

/-- main at its loop head for the first time. -/
def start : State where
  message := fun _ => 0
  len := 0
  flagMessageRecv := false
  flagTxDone := false
  iqInverted := false
  transmissionDirection := .fromEndpoint
  radioIq := false
  air := .idle
  pc := .head
  received := []
  handed := []
  heardIq := false

/-- _event_cb on NETDEV_EVENT_RX_COMPLETE. -/
def eventCbRxComplete (s : State) (data : List UInt8) : State :=
  { s with
    message := Cells.store s.message 0 data
    len := data.length
    flagMessageRecv := true
    received := s.received ++ [data]
    heardIq := s.radioIq }

/-- _event_cb on NETDEV_EVENT_TX_COMPLETE. -/
def eventCbTxComplete (s : State) : State := { s with flagTxDone := true, air := .idle }

/-- _event_cb on NETDEV_EVENT_TX_TIMEOUT. -/
def eventCbTxTimeout (s : State) : State := { s with air := .idle }

/-- driver->send returns, with the payload it was handed. -/
def sent (s : State) (payload : List UInt8) (accepted : Bool) : State :=
  { s with
    handed := s.handed ++ [⟨payload, accepted, s.radioIq, s.heardIq⟩]
    air := if accepted then .sending else s.air
    pc := .wdtKick }

/-- The statement main is at. -/
def main (s : State) : State :=
  match s.pc with
  | .head => { s with pc := if s.flagMessageRecv then .configure else .head }
  | .configure => { s with pc := .setIq }
  | .setIq => { s with radioIq := s.iqInverted, pc := .wdtStart }
  | .wdtStart => { s with pc := .captureLen }
  | .captureLen => { s with pc := .driverSend s.len [] }
  | .driverSend length read =>
      if read.length < length then
        { s with pc := .driverSend length (read ++ [s.message read.length]) }
      else sent s read true
  | .wdtKick => { s with pc := .waitTx }
  | .waitTx => { s with pc := if s.flagTxDone then .clearTx else .waitTx }
  | .clearTx => { s with flagTxDone := false, pc := .flip }
  | .flip =>
      match s.transmissionDirection with
      | .fromEndpoint =>
          { s with transmissionDirection := .fromGateway, iqInverted := true, pc := .setIqBack }
      | .fromGateway =>
          { s with transmissionDirection := .fromEndpoint, iqInverted := false, pc := .setIqBack }
  | .setIqBack => { s with radioIq := s.iqInverted, pc := .clearFlag }
  | .clearFlag => { s with flagMessageRecv := false, pc := .head }

/-- The driver refuses before it reads the payload; test_send reports it and main goes on. -/
def refuse (s : State) : Option State :=
  match s.pc with
  | .driverSend length [] => some (sent s (Cells.slice s.message 0 length) false)
  | _ => none

def txCallback (s : State) : Option State :=
  match s.air with
  | .completePending => some (eventCbTxComplete s)
  | .timeoutPending => some (eventCbTxTimeout s)
  | _ => none

def step (s : State) : Action → Option State
  | .rx data => some (eventCbRxComplete s data)
  | .main => some (main s)
  | .refuse => refuse s
  | .txEnd => if s.air = .sending then some { s with air := .completePending } else none
  | .txExpire => if s.air = .sending then some { s with air := .timeoutPending } else none
  | .txCallback => txCallback s

/-- main waits at its loop head for a packet. -/
def Idle (s : State) : Prop := s.pc = .head ∧ s.flagMessageRecv = false

instance (s : State) : Decidable (Idle s) := inferInstanceAs (Decidable (_ ∧ _))

/-- driver->send accepts every packet, and every transmission ends with TX_COMPLETE. -/
def Completes : Action → Prop
  | .refuse | .txExpire => False
  | _ => True

instance (action : Action) : Decidable (Completes action) := by
  unfold Completes
  split <;> infer_instance

/-- A packet of one byte is received and relayed, up to the loop head. -/
def relaying (byte : UInt8) : List Action :=
  .rx [byte] :: List.replicate 8 .main ++ [.txEnd, .txCallback] ++ List.replicate 5 .main

theorem main_idle {s : State} (idle : Idle s) : main s = s := by
  obtain ⟨waiting, free⟩ := idle
  cases s
  cases waiting
  cases free
  rfl

/-- Between two states no packet was received and none handed over. -/
structure SamePackets (s t : State) : Prop where
  message : t.message = s.message
  len : t.len = s.len
  received : t.received = s.received
  handed : t.handed = s.handed
  heardIq : t.heardIq = s.heardIq

/-- driver->send, where main is inside it, has still to copy a byte. -/
def Withholds (s : State) : Prop :=
  ∀ length read, s.pc = .driverSend length read → read.length < length

theorem main_samePackets {s : State} (withholds : Withholds s) : SamePackets s (main s) := by
  cases pc : s.pc
  case driverSend length read =>
    have more := withholds length read pc
    constructor
    all_goals simp only [main, pc, more, ↓reduceIte]
  case flip =>
    cases direction : s.transmissionDirection
    all_goals
      constructor
      all_goals simp only [main, pc, direction]
  all_goals
    constructor
    all_goals simp only [main, pc]

theorem main_eq_sent {s : State} (hands : ¬Withholds s) :
    ∃ length read, s.pc = .driverSend length read ∧ length ≤ read.length ∧
      main s = sent s read true := by
  simp only [Withholds, Classical.not_forall, Nat.not_lt] at hands
  obtain ⟨length, read, pc, copied⟩ := hands
  refine ⟨length, read, pc, copied, ?_⟩
  simp only [main, pc, if_neg (Nat.not_lt.mpr copied)]

theorem refuse_eq_sent {s t : State} (taken : refuse s = some t) :
    ∃ length, s.pc = .driverSend length [] ∧
      t = sent s (Cells.slice s.message 0 length) false := by
  unfold refuse at taken
  split at taken
  · rename_i length pc
    cases taken
    exact ⟨length, pc, rfl⟩
  · cases taken

theorem txCallback_eq {s t : State} (taken : txCallback s = some t) :
    (s.air = .completePending ∧ t = eventCbTxComplete s) ∨
      (s.air = .timeoutPending ∧ t = eventCbTxTimeout s) := by
  unfold txCallback at taken
  split at taken
  · rename_i pending
    cases taken
    exact Or.inl ⟨pending, rfl⟩
  · rename_i pending
    cases taken
    exact Or.inr ⟨pending, rfl⟩
  · cases taken

/-- The end of a transmission and its callback touch neither the packets nor main. -/
theorem radio_eq {s t : State} {action : Action}
    (radio : action = .txEnd ∨ action = .txExpire ∨ action = .txCallback)
    (taken : step s action = some t) :
    ∃ done air, t = { s with flagTxDone := done, air := air } := by
  rcases radio with rfl | rfl | rfl
  · simp only [step, Option.ite_none_right_eq_some, Option.some.injEq] at taken
    exact ⟨_, _, taken.2.symm⟩
  · simp only [step, Option.ite_none_right_eq_some, Option.some.injEq] at taken
    exact ⟨_, _, taken.2.symm⟩
  · rcases txCallback_eq taken with ⟨_, rfl⟩ | ⟨_, rfl⟩
    · exact ⟨_, _, rfl⟩
    · exact ⟨_, _, rfl⟩

end RiotNyAlesund.Relay
