import RiotNyAlesund.RadioEvents
import RiotNyAlesund.RelayTuning

set_option autoImplicit false

/- The relay with the way of its radio's events to their callbacks: the interrupt, the
message to the receiver thread, and driver->isr. -/
namespace RiotNyAlesund.Relay.Interrupts

open Transition
open RadioEvents (due callback Blocked)

/-- What netdev reports besides NETDEV_EVENT_ISR. -/
inductive Event
  | rxStarted
  | rxComplete
  | txComplete
  | txTimeout
  | unexpected (event : Nat)
  deriving DecidableEq, Repr

structure System where
  radio : RadioEvents.State Event
  relay : State

/-- `thread` is _recv_thread's next step, in which the driver's recv gives `data`. `main`
and `refuse` are main's. -/
inductive Action
  | occur (event : Event)
  | edge
  | interrupt
  | thread (data : List UInt8)
  | main
  | refuse
  deriving DecidableEq, Repr

def start : System := ⟨RadioEvents.start, Relay.start⟩

/-- _event_cb on an event other than NETDEV_EVENT_ISR. -/
def eventCb (s : State) (data : List UInt8) : Event → State
  | .rxStarted => s
  | .rxComplete => eventCbRxComplete s data
  | .txComplete => eventCbTxComplete s
  | .txTimeout => eventCbTxTimeout s
  | .unexpected _ => s

/-- An event ends the transmission on air, or is no matter of main's. -/
def onAir (s : State) : Event → Option State
  | .txComplete => if s.air = .sending then some { s with air := .completePending } else none
  | .txTimeout => if s.air = .sending then some { s with air := .timeoutPending } else none
  | _ => some s

def step (isr : List Event → List Event) (s : System) : Action → Option System
  | .occur event =>
      (onAir s.relay event).map fun relay => ⟨RadioEvents.occur s.radio event, relay⟩
  | .edge => some { s with radio := { s.radio with line := true } }
  | .interrupt =>
      (RadioEvents.step isr s.radio .interrupt).map fun radio => { s with radio := radio }
  | .thread data =>
      (RadioEvents.recvThread isr s.radio).map fun radio =>
        { radio := radio
          relay :=
            match callback s.radio with
            | some event => eventCb s.relay data event
            | none => s.relay }
  | .main => some { s with relay := Relay.main s.relay }
  | .refuse => (Relay.refuse s.relay).map fun relay => { s with relay := relay }

/-- The actions of the relay that a callback stands for. -/
def reported (data : List UInt8) : Event → List Relay.Action
  | .rxComplete => [.rx data]
  | .txComplete | .txTimeout => [.txCallback]
  | _ => []

/-- The actions of the relay that a step of the system stands for. -/
def reflect (s : System) : Action → List Relay.Action
  | .occur .txComplete => [.txEnd]
  | .occur .txTimeout => [.txExpire]
  | .thread data => (callback s.radio).toList.flatMap (reported data)
  | .main => [.main]
  | .refuse => [.refuse]
  | _ => []

def isTx : Event → Bool
  | .txComplete | .txTimeout => true
  | _ => false

/-- The callbacks that the relay's transmission is still to cause. -/
def ending : Air → List Event
  | .completePending => [.txComplete]
  | .timeoutPending => [.txTimeout]
  | _ => []

/-- The radio owes the end of a transmission exactly where the relay has one to come. -/
structure Linked (s : System) : Prop where
  delivers : Delivers s.relay
  ends : ((due s.radio).filter isTx).Perm (ending s.relay.air)

theorem start_linked : Linked start := ⟨start_delivers, List.Perm.refl _⟩

/-- main starts a transmission only when nothing is left of an earlier one. -/
theorem main_ending {s : State} (delivers : Delivers s) :
    ending (Relay.main s).air = ending s.air := by
  by_cases withholds : Withholds s
  · have same : (Relay.main s).air = s.air := by
      cases pc : s.pc
      case driverSend length read =>
        have more := withholds length read pc
        simp only [Relay.main, pc, more, ↓reduceIte]
      case flip =>
        cases direction : s.transmissionDirection <;> simp only [Relay.main, pc, direction]
      all_goals simp only [Relay.main, pc]
    rw [same]
  · obtain ⟨length, read, pc, _, handed⟩ := main_eq_sent withholds
    have free : s.air = .idle := by
      rcases delivers with ⟨paired, _⟩ | ⟨waiting, _⟩
      · simp only [Paired, pc] at paired
        exact paired.2
      · rw [pc] at waiting
        simp only [reduceCtorEq, or_self] at waiting
    rw [handed, free]
    rfl

theorem refuse_ending {s t : State} (taken : Relay.refuse s = some t) :
    ending t.air = ending s.air := by
  obtain ⟨length, pc, rfl⟩ := refuse_eq_sent taken
  rfl

/-- An event that does not end a transmission leaves those that do as they are. -/
theorem occur_other {radio : RadioEvents.State Event} {event : Event}
    (other : isTx event = false) :
    (due (RadioEvents.occur radio event)).filter isTx = (due radio).filter isTx := by
  rw [RadioEvents.due_occur]
  split
  · rfl
  · rw [List.filter_append, List.filter_singleton, other, cond_false, List.append_nil]

/-- With nothing of an earlier transmission due, the end of this one is not due yet. -/
theorem occur_ends {radio : RadioEvents.State Event} {event : Event} (ends : isTx event = true)
    (clear : (due radio).filter isTx = []) :
    (due (RadioEvents.occur radio event)).filter isTx = [event] := by
  have fresh : event ∉ radio.irq := by
    intro set
    have member : event ∈ due radio := by
      unfold due
      split
      · exact List.mem_append_right _ set
      · exact set
    exact (List.filter_eq_nil_iff.mp clear) event member ends
  rw [RadioEvents.due_occur, if_neg fresh, List.filter_append, clear, List.filter_singleton, ends,
    cond_true, List.nil_append]

/-- While a transmission is on air, no end of one is due. -/
theorem Linked.clear {s : System} (linked : Linked s) (sending : s.relay.air = .sending) :
    (due s.radio).filter isTx = [] := by
  have ends := linked.ends
  rw [sending] at ends
  exact ends.eq_nil

theorem occur_refines {isr : List Event → List Event} {s t : System} {event : Event}
    (linked : Linked s) (taken : step isr s (.occur event) = some t) :
    execute Relay.step s.relay (reflect s (.occur event)) = some t.relay ∧
      ((due t.radio).filter isTx).Perm (ending t.relay.air) := by
  simp only [step, Option.map_eq_some_iff] at taken
  obtain ⟨relay, moved, rfl⟩ := taken
  cases event with
  | txComplete | txTimeout =>
      simp only [onAir, Option.ite_none_right_eq_some, Option.some.injEq] at moved
      obtain ⟨sending, rfl⟩ := moved
      refine ⟨?_, List.Perm.of_eq (occur_ends (by rfl) (linked.clear sending))⟩
      simp only [reflect, execute, Relay.step, sending, ↓reduceIte, Option.bind_some]
  | rxStarted | rxComplete | unexpected event =>
      cases moved
      refine ⟨rfl, ?_⟩
      rw [occur_other rfl]
      exact linked.ends

/-- A callback that is due finds the relay ready for it. -/
theorem eventCb_refines {s : State} (data : List UInt8) {event : Event} {rest : List Event}
    (ends : ((event :: rest).filter isTx).Perm (ending s.air)) :
    execute Relay.step s (reported data event) = some (eventCb s data event) ∧
      (rest.filter isTx).Perm (ending (eventCb s data event).air) := by
  cases event with
  | rxStarted | rxComplete | unexpected event => exact ⟨rfl, ends⟩
  | txComplete =>
      have member : Event.txComplete ∈ ending s.air := ends.subset List.mem_cons_self
      have pending : s.air = .completePending := by
        cases air : s.air <;> rw [air] at member <;> simp [ending] at member
      rw [pending] at ends
      refine ⟨?_, (List.perm_cons _).mp ends⟩
      simp only [reported, execute, Relay.step, txCallback, pending, Option.bind_some, eventCb]
  | txTimeout =>
      have member : Event.txTimeout ∈ ending s.air := ends.subset List.mem_cons_self
      have pending : s.air = .timeoutPending := by
        cases air : s.air <;> rw [air] at member <;> simp [ending] at member
      rw [pending] at ends
      refine ⟨?_, (List.perm_cons _).mp ends⟩
      simp only [reported, execute, Relay.step, txCallback, pending, Option.bind_some, eventCb]

theorem thread_refines {isr : List Event → List Event} (reports : ∀ irq, (isr irq).Perm irq)
    {s t : System} {data : List UInt8} (linked : Linked s)
    (taken : step isr s (.thread data) = some t) :
    execute Relay.step s.relay (reflect s (.thread data)) = some t.relay ∧
      ((due t.radio).filter isTx).Perm (ending t.relay.air) := by
  simp only [step, Option.map_eq_some_iff] at taken
  obtain ⟨radio, moved, rfl⟩ := taken
  have same := ((RadioEvents.recvThread_due reports moved).1.filter isTx).trans linked.ends
  cases called : callback s.radio with
  | none =>
      rw [called] at same
      refine ⟨?_, same⟩
      simp only [reflect, called, Option.toList_none, List.flatMap_nil, execute]
  | some event =>
      rw [called] at same
      simp only [reflect, called, Option.toList_some, List.flatMap_singleton]
      exact eventCb_refines data same

/-- Every step of the system is a run of the relay. -/
theorem step_refines {isr : List Event → List Event} (reports : ∀ irq, (isr irq).Perm irq)
    (s : System) (action : Action) (t : System) (linked : Linked s)
    (taken : step isr s action = some t) :
    execute Relay.step s.relay (reflect s action) = some t.relay ∧
      ((due t.radio).filter isTx).Perm (ending t.relay.air) := by
  cases action with
  | occur event => exact occur_refines linked taken
  | edge =>
      cases taken
      exact ⟨rfl, linked.ends⟩
  | interrupt =>
      simp only [step, RadioEvents.step, Option.map_eq_some_iff, Option.ite_none_right_eq_some,
        Option.some.injEq] at taken
      obtain ⟨_, ⟨_, rfl⟩, rfl⟩ := taken
      refine ⟨rfl, ?_⟩
      rw [(RadioEvents.due_eventCbIsr s.radio).1]
      exact linked.ends
  | thread data => exact thread_refines reports linked taken
  | main =>
      cases taken
      refine ⟨rfl, ?_⟩
      show ((due s.radio).filter isTx).Perm (ending (Relay.main s.relay).air)
      rw [main_ending linked.delivers]
      exact linked.ends
  | refuse =>
      simp only [step, Option.map_eq_some_iff] at taken
      obtain ⟨relay, moved, rfl⟩ := taken
      refine ⟨?_, ?_⟩
      · simp only [reflect, execute, Relay.step, moved, Option.bind_some]
      · show ((due s.radio).filter isTx).Perm (ending relay.air)
        rw [refuse_ending moved]
        exact linked.ends

theorem step_linked {isr : List Event → List Event} (reports : ∀ irq, (isr irq).Perm irq)
    (s : System) (action : Action) (t : System) (linked : Linked s)
    (taken : step isr s action = some t) : Linked t := by
  obtain ⟨followed, ends⟩ := step_refines reports s action t linked taken
  exact ⟨invariant_of_step step_delivers linked.delivers followed, ends⟩

/-- Steps in which driver->send accepts and no transmission times out. -/
def Completes : Action → Prop
  | .refuse | .occur .txTimeout => False
  | _ => True

instance (action : Action) : Decidable (Completes action) :=
  decidable_of_iff (action ≠ .refuse ∧ action ≠ .occur .txTimeout) (by
    rcases action with event | _ | _ | data | _ | _
    · cases event <;> simp [Completes]
    all_goals simp [Completes])

theorem reported_completes (data : List UInt8) (event : Event) :
    ∀ action ∈ reported data event, Relay.Completes action := by
  cases event <;> simp [reported, Relay.Completes]

theorem reflect_completes (s : System) (action : Action) (completes : Completes action) :
    ∀ move ∈ reflect s action, Relay.Completes move := by
  cases action with
  | occur event => cases event <;> simp_all [reflect, Completes, Relay.Completes]
  | thread data =>
      intro move member
      obtain ⟨event, _, called⟩ := List.mem_flatMap.mp member
      exact reported_completes data event move called
  | edge | interrupt => simp [reflect]
  | main => simp [reflect, Relay.Completes]
  | refuse => exact completes.elim

theorem mirror_relay {isr : List Event → List Event} (reports : ∀ irq, (isr irq).Perm irq)
    {actions : List Action} {s : System}
    (reached : execute (step isr) start actions = some s) :
    execute Relay.step Relay.start (mirror (step isr) reflect start actions) = some s.relay :=
  mirror_executes (step_linked reports)
    (fun s action t linked taken => (step_refines reports s action t linked taken).1)
    start_linked reached

/-- In a run of steps that complete, main waits only for what is to come. -/
theorem run_paired {isr : List Event → List Event} (reports : ∀ irq, (isr irq).Perm irq)
    {actions : List Action} {s : System}
    (reached : execute (step isr) start actions = some s)
    (completes : ∀ action ∈ actions, Completes action) : Paired s.relay := by
  have met : Meets (step isr) (fun _ action => Completes action) start actions :=
    meets_of_forall (step isr) start completes
  have moves := forall_mirror reflect_completes met
  exact invariant step_paired (show Paired Relay.start from ⟨rfl, rfl⟩)
    (meets_of_forall Relay.step Relay.start moves)
    (mirror_relay reports reached)

/-- Every RX_COMPLETE reported is a packet received. -/
def Heard (s : System) : Prop :=
  s.relay.received.length = s.radio.reported.count .rxComplete

theorem eventCb_received (s : State) (data : List UInt8) (event : Event) :
    (eventCb s data event).received.length =
      s.received.length + [event].count .rxComplete := by
  cases event <;>
    simp [eventCb, eventCbRxComplete, eventCbTxComplete, eventCbTxTimeout]

theorem onAir_received {s t : State} {event : Event} (moved : onAir s event = some t) :
    t.received = s.received := by
  cases event with
  | txComplete | txTimeout =>
      simp only [onAir, Option.ite_none_right_eq_some, Option.some.injEq] at moved
      obtain ⟨_, rfl⟩ := moved
      rfl
  | rxStarted | rxComplete | unexpected event =>
      cases moved
      rfl

theorem step_heard {isr : List Event → List Event} (reports : ∀ irq, (isr irq).Perm irq)
    (s : System) (action : Action) (t : System) (heard : Heard s)
    (taken : step isr s action = some t) : Heard t := by
  unfold Heard at *
  cases action with
  | occur event =>
      simp only [step, Option.map_eq_some_iff] at taken
      obtain ⟨relay, moved, rfl⟩ := taken
      rw [onAir_received moved, heard, RadioEvents.occur_reported]
  | edge =>
      cases taken
      exact heard
  | interrupt =>
      simp only [step, RadioEvents.step, Option.map_eq_some_iff, Option.ite_none_right_eq_some,
        Option.some.injEq] at taken
      obtain ⟨_, ⟨_, rfl⟩, rfl⟩ := taken
      rw [(RadioEvents.due_eventCbIsr s.radio).2]
      exact heard
  | thread data =>
      simp only [step, Option.map_eq_some_iff] at taken
      obtain ⟨radio, moved, rfl⟩ := taken
      rw [(RadioEvents.recvThread_due reports moved).2, List.count_append, ← heard]
      cases called : callback s.radio with
      | none => rfl
      | some event => exact eventCb_received s.relay data event
  | main =>
      cases taken
      rw [main_settles.1]
      exact heard
  | refuse =>
      simp only [step, Option.map_eq_some_iff] at taken
      obtain ⟨relay, moved, rfl⟩ := taken
      rw [(refuse_settles moved).1]
      exact heard

/-- Whatever driver->isr reports the flags in, and whatever becomes of the interrupts'
messages, the callbacks drive main as the relay's actions do, with one packet for each
RX_COMPLETE. -/
theorem interrupts_refine (isr : List Event → List Event) (reports : ∀ irq, (isr irq).Perm irq)
    (actions : List Action) (s : System)
    (reached : execute (step isr) start actions = some s) :
    (∃ moves, execute Relay.step Relay.start moves = some s.relay ∧
      ((∀ action ∈ actions, Completes action) → ∀ move ∈ moves, Relay.Completes move)) ∧
    s.relay.received.length = s.radio.reported.count .rxComplete := by
  have heard : Heard s := invariant_of_step (step_heard reports) (show Heard start from rfl) reached
  refine ⟨⟨_, mirror_relay reports reached, fun completes => ?_⟩, heard⟩
  exact forall_mirror reflect_completes (meets_of_forall (step isr) start completes)

/-- A packet that is received while main is idle. -/
theorem interrupts_refine_once :
    ∃ s, execute (step id) start
        [.occur .rxComplete, .interrupt, .main, .thread [], .thread [7], .main] = some s ∧
      s.relay.received = [[7]] ∧
      ∃ moves, execute Relay.step Relay.start moves = some s.relay ∧
        ((∀ action ∈ [Action.occur .rxComplete, .interrupt, .main, .thread [], .thread [7],
          .main], Completes action) → ∀ move ∈ moves, Relay.Completes move) :=
  ⟨_, rfl, rfl, (interrupts_refine id (fun _ => List.Perm.refl _) _ _ rfl).1⟩

/-- The steps that only the receiver takes. -/
def Receives : Action → Prop
  | .interrupt | .thread _ => True
  | _ => False

theorem receives_completes {actions : List Action}
    (receives : ∀ action ∈ actions, Receives action) :
    ∀ action ∈ actions, Completes action := by
  intro action member
  have own := receives action member
  cases action <;> first | exact own.elim | trivial

/-- The receiver leaves main where it is, and starts no transmission. -/
theorem receives_relay {isr : List Event → List Event} {s t : System} {action : Action}
    (receives : Receives action) (taken : step isr s action = some t) :
    t.relay.pc = s.relay.pc ∧ (t.relay.air = s.relay.air ∨ t.relay.air = .idle) := by
  cases action with
  | occur event | edge | main | refuse => exact receives.elim
  | interrupt =>
      simp only [step, Option.map_eq_some_iff] at taken
      obtain ⟨radio, _, rfl⟩ := taken
      exact ⟨rfl, Or.inl rfl⟩
  | thread data =>
      simp only [step, Option.map_eq_some_iff] at taken
      obtain ⟨radio, _, rfl⟩ := taken
      cases called : callback s.radio with
      | none => exact ⟨rfl, Or.inl rfl⟩
      | some event =>
          cases event <;>
            simp [eventCb, eventCbRxComplete, eventCbTxComplete, eventCbTxTimeout]

/-- The system follows its receiver, with any data for the callbacks. -/
theorem receives_lift {isr : List Event → List Event} {s : System}
    {moves : List (RadioEvents.Action Event)} {radio : RadioEvents.State Event}
    (receives : ∀ move ∈ moves, RadioEvents.Receives move)
    (reached : execute (RadioEvents.step isr) s.radio moves = some radio) :
    ∃ actions t, (∀ action ∈ actions, Receives action) ∧
      execute (step isr) s actions = some t ∧ t.radio = radio := by
  induction moves generalizing s with
  | nil =>
      cases reached
      exact ⟨[], s, by simp, rfl, rfl⟩
  | cons move rest ih =>
      rw [execute_cons, Option.bind_eq_some_iff] at reached
      obtain ⟨next, taken, reached⟩ := reached
      rw [List.forall_mem_cons] at receives
      have followed : ∃ action t, Receives action ∧ step isr s action = some t ∧
          t.radio = next := by
        cases move with
        | occur event | edge => exact receives.1.elim
        | interrupt => exact ⟨.interrupt, _, trivial, by rw [step, taken]; rfl, rfl⟩
        | thread =>
            have moved : RadioEvents.recvThread isr s.radio = some next := taken
            exact ⟨.thread [], _, trivial, by rw [step, moved]; rfl, rfl⟩
      obtain ⟨action, t, own, moved, same⟩ := followed
      obtain ⟨actions, final, all, came, ended⟩ := ih receives.2 (by rw [same]; exact reached)
      refine ⟨action :: actions, final, ?_, ?_, ended⟩
      · rw [List.forall_mem_cons]
        exact ⟨own, all⟩
      · rw [execute_cons_of_step _ _ moved, came]

/-- A set flag of the radio will be seen. -/
def Awake (s : System) : Prop := RadioEvents.Awake s.radio

theorem start_awake : Awake start := RadioEvents.start_awake

theorem step_awake {isr : List Event → List Event} (s : System) (action : Action) (t : System)
    (awake : Awake s) (taken : step isr s action = some t) : Awake t := by
  cases action with
  | occur event =>
      simp only [step, Option.map_eq_some_iff] at taken
      obtain ⟨relay, _, rfl⟩ := taken
      exact RadioEvents.occur_awake event awake
  | edge =>
      cases taken
      exact ⟨awake.queued, awake.received, awake.blocked, fun _ => Or.inl rfl⟩
  | interrupt =>
      simp only [step, Option.map_eq_some_iff] at taken
      obtain ⟨radio, moved, rfl⟩ := taken
      exact RadioEvents.step_awake s.radio .interrupt radio awake moved
  | thread data =>
      simp only [step, Option.map_eq_some_iff] at taken
      obtain ⟨radio, moved, rfl⟩ := taken
      exact RadioEvents.recvThread_awake awake moved
  | main =>
      cases taken
      exact awake
  | refuse =>
      simp only [step, Option.map_eq_some_iff] at taken
      obtain ⟨relay, _, rfl⟩ := taken
      exact awake

/-- A blocked receiver has no end of a transmission left to report. -/
theorem Linked.blocked {s : System} (linked : Linked s) (awake : Awake s)
    (blocked : Blocked s.radio) : s.relay.air ≠ .completePending := by
  intro pending
  have ends := linked.ends
  rw [RadioEvents.Awake.blocked_due awake blocked, pending] at ends
  exact absurd ends.symm.eq_nil (List.cons_ne_nil _ _)

/-- main is at `pc` and nothing is on air. -/
def Ended (pc : Pc) (s : System) : Prop := s.relay.pc = pc ∧ s.relay.air ≠ .sending

/-- While the receiver works, main stays where it is and nothing is transmitted. -/
theorem receives_ended {isr : List Event → List Event} {pc : Pc} (s : System) (action : Action)
    (t : System) (ended : Ended pc s) (receives : Receives action)
    (taken : step isr s action = some t) : Ended pc t := by
  obtain ⟨same, air | air⟩ := receives_relay receives taken
  · exact ⟨same.trans ended.1, by rw [air]; exact ended.2⟩
  · exact ⟨same.trans ended.1, by rw [air]; exact Air.noConfusion⟩

/-- The receiver on its own reports the end of a transmission that has ended. -/
theorem receiver_reports {isr : List Event → List Event} (reports : ∀ irq, (isr irq).Perm irq)
    {actions : List Action} {s : System} (reached : execute (step isr) start actions = some s)
    (completes : ∀ action ∈ actions, Completes action) (waiting : s.relay.pc = .waitTx)
    (pending : s.relay.air = .completePending) :
    ∃ rest t, (∀ action ∈ rest, Receives action) ∧ execute (step isr) s rest = some t ∧
      t.relay.pc = .waitTx ∧ t.relay.flagTxDone = true := by
  have linked : Linked s := invariant_of_step (step_linked reports) start_linked reached
  have awake : Awake s := invariant_of_step step_awake start_awake reached
  obtain ⟨moves, radio, own, drained, blocked, _⟩ := RadioEvents.receiver_blocks reports awake
  obtain ⟨rest, t, receives, later, rfl⟩ := receives_lift own drained
  have ended : Ended .waitTx t := invariant receives_ended
    ⟨waiting, by rw [pending]; exact Air.noConfusion⟩ (meets_of_forall (step isr) s receives) later
  have whole : execute (step isr) start (actions ++ rest) = some t := by
    rw [execute_append_of_execute _ _ reached, later]
  have paired := run_paired reports whole (by
    rw [List.forall_mem_append]
    exact ⟨completes, receives_completes receives⟩)
  have settled : t.relay.air ≠ .completePending :=
    (invariant_of_step (step_linked reports) linked later).blocked
      (invariant_of_step step_awake awake later) blocked
  refine ⟨rest, t, receives, later, ended.1, ?_⟩
  simp only [Paired, ended.1, ended.2, settled, or_self, and_false, false_or] at paired
  exact paired.1

/-- When driver->send accepts and no transmission times out, a main that waits has its packet
still on air, or a receiver that is not blocked in msg_receive or has an interrupt pending, and
that on its own comes to set `flagTxDone`. -/
theorem waiting_is_ended (isr : List Event → List Event) (reports : ∀ irq, (isr irq).Perm irq)
    (actions : List Action) (s : System) (reached : execute (step isr) start actions = some s)
    (completes : ∀ action ∈ actions, Completes action) (waiting : s.relay.pc = .waitTx)
    (clear : s.relay.flagTxDone = false) :
    s.relay.air = .sending ∨
      (¬Blocked s.radio ∧ ∃ rest t, (∀ action ∈ rest, Receives action) ∧
        execute (step isr) s rest = some t ∧ t.relay.pc = .waitTx ∧
        t.relay.flagTxDone = true) := by
  have paired := run_paired reports reached completes
  simp only [Paired, waiting, clear, true_and, Bool.false_eq_true, false_and, or_false] at paired
  rcases paired with sending | pending
  · exact Or.inl sending
  · have linked : Linked s := invariant_of_step (step_linked reports) start_linked reached
    have awake : Awake s := invariant_of_step step_awake start_awake reached
    exact Or.inr ⟨fun blocked => linked.blocked awake blocked pending,
      receiver_reports reports reached completes waiting pending⟩

/-- A transmission whose end the receiver has still to be told of. -/
def endedRun : List Action :=
  [.occur .rxComplete, .interrupt, .thread [], .thread [7]] ++ List.replicate 9 .main ++
    [.occur .txComplete]

theorem waiting_is_ended_once :
    ∃ s, execute (step id) start endedRun = some s ∧
      (s.relay.air = .sending ∨
        (¬Blocked s.radio ∧ ∃ rest t, (∀ action ∈ rest, Receives action) ∧
          execute (step id) s rest = some t ∧ t.relay.pc = .waitTx ∧
          t.relay.flagTxDone = true)) :=
  ⟨_, rfl, waiting_is_ended id (fun _ => List.Perm.refl _) endedRun _ rfl (by decide) rfl rfl⟩

end RiotNyAlesund.Relay.Interrupts
