import RiotNyAlesund.Bounded
import RiotNyAlesund.Transition

set_option autoImplicit false

/- The way of a radio event to its callback, in lora_relay/Relay/main.c and in
lora_relay/ListenOnly/main.c: the interrupt branch of _event_cb, and _recv_thread. -/
namespace RiotNyAlesund.RadioEvents

open Transition

/-- SX126X_MSG_QUEUE. -/
def sx126xMsgQueue : Nat := 8

/-- SX126X_MSG_TYPE_ISR. -/
def sx126xMsgTypeIsr : Nat := 0x3456

variable {ε : Type}

/-- Where _recv_thread is: blocked in msg_receive, at the test of the type of a message, or
inside driver->isr with the events it has still to report. -/
inductive Thread (ε : Type)
  | receiving
  | received (type : Nat)
  | isr (rest : List ε)
  deriving DecidableEq, Repr

/-- `irq` holds the flags the radio has set and driver->isr has not cleared, `line` is an
interrupt that is still to be taken, and `warned` counts the lines that report a possibly
lost interrupt. `occurred`, `merged` and `reported` are histories: the events, those that
found their flag set already, and the callbacks made. -/
structure State (ε : Type) where
  irq : List ε
  line : Bool
  queue : Bounded Nat sx126xMsgQueue
  thread : Thread ε
  warned : Nat
  occurred : List ε
  merged : List ε
  reported : List ε
  deriving DecidableEq, Repr

/-- `edge` raises the interrupt line for any other reason, `interrupt` takes the interrupt. -/
inductive Action (ε : Type)
  | occur (event : ε)
  | edge
  | interrupt
  | thread
  deriving DecidableEq, Repr

def start : State ε where
  irq := []
  line := false
  queue := .empty
  thread := .receiving
  warned := 0
  occurred := []
  merged := []
  reported := []

/-- The radio sets the flag of an event, and raises the line when no other flag was set. -/
def occur [DecidableEq ε] (s : State ε) (event : ε) : State ε :=
  if event ∈ s.irq then
    { s with occurred := s.occurred ++ [event], merged := s.merged ++ [event] }
  else
    { s with
      irq := s.irq ++ [event]
      line := s.line || s.irq.isEmpty
      occurred := s.occurred ++ [event] }

/-- msg_send in interrupt context, and whether the message was taken: by a thread blocked in
msg_receive, or by its queue. -/
def msgSend (s : State ε) (type : Nat) : State ε × Bool :=
  match s.thread with
  | .receiving => ({ s with thread := .received type }, true)
  | _ => ({ s with queue := s.queue.offer type }, decide (s.queue.items.length < sx126xMsgQueue))

/-- _event_cb on NETDEV_EVENT_ISR. -/
def eventCbIsr (s : State ε) : State ε :=
  if (msgSend s sx126xMsgTypeIsr).2 then (msgSend s sx126xMsgTypeIsr).1
  else { (msgSend s sx126xMsgTypeIsr).1 with warned := s.warned + 1 }

def msgReceive (s : State ε) : State ε :=
  match s.queue.items with
  | [] => { s with thread := .receiving }
  | type :: _ => { s with thread := .received type, queue := s.queue.rest }

/-- The next step of _recv_thread. `isr` gives the events that driver->isr reports, from the
flags it finds set. Only _event_cb sends to this thread, so the branch for another type of
message stays unused. -/
def recvThread (isr : List ε → List ε) (s : State ε) : Option (State ε) :=
  match s.thread with
  | .receiving => none
  | .received type =>
      some (if type = sx126xMsgTypeIsr then { s with thread := .isr (isr s.irq), irq := [] }
        else msgReceive s)
  | .isr [] => some (msgReceive s)
  | .isr (event :: rest) =>
      some { s with thread := .isr rest, reported := s.reported ++ [event] }

def step [DecidableEq ε] (isr : List ε → List ε) (s : State ε) : Action ε → Option (State ε)
  | .occur event => some (occur s event)
  | .edge => some { s with line := true }
  | .interrupt => if s.line = true then some (eventCbIsr { s with line := false }) else none
  | .thread => recvThread isr s

/-- The events that have occurred and whose callback has not been made. -/
def due (s : State ε) : List ε :=
  match s.thread with
  | .isr rest => rest ++ s.irq
  | _ => s.irq

/-- The event whose callback driver->isr is about to make. -/
def callback (s : State ε) : Option ε :=
  match s.thread with
  | .isr (event :: _) => some event
  | _ => none

/-- The thread calls driver->isr for a message of _event_cb, makes a callback inside it, or goes
on to its next message. -/
theorem recvThread_cases {isr : List ε → List ε} {s t : State ε}
    (taken : recvThread isr s = some t) :
    (s.thread = .received sx126xMsgTypeIsr ∧
        t = { s with thread := .isr (isr s.irq), irq := [] }) ∨
      (∃ event rest, s.thread = .isr (event :: rest) ∧
        t = { s with thread := .isr rest, reported := s.reported ++ [event] }) ∨
      (((∃ type, s.thread = .received type ∧ type ≠ sx126xMsgTypeIsr) ∨ s.thread = .isr []) ∧
        t = msgReceive s) := by
  cases thread : s.thread <;> simp only [recvThread, thread] at taken
  case receiving => cases taken
  case received type =>
    by_cases typed : type = sx126xMsgTypeIsr
    · rw [if_pos typed] at taken
      cases taken
      exact Or.inl ⟨congrArg _ typed, rfl⟩
    · rw [if_neg typed] at taken
      cases taken
      exact Or.inr (Or.inr ⟨Or.inl ⟨type, rfl, typed⟩, rfl⟩)
  case isr rest =>
    cases rest with
    | nil =>
        cases taken
        exact Or.inr (Or.inr ⟨Or.inr rfl, rfl⟩)
    | cons event rest =>
        cases taken
        exact Or.inr (Or.inl ⟨event, rest, rfl, rfl⟩)

/-- A set flag will be seen: its interrupt is still to be taken, or its message to be
received or looked at. -/
structure Awake (s : State ε) : Prop where
  queued : ∀ type ∈ s.queue.items, type = sx126xMsgTypeIsr
  received : ∀ type, s.thread = .received type → type = sx126xMsgTypeIsr
  blocked : s.thread = .receiving → s.queue.items = []
  woken : s.irq ≠ [] → s.line = true ∨ s.queue.items ≠ [] ∨ ∃ type, s.thread = .received type

theorem start_awake : Awake (start : State ε) where
  queued type member := by cases member
  received type moved := by cases moved
  blocked _ := rfl
  woken pending := absurd rfl pending

theorem occur_awake [DecidableEq ε] {s : State ε} (event : ε) (awake : Awake s) :
    Awake (occur s event) := by
  unfold occur
  split
  · exact ⟨awake.queued, awake.received, awake.blocked, awake.woken⟩
  · refine ⟨awake.queued, awake.received, awake.blocked, fun _ => ?_⟩
    by_cases first : s.irq = []
    · exact Or.inl (by simp only [first, List.isEmpty_nil, Bool.or_true])
    · rcases awake.woken first with line | message
      · exact Or.inl (by simp only [line, Bool.true_or])
      · exact Or.inr message

/-- An interrupt leaves a message behind, whether or not the queue had room for it. -/
theorem eventCbIsr_eq (s : State ε) :
    (s.thread = .receiving ∧
        eventCbIsr s = { s with thread := .received sx126xMsgTypeIsr }) ∨
      (s.thread ≠ .receiving ∧ ∃ warned, eventCbIsr s =
        { s with queue := s.queue.offer sx126xMsgTypeIsr, warned := warned }) := by
  cases thread : s.thread
  case receiving => exact Or.inl ⟨rfl, by simp only [eventCbIsr, msgSend, thread, ↓reduceIte]⟩
  all_goals
    refine Or.inr ⟨by simp only [ne_eq, reduceCtorEq, not_false_eq_true], ?_⟩
    by_cases room : s.queue.items.length < sx126xMsgQueue
    · exact ⟨s.warned, by
        simp only [eventCbIsr, msgSend, thread, room, decide_true, ↓reduceIte]⟩
    · exact ⟨s.warned + 1, by
        simp only [eventCbIsr, msgSend, thread, room, decide_false, Bool.false_eq_true,
          ↓reduceIte]⟩

theorem eventCbIsr_awake {s : State ε} (awake : Awake s) :
    Awake (eventCbIsr { s with line := false }) := by
  rcases eventCbIsr_eq { s with line := false } with ⟨blocked, posted⟩ | ⟨busy, warned, posted⟩
  · rw [posted]
    refine ⟨awake.queued, ?_, ?_, fun _ => Or.inr (Or.inr ⟨_, rfl⟩)⟩
    · intro type same
      cases same
      rfl
    · intro moved
      cases moved
  · rw [posted]
    have nonempty : (s.queue.offer sx126xMsgTypeIsr).items ≠ [] := by
      intro none
      have lengths := congrArg List.length none
      rw [Bounded.offer_items, List.length_take, List.length_append, List.length_singleton,
        List.length_nil] at lengths
      have room : 0 < sx126xMsgQueue := by decide
      omega
    refine ⟨?_, awake.received, ?_, fun _ => Or.inr (Or.inl nonempty)⟩
    · intro type member
      have appended := List.mem_of_mem_take member
      rcases List.mem_append.mp appended with earlier | last
      · exact awake.queued type earlier
      · exact List.mem_singleton.mp last
    · intro blocked
      exact absurd blocked busy

/-- Where the receiver looks for its next message, a set flag is behind a message or behind
the interrupt line. -/
theorem msgReceive_awake {s : State ε} (queued : ∀ type ∈ s.queue.items, type = sx126xMsgTypeIsr)
    (woken : s.irq ≠ [] → s.line = true ∨ s.queue.items ≠ []) : Awake (msgReceive s) := by
  cases items : s.queue.items with
  | nil =>
      simp only [msgReceive, items]
      refine ⟨queued, ?_, fun _ => items, ?_⟩
      · intro type moved
        cases moved
      · intro pending
        rcases woken pending with line | message
        · exact Or.inl line
        · exact absurd items message
  | cons type rest =>
      simp only [msgReceive, items]
      rw [items, List.forall_mem_cons] at queued
      refine ⟨?_, ?_, ?_, fun _ => Or.inr (Or.inr ⟨type, rfl⟩)⟩
      · intro later member
        rw [Bounded.rest_items, items, List.tail_cons] at member
        exact queued.2 later member
      · intro received same
        cases same
        exact queued.1
      · intro moved
        cases moved

theorem recvThread_awake {isr : List ε → List ε} {s t : State ε} (awake : Awake s)
    (taken : recvThread isr s = some t) : Awake t := by
  obtain ⟨_, rfl⟩ | ⟨event, rest, reports, rfl⟩ | ⟨away, rfl⟩ := recvThread_cases taken
  · refine ⟨awake.queued, ?_, ?_, fun pending => absurd rfl pending⟩
    · intro later moved
      cases moved
    · intro moved
      cases moved
  · refine ⟨awake.queued, ?_, ?_, ?_⟩
    · intro later moved
      cases moved
    · intro moved
      cases moved
    · intro pending
      rcases awake.woken pending with line | message | ⟨type, received⟩
      · exact Or.inl line
      · exact Or.inr (Or.inl message)
      · rw [reports] at received
        cases received
  · apply msgReceive_awake awake.queued
    intro pending
    rcases awake.woken pending with line | message | ⟨type, received⟩
    · exact Or.inl line
    · exact Or.inr message
    · rcases away with ⟨other, moved, unexpected⟩ | returned
      · exact absurd (awake.received other moved) unexpected
      · rw [returned] at received
        cases received

theorem step_awake [DecidableEq ε] {isr : List ε → List ε} (s : State ε) (action : Action ε)
    (t : State ε) (awake : Awake s) (taken : step isr s action = some t) : Awake t := by
  cases action with
  | occur event =>
      cases taken
      exact occur_awake event awake
  | edge =>
      cases taken
      exact ⟨awake.queued, awake.received, awake.blocked, fun _ => Or.inl rfl⟩
  | interrupt =>
      simp only [step, Option.ite_none_right_eq_some, Option.some.injEq] at taken
      obtain ⟨_, rfl⟩ := taken
      exact eventCbIsr_awake awake
  | thread => exact recvThread_awake awake taken

/-- Every event has been reported, is due, or found its flag set already. -/
def Conserved (s : State ε) : Prop := (s.reported ++ due s ++ s.merged).Perm s.occurred

theorem msgReceive_conserved {s : State ε} :
    Conserved (msgReceive s) ↔ (s.reported ++ s.irq ++ s.merged).Perm s.occurred := by
  unfold msgReceive
  split <;> exact Iff.rfl

theorem due_occur [DecidableEq ε] (s : State ε) (event : ε) :
    due (occur s event) = if event ∈ s.irq then due s else due s ++ [event] := by
  unfold occur
  split
  · rfl
  · cases thread : s.thread <;> simp only [due, thread, List.append_assoc]

theorem occur_reported [DecidableEq ε] (s : State ε) (event : ε) :
    (occur s event).reported = s.reported := by
  unfold occur
  split <;> rfl

theorem occur_conserved [DecidableEq ε] {s : State ε} (event : ε) (conserved : Conserved s) :
    Conserved (occur s event) := by
  unfold Conserved at *
  rw [due_occur]
  unfold occur
  split
  · show (s.reported ++ due s ++ (s.merged ++ [event])).Perm (s.occurred ++ [event])
    rw [← List.append_assoc]
    exact conserved.append_right [event]
  · show (s.reported ++ (due s ++ [event]) ++ s.merged).Perm (s.occurred ++ [event])
    have moved : (s.reported ++ (due s ++ [event]) ++ s.merged).Perm
        (s.reported ++ due s ++ s.merged ++ [event]) := by
      simp only [List.append_assoc]
      exact (List.perm_append_comm.append_left (due s)).append_left s.reported
    exact moved.trans (conserved.append_right [event])

theorem due_msgReceive (s : State ε) :
    due (msgReceive s) = s.irq ∧ (msgReceive s).reported = s.reported := by
  unfold msgReceive
  split <;> exact ⟨rfl, rfl⟩

theorem due_eventCbIsr (s : State ε) : due (eventCbIsr { s with line := false }) = due s ∧
    (eventCbIsr { s with line := false }).reported = s.reported := by
  rcases eventCbIsr_eq { s with line := false } with ⟨blocked, posted⟩ | ⟨busy, warned, posted⟩
  · have waits : s.thread = .receiving := blocked
    rw [posted]
    simp only [due, waits, and_self]
  · rw [posted]
    exact ⟨rfl, rfl⟩

/-- Where the thread goes on to its next message, it makes no callback and leaves none due. -/
theorem away_silent {s : State ε}
    (away : (∃ type, s.thread = .received type ∧ type ≠ sx126xMsgTypeIsr) ∨ s.thread = .isr []) :
    callback s = none ∧ due s = s.irq := by
  rcases away with ⟨type, received, _⟩ | returned
  · simp only [callback, due, received, and_self]
  · simp only [callback, due, returned, List.nil_append, and_self]

/-- A step of the receiver makes the callback of an event that is due, or none. -/
theorem recvThread_due {isr : List ε → List ε} (reports : ∀ irq, (isr irq).Perm irq)
    {s t : State ε} (taken : recvThread isr s = some t) :
    ((callback s).toList ++ due t).Perm (due s) ∧
      t.reported = s.reported ++ (callback s).toList := by
  obtain ⟨received, rfl⟩ | ⟨event, rest, pending, rfl⟩ | ⟨away, rfl⟩ := recvThread_cases taken
  · simp only [callback, due, received, Option.toList_none, List.nil_append, List.append_nil,
      and_true]
    exact reports s.irq
  · simp only [callback, due, pending, Option.toList_some, List.cons_append, List.nil_append,
      List.Perm.refl, and_self]
  · obtain ⟨silent, left⟩ := away_silent away
    rw [silent, left, Option.toList_none, List.nil_append, List.append_nil]
    exact ⟨List.Perm.of_eq (due_msgReceive s).1, (due_msgReceive s).2⟩

theorem recvThread_conserved {isr : List ε → List ε} (reports : ∀ irq, (isr irq).Perm irq)
    {s t : State ε} (conserved : Conserved s) (taken : recvThread isr s = some t) :
    Conserved t := by
  unfold Conserved at conserved
  obtain ⟨received, rfl⟩ | ⟨event, rest, pending, rfl⟩ | ⟨away, rfl⟩ := recvThread_cases taken
  · simp only [due, received] at conserved
    refine List.Perm.trans ?_ conserved
    simp only [due, List.append_nil]
    exact ((reports s.irq).append_left s.reported).append_right s.merged
  · simpa only [Conserved, due, pending, List.append_assoc, List.cons_append,
      List.nil_append] using conserved
  · rw [(away_silent away).2] at conserved
    exact msgReceive_conserved.mpr conserved

theorem eventCbIsr_conserved {s : State ε} (conserved : Conserved s) :
    Conserved (eventCbIsr { s with line := false }) := by
  rcases eventCbIsr_eq { s with line := false } with ⟨blocked, posted⟩ | ⟨busy, warned, posted⟩
  · have waits : s.thread = .receiving := blocked
    rw [posted]
    simpa only [Conserved, due, waits] using conserved
  · rw [posted]
    exact conserved

theorem step_conserved [DecidableEq ε] {isr : List ε → List ε}
    (reports : ∀ irq, (isr irq).Perm irq) (s : State ε) (action : Action ε) (t : State ε)
    (conserved : Conserved s) (taken : step isr s action = some t) : Conserved t := by
  cases action with
  | occur event =>
      cases taken
      exact occur_conserved event conserved
  | edge =>
      cases taken
      exact conserved
  | interrupt =>
      simp only [step, Option.ite_none_right_eq_some, Option.some.injEq] at taken
      obtain ⟨_, rfl⟩ := taken
      exact eventCbIsr_conserved conserved
  | thread => exact recvThread_conserved reports conserved taken

/-- The receiver is blocked in msg_receive and no interrupt is still to be taken. -/
def Blocked (s : State ε) : Prop := s.thread = .receiving ∧ s.line = false

theorem Awake.blocked_due {s : State ε} (awake : Awake s) (waits : Blocked s) : due s = [] := by
  have clear : s.irq = [] := by
    apply Decidable.byContradiction
    intro pending
    rcases awake.woken pending with line | message | ⟨type, received⟩
    · rw [waits.2] at line
      cases line
    · exact message (awake.blocked waits.1)
    · rw [waits.1] at received
      cases received
  simp only [due, waits.1, clear]

/-- Steps the receiver has left before it blocks again, the interrupt included. -/
def work (s : State ε) : Nat :=
  s.irq.length + 2 * s.queue.items.length + (if s.line then 3 else 0) +
    match s.thread with
    | .receiving => 0
    | .received _ => 2
    | .isr rest => rest.length + 1

theorem msgReceive_work {s : State ε} :
    work (msgReceive s) ≤
      s.irq.length + 2 * s.queue.items.length + (if s.line then 3 else 0) := by
  cases items : s.queue.items with
  | nil => simp only [msgReceive, work, items, Nat.add_zero, Nat.le_refl]
  | cons type rest =>
      simp only [msgReceive, work, Bounded.rest_items, items, List.tail_cons, List.length_cons]
      omega

theorem recvThread_works {isr : List ε → List ε} (reports : ∀ irq, (isr irq).Perm irq)
    {s : State ε} (awake : Awake s) (busy : s.thread ≠ .receiving) :
    ∃ t, recvThread isr s = some t ∧ work t < work s := by
  cases thread : s.thread
  case receiving => exact absurd thread busy
  case received type =>
    have typed := awake.received type thread
    refine ⟨_, by simp only [recvThread, thread, typed, ↓reduceIte]; rfl, ?_⟩
    simp only [work, thread, (reports s.irq).length_eq, List.length_nil]
    omega
  case isr rest =>
    cases rest with
    | nil =>
        refine ⟨_, by simp only [recvThread, thread]; rfl, ?_⟩
        have less := msgReceive_work (s := s)
        simp only [work, thread, List.length_nil] at less ⊢
        omega
    | cons event rest =>
        refine ⟨_, by simp only [recvThread, thread]; rfl, ?_⟩
        simp only [work, thread, List.length_cons]
        omega

theorem eventCbIsr_work {s : State ε} (line : s.line = true) :
    work (eventCbIsr { s with line := false }) < work s := by
  rcases eventCbIsr_eq { s with line := false } with ⟨blocked, posted⟩ | ⟨busy, warned, posted⟩
  · have waits : s.thread = .receiving := blocked
    rw [posted]
    simp only [work, waits, line, Bool.false_eq_true, ↓reduceIte]
    omega
  · have short : (s.queue.offer sx126xMsgTypeIsr).items.length ≤ s.queue.items.length + 1 := by
      rw [Bounded.offer_items, List.length_take, List.length_append, List.length_singleton]
      omega
    rw [posted]
    simp only [work, line, Bool.false_eq_true, ↓reduceIte]
    omega

theorem msgReceive_occurred (s : State ε) : (msgReceive s).occurred = s.occurred := by
  unfold msgReceive
  split <;> rfl

theorem recvThread_occurred {isr : List ε → List ε} {s t : State ε}
    (taken : recvThread isr s = some t) : t.occurred = s.occurred := by
  obtain ⟨_, rfl⟩ | ⟨_, _, _, rfl⟩ | ⟨_, rfl⟩ := recvThread_cases taken
  · rfl
  · rfl
  · exact msgReceive_occurred s

theorem eventCbIsr_occurred (s : State ε) : (eventCbIsr s).occurred = s.occurred := by
  rcases eventCbIsr_eq s with ⟨_, posted⟩ | ⟨_, _, posted⟩ <;> rw [posted]

/-- The steps that only the receiver takes. -/
def Receives : Action ε → Prop
  | .interrupt | .thread => True
  | _ => False

/-- Until the receiver is blocked, it can take a step that leaves it less to do. -/
theorem receives_nearer [DecidableEq ε] {isr : List ε → List ε}
    (reports : ∀ irq, (isr irq).Perm irq) {s : State ε} (awake : Awake s)
    (going : ¬Blocked s) :
    ∃ action t, Receives action ∧ step isr s action = some t ∧ t.occurred = s.occurred ∧
      work t < work s := by
  by_cases line : s.line = true
  · refine ⟨.interrupt, eventCbIsr { s with line := false }, trivial, ?_,
      eventCbIsr_occurred _, eventCbIsr_work line⟩
    simp only [step, line, ↓reduceIte]
  · have busy : s.thread ≠ .receiving := fun waits => going ⟨waits, by simpa using line⟩
    obtain ⟨t, taken, less⟩ := recvThread_works reports awake busy
    exact ⟨.thread, t, trivial, taken, recvThread_occurred taken, less⟩

/-- The receiver on its own comes to be blocked. -/
theorem receiver_blocks [DecidableEq ε] {isr : List ε → List ε}
    (reports : ∀ irq, (isr irq).Perm irq) {s : State ε} (awake : Awake s) :
    ∃ actions t, (∀ action ∈ actions, Receives action) ∧ execute (step isr) s actions = some t ∧
      Blocked t ∧ t.occurred = s.occurred := by
  have nearer : ∀ u, (Awake u ∧ u.occurred = s.occurred) → ¬Blocked u →
      ∃ action t, Receives action ∧ step isr u action = some t ∧
        (Awake t ∧ t.occurred = s.occurred) ∧ work t < work u := by
    rintro u ⟨awake, same⟩ going
    obtain ⟨action, t, receives, taken, kept, less⟩ := receives_nearer reports awake going
    exact ⟨action, t, receives, taken, ⟨step_awake u action t awake taken, kept.trans same⟩, less⟩
  obtain ⟨actions, t, receives, reached, ⟨_, same⟩, blocked⟩ := leads_to nearer ⟨awake, rfl⟩
  exact ⟨actions, t, receives, reached, blocked, same⟩

theorem Awake.blocked_conserved {s : State ε} (awake : Awake s) (conserved : Conserved s)
    (blocked : Blocked s) : (s.reported ++ s.merged).Perm s.occurred := by
  unfold Conserved at conserved
  rwa [awake.blocked_due blocked, List.append_nil] at conserved

/-- No event is lost with its message: whatever the queue had no room for, a receiver blocked
in msg_receive with no interrupt pending has reported every event once for each time its flag
was set, and left to itself the receiver always comes to that. No message is of an unexpected
type. -/
theorem blocked_reported [DecidableEq ε] (isr : List ε → List ε)
    (reports : ∀ irq, (isr irq).Perm irq) (actions : List (Action ε)) (s : State ε)
    (reached : execute (step isr) start actions = some s) :
    (∀ type, s.thread = .received type → type = sx126xMsgTypeIsr) ∧
      (Blocked s → (s.reported ++ s.merged).Perm s.occurred) ∧
      ∃ rest t, (∀ action ∈ rest, Receives action) ∧ execute (step isr) s rest = some t ∧
        Blocked t ∧ (t.reported ++ t.merged).Perm s.occurred := by
  have awake : Awake s := invariant_of_step step_awake start_awake reached
  have conserved : Conserved s :=
    invariant_of_step (step_conserved reports)
      (show Conserved (start : State ε) from List.Perm.refl []) reached
  obtain ⟨rest, t, receives, later, blocked, same⟩ := receiver_blocks reports awake
  refine ⟨awake.received, awake.blocked_conserved conserved, rest, t, receives, later, blocked,
    ?_⟩
  rw [← same]
  exact (invariant_of_step step_awake awake later).blocked_conserved
    (invariant_of_step (step_conserved reports) conserved later) blocked

/-- An event behind the message for which the queue had no room. -/
def flooded : List (Action Bool) :=
  [.occur true, .interrupt, .thread] ++
    (List.replicate 8 [.edge, .interrupt]).flatten ++ [.occur false, .interrupt]

/-- The receiver when the message has been refused. -/
def floodedState : State Bool where
  irq := [false]
  line := false
  queue := ⟨List.replicate 8 sx126xMsgTypeIsr, by decide⟩
  thread := .isr [true]
  warned := 1
  occurred := [true, false]
  merged := []
  reported := []

/-- The receiver when it has worked off the messages. -/
def settledState : State Bool where
  irq := []
  line := false
  queue := .empty
  thread := .receiving
  warned := 1
  occurred := [true, false]
  merged := []
  reported := [true, false]

theorem blocked_reported_flooded :
    (execute (step id) start flooded = some floodedState ∧
      ∃ rest t, (∀ action ∈ rest, Receives action) ∧
        execute (step id) floodedState rest = some t ∧ Blocked t ∧
        (t.reported ++ t.merged).Perm [true, false]) ∧
    execute (step id) start (flooded ++ List.replicate 19 .thread) = some settledState ∧
      (settledState.reported ++ settledState.merged).Perm settledState.occurred := by
  have reached : execute (step id) start flooded = some floodedState := by decide +kernel
  have settled : execute (step id) start (flooded ++ List.replicate 19 .thread) =
      some settledState := by decide +kernel
  have first := blocked_reported id (fun _ => List.Perm.refl _) flooded floodedState reached
  have second := blocked_reported id (fun _ => List.Perm.refl _)
    (flooded ++ List.replicate 19 .thread) settledState settled
  exact ⟨⟨reached, first.2.2⟩, settled, second.2.1 ⟨rfl, rfl⟩⟩

end RiotNyAlesund.RadioEvents
