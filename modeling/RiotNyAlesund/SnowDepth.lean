import RiotNyAlesund.Bounded
import RiotNyAlesund.Cells

set_option autoImplicit false

/- lora_snowdepth/main.c: the printer thread and main, interleaved with the UART interrupt. -/
namespace RiotNyAlesund.SnowDepth

/-- UART_BUFSIZE. -/
def uartBufsize : Nat := 128

/-- The length of `msg_queue`. -/
def msgQueue : Nat := 8

/-- A carriage return. -/
def cr : UInt8 := 13

/-- A byte with its history: the number of sensor power-ups before it was received, or
nothing when it was never received. -/
structure Cell where
  byte : UInt8
  born : Option Nat
  deriving DecidableEq, Repr

/-- What an empty ring yields: -1, kept in a char. -/
def nothing : Cell := ⟨255, none⟩

/-- The statement printer is at. `initQueue` covers the GPIO set-up too, each GPIO state
covers the writes to the three pins, and `sending` is inside semtech_loramac_send. -/
inductive Pc
  | absent
  | initQueue
  | lock
  | powerDown
  | asleep
  | powerUp
  | receive
  | getOne
  | send
  | sending
  | report (done : Bool)
  deriving DecidableEq, Repr

inductive MainPc
  | lock
  | initRing
  | initUart
  | createPrinter
  | join
  | unlock
  | asleep
  | failed
  deriving DecidableEq, Repr

/-- One call of semtech_loramac_send. -/
structure Payload where
  epoch : Nat
  cells : List Cell
  deriving DecidableEq, Repr

/-- The result and the readings that one cycle writes back to the UART `dev`. -/
structure Echo where
  dev : Nat
  done : Bool
  cells : List Cell
  deriving DecidableEq, Repr

/-- `queue` is printer's message queue, once it has one. `epoch` counts the power-ups, and
`payloads` and `echoes` are histories. -/
structure State where
  ring : Bounded Cell uartBufsize
  queue : Option (Bounded Nat msgQueue)
  locked : Bool
  uart : Bool
  sensor : Bool
  main : MainPc
  pc : Pc
  decompte : Nat
  index : Nat
  val : Nat → Cell
  dev : Nat
  epoch : Nat
  payloads : List Payload
  echoes : List Echo

/-- `ok` is the outcome of the call the thread is at, if it can fail: semtech_loramac_send
for printer, uart_init and semtech_loramac_join for main. -/
inductive Action
  | rx (data : UInt8)
  | printer (ok : Bool)
  | main (ok : Bool)
  deriving DecidableEq, Repr

def start : State where
  ring := Bounded.empty
  queue := none
  locked := false
  uart := false
  sensor := false
  main := .lock
  pc := .absent
  decompte := 0
  index := 0
  val := fun _ => nothing
  dev := 0
  epoch := 0
  payloads := []
  echoes := []

/-- rx_cb. The message is lost while printer has no queue or a full one. -/
def rxCb (s : State) (data : UInt8) : State :=
  { s with
    ring := s.ring.overwrite ⟨data, some s.epoch⟩
    queue := if data = cr then s.queue.map (·.offer 1) else s.queue }

/-- The value of ringbuffer_get_one. -/
def oldest (s : State) : Cell := s.ring.items.head?.getD nothing

/-- printer takes the oldest byte of the ring. -/
def getOne (s : State) : State :=
  if (oldest s).byte = cr then
    { s with
      ring := s.ring.rest
      decompte := s.decompte + 1
      pc := if s.decompte + 1 < 9 then .receive else .send }
  else if 5 < s.decompte then
    { s with
      ring := s.ring.rest
      val := Cells.store s.val s.index [oldest s]
      index := s.index + 1 }
  else { s with ring := s.ring.rest }

/-- msg_receive takes the oldest message, and waits while there is none. A message that finds
printer waiting is in `queue` until printer runs. -/
def receive (s : State) : Option State :=
  match s.queue with
  | none => none
  | some queue =>
      queue.items.head?.map fun msg =>
        { s with queue := some queue.rest, dev := msg, pc := .getOne }

/-- The length argument `index-1` as the uint8_t the callee takes. -/
def sendLength (index : Nat) : Nat := (index + 255) % 256

def printer (s : State) (ok : Bool) : Option State :=
  match s.pc with
  | .absent => none
  | .initQueue => some { s with queue := some Bounded.empty, sensor := false, pc := .lock }
  | .lock => if s.locked then none else some { s with locked := true, pc := .powerDown }
  | .powerDown => some { s with sensor := false, pc := .asleep }
  | .asleep => some { s with pc := .powerUp }
  | .powerUp =>
      some { s with index := 0, sensor := true, epoch := s.epoch + 1, pc := .receive }
  | .receive => receive s
  | .getOne => some (getOne s)
  | .send =>
      some { s with
        payloads := s.payloads ++ [⟨s.epoch, Cells.slice s.val 0 (sendLength s.index)⟩]
        pc := .sending }
  | .sending => some { s with pc := .report ok }
  | .report done =>
      some { s with
        echoes := s.echoes ++ [⟨s.dev, done, Cells.slice s.val 0 s.index⟩]
        index := 0
        decompte := 0
        pc := .powerDown }

def main (s : State) (ok : Bool) : Option State :=
  match s.main with
  | .lock => if s.locked then none else some { s with locked := true, main := .initRing }
  | .initRing => some { s with ring := Bounded.empty, main := .initUart }
  | .initUart => some { s with uart := ok, main := .createPrinter }
  | .createPrinter => some { s with pc := .initQueue, main := .join }
  | .join => some { s with main := if ok then .unlock else .failed }
  | .unlock => some { s with locked := false, main := .asleep }
  | .asleep | .failed => none

def step (s : State) : Action → Option State
  | .rx data => if s.uart then some (rxCb s data) else none
  | .printer ok => printer s ok
  | .main ok => main s ok

/-- Stages of main before it creates printer. -/
def MainPc.Early : MainPc → Prop
  | .lock | .initRing | .initUart | .createPrinter => True
  | _ => False

instance (pc : MainPc) : Decidable pc.Early := by
  unfold MainPc.Early
  split <;> infer_instance

/-- Until main creates it printer does nothing, and before that there is no interrupt. -/
structure Ordered (s : State) : Prop where
  absent : s.main.Early → s.pc = .absent
  queueless : s.pc = .absent → s.queue = none
  queued : s.queue = none → s.pc = .absent ∨ s.pc = .initQueue

theorem start_ordered : Ordered start := ⟨fun _ => rfl, fun _ => rfl, fun _ => Or.inl rfl⟩

theorem receive_eq {s t : State} (taken : receive s = some t) :
    ∃ (queue : Bounded Nat msgQueue) (msg : Nat), s.queue = some queue ∧
      queue.items.head? = some msg ∧
      t = { s with queue := some queue.rest, dev := msg, pc := .getOne } := by
  unfold receive at taken
  split at taken
  · cases taken
  · rename_i queue waiting
    rw [Option.map_eq_some_iff] at taken
    obtain ⟨msg, oldest, rfl⟩ := taken
    exact ⟨queue, msg, waiting, oldest, rfl⟩

theorem rx_eq {s t : State} {data : UInt8} (taken : step s (.rx data) = some t) :
    s.uart = true ∧ t = rxCb s data := by
  simp only [step, Option.ite_none_right_eq_some, Option.some.injEq] at taken
  exact ⟨taken.1, taken.2.symm⟩

@[simp] theorem rxCb_main (s : State) (data : UInt8) : (rxCb s data).main = s.main := by
  simp only [rxCb]

@[simp] theorem rxCb_pc (s : State) (data : UInt8) : (rxCb s data).pc = s.pc := by
  simp only [rxCb]

@[simp] theorem rxCb_sensor (s : State) (data : UInt8) : (rxCb s data).sensor = s.sensor := by
  simp only [rxCb]

@[simp] theorem rxCb_decompte (s : State) (data : UInt8) :
    (rxCb s data).decompte = s.decompte := by
  simp only [rxCb]

@[simp] theorem rxCb_index (s : State) (data : UInt8) : (rxCb s data).index = s.index := by
  simp only [rxCb]

@[simp] theorem rxCb_val (s : State) (data : UInt8) : (rxCb s data).val = s.val := by
  simp only [rxCb]

@[simp] theorem rxCb_epoch (s : State) (data : UInt8) : (rxCb s data).epoch = s.epoch := by
  simp only [rxCb]

@[simp] theorem rxCb_payloads (s : State) (data : UInt8) :
    (rxCb s data).payloads = s.payloads := by
  simp only [rxCb]

@[simp] theorem rxCb_echoes (s : State) (data : UInt8) : (rxCb s data).echoes = s.echoes := by
  simp only [rxCb]

@[simp] theorem rxCb_ring (s : State) (data : UInt8) :
    (rxCb s data).ring = s.ring.overwrite ⟨data, some s.epoch⟩ := by
  simp only [rxCb]

@[simp] theorem rxCb_queue (s : State) (data : UInt8) :
    (rxCb s data).queue = if data = cr then s.queue.map (·.offer 1) else s.queue := by
  simp only [rxCb]

theorem oldest_of_ring {s : State} {cell : Cell} {rest : List Cell}
    (ring : s.ring.items = cell :: rest) : oldest s = cell := by
  rw [oldest, ring, List.head?_cons, Option.getD_some]

/-- Taking a byte touches the ring, the counters, `val` and the program counter only. -/
theorem getOne_eq (s : State) : ∃ decompte index val pc,
    getOne s = { s with
      ring := s.ring.rest, decompte := decompte, index := index, val := val, pc := pc } := by
  unfold getOne
  split
  · exact ⟨_, _, _, _, rfl⟩
  · split <;> exact ⟨_, _, _, _, rfl⟩

theorem getOne_ring (s : State) : (getOne s).ring = s.ring.rest := by
  obtain ⟨_, _, _, _, same⟩ := getOne_eq s
  rw [same]

theorem getOne_main (s : State) : (getOne s).main = s.main := by
  obtain ⟨_, _, _, _, same⟩ := getOne_eq s
  rw [same]

theorem getOne_queue (s : State) : (getOne s).queue = s.queue := by
  obtain ⟨_, _, _, _, same⟩ := getOne_eq s
  rw [same]

theorem getOne_payloads (s : State) : (getOne s).payloads = s.payloads := by
  obtain ⟨_, _, _, _, same⟩ := getOne_eq s
  rw [same]

theorem getOne_echoes (s : State) : (getOne s).echoes = s.echoes := by
  obtain ⟨_, _, _, _, same⟩ := getOne_eq s
  rw [same]

/-- A carriage return ends the line, and any other byte is followed by the next one. -/
theorem getOne_pc (s : State) :
    (getOne s).pc = if (oldest s).byte = cr then
      if s.decompte + 1 < 9 then .receive else .send else s.pc := by
  unfold getOne
  split
  · rfl
  · split <;> rfl

/-- Apart from setting up the ring and starting printer, main touches only its own state. -/
theorem main_cases {s t : State} {ok : Bool} (taken : main s ok = some t) :
    (s.main = .initRing ∧ t = { s with ring := Bounded.empty, main := .initUart }) ∨
    (s.main = .createPrinter ∧ t = { s with pc := .initQueue, main := .join }) ∨
    ∃ locked uart stage, t = { s with locked := locked, uart := uart, main := stage } := by
  cases stage : s.main <;> simp only [main, stage] at taken
  case lock =>
    simp only [Option.ite_none_left_eq_some, Option.some.injEq] at taken
    exact Or.inr (Or.inr ⟨_, _, _, taken.2.symm⟩)
  case initRing =>
    cases taken
    exact Or.inl ⟨rfl, rfl⟩
  case createPrinter =>
    cases taken
    exact Or.inr (Or.inl ⟨rfl, rfl⟩)
  case asleep | failed => cases taken
  all_goals
    cases taken
    exact Or.inr (Or.inr ⟨_, _, _, rfl⟩)

/-- printer touches nothing of main's but the mutex, and it sets up its queue once. -/
theorem printer_main {s t : State} {ok : Bool} (taken : printer s ok = some t) :
    t.main = s.main ∧ s.pc ≠ .absent ∧ t.pc ≠ .absent ∧
      (t.queue = none → s.queue = none ∧ s.pc ≠ .initQueue) := by
  cases pc : s.pc <;> simp only [printer, pc] at taken
  case absent => cases taken
  case initQueue =>
    cases taken
    exact ⟨rfl, Pc.noConfusion, Pc.noConfusion,
      fun missing => absurd missing (Option.some_ne_none _)⟩
  case lock =>
    simp only [Option.ite_none_left_eq_some, Option.some.injEq] at taken
    obtain ⟨_, rfl⟩ := taken
    exact ⟨rfl, Pc.noConfusion, Pc.noConfusion, fun missing => ⟨missing, Pc.noConfusion⟩⟩
  case receive =>
    obtain ⟨queue, msg, _, _, rfl⟩ := receive_eq taken
    exact ⟨rfl, Pc.noConfusion, Pc.noConfusion,
      fun missing => absurd missing (Option.some_ne_none _)⟩
  case getOne =>
    cases taken
    refine ⟨getOne_main s, Pc.noConfusion, ?_, ?_⟩
    · rw [getOne_pc, pc]
      split
      · split <;> exact Pc.noConfusion
      · exact Pc.noConfusion
    · rw [getOne_queue]
      exact fun missing => ⟨missing, Pc.noConfusion⟩
  all_goals
    cases taken
    exact ⟨rfl, Pc.noConfusion, Pc.noConfusion, fun missing => ⟨missing, Pc.noConfusion⟩⟩

theorem rxCb_ordered {s : State} (data : UInt8) (ordered : Ordered s) :
    Ordered (rxCb s data) := by
  obtain ⟨absent, queueless, queued⟩ := ordered
  refine ⟨?_, ?_, ?_⟩
  · rw [rxCb_main, rxCb_pc]
    exact absent
  · intro missing
    rw [rxCb_pc] at missing
    rw [rxCb_queue, queueless missing, Option.map_none, ite_self]
  · intro missing
    rw [rxCb_pc]
    apply queued
    rw [rxCb_queue] at missing
    split at missing
    · exact Option.map_eq_none_iff.mp missing
    · exact missing

theorem printer_ordered {s t : State} {ok : Bool} (ordered : Ordered s)
    (taken : step s (.printer ok) = some t) : Ordered t := by
  obtain ⟨absent, _, queued⟩ := ordered
  obtain ⟨same, before, after, kept⟩ := printer_main taken
  refine ⟨?_, fun missing => absurd missing after, ?_⟩
  · intro early
    rw [same] at early
    exact absurd (absent early) before
  · intro missing
    obtain ⟨unset, elsewhere⟩ := kept missing
    rcases queued unset with none | setUp
    · exact absurd none before
    · exact absurd setUp elsewhere

/-- main creates the printer thread when there is none, and touches no queue. -/
theorem main_ordered {s t : State} {ok : Bool} (ordered : Ordered s)
    (taken : step s (.main ok) = some t) : Ordered t := by
  obtain ⟨absent, queueless, queued⟩ := ordered
  cases stage : s.main <;> simp only [step, main, stage] at taken
  case lock =>
    simp only [stage, MainPc.Early, forall_const] at absent
    simp only [Option.ite_none_left_eq_some, Option.some.injEq] at taken
    obtain ⟨_, rfl⟩ := taken
    exact ⟨fun _ => absent, queueless, queued⟩
  case initRing | initUart =>
    simp only [stage, MainPc.Early, forall_const] at absent
    cases taken
    exact ⟨fun _ => absent, queueless, queued⟩
  case createPrinter =>
    cases taken
    exact ⟨fun early => absurd early id, fun missing => Pc.noConfusion missing,
      fun _ => Or.inr rfl⟩
  case join =>
    cases taken
    refine ⟨?_, queueless, queued⟩
    intro early
    cases ok <;> exact absurd early id
  case unlock =>
    cases taken
    exact ⟨fun early => absurd early id, queueless, queued⟩
  all_goals cases taken

theorem step_ordered (s : State) (action : Action) (t : State) (ordered : Ordered s)
    (taken : step s action = some t) : Ordered t := by
  cases action with
  | rx data =>
      obtain ⟨_, rfl⟩ := rx_eq taken
      exact rxCb_ordered data ordered
  | printer ok => exact printer_ordered ordered taken
  | main ok => exact main_ordered ordered taken

end RiotNyAlesund.SnowDepth
