import RiotNyAlesund.Cells

set_option autoImplicit false

/- The two builds of lora_GPS/main.c: the base station forwards its UART over LoRa, the
rover writes what it receives to its UART. Both share `message`, BUFSIZE bytes long; cells
past it stand for whatever memory follows. -/
namespace RiotNyAlesund.Gps

def bufsize : Nat := 1024 * 3

/-- Subtraction of `unsigned int`s, modulo 2^32. -/
def u32Sub (left right : Nat) : Nat := (left + 4294967296 - right) % 4294967296

theorem u32Sub_eq {left right : Nat} (ordered : right ≤ left) (bounded : left < 4294967296) :
    u32Sub left right = left - right := by
  unfold u32Sub
  omega

end RiotNyAlesund.Gps

/-! ### The base station (no RXROVER) -/
namespace RiotNyAlesund.Gps.Base

/-- SX127X_LORA_MSG_QUEUE of the base station: the most one send_cmd is given. -/
def sx127xLoraMsgQueue : Nat := 64

/-- The next memory access of main's endless loop. `sendFull` and `sendTail` are inside
send_cmd, with the payload bytes the driver has read so far. -/
inductive Pc
  | asleep
  | testReceived
  | testSilence
  | record
  | announce
  | testFull
  | sendFull (read : List UInt8)
  | advance
  | subRead
  | subWrite (counted : Nat)
  | pause
  | tailLength
  | sendTail (length : Nat) (read : List UInt8)
  | clear
  | clearOld
  | testMore
  deriving DecidableEq, Repr

/-- `accepted` and `sent` are histories: the UART bytes stored, and the payloads for which
send_cmd returned 0. -/
structure State where
  message : Nat → UInt8
  compteurin : Nat
  oldcompteurin : Nat
  indice : Nat
  pc : Pc
  accepted : List UInt8
  sent : List (List UInt8)

inductive Action
  | uart (val : UInt8)
  | main
  | busy
  deriving DecidableEq, Repr

/-- main at its loop head for the first time, with the zeroed static buffer. -/
def start : State := ⟨fun _ => 0, 0, 0, 0, .asleep, [], []⟩

/-- Taking a chunk off a counter within the buffer that holds one does not wrap. -/
theorem u32Sub_queue {counted : Nat} (chunk : sx127xLoraMsgQueue ≤ counted)
    (bounded : counted ≤ bufsize) :
    u32Sub counted sx127xLoraMsgQueue = counted - sx127xLoraMsgQueue := by
  have unbounded : bufsize < 4294967296 := by decide
  exact u32Sub_eq chunk (by omega)

/-- One iteration of the UART thread, which no other thread interrupts. -/
def rstxThread (s : State) (val : UInt8) : State :=
  if s.compteurin < bufsize then
    { s with
      message := Cells.store s.message s.compteurin [val]
      compteurin := s.compteurin + 1
      accepted := s.accepted ++ [val] }
  else s

@[simp] theorem rstxThread_pc (s : State) (val : UInt8) : (rstxThread s val).pc = s.pc := by
  unfold rstxThread
  split <;> rfl

/-- The access main is at. -/
def main (s : State) : State :=
  match s.pc with
  | .asleep => { s with pc := .testReceived }
  | .testReceived => { s with pc := if 0 < s.compteurin then .testSilence else .asleep }
  | .testSilence =>
      { s with pc := if s.compteurin = s.oldcompteurin then .announce else .record }
  | .record => { s with oldcompteurin := s.compteurin, pc := .asleep }
  | .announce => { s with indice := 0, pc := .testFull }
  | .testFull =>
      { s with pc := if sx127xLoraMsgQueue ≤ s.compteurin then .sendFull [] else .tailLength }
  | .sendFull read =>
      if read.length < sx127xLoraMsgQueue then
        { s with pc := .sendFull (read ++ [s.message (s.indice + read.length)]) }
      else { s with sent := s.sent ++ [read], pc := .advance }
  | .advance => { s with indice := s.indice + sx127xLoraMsgQueue, pc := .subRead }
  | .subRead => { s with pc := .subWrite s.compteurin }
  | .subWrite counted =>
      { s with compteurin := u32Sub counted sx127xLoraMsgQueue, pc := .pause }
  | .pause => { s with pc := .testMore }
  | .tailLength => { s with pc := .sendTail s.compteurin [] }
  | .sendTail length read =>
      if read.length < length then
        { s with pc := .sendTail length (read ++ [s.message (s.indice + read.length)]) }
      else { s with sent := s.sent ++ [read], pc := .clear }
  | .clear => { s with compteurin := 0, pc := .clearOld }
  | .clearOld => { s with oldcompteurin := 0, pc := .testMore }
  | .testMore => { s with pc := if 0 < s.compteurin then .testFull else .asleep }

/-- send_cmd returns a non-zero result, before the driver reads the payload. The tail's
length argument is evaluated again for the next attempt. -/
def busy (s : State) : Option State :=
  match s.pc with
  | .sendFull [] => some s
  | .sendTail _ [] => some { s with pc := .tailLength }
  | _ => none

@[simp] theorem main_message (s : State) : (main s).message = s.message := by
  cases pc : s.pc
  case sendFull read =>
    by_cases more : read.length < sx127xLoraMsgQueue <;> simp only [main, pc, more, ↓reduceIte]
  case sendTail length read =>
    by_cases more : read.length < length <;> simp only [main, pc, more, ↓reduceIte]
  all_goals simp only [main, pc]

@[simp] theorem main_accepted (s : State) : (main s).accepted = s.accepted := by
  cases pc : s.pc
  case sendFull read =>
    by_cases more : read.length < sx127xLoraMsgQueue <;> simp only [main, pc, more, ↓reduceIte]
  case sendTail length read =>
    by_cases more : read.length < length <;> simp only [main, pc, more, ↓reduceIte]
  all_goals simp only [main, pc]

/-- A busy reply changes nothing, or has the length of the last piece read again. -/
theorem busy_eq {s t : State} (taken : busy s = some t) :
    (s.pc = .sendFull [] ∧ t = s) ∨
      ∃ length, s.pc = .sendTail length [] ∧ t = { s with pc := .tailLength } := by
  cases pc : s.pc <;> simp only [busy, pc, reduceCtorEq] at taken
  case sendFull read =>
    cases read <;> cases taken
    exact Or.inl ⟨rfl, rfl⟩
  case sendTail length read =>
    cases read <;> cases taken
    exact Or.inr ⟨length, rfl, rfl⟩

def step (s : State) : Action → Option State
  | .uart val => some (rstxThread s val)
  | .main => some (main s)
  | .busy => busy s

/-- main is between the silence test that starts a flush and the end of the flush. -/
def InFlush (s : State) : Prop :=
  match s.pc with
  | .asleep | .testReceived | .testSilence | .record => False
  | _ => True

instance (s : State) : Decidable (InFlush s) :=
  decidable_of_iff
    (¬(s.pc = .asleep ∨ s.pc = .testReceived ∨ s.pc = .testSilence ∨ s.pc = .record))
    (by cases pc : s.pc <;> simp [InFlush, pc])

/-- A byte that is recorded, one that arrives as its flush begins, one while the radio is busy
with the flush, and one after it. -/
def lateBytes : List Action :=
  .uart 7 :: List.replicate 9 .main ++ [.uart 8, .main, .uart 9, .busy] ++
    List.replicate 8 .main ++ [.uart 10]

end RiotNyAlesund.Gps.Base

/-! ### The rover (RXROVER) -/
namespace RiotNyAlesund.Gps.Rover

/-- The most one dump writes to the UART. -/
def dumpLimit : Nat := 1432

/-- The next statement of the loop body of _rsrx_thread. -/
inductive Pc
  | asleep
  | testReceived
  | compare
  | record
  | clamp
  | write
  | reset
  deriving DecidableEq, Repr

/-- `received`, `written` and `accumulated` are histories: the packets copied, the arguments
of stdio_write, and the bytes received since the last stdio_write. Once `indexin` has passed
BUFSIZE the program has already written outside `message`, so it is not reduced modulo
2^32. -/
structure State where
  message : Nat → UInt8
  indexin : Nat
  oldindexin : Nat
  pc : Pc
  received : List (List UInt8)
  written : List (List UInt8)
  accumulated : Nat

inductive Action
  | packet (data : List UInt8)
  | thread
  deriving DecidableEq, Repr

def start : State := ⟨fun _ => 0, 0, 0, .asleep, [], [], 0⟩

/-- _event_cb on NETDEV_EVENT_RX_COMPLETE. It runs in interrupt context. -/
def eventCb (s : State) (data : List UInt8) : State :=
  { s with
    message := Cells.store s.message s.indexin data
    indexin := s.indexin + data.length
    received := s.received ++ [data]
    accumulated := s.accumulated + data.length }

/-- The statement _rsrx_thread is at. -/
def rsrxThread (s : State) : State :=
  match s.pc with
  | .asleep => { s with pc := .testReceived }
  | .testReceived => { s with pc := if 0 < s.indexin then .compare else .asleep }
  | .compare => { s with pc := if s.oldindexin = s.indexin then .clamp else .record }
  | .record => { s with oldindexin := s.indexin, pc := .asleep }
  | .clamp =>
      { s with indexin := if dumpLimit < s.indexin then dumpLimit else s.indexin, pc := .write }
  -- The length is read when stdio_write is called: a packet that lands while the bytes
  -- drain through the UART lands with the thread at `reset`.
  | .write =>
      { s with
        written := s.written ++ [Cells.slice s.message 0 s.indexin]
        accumulated := 0
        pc := .reset }
  | .reset => { s with indexin := 0, pc := .asleep }

def step (s : State) : Action → Option State
  | .packet data => some (eventCb s data)
  | .thread => some (rsrxThread s)

/-- What decides that a wake-up dumps the buffer. -/
def Silent (s : State) : Prop := 0 < s.indexin ∧ s.oldindexin = s.indexin

instance (s : State) : Decidable (Silent s) := inferInstanceAs (Decidable (_ ∧ _))

/-- The whole loop body of _rsrx_thread after one wake-up. -/
def wakeup (s : State) : State :=
  if 0 < s.indexin then
    if s.oldindexin = s.indexin then
      { s with
        indexin := 0
        written := s.written ++ [Cells.slice s.message 0 (min s.indexin dumpLimit)]
        accumulated := 0 }
    else { s with oldindexin := s.indexin }
  else s

inductive Event
  | packet (data : List UInt8)
  | wakeup
  deriving DecidableEq, Repr

/-- The rover with every loop body taken as one step. -/
def tick (s : State) : Event → State
  | .packet data => eventCb s data
  | .wakeup => wakeup s

def run (s : State) (events : List Event) : State := events.foldl tick s

/-- The packets among the events, in order. -/
def packets (events : List Event) : List (List UInt8) :=
  events.filterMap fun
    | .packet data => some data
    | .wakeup => none

end RiotNyAlesund.Gps.Rover
