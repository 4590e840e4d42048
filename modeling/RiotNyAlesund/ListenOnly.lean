import RiotNyAlesund.Cells
import RiotNyAlesund.Channel
import RiotNyAlesund.HexDump
import RiotNyAlesund.Transition

set_option autoImplicit false

/- lora_relay/ListenOnly/main.c: main's endless loop, which prints what the radio hears,
interleaved with the callbacks that the receiver thread runs. -/
namespace RiotNyAlesund.ListenOnly

open Transition HexDump

/-- SX126X_MAX_PAYLOAD_LEN, the size of `message`. -/
def sx126xMaxPayloadLen : Nat := 256

/-- The statement main is at. `test` and `dump` are the head and the body of the loop over
the bytes of the packet. -/
inductive Pc
  | head
  | test (k : Nat)
  | dump (k : Nat)
  | print
  | clear
  deriving DecidableEq, Repr

/-- `strings` are `buffer` and `temp`. `received` and `printed` are histories. -/
structure State where
  message : Nat → UInt8
  len : Nat
  flag : Bool
  pc : Pc
  strings : Dump
  received : List (List UInt8)
  printed : List (List Char)

inductive Action
  | rx (data : List UInt8)
  | main
  deriving DecidableEq, Repr

/-- main at its loop head for the first time. -/
def start : State where
  message := fun _ => 0
  len := 0
  flag := false
  pc := .head
  strings := cleared
  received := []
  printed := []

/-- _event_cb on NETDEV_EVENT_RX_COMPLETE. -/
def eventCb (s : State) (data : List UInt8) : State :=
  { s with
    message := Cells.store s.message 0 data
    len := data.length
    flag := true
    received := s.received ++ [data] }

/-- The statement main is at. The length is read again at every test of the loop and for the
line. -/
def main (signed : Bool) (s : State) : State :=
  match s.pc with
  | .head => { s with strings := cleared, pc := if s.flag then .test 0 else .head }
  | .test k => { s with pc := if k < s.len then .dump k else .print }
  | .dump k => { s with strings := append signed s.strings (s.message k), pc := .test (k + 1) }
  | .print =>
      { s with
        printed := s.printed ++
          [s.strings.temp ++ " (".toList ++ Nat.toDigits 10 s.len ++ " bytes)\n".toList]
        pc := .clear }
  | .clear => { s with flag := false, pc := .head }

/-- What main is about to write to `buffer` and `temp` fits them. -/
def Fitting (signed : Bool) (s : State) : Prop :=
  match s.pc with
  | .dump k => (append signed s.strings (s.message k)).Fits
  | _ => True

instance (signed : Bool) (s : State) : Decidable (Fitting signed s) := by
  unfold Fitting
  split <;> infer_instance

/-- Where an array would be overrun there is no next state. -/
def step (signed : Bool) (s : State) : Action → Option State
  | .rx data => if data.length ≤ sx126xMaxPayloadLen then some (eventCb s data) else none
  | .main => if Fitting signed s then some (main signed s) else none

/-- main has a packet in `message` for which it has not printed a line yet. -/
def Owes (s : State) : Prop :=
  match s.pc with
  | .head => s.flag = true
  | .test _ | .dump _ | .print => True
  | .clear => False

instance (s : State) : Decidable (Owes s) := by
  unfold Owes
  split <;> infer_instance

/-- A packet arrives only while no earlier one is being printed. -/
def Alone (s : State) : Action → Prop
  | .rx _ => s.flag = false
  | .main => True

instance (s : State) (action : Action) : Decidable (Alone s action) := by
  unfold Alone
  split <;> infer_instance

/-- What an action costs: a packet that finds the flag set costs a line. -/
def clash (s : State) : Action → Nat
  | .rx _ => if s.flag then 1 else 0
  | .main => 0

theorem clash_eq_zero_iff (s : State) (action : Action) : clash s action = 0 ↔ Alone s action := by
  cases action with
  | rx data => cases flag : s.flag <;> simp [clash, Alone, flag]
  | main => exact iff_of_true rfl trivial

/-- Away from the loop head the flag is set. -/
def Flagged (s : State) : Prop := s.pc ≠ .head → s.flag = true

theorem main_flagged {signed : Bool} {s : State} (flagged : Flagged s) :
    Flagged (main signed s) := by
  unfold Flagged at *
  cases pc : s.pc
  case head => by_cases flag : s.flag = true <;> simp [main, pc, flag]
  case clear => simp [main, pc]
  all_goals
    have set := flagged (by rw [pc]; simp only [ne_eq, reduceCtorEq, not_false_eq_true])
    simp [main, pc, set]

theorem step_rx {signed : Bool} {s t : State} {data : List UInt8}
    (taken : step signed s (.rx data) = some t) : t = eventCb s data := by
  simp only [step, Option.ite_none_right_eq_some, Option.some.injEq] at taken
  exact taken.2.symm

theorem step_main {signed : Bool} {s t : State} (taken : step signed s .main = some t) :
    Fitting signed s ∧ t = main signed s := by
  simp only [step, Option.ite_none_right_eq_some, Option.some.injEq] at taken
  exact ⟨taken.1, taken.2.symm⟩

theorem step_main_of_fitting {signed : Bool} {s : State} (fitting : Fitting signed s) :
    step signed s .main = some (main signed s) := by
  simp only [step, fitting, ↓reduceIte]

/-- Lines that main has printed or is still to print. -/
def lines (s : State) : Nat := s.printed.length + if Owes s then 1 else 0

/-- Packets for which there is no line, and will be none. -/
def missing (s : State) : Nat := s.received.length - lines s

/-- No packet has two lines. -/
def Counted (s : State) : Prop := Flagged s ∧ lines s ≤ s.received.length

theorem main_lines (signed : Bool) (s : State) : lines (main signed s) = lines s := by
  unfold lines
  cases pc : s.pc
  case head =>
    by_cases flag : s.flag = true <;> simp [main, Owes, pc, flag]
  case test k => by_cases more : k < s.len <;> simp [main, Owes, pc, more]
  all_goals simp [main, Owes, pc]

theorem main_received (signed : Bool) (s : State) : (main signed s).received = s.received := by
  unfold main
  split <;> rfl

/-- A packet that finds the flag set takes the place of the one in hand, or is forgotten
with it. -/
theorem eventCb_lines {s : State} (data : List UInt8) (flagged : Flagged s) :
    lines (eventCb s data) + clash s (.rx data) = lines s + 1 := by
  unfold Flagged at flagged
  cases pc : s.pc <;> cases flag : s.flag <;>
    simp_all [lines, Owes, eventCb, clash]

theorem step_counted (signed : Bool) (s : State) (action : Action) (t : State)
    (counted : Counted s) (taken : step signed s action = some t) : Counted t := by
  obtain ⟨flagged, bounded⟩ := counted
  cases action with
  | rx data =>
      rw [step_rx taken]
      have exact := eventCb_lines data flagged
      refine ⟨fun _ => rfl, ?_⟩
      simp only [eventCb, List.length_append, List.length_singleton] at exact ⊢
      omega
  | main =>
      rw [(step_main taken).2]
      refine ⟨main_flagged flagged, ?_⟩
      rw [main_lines, main_received]
      exact bounded

theorem step_missing (signed : Bool) (s : State) (action : Action) (t : State)
    (counted : Counted s) (taken : step signed s action = some t) :
    missing t = missing s + clash s action := by
  obtain ⟨flagged, bounded⟩ := counted
  cases action with
  | rx data =>
      rw [step_rx taken]
      have exact := eventCb_lines data flagged
      have cost : clash s (.rx data) ≤ 1 := by cases flag : s.flag <;> simp [clash, flag]
      have grown : (eventCb s data).received.length = s.received.length + 1 := by
        simp only [eventCb, List.length_append, List.length_singleton]
      simp only [missing, grown]
      omega
  | main =>
      rw [(step_main taken).2]
      simp only [missing, main_lines, main_received, clash, Nat.add_zero]

theorem start_counted : Counted start := ⟨fun moved => absurd rfl moved, by decide⟩

/-- Every packet has its line or costs a clash. -/
theorem missing_eq_clashes {signed : Bool} {actions : List Action} {s : State}
    (reached : execute (step signed) start actions = some s) :
    missing s = charge (step signed) clash start actions := by
  have counted := gauge_eq_charge (step_counted signed) (step_missing signed) start_counted reached
  rwa [show missing start = 0 from rfl, Nat.zero_add] at counted

def owed (s : State) : List (List UInt8) :=
  if Owes s then [Cells.slice s.message 0 s.len] else []

/-- `temp` holds the digits of the bytes behind main, and has room for them. -/
def Dumped (signed : Bool) (s : State) : Prop :=
  match s.pc with
  | .test k =>
      k ≤ s.len ∧ s.strings = (Cells.slice s.message 0 k).foldl (append signed) cleared ∧
        s.strings.Fits
  | .dump k => k < s.len ∧ s.strings = (Cells.slice s.message 0 k).foldl (append signed) cleared
  | .print =>
      s.strings = (Cells.slice s.message 0 s.len).foldl (append signed) cleared ∧ s.strings.Fits
  | _ => True

/-- The digits of a packet fit `temp`. -/
def Short (signed : Bool) (data : List UInt8) : Prop :=
  (data.foldl (append signed) cleared).Fits

instance (signed : Bool) (data : List UInt8) : Decidable (Short signed data) :=
  inferInstanceAs (Decidable (Dump.Fits _))

/-- The monitor implements a lossless channel from the radio to the lines of its console. -/
structure Represents (signed : Bool) (s : State) (channel : Channel (List UInt8)) : Prop where
  taken : channel.taken = s.received
  passed : channel.passed.map (listenOnlyLine signed) = s.printed
  held : channel.held = owed s
  short : ∀ data ∈ channel.passed, Short signed data
  flagged : Flagged s
  dumped : Dumped signed s

theorem start_represents (signed : Bool) : Represents signed start Channel.empty :=
  ⟨rfl, rfl, rfl, fun _ member => absurd member List.not_mem_nil, start_counted.1, trivial⟩

theorem main_message (signed : Bool) (s : State) :
    (main signed s).message = s.message ∧ (main signed s).len = s.len := by
  unfold main
  split <;> exact ⟨rfl, rfl⟩

/-- Elsewhere than at its printf main owes what it owed. -/
theorem main_owed (signed : Bool) {s : State} (elsewhere : s.pc ≠ .print) :
    owed (main signed s) = owed s ∧ (main signed s).printed = s.printed := by
  have same := main_message signed s
  unfold owed
  rw [same.1, same.2]
  cases pc : s.pc
  case print => exact absurd pc elsewhere
  case head => by_cases flag : s.flag = true <;> simp [main, Owes, pc, flag]
  case test k => by_cases more : k < s.len <;> simp [main, Owes, pc, more]
  all_goals simp [main, Owes, pc]

theorem main_dumped {signed : Bool} {s : State} (dumped : Dumped signed s)
    (fitting : Fitting signed s) : Dumped signed (main signed s) := by
  cases pc : s.pc <;> simp only [Dumped, Fitting, pc] at dumped fitting
  case head =>
    by_cases flag : s.flag = true
    · simp only [main, pc, flag, ↓reduceIte, Dumped]
      exact ⟨Nat.zero_le _, rfl, by decide⟩
    · simp only [main, pc, flag, Bool.false_eq_true, ↓reduceIte, Dumped]
  case test k =>
    by_cases more : k < s.len
    · simp only [main, pc, more, ↓reduceIte, Dumped]
      exact ⟨trivial, dumped.2.1⟩
    · have all : k = s.len := by omega
      simp only [main, pc, more, ↓reduceIte, Dumped]
      rw [← all]
      exact dumped.2
  case dump k =>
    simp only [main, pc, Dumped]
    refine ⟨dumped.1, ?_, fitting⟩
    rw [Cells.slice_succ, List.foldl_append, ← dumped.2, Nat.zero_add]
    rfl
  all_goals simp only [main, pc, Dumped]

/-- main overruns nothing while it prints a packet whose digits fit. -/
theorem fitting_of_short {signed : Bool} {s : State} (dumped : Dumped signed s)
    (short : ∀ data ∈ owed s, Short signed data) : Fitting signed s := by
  cases pc : s.pc <;> simp only [Fitting, pc]
  case dump k =>
    simp only [Dumped, pc] at dumped
    simp only [owed, Owes, pc, ↓reduceIte, List.forall_mem_singleton, Short] at short
    have front := fits_take short (k + 1)
    rw [Cells.take_slice _ _ _ _ dumped.1, Cells.slice_succ, List.foldl_append, ← dumped.2,
      Nat.zero_add] at front
    exact front

/-- The line printed is that of the packet in hand. -/
theorem print_follows {signed : Bool} {s : State} {channel : Channel (List UInt8)}
    (represents : Represents signed s channel) (pc : s.pc = .print) :
    Represents signed (main signed s) (channel.pass 1) := by
  have dumped := represents.dumped
  simp only [Dumped, pc] at dumped
  have fitting : Fitting signed s := by simp only [Fitting, pc]
  have held : channel.held = [Cells.slice s.message 0 s.len] := by
    rw [represents.held, owed]
    simp only [Owes, pc, ↓reduceIte]
  refine ⟨represents.taken.trans (main_received signed s).symm, ?_, ?_, ?_,
    main_flagged represents.flagged, main_dumped represents.dumped fitting⟩
  · show (channel.passed ++ channel.held.take 1).map (listenOnlyLine signed) = _
    rw [List.map_append, represents.passed, held]
    simp only [main, pc, dumped.1, listenOnlyLine, byteCount, Cells.slice_length,
      List.append_assoc, List.take_succ_cons, List.take_zero, List.map_cons, List.map_nil]
  · show channel.held.drop 1 = _
    rw [held]
    simp only [owed, main, Owes, pc, ↓reduceIte, List.drop_succ_cons, List.drop_zero]
  · show ∀ data ∈ channel.passed ++ channel.held.take 1, Short signed data
    rw [held, List.forall_mem_append]
    refine ⟨represents.short, ?_⟩
    rw [List.take_succ_cons, List.take_zero, List.forall_mem_singleton, Short, ← dumped.1]
    exact dumped.2

theorem main_follows {signed : Bool} {s : State} {channel : Channel (List UInt8)}
    (represents : Represents signed s channel) (fitting : Fitting signed s) :
    ∃ channel', Relation.ReflTransGen Channel.Move channel channel' ∧
      Represents signed (main signed s) channel' := by
  by_cases prints : s.pc = .print
  · exact ⟨channel.pass 1, .single (.pass _ _), print_follows represents prints⟩
  · obtain ⟨same, printed⟩ := main_owed signed prints
    exact ⟨channel, .refl, represents.taken.trans (main_received signed s).symm,
      represents.passed.trans printed.symm, represents.held.trans same.symm, represents.short,
      main_flagged represents.flagged, main_dumped represents.dumped fitting⟩

/-- With nothing being printed, an arriving packet is the only one the monitor holds. -/
theorem eventCb_follows {signed : Bool} {s : State} {channel : Channel (List UInt8)}
    (data : List UInt8) (represents : Represents signed s channel) (free : s.flag = false) :
    Represents signed (eventCb s data) (channel.accept [data]) := by
  have waiting : s.pc = .head := by
    apply Decidable.byContradiction
    intro moved
    rw [represents.flagged moved] at free
    contradiction
  refine ⟨congrArg (· ++ [data]) represents.taken, represents.passed, ?_, represents.short,
    fun _ => rfl, ?_⟩
  · show channel.held ++ [data] = _
    rw [represents.held]
    simp only [owed, Owes, eventCb, waiting, free, Bool.false_eq_true, ↓reduceIte,
      List.nil_append, Cells.slice_store_self]
  · simp only [Dumped, eventCb, waiting]

theorem step_follows (signed : Bool) (s : State) (action : Action) (t : State)
    (channel : Channel (List UInt8)) (represents : Represents signed s channel)
    (alone : Alone s action) (taken : step signed s action = some t) :
    ∃ channel', Relation.ReflTransGen Channel.Move channel channel' ∧
      Represents signed t channel' := by
  cases action with
  | rx data =>
      rw [step_rx taken]
      exact ⟨channel.accept [data], .single (.accept _ _), eventCb_follows data represents alone⟩
  | main =>
      obtain ⟨fitting, moved⟩ := step_main taken
      rw [moved]
      exact main_follows represents fitting

/-- Statements main has left before it has printed the line of the packet in hand. -/
def toPrint (s : State) : Nat :=
  match s.pc with
  | .head => 2 * s.len + 3
  | .test k => 2 * (s.len - k) + 2
  | .dump k => 2 * (s.len - k) + 1
  | .print => 1
  | .clear => 0

theorem main_nearer {signed : Bool} {s : State} (dumped : Dumped signed s) (owes : Owes s) :
    toPrint (main signed s) < toPrint s := by
  cases pc : s.pc <;> simp only [Owes, Dumped, pc] at owes dumped
  case head =>
    simp only [toPrint, main, pc, owes, ↓reduceIte]
    omega
  case test k =>
    by_cases more : k < s.len <;> simp only [toPrint, main, pc, more, ↓reduceIte] <;> omega
  case dump k =>
    simp only [toPrint, main, pc]
    omega
  case print => simp only [toPrint, main, pc, Nat.lt_add_one]

/-- main has nothing to print that would overrun `temp`. -/
structure Ready (signed : Bool) (s : State) : Prop where
  represented : ∃ channel, Represents signed s channel
  short : ∀ data ∈ s.received, Short signed data

theorem Ready.fitting {signed : Bool} {s : State} (ready : Ready signed s) :
    Fitting signed s := by
  obtain ⟨channel, represents⟩ := ready.represented
  apply fitting_of_short represents.dumped
  intro data member
  apply ready.short data
  rw [← represents.taken, ← channel.conserved, represents.held]
  exact List.mem_append_right _ member

/-- main on its own prints the line of the packet it has in hand. -/
theorem prints {signed : Bool} {s : State} (ready : Ready signed s) :
    ∃ count t, execute (step signed) s (List.replicate count .main) = some t ∧
      t.printed = t.received.map (listenOnlyLine signed) := by
  have nearer : ∀ s, Ready signed s → ¬¬Owes s →
      ∃ t, step signed s .main = some t ∧ Ready signed t ∧ toPrint t < toPrint s := by
    intro s ready owes
    have fitting := ready.fitting
    obtain ⟨channel, represents⟩ := ready.represented
    obtain ⟨channel', _, followed⟩ := main_follows represents fitting
    refine ⟨main signed s, step_main_of_fitting fitting, ⟨⟨channel', followed⟩, ?_⟩,
      main_nearer represents.dumped (Decidable.not_not.mp owes)⟩
    rw [main_received]
    exact ready.short
  obtain ⟨count, t, reached, ⟨⟨channel, final⟩, _⟩, settled⟩ := repetition_leads_to nearer ready
  refine ⟨count, t, reached, ?_⟩
  have drained : channel.held = [] := by
    rw [final.held]
    simp only [owed, settled, ↓reduceIte]
  rw [← final.passed, ← final.taken, Channel.passed_eq_taken channel drained]

/-- main takes nothing back of what the radio has received. -/
theorem mains_received {signed : Bool} {s t : State} {count : Nat}
    (reached : execute (step signed) s (List.replicate count .main) = some t) :
    t.received = s.received := by
  induction count generalizing s with
  | zero =>
      cases reached
      rfl
  | succ count ih =>
      rw [List.replicate_succ, execute_cons, Option.bind_eq_some_iff] at reached
      obtain ⟨u, taken, reached⟩ := reached
      rw [ih reached, (step_main taken).2, main_received]

/-- Where the line of every packet has been printed, the digits of every packet have fitted. -/
theorem Represents.all_short {signed : Bool} {s : State} {channel : Channel (List UInt8)}
    (represents : Represents signed s channel)
    (complete : s.printed = s.received.map (listenOnlyLine signed)) :
    ∀ data ∈ s.received, Short signed data := by
  have lengths := congrArg List.length complete
  rw [← represents.passed, ← represents.taken, List.length_map, List.length_map,
    ← channel.conserved, List.length_append] at lengths
  have drained : channel.held = [] := List.eq_nil_of_length_eq_zero (by omega)
  rw [← represents.taken, ← Channel.passed_eq_taken channel drained]
  exact represents.short

/-- In a run without an overrun, each packet that arrives while an earlier one is being printed
costs the console exactly one line. Left to itself main comes to have printed the line of every
packet, in order and without an overrun, exactly when there is no such packet and the digits of
every packet fit `temp`. -/
theorem monitor_lossless_iff (signed : Bool) (actions : List Action) (s : State)
    (reached : execute (step signed) start actions = some s) :
    lines s + charge (step signed) clash start actions = s.received.length ∧
      ((∃ count t, execute (step signed) s (List.replicate count .main) = some t ∧
        t.printed = t.received.map (listenOnlyLine signed)) ↔
          Meets (step signed) Alone start actions ∧
            ∀ data ∈ s.received, Short signed data) := by
  have counted : Counted s := invariant_of_step (step_counted signed) start_counted reached
  have clashes := missing_eq_clashes reached
  refine ⟨?_, ?_, ?_⟩
  · rw [← clashes, missing]
    have := counted.2
    omega
  · rintro ⟨count, t, later, complete⟩
    have whole : execute (step signed) start (actions ++ List.replicate count .main) = some t := by
      rw [execute_append_of_execute _ _ reached, later]
    have nothing : missing t = 0 := by
      have lengths := congrArg List.length complete
      rw [List.length_map] at lengths
      simp only [missing, lines]
      omega
    rw [missing_eq_clashes whole, charge_eq_zero_iff clash_eq_zero_iff whole] at nothing
    obtain ⟨channel, _, represents⟩ :=
      simulates (step_follows signed) (start_represents signed) nothing whole
    refine ⟨((meets_append _ _ reached).mp nothing).1, ?_⟩
    rw [← mains_received later]
    exact represents.all_short complete
  · rintro ⟨alone, short⟩
    obtain ⟨channel, _, represents⟩ :=
      simulates (step_follows signed) (start_represents signed) alone reached
    exact prints ⟨⟨channel, represents⟩, short⟩

/-- One packet after the other. -/
def inTurn : List Action :=
  .rx [1, 0xab] :: List.replicate 8 .main ++ [.rx [3], .main, .main]

/-- A packet that arrives while the first byte of another one is printed. -/
def clashing : List Action := [.rx [1, 2], .main, .main, .rx [3], .main]

theorem monitor_lossless_iff_clash :
    (∃ s, execute (step false) start inTurn = some s ∧
      (s.printed.length = 1 ∧ s.received = [[1, 0xab], [3]]) ∧
      ∃ count t, execute (step false) s (List.replicate count .main) = some t ∧
        t.printed = t.received.map (listenOnlyLine false)) ∧
    ∃ s, execute (step false) start clashing = some s ∧
      lines s + charge (step false) clash start clashing = s.received.length ∧
      ¬∃ count t, execute (step false) s (List.replicate count .main) = some t ∧
        t.printed = t.received.map (listenOnlyLine false) :=
  ⟨⟨_, rfl, ⟨rfl, rfl⟩, (monitor_lossless_iff false inTurn _ rfl).2.mpr (by decide)⟩,
    ⟨_, rfl, (monitor_lossless_iff false clashing _ rfl).1,
      fun complete => absurd ((monitor_lossless_iff false clashing _ rfl).2.mp complete).1
        (by decide)⟩⟩

end RiotNyAlesund.ListenOnly
