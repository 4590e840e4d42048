import RiotNyAlesund.GpsBaseTick
import RiotNyAlesund.GpsRoverDump

set_option autoImplicit false

/-! Base station and rover working at the same time, over any number of bursts. -/
namespace RiotNyAlesund.Gps.Transfer

open Transition

/-- `air` holds the payloads that the base station's radio has accepted and the rover's has
not received yet. -/
structure System where
  base : Base.State
  air : List (List UInt8)
  rover : Rover.State

/-- `deliver` is the rover's RX_COMPLETE for the oldest payload on its way. -/
inductive Action
  | base (action : Base.Action)
  | deliver
  | rover
  deriving DecidableEq, Repr

def start : System := ⟨Base.start, [], Rover.start⟩

/-- Any access of the station, any statement of the rover's thread, or a delivery. -/
def step (s : System) : Action → Option System
  | .base action =>
      (Base.step s.base action).map fun base =>
        { s with base := base, air := s.air ++ base.sent.drop s.base.sent.length }
  | .deliver =>
      match s.air with
      | [] => none
      | data :: air => some { s with air := air, rover := Rover.eventCb s.rover data }
  | .rover => some { s with rover := Rover.rsrxThread s.rover }

/-- The most bytes that a LoRa packet holds. -/
def maxPayload : Nat := 255

/-- The length of the last piece, inside send_cmd. -/
def lastPiece (b : Base.State) : Nat :=
  match b.pc with
  | .sendTail length _ => length
  | _ => 0

/-- The last piece fits a packet, however much it has grown while the radio was busy. -/
def Packed (b : Base.State) : Base.Action → Prop
  | .main => lastPiece b ≤ maxPayload
  | .uart _ | .busy => True

instance (b : Base.State) (action : Base.Action) : Decidable (Packed b action) :=
  match action with
  | .main => inferInstanceAs (Decidable (lastPiece b ≤ maxPayload))
  | .uart _ | .busy => isTrue trivial

/-- Neither side loses a byte: no UART byte falls into the gaps of a flush and no last piece is
too long for a packet, no packet arrives between the call of stdio_write and the reset of the
rover's count or runs past the rover's buffer, and no dump is longer than its limit. -/
def Faultless (s : System) : Action → Prop
  | .base action => Base.Quiet s.base action ∧ Packed s.base action
  | .deliver =>
      match s.air with
      | [] => True
      | data :: _ =>
          Rover.Lossless s.rover (.packet data) ∧ s.rover.indexin + data.length ≤ bufsize
  | .rover => Rover.Lossless s.rover .thread

instance (s : Rover.State) (action : Rover.Action) : Decidable (Rover.Lossless s action) :=
  match action with
  | .packet data => inferInstanceAs (Decidable (s.pc = .reset → data = []))
  | .thread => inferInstanceAs (Decidable (s.pc = .clamp → s.indexin ≤ Rover.dumpLimit))

instance (s : System) (action : Action) : Decidable (Faultless s action) := by
  unfold Faultless
  split
  · infer_instance
  · split <;> infer_instance
  · infer_instance

/-- Both sides are lossless channels, and the air is one between them that takes packets
only. -/
structure Carries (s : System) (sender receiver : Channel UInt8) : Prop where
  base : Base.Represents s.base sender
  rover : Rover.Represents s.rover receiver
  air : s.base.sent = s.rover.received ++ s.air
  packets : ∀ data ∈ s.air, data.length ≤ maxPayload

theorem Carries.joined {s : System} {sender receiver : Channel UInt8}
    (carries : Carries s sender receiver) :
    sender.passed = receiver.taken ++ s.air.flatten := by
  rw [carries.base.passed, carries.rover.taken, carries.air, List.flatten_append]

/-- Bytes accepted by the station that the rover has not written. -/
def held (s : System) : List UInt8 :=
  Cells.slice s.rover.message 0 (Rover.heldCount s.rover) ++ s.air.flatten ++ Base.pending s.base

theorem Carries.conserved {s : System} {sender receiver : Channel UInt8}
    (carries : Carries s sender receiver) :
    s.rover.written.flatten ++ held s = s.base.accepted := by
  have whole := (sender.series receiver s.air.flatten carries.joined).conserved
  simpa only [Channel.series, held, carries.rover.passed, carries.rover.held, carries.base.held,
    carries.base.taken] using whole

theorem start_carries : Carries start .empty .empty :=
  ⟨Base.start_represents, Rover.start_represents, rfl,
    fun _ member => absurd member List.not_mem_nil⟩

/-- The second state has sent what the first one has, and then packets. -/
def SendsPackets (s t : Base.State) : Prop :=
  ∃ more, t.sent = s.sent ++ more ∧ ∀ data ∈ more, data.length ≤ maxPayload

theorem SendsPackets.of_same {s t : Base.State} (same : t.sent = s.sent) : SendsPackets s t :=
  ⟨[], by rw [same, List.append_nil], fun _ member => absurd member List.not_mem_nil⟩

theorem SendsPackets.of_one {s t : Base.State} {data : List UInt8}
    (sent : t.sent = s.sent ++ [data]) (short : data.length ≤ maxPayload) : SendsPackets s t :=
  ⟨[data], sent, by rwa [List.forall_mem_singleton]⟩

theorem main_sends {b : Base.State} (read : Base.Read b) (packed : Packed b .main) :
    SendsPackets b (Base.main b) := by
  cases pc : b.pc <;> simp only [Base.Read, Packed, lastPiece, pc] at read packed
  case sendFull bytes =>
    by_cases more : bytes.length < Base.sx127xLoraMsgQueue
    · exact .of_same (by simp only [Base.main, pc, more, ↓reduceIte])
    · have queue : Base.sx127xLoraMsgQueue ≤ maxPayload := by decide
      have sent : (Base.main b).sent = b.sent ++ [bytes] := by
        simp only [Base.main, pc, more, ↓reduceIte]
      exact .of_one sent (by omega)
  case sendTail length bytes =>
    by_cases more : bytes.length < length
    · exact .of_same (by simp only [Base.main, pc, more, ↓reduceIte])
    · have sent : (Base.main b).sent = b.sent ++ [bytes] := by
        simp only [Base.main, pc, more, ↓reduceIte]
      exact .of_one sent (by omega)
  all_goals exact .of_same (by simp only [Base.main, pc])

/-- A step of the station takes nothing back of what it has sent. -/
theorem base_sends {s t : Base.State} {action : Base.Action} (read : Base.Read s)
    (packed : Packed s action) (taken : Base.step s action = some t) : SendsPackets s t := by
  cases action with
  | uart val =>
      cases taken
      apply SendsPackets.of_same
      unfold Base.rstxThread
      split <;> rfl
  | main =>
      cases taken
      exact main_sends read packed
  | busy =>
      obtain ⟨_, rfl⟩ | ⟨_, _, rfl⟩ := Base.busy_eq taken <;> exact .of_same rfl

theorem base_carries {s t : System} {action : Base.Action} {sender receiver : Channel UInt8}
    (carries : Carries s sender receiver) (quiet : Base.Quiet s.base action)
    (packed : Packed s.base action) (taken : step s (.base action) = some t) :
    ∃ sender' receiver', Carries t sender' receiver' := by
  simp only [step, Option.map_eq_some_iff] at taken
  obtain ⟨base, moved, rfl⟩ := taken
  obtain ⟨sender', _, represents⟩ :=
    Base.step_follows s.base action base sender carries.base quiet moved
  obtain ⟨more, grown, short⟩ := base_sends carries.base.read packed moved
  have behind : base.sent.drop s.base.sent.length = more := by rw [grown, List.drop_left]
  refine ⟨sender', receiver, represents, carries.rover, ?_, ?_⟩
  · show base.sent = s.rover.received ++ (s.air ++ base.sent.drop s.base.sent.length)
    rw [behind, grown, ← List.append_assoc, ← carries.air]
  · show ∀ data ∈ s.air ++ base.sent.drop s.base.sent.length, data.length ≤ maxPayload
    rw [behind, List.forall_mem_append]
    exact ⟨carries.packets, short⟩

theorem step_carries (s : System) (action : Action) (t : System)
    (carries : ∃ sender receiver, Carries s sender receiver) (faultless : Faultless s action)
    (taken : step s action = some t) : ∃ sender receiver, Carries t sender receiver := by
  obtain ⟨sender, receiver, carries⟩ := carries
  cases action with
  | base action => exact base_carries carries faultless.1 faultless.2 taken
  | deliver =>
      have packets := carries.packets
      cases air : s.air with
      | nil =>
          simp only [step, air] at taken
          cases taken
      | cons data rest =>
          simp only [step, air] at taken
          simp only [Faultless, air] at faultless
          rw [air, List.forall_mem_cons] at packets
          cases taken
          obtain ⟨receiver', _, represents⟩ :=
            Rover.eventCb_follows data carries.rover faultless.1
          refine ⟨sender, receiver', carries.base, represents, ?_, packets.2⟩
          show s.base.sent = s.rover.received ++ [data] ++ rest
          rw [carries.air, air, List.append_assoc, List.singleton_append]
  | rover =>
      cases taken
      obtain ⟨receiver', _, represents⟩ := Rover.rsrxThread_follows carries.rover faultless
      refine ⟨sender, receiver', carries.base, represents, ?_, carries.packets⟩
      show s.base.sent = (Rover.rsrxThread s.rover).received ++ s.air
      rw [Rover.rsrxThread_received, carries.air]

/-- Statements of the rover's thread before its buffer is empty, when nothing arrives. -/
def toDrain (r : Rover.State) : Nat :=
  match r.pc with
  | .asleep => if r.indexin = 0 then 0 else if r.oldindexin = r.indexin then 6 else 10
  | .testReceived => if r.indexin = 0 then 1 else if r.oldindexin = r.indexin then 5 else 9
  | .compare => if r.oldindexin = r.indexin then 4 else 8
  | .record => 7
  | .clamp => 3
  | .write => 2
  | .reset => 1

/-- The rover's thread sleeps with nothing counted. -/
def Drained (r : Rover.State) : Prop := r.pc = .asleep ∧ r.indexin = 0

theorem rsrxThread_nearer {r : Rover.State} (going : ¬Drained r) :
    toDrain (Rover.rsrxThread r) < toDrain r := by
  cases pc : r.pc
  case asleep =>
    have counted : ¬r.indexin = 0 := fun none => going ⟨pc, none⟩
    by_cases silent : r.oldindexin = r.indexin
    · simp [toDrain, Rover.rsrxThread, pc, silent, counted]
    · simp [toDrain, Rover.rsrxThread, pc, silent, counted]
  case testReceived =>
    by_cases none : r.indexin = 0
    · simp [toDrain, Rover.rsrxThread, pc, none]
    · have arrived : 0 < r.indexin := by omega
      by_cases silent : r.oldindexin = r.indexin <;>
        simp [toDrain, Rover.rsrxThread, pc, none, arrived, silent]
  case compare =>
    by_cases silent : r.oldindexin = r.indexin <;>
      simp [toDrain, Rover.rsrxThread, pc, silent]
  case record =>
    by_cases none : r.indexin = 0 <;> simp [toDrain, Rover.rsrxThread, pc, none]
  all_goals simp [toDrain, Rover.rsrxThread, pc]

/-- The thread counts nothing that has not been received. -/
theorem rsrxThread_heldCount_le (r : Rover.State) :
    Rover.heldCount (Rover.rsrxThread r) ≤ Rover.heldCount r := by
  by_cases writes : r.pc = .write
  · simp only [Rover.heldCount, Rover.rsrxThread, writes, Nat.zero_le]
  · by_cases clamps : r.pc = .clamp
    · simp only [Rover.heldCount, Rover.rsrxThread, clamps]
      split <;> omega
    · exact Nat.le_of_eq (Rover.rsrxThread_heldCount writes clamps)

/-- What the rover counts fits one dump, and the other side is as it was in `s`. -/
structure Short (s t : System) : Prop where
  fits : Rover.heldCount t.rover ≤ Rover.dumpLimit
  base : t.base = s.base
  air : t.air = s.air

theorem Short.lossless {s t : System} (short : Short s t) : Faultless t .rover := by
  intro clamps
  have fits := short.fits
  simpa only [Rover.heldCount, clamps] using fits

theorem rover_short {s t : System} (short : Short s t) :
    Short s { t with rover := Rover.rsrxThread t.rover } :=
  ⟨Nat.le_trans (rsrxThread_heldCount_le t.rover) short.fits, short.base, short.air⟩

/-- A continuation in which no UART byte arrives and nothing is forgotten. -/
structure Continues (s t : System) (rest : List Action) : Prop where
  silent : ∀ val, .base (.uart val) ∉ rest
  faultless : Meets step Faultless s rest
  reached : execute step s rest = some t

theorem Continues.append {s t u : System} {first second : List Action}
    (before : Continues s t first) (after : Continues t u second) :
    Continues s u (first ++ second) where
  silent val member := by
    rcases List.mem_append.mp member with earlier | later
    · exact before.silent val earlier
    · exact after.silent val later
  faultless := (meets_append step second before.reached).mpr ⟨before.faultless, after.faultless⟩
  reached := by rw [execute_append_of_execute step _ before.reached, after.reached]

/-- The rover on its own writes all that it counts, if one dump holds it. -/
theorem rover_drains {s : System} (fits : Rover.heldCount s.rover ≤ Rover.dumpLimit) :
    ∃ rest t, Continues s t rest ∧ t.base = s.base ∧ t.air = s.air ∧ Drained t.rover := by
  have nearer : ∀ t, Short s t → ¬Drained t.rover → ∃ u, step t .rover = some u ∧ Short s u ∧
      toDrain u.rover < toDrain t.rover := fun t short going =>
    ⟨_, rfl, rover_short short, rsrxThread_nearer going⟩
  have initial : Short s s := ⟨fits, rfl, rfl⟩
  obtain ⟨count, t, reached, short, drained⟩ := repetition_leads_to nearer initial
  have own : ∀ action ∈ List.replicate count Action.rover, action = .rover :=
    fun action member => List.eq_of_mem_replicate member
  have faultless : Meets step Faultless s (List.replicate count .rover) := by
    apply meets_of_invariant _ _ initial own
    · rintro t action u short rfl taken
      cases taken
      exact rover_short short
    · rintro t action short rfl
      exact short.lossless
  refine ⟨_, t, ⟨?_, faultless, reached⟩, short.base, short.air, drained⟩
  intro val member
  cases own _ member

theorem deliver_continues {s : System} {data : List UInt8} {air : List (List UInt8)}
    (front : s.air = data :: air) (short : data.length ≤ maxPayload) (drained : Drained s.rover) :
    Continues s { s with air := air, rover := Rover.eventCb s.rover data } [.deliver] := by
  have taken : step s .deliver =
      some { s with air := air, rover := Rover.eventCb s.rover data } := by
    simp only [step, front]
  refine ⟨fun val member => by simp at member, ?_, ?_⟩
  · rw [meets_cons_of_step step [] taken]
    refine ⟨?_, trivial⟩
    have room : maxPayload ≤ bufsize := by decide
    simp only [Faultless, front, Rover.Lossless, drained.1, drained.2, reduceCtorEq,
      false_implies, Nat.zero_add, true_and]
    omega
  · rw [execute_cons_of_step step [] taken]
    rfl

/-- Packet by packet, the rover writes all that is on its way. -/
theorem air_drains {s : System} (fits : Rover.heldCount s.rover ≤ Rover.dumpLimit)
    (packets : ∀ data ∈ s.air, data.length ≤ maxPayload) :
    ∃ rest t, Continues s t rest ∧ t.base = s.base ∧ t.air = [] ∧ Drained t.rover := by
  induction flight : s.air generalizing s with
  | nil =>
      obtain ⟨rest, t, continues, base, air, drained⟩ := rover_drains fits
      exact ⟨rest, t, continues, base, air.trans flight, drained⟩
  | cons data air ih =>
      obtain ⟨rest, t, continues, base, same, drained⟩ := rover_drains fits
      rw [flight, List.forall_mem_cons] at packets
      have delivered := deliver_continues (same.trans flight) packets.1 drained
      have counted : Rover.heldCount (Rover.eventCb t.rover data) = data.length := by
        simp only [Rover.heldCount, Rover.eventCb, drained.1, drained.2, Nat.zero_add]
      have limit : maxPayload ≤ Rover.dumpLimit := by decide
      obtain ⟨more, u, later, base', empty, drained'⟩ :=
        ih (s := { t with air := air, rover := Rover.eventCb t.rover data })
          (by rw [counted]; exact Nat.le_trans packets.1 limit) packets.2 rfl
      exact ⟨_, u, (continues.append delivered).append later, base'.trans base, empty, drained'⟩

/-- Outside a flush, or in one that nothing has disturbed. -/
structure Calm (b : Base.State) : Prop where
  bounded : b.compteurin ≤ bufsize
  flushing : Base.InFlush b → Base.Flushing b
  tested : b.pc = .testSilence → 0 < b.compteurin

theorem Calm.quiet {b : Base.State} (calm : Calm b) : Base.Quiet b .main := by
  by_cases inside : Base.InFlush b
  · exact Base.quiet_of_flushing b .main (calm.flushing inside) trivial
  · cases pc : b.pc <;> simp only [Base.InFlush, pc, not_true_eq_false] at inside
    all_goals simp only [Base.Quiet, pc]

/-- The last piece of such a flush is less than a full one. -/
theorem Calm.packed {b : Base.State} (calm : Calm b) : Packed b .main := by
  cases pc : b.pc <;> simp only [Packed, lastPiece, pc, Nat.zero_le]
  case sendTail length read =>
    have knows := (calm.flushing (by simp only [Base.InFlush, pc])).knows
    have queue : Base.sx127xLoraMsgQueue ≤ maxPayload := by decide
    simp only [Base.Knows, pc] at knows
    omega

/-- A flush ends in sleep. -/
theorem main_leaves {b : Base.State} (inside : Base.InFlush b)
    (outside : ¬Base.InFlush (Base.main b)) : (Base.main b).pc = .asleep := by
  cases pc : b.pc <;> simp only [Base.InFlush, pc] at inside
  case testMore =>
    by_cases more : 0 < b.compteurin <;> simp_all [Base.main, Base.InFlush]
  case testFull =>
    by_cases full : Base.sx127xLoraMsgQueue ≤ b.compteurin <;> simp_all [Base.main, Base.InFlush]
  case sendFull read =>
    by_cases more : read.length < Base.sx127xLoraMsgQueue <;> simp_all [Base.main, Base.InFlush]
  case sendTail length read =>
    by_cases more : read.length < length <;> simp_all [Base.main, Base.InFlush]
  all_goals simp_all [Base.main, Base.InFlush]

theorem main_calm {b : Base.State} (calm : Calm b) : Calm (Base.main b) := by
  by_cases inside : Base.InFlush b
  · have flushing := (Base.main_flushing (calm.flushing inside)).1
    refine ⟨flushing.bounded, fun _ => flushing, fun tested => ?_⟩
    have knows := flushing.knows
    simp only [Base.Knows, tested] at knows
  · have bounded := calm.bounded
    have tested := calm.tested
    cases pc : b.pc <;> simp only [Base.InFlush, pc, not_true_eq_false] at inside
    case testReceived =>
      by_cases arrived : 0 < b.compteurin
      all_goals
        constructor
        all_goals simp [Base.main, Base.InFlush, pc, arrived, bounded]
    case testSilence =>
      have positive := tested pc
      by_cases silent : b.compteurin = b.oldcompteurin
      · constructor
        all_goals simp only [Base.main, pc, silent, ↓reduceIte, reduceCtorEq, false_implies]
        · omega
        · intro _
          rw [silent] at positive bounded
          exact ⟨positive, bounded⟩
      · constructor
        all_goals simp [Base.main, Base.InFlush, pc, silent, bounded]
    all_goals
      constructor
      all_goals simp [Base.main, Base.InFlush, pc, bounded]

/-- Accesses main has left before everything is sent, when nothing arrives. -/
def toSend (b : Base.State) : Nat :=
  if Base.InFlush b then Base.work b
  else
    match b.pc with
    | .asleep =>
        if b.compteurin = 0 then 0
        else if b.compteurin = b.oldcompteurin then 100 * b.compteurin + 96
        else 100 * b.compteurin + 100
    | .testReceived =>
        if b.compteurin = 0 then 1
        else if b.compteurin = b.oldcompteurin then 100 * b.compteurin + 95
        else 100 * b.compteurin + 99
    | .testSilence =>
        if b.compteurin = b.oldcompteurin then 100 * b.compteurin + 94
        else 100 * b.compteurin + 98
    | _ => 100 * b.compteurin + 97

/-- main sleeps with nothing counted. -/
def Emptied (b : Base.State) : Prop := b.pc = .asleep ∧ b.compteurin = 0

theorem main_toSend {b : Base.State} (calm : Calm b) (going : ¬Emptied b) :
    toSend (Base.main b) < toSend b := by
  by_cases inside : Base.InFlush b
  · obtain ⟨flushing, less⟩ := Base.main_flushing (calm.flushing inside)
    have nearer := less inside
    by_cases later : Base.InFlush (Base.main b)
    · simpa only [toSend, inside, later, ↓reduceIte] using nearer
    · have asleep := main_leaves inside later
      have none := (flushing.emptied later).1
      simp only [toSend, inside, later, asleep, none, ↓reduceIte]
      omega
  · have tested := calm.tested
    cases pc : b.pc <;> simp only [Base.InFlush, pc, not_true_eq_false] at inside
    case asleep =>
      have counted : ¬b.compteurin = 0 := fun none => going ⟨pc, none⟩
      by_cases silent : b.compteurin = b.oldcompteurin
      · rw [silent] at counted
        simp [toSend, Base.main, Base.InFlush, pc, counted, silent]
      · simp [toSend, Base.main, Base.InFlush, pc, counted, silent]
    case testReceived =>
      by_cases none : b.compteurin = 0
      · simp [toSend, Base.main, Base.InFlush, pc, none]
      · have arrived : 0 < b.compteurin := by omega
        by_cases silent : b.compteurin = b.oldcompteurin
        · rw [silent] at none arrived
          simp [toSend, Base.main, Base.InFlush, pc, none, arrived, silent]
        · simp [toSend, Base.main, Base.InFlush, pc, none, arrived, silent]
    case testSilence =>
      by_cases silent : b.compteurin = b.oldcompteurin <;>
        simp [toSend, Base.main, Base.InFlush, Base.work, pc, silent]
    case record =>
      by_cases none : b.compteurin = 0 <;>
        simp [toSend, Base.main, Base.InFlush, pc, none]

/-- The station sends what it holds in `s`, and the rover does nothing. -/
structure Sends (s t : System) : Prop where
  calm : Calm t.base
  accepted : t.base.accepted = s.base.accepted
  rover : t.rover = s.rover

/-- The system after an access of main. -/
def baseMain (s : System) : System :=
  { s with
    base := Base.main s.base
    air := s.air ++ (Base.main s.base).sent.drop s.base.sent.length }

theorem baseMain_sends {s t : System} (sends : Sends s t) : Sends s (baseMain t) :=
  ⟨main_calm sends.calm, (Base.main_accepted t.base).trans sends.accepted, sends.rover⟩

/-- The station on its own sends all that it holds. -/
theorem base_drains {s : System} (calm : Calm s.base) :
    ∃ rest t, Continues s t rest ∧ t.base.accepted = s.base.accepted ∧ t.rover = s.rover ∧
      Emptied t.base := by
  have nearer : ∀ t, Sends s t → ¬Emptied t.base → ∃ u, step t (.base .main) = some u ∧
      Sends s u ∧ toSend u.base < toSend t.base := fun t sends going =>
    ⟨baseMain t, rfl, baseMain_sends sends, main_toSend sends.calm going⟩
  have initial : Sends s s := ⟨calm, rfl, rfl⟩
  obtain ⟨count, t, reached, sends, emptied⟩ := repetition_leads_to nearer initial
  have own : ∀ action ∈ List.replicate count (Action.base .main), action = .base .main :=
    fun action member => List.eq_of_mem_replicate member
  have faultless : Meets step Faultless s (List.replicate count (.base .main)) := by
    apply meets_of_invariant _ _ initial own
    · rintro t action u sends rfl taken
      cases taken
      exact baseMain_sends sends
    · rintro t action sends rfl
      exact ⟨sends.calm.quiet, sends.calm.packed⟩
  refine ⟨_, t, ⟨?_, faultless, reached⟩, sends.accepted, sends.rover, emptied⟩
  intro val member
  cases own _ member

/-- main compares the counts only after it has seen that bytes were received. -/
def Tested (b : Base.State) : Prop := b.pc = .testSilence → 0 < b.compteurin

theorem base_tested {b c : Base.State} {action : Base.Action} (tested : Tested b)
    (taken : Base.step b action = some c) : Tested c := by
  cases action with
  | uart val =>
      cases taken
      unfold Base.rstxThread
      split
      · exact fun _ => Nat.succ_pos _
      · exact tested
  | main =>
      cases taken
      unfold Tested
      cases pc : b.pc
      case testReceived =>
        by_cases arrived : 0 < b.compteurin <;> simp [Base.main, pc, arrived]
      case testSilence =>
        by_cases silent : b.compteurin = b.oldcompteurin <;> simp [Base.main, pc, silent]
      case testFull =>
        by_cases full : Base.sx127xLoraMsgQueue ≤ b.compteurin <;> simp [Base.main, pc, full]
      case sendFull read =>
        by_cases more : read.length < Base.sx127xLoraMsgQueue <;> simp [Base.main, pc, more]
      case sendTail length read =>
        by_cases more : read.length < length <;> simp [Base.main, pc, more]
      case testMore => by_cases more : 0 < b.compteurin <;> simp [Base.main, pc, more]
      all_goals simp [Base.main, pc]
  | busy =>
      obtain ⟨_, rfl⟩ | ⟨_, _, rfl⟩ := Base.busy_eq taken
      · exact tested
      · intro moved
        cases moved

theorem step_tested (s : System) (action : Action) (t : System) (tested : Tested s.base)
    (taken : step s action = some t) : Tested t.base := by
  cases action with
  | base action =>
      simp only [step, Option.map_eq_some_iff] at taken
      obtain ⟨base, moved, rfl⟩ := taken
      exact base_tested tested moved
  | deliver =>
      simp only [step] at taken
      split at taken
      · cases taken
      · cases taken
        exact tested
  | rover =>
      cases taken
      exact tested

theorem run_tested {actions : List Action} {s : System}
    (reached : execute step start actions = some s) : Tested s.base := by
  have initial : Tested start.base := by
    intro moved
    cases moved
  exact invariant_of_step step_tested initial reached

/-- Where nothing is lost, what the rover has written and what is on its way make up what the
station has accepted, over any number of bursts and whatever the three do at the same time.
Outside a flush, and with no more than one dump to write, the rover can come to write all of it
once no UART byte arrives any more. -/
theorem transfer_complete (actions : List Action) (s : System)
    (reached : execute step start actions = some s)
    (faultless : Meets step Faultless start actions) :
    s.rover.written.flatten ++ held s = s.base.accepted ∧
      (¬Base.InFlush s.base → Rover.heldCount s.rover ≤ Rover.dumpLimit →
        ∃ rest t, Continues s t rest ∧ t.rover.written.flatten = s.base.accepted) := by
  obtain ⟨sender, receiver, carries⟩ :=
    invariant step_carries ⟨_, _, start_carries⟩ faultless reached
  refine ⟨carries.conserved, fun outside fits => ?_⟩
  have calm : Calm s.base := ⟨carries.base.bounded, fun inside => absurd inside outside,
    run_tested reached⟩
  obtain ⟨first, t, sent, accepted, rover, emptied⟩ := base_drains calm
  obtain ⟨_, _, between⟩ :=
    invariant step_carries ⟨sender, receiver, carries⟩ sent.faultless sent.reached
  obtain ⟨second, u, drained, base, empty, dry⟩ :=
    air_drains (by rw [rover]; exact fits) between.packets
  have whole := sent.append drained
  refine ⟨_, u, whole, ?_⟩
  obtain ⟨_, _, carries'⟩ :=
    invariant step_carries ⟨sender, receiver, carries⟩ whole.faultless whole.reached
  have nothing : held u = [] := by
    simp only [held, Rover.heldCount, Base.pending, Base.pendingCount, dry.1, dry.2, empty, base,
      emptied.1, emptied.2, Cells.slice_zero, List.flatten_nil, List.append_nil]
  have conserved := carries'.conserved
  rw [nothing, List.append_nil, base, accepted] at conserved
  exact conserved

/-- A byte that waits in the station while another one is on its way to the rover. -/
def overlapping : List Action :=
  .base (.uart 7) :: List.replicate 15 (.base .main) ++ [.base (.uart 8), .rover, .deliver, .rover]

theorem transfer_complete_overlapping :
    ∃ s, execute step start overlapping = some s ∧
      s.rover.written.flatten ++ held s = s.base.accepted ∧
      ∃ rest t, Continues s t rest ∧ t.rover.written.flatten = [7, 8] :=
  ⟨_, rfl, (transfer_complete overlapping _ rfl (by decide)).1,
    (transfer_complete overlapping _ rfl (by decide)).2 (by decide) (by decide)⟩

end RiotNyAlesund.Gps.Transfer
