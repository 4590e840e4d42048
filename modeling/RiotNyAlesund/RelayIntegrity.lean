import RiotNyAlesund.RelayForward

set_option autoImplicit false

namespace RiotNyAlesund.Relay

open Transition

/-- What the driver ends up with when nothing more arrives: the bytes it has read, and the
cells it has still to read. -/
def outgoing (s : State) (length : Nat) (read : List UInt8) : List UInt8 :=
  read ++ Cells.slice s.message read.length (length - read.length)

/-- A packet that arrives while the driver reads another one leaves the bytes still to be
read as they are, or has the captured length and begins with the bytes already read. -/
def Untorn (s : State) : Action → Prop
  | .rx data =>
      match s.pc with
      | .driverSend length read =>
          Cells.slice (Cells.store s.message 0 data) read.length (length - read.length) =
              Cells.slice s.message read.length (length - read.length) ∨
            (data.length = length ∧ data.take read.length = read)
      | _ => True
  | _ => True

/-- The captured length and the bytes read, while the driver is reading. -/
def Pc.reading : Pc → Option (Nat × List UInt8)
  | .driverSend length read => some (length, read)
  | _ => none

instance (s : State) (action : Action) : Decidable (Untorn s action) :=
  match action with
  | .rx data => decidable_of_iff (∀ going ∈ s.pc.reading,
      Cells.slice (Cells.store s.message 0 data) going.2.length (going.1 - going.2.length) =
          Cells.slice s.message going.2.length (going.1 - going.2.length) ∨
        (data.length = going.1 ∧ data.take going.2.length = going.2))
      (by cases pc : s.pc <;> simp [Untorn, Pc.reading, pc])
  | .main | .refuse | .txEnd | .txExpire | .txCallback => isTrue trivial

/-- Every payload handed over is one of the packets received, as a whole. -/
def Genuine (s : State) : Prop := ∀ payload ∈ payloads s, payload ∈ s.received

instance (s : State) : Decidable (Genuine s) := inferInstanceAs (Decidable (∀ _ ∈ _, _))

/-- The packet in `message`, the one being read and those handed over were all received. -/
structure Whole (s : State) : Prop where
  flagged : Flagged s
  held : s.flagMessageRecv = true → Cells.slice s.message 0 s.len ∈ s.received
  going : ∀ length read, s.pc = .driverSend length read →
    read.length ≤ length ∧ outgoing s length read ∈ s.received
  handed : Genuine s

theorem start_whole : Whole start := by
  refine ⟨fun moved => absurd rfl moved, fun set => absurd set Bool.false_ne_true, ?_, ?_⟩
  · intro length read pc
    cases pc
  · intro payload member
    cases member

/-- The next byte goes from the cells still to be read to the bytes already read. -/
theorem outgoing_read (s : State) {length : Nat} {read : List UInt8}
    (more : read.length < length) (pc : Pc) :
    outgoing { s with pc := pc } length (read ++ [s.message read.length]) =
      outgoing s length read := by
  have rest : length - read.length = 1 + (length - (read.length + 1)) := by omega
  simp only [outgoing, List.length_append, List.length_singleton]
  rw [rest, Cells.slice_add, List.append_assoc]
  rfl

theorem outgoing_done (s : State) {length : Nat} {read : List UInt8}
    (done : ¬read.length < length) : outgoing s length read = read := by
  rw [outgoing, Nat.sub_eq_zero_of_le (Nat.le_of_not_lt done), Cells.slice_zero, List.append_nil]

/-- A packet of the captured length that begins with the bytes already read replaces the one
being read. -/
theorem outgoing_replaced {s : State} {length : Nat} {read data : List UInt8}
    (short : read.length ≤ length) (same : data.length = length)
    (begins : data.take read.length = read) :
    outgoing (eventCbRxComplete s data) length read = data := by
  have whole : Cells.slice (Cells.store s.message 0 data) 0 length = data := by
    rw [← same, Cells.slice_store_self]
  have later := Cells.drop_slice (Cells.store s.message 0 data) 0 read.length length short
  rw [whole, Nat.zero_add] at later
  change read ++ Cells.slice (Cells.store s.message 0 data) read.length _ = data
  rw [← later]
  calc read ++ data.drop read.length
      = data.take read.length ++ data.drop read.length := by rw [begins]
    _ = data := List.take_append_drop _ _

/-- An arriving packet spares the one being read, or takes its place as a whole, exactly
when it is no torn one. -/
theorem untorn_iff {s : State} {length : Nat} {read : List UInt8} (data : List UInt8)
    (pc : s.pc = .driverSend length read) (short : read.length ≤ length) :
    Untorn s (.rx data) ↔
      outgoing (eventCbRxComplete s data) length read = outgoing s length read ∨
        outgoing (eventCbRxComplete s data) length read = data := by
  simp only [Untorn, pc]
  constructor
  · rintro (spared | ⟨same, begins⟩)
    · exact Or.inl (congrArg (read ++ ·) spared)
    · exact Or.inr (outgoing_replaced short same begins)
  · rintro (spared | replaced)
    · exact Or.inl (List.append_cancel_left spared)
    · refine Or.inr ⟨?_, ?_⟩
      · rw [← replaced, outgoing, List.length_append, Cells.slice_length]
        omega
      · rw [← replaced, outgoing, List.take_left']
        rfl

theorem eventCbRxComplete_whole {s : State} {data : List UInt8} (whole : Whole s)
    (untorn : Untorn s (.rx data)) : Whole (eventCbRxComplete s data) := by
  have older : ∀ packet ∈ s.received, packet ∈ (eventCbRxComplete s data).received :=
    fun packet member => List.mem_append_left _ member
  have newest : data ∈ (eventCbRxComplete s data).received :=
    List.mem_append_right _ (List.mem_singleton_self data)
  refine ⟨fun _ => rfl, ?_, ?_, ?_⟩
  · intro _
    have stored := Cells.slice_store_self s.message 0 data
    change Cells.slice (Cells.store s.message 0 data) 0 data.length ∈ _
    rw [stored]
    exact newest
  · intro length read (pc : s.pc = .driverSend length read)
    obtain ⟨short, received⟩ := whole.going length read pc
    refine ⟨short, ?_⟩
    rcases (untorn_iff data pc short).mp untorn with spared | replaced
    · rw [spared]
      exact older _ received
    · rw [replaced]
      exact newest
  · intro payload member
    exact older _ (whole.handed payload member)

/-- driver->send returns with a payload that was received. -/
theorem sent_whole {s : State} {length : Nat} {read payload : List UInt8} (accepted : Bool)
    (whole : Whole s) (pc : s.pc = .driverSend length read) (received : payload ∈ s.received) :
    Whole (sent s payload accepted) := by
  have set : s.flagMessageRecv = true := whole.flagged (by rw [pc]; exact Pc.noConfusion)
  refine ⟨fun _ => set, whole.held, fun length read at_ => Pc.noConfusion at_, ?_⟩
  intro sending member
  rw [payloads, sent, List.map_append, List.mem_append] at member
  rcases member with earlier | last
  · exact whole.handed sending earlier
  · rw [List.mem_singleton.mp last]
    exact received

/-- Where main neither begins nor ends a transmission, the packets stay as they are. -/
theorem Whole.stutter {s t : State} (whole : Whole s) (flagged : Flagged t)
    (received : t.received = s.received) (handed : t.handed = s.handed)
    (held : t.flagMessageRecv = true → s.flagMessageRecv = true ∧
      Cells.slice t.message 0 t.len = Cells.slice s.message 0 s.len)
    (away : ∀ length read, t.pc ≠ .driverSend length read) : Whole t := by
  refine ⟨flagged, ?_, fun length read pc => absurd pc (away length read), ?_⟩
  · intro set
    obtain ⟨before, same⟩ := held set
    rw [same, received]
    exact whole.held before
  · intro payload member
    rw [payloads, handed] at member
    rw [received]
    exact whole.handed payload member

/-- main never sets the flag. -/
theorem main_unflagged {s : State} (set : (main s).flagMessageRecv = true) :
    s.flagMessageRecv = true := by
  cases pc : s.pc
  case driverSend length read =>
    by_cases more : read.length < length
    all_goals simpa only [main, sent, pc, more, ↓reduceIte] using set
  case flip =>
    cases direction : s.transmissionDirection
    all_goals simpa only [main, pc, direction] using set
  case clearFlag => simp only [main, pc, Bool.false_eq_true] at set
  all_goals simpa only [main, pc] using set

/-- A transmission begins where its length has been captured. -/
theorem main_away {s : State} (uncaptured : s.pc ≠ .captureLen)
    (away : ∀ length read, s.pc ≠ .driverSend length read) :
    ∀ length read, (main s).pc ≠ .driverSend length read := by
  intro length read
  cases pc : s.pc
  case captureLen => exact absurd pc uncaptured
  case driverSend length read => exact absurd pc (away length read)
  case head | waitTx =>
    simp only [main, pc]
    split <;> exact Pc.noConfusion
  case flip =>
    cases direction : s.transmissionDirection
    all_goals
      simp only [main, pc, direction]
      exact Pc.noConfusion
  all_goals
    simp only [main, pc]
    exact Pc.noConfusion

theorem main_whole {s : State} (whole : Whole s) : Whole (main s) := by
  have flagged := main_flagged whole.flagged
  cases pc : s.pc
  case driverSend length read =>
    obtain ⟨short, received⟩ := whole.going length read pc
    by_cases more : read.length < length
    · simp only [main, pc, more, ↓reduceIte] at flagged ⊢
      refine ⟨flagged, whole.held, ?_, whole.handed⟩
      intro length' read' next
      cases next
      refine ⟨?_, ?_⟩
      · rw [List.length_append, List.length_singleton]
        exact more
      · rw [outgoing_read s more]
        exact received
    · rw [outgoing_done s more] at received
      simp only [main, pc, more, ↓reduceIte]
      exact sent_whole true whole pc received
  case captureLen =>
    have set : s.flagMessageRecv = true := whole.flagged (by rw [pc]; exact Pc.noConfusion)
    simp only [main, pc] at flagged ⊢
    refine ⟨flagged, whole.held, ?_, whole.handed⟩
    intro length read next
    cases next
    exact ⟨Nat.zero_le _, whole.held set⟩
  all_goals
    have away : ∀ length read, s.pc ≠ .driverSend length read := by
      intro length read
      rw [pc]
      exact Pc.noConfusion
    have same := main_samePackets fun length read sending => absurd sending (away length read)
    apply whole.stutter flagged same.received same.handed
    · intro set
      rw [same.message, same.len]
      exact ⟨main_unflagged set, rfl⟩
    · apply main_away _ away
      rw [pc]
      exact Pc.noConfusion

theorem step_whole (s : State) (action : Action) (t : State) (whole : Whole s)
    (untorn : Untorn s action) (taken : step s action = some t) : Whole t := by
  cases action with
  | rx data =>
      cases taken
      exact eventCbRxComplete_whole whole untorn
  | main =>
      cases taken
      exact main_whole whole
  | refuse =>
      obtain ⟨length, pc, rfl⟩ := refuse_eq_sent taken
      exact sent_whole false whole pc (whole.going length [] pc).2
  | txEnd | txExpire | txCallback =>
      obtain ⟨_, _, rfl⟩ := radio_eq (by simp) taken
      exact ⟨whole.flagged, whole.held, whole.going, whole.handed⟩

/-- The radio is handed whole received packets only, in every run where no packet tears the
one that the driver is reading. -/
theorem handed_genuine (actions : List Action) (untorn : Meets step Untorn start actions) :
    Always step Genuine start actions :=
  (always_of_meets step_whole start_whole untorn).mono fun _ => Whole.handed

/-- A packet of the captured length that arrives when the byte it begins with has been read. -/
def replacing : List Action :=
  .rx [1, 2] :: List.replicate 6 .main ++ .rx [1, 3] :: List.replicate 2 .main

theorem handed_genuine_once :
    (execute step start replacing).map payloads = some [[1, 3]] ∧
      Always step Genuine start replacing :=
  ⟨by decide, handed_genuine replacing (by decide)⟩

/-- A packet that arrives between the read of `len` and the reads of the bytes gives the
radio its own bytes with the length, and the last byte, of the packet before it. -/
theorem handed_mixes_packets :
    ¬ ∀ (actions : List Action) (s : State), (∀ action ∈ actions, Completes action) →
      execute step start actions = some s → Genuine s := by
  intro claim
  have genuine := claim (.rx [1, 2] :: List.replicate 5 .main ++ .rx [3] ::
    List.replicate 3 .main) _ (by decide) rfl
  exact absurd genuine (by decide)

end RiotNyAlesund.Relay
