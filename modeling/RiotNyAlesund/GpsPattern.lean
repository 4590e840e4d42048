import RiotNyAlesund.GpsBaseRuns
import RiotNyAlesund.GpsLink

set_option autoImplicit false

/- The test pattern of lora_GPS/application/send115200.c, sent over a radio that loses
packets. -/
namespace RiotNyAlesund.Gps.Pattern

open Transition

/-- N. -/
def n : Nat := 500

/-- t[k]. -/
def t (k : Nat) : UInt8 := (UInt8.ofNat k &&& 0x3f) + 33

/-- What one write of main sends. -/
def written : List UInt8 := Cells.slice t 0 n

/-- The pattern repeats after as many bytes as the station puts into a full packet. -/
theorem t_periodic (k : Nat) : t (k + Base.sx127xLoraMsgQueue) = t k := by
  have masked : ∀ index : Nat, (UInt8.ofNat index &&& 0x3f).toNat = index % 64 := by
    intro index
    have mask : (0x3f : UInt8).toNat = 2 ^ 6 - 1 := rfl
    rw [UInt8.toNat_and, mask, Nat.and_two_pow_sub_one_eq_mod, UInt8.toNat_ofNat']
    omega
  have same : UInt8.ofNat (k + 64) &&& 0x3f = UInt8.ofNat k &&& 0x3f := by
    apply UInt8.toNat_inj.mp
    rw [masked, masked]
    omega
  exact congrArg (· + 33) same

/-- A buffer that begins with the pattern repeats with it. -/
theorem stored_periodic {s : Base.State} (stored : Base.Stored s written) :
    Cells.Periodic s.message Base.sx127xLoraMsgQueue written.length := by
  have cells : ∀ index, index < n → s.message index = t index := by
    intro index inside
    have bytes := stored.bytes
    simp only [written, Cells.slice_length] at bytes
    have item := congrArg (fun items => items[index]?) bytes
    simpa [Cells.slice, inside] using item
  intro index inside
  rw [written, Cells.slice_length] at inside
  rw [cells _ inside, cells _ (by omega)]
  exact t_periodic index

/-- The rover has room for one write of the pattern in one dump. -/
theorem output_eq {r : Rover.State} {events : List Rover.Event} (ready : Link.Ready r)
    (short : (Rover.packets events).flatten.length ≤ n) :
    (Rover.run r (events ++ [.wakeup, .wakeup])).written.flatten =
      (Rover.packets events).flatten := by
  have exact := Rover.written_eq_iff_intact (events ++ [.wakeup, .wakeup]) ready.empty
    ready.written ready.received (Link.drained r events)
  rw [Link.packets_wakeups] at exact
  apply exact.mpr
  apply Rover.intact_of_volume
  have limit : n ≤ Rover.dumpLimit := by decide
  rw [ready.empty, Rover.volume, Link.packets_wakeups]
  omega

/-- Whichever packets of one write of the pattern, flushed as one undisturbed burst, are lost on
the way to an empty rover that wakes up twice after them, the rover's output is a front part of
the pattern: its content never tells that packets are missing, nor which. Only its length tells
whether any are. -/
theorem losses_hidden (s final : Base.State) (r : Rover.State) (actions : List Base.Action)
    (events : List Rover.Event) (stored : Base.Stored s written)
    (undisturbed : ∀ action ∈ actions, Base.Undisturbed action)
    (reached : execute Base.step s actions = some final) (outside : ¬Base.InFlush final)
    (ready : Link.Ready r) (lossy : (Rover.packets events).Sublist final.sent) :
    ∃ length ≤ n, (Rover.run r (events ++ [.wakeup, .wakeup])).written.flatten =
        written.take length ∧
      (length = n ↔ Rover.packets events = final.sent) := by
  have counted : s.compteurin = n := by
    rw [stored.counted, written, Cells.slice_length]
  have bounded : s.compteurin ≤ bufsize := by
    rw [counted]
    decide
  have positive : 0 < s.compteurin := by
    rw [counted]
    decide
  have queue : 0 < Base.sx127xLoraMsgQueue := by decide
  have met := meets_of_forall Base.step s undisturbed
  have going := invariant Base.step_going (Base.start_going stored.flushing positive bounded)
    met reached
  have sent := going.ended outside |>.1
  rw [stored.sent, List.nil_append, counted] at sent
  have periodic := stored_periodic stored
  rw [written, Cells.slice_length] at periodic
  rw [sent] at lossy
  obtain ⟨front, short⟩ := periodic.sublist_pieces queue lossy
  have bytes := stored.bytes
  rw [written, Cells.slice_length, ← written] at bytes
  have total : (Cells.pieces s.message Base.sx127xLoraMsgQueue n).flatten.length = n := by
    rw [Cells.flatten_pieces _ queue, Cells.slice_length]
  refine ⟨(Rover.packets events).flatten.length, short, ?_, ?_, ?_⟩
  · rw [output_eq ready short, front, Cells.slice_length, ← bytes, Cells.take_slice _ _ _ _ short]
  · intro complete
    rw [sent]
    exact Cells.eq_of_sublist lossy (fun piece member => (Cells.length_of_mem_pieces member).1)
      (by omega)
  · intro all
    rw [all, sent, total]

/-- The rover receives the last two packets only. -/
theorem losses_hidden_once :
    ∃ final, (∃ count, execute Base.step (Link.flushStart written)
        (List.replicate count .main) = some final) ∧
      ∃ length ≤ n, (Rover.run Rover.start ((final.sent.drop 6).map .packet ++
          [.wakeup, .wakeup])).written.flatten = written.take length ∧
        (length = n ↔ Rover.packets ((final.sent.drop 6).map .packet) = final.sent) := by
  have stored : Base.Stored (Link.flushStart written) written :=
    Link.flushStart_stored written (by rw [written, Cells.slice_length]; decide)
      (by rw [written, Cells.slice_length]; decide)
  obtain ⟨count, final, reached, outside⟩ := Base.flush_ends stored.flushingState
  have alone := Base.mains_undisturbed count
  obtain ⟨length, short, front, whole⟩ := losses_hidden _ final Rover.start _
    ((final.sent.drop 6).map .packet) stored alone reached outside Link.start_ready (by
      rw [Link.packets_map]
      exact List.drop_sublist 6 final.sent)
  exact ⟨final, ⟨count, reached⟩, length, short, front, whole⟩

end RiotNyAlesund.Gps.Pattern
