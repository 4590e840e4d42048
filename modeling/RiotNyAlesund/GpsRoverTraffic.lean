import RiotNyAlesund.GpsRoverTick
import Mathlib.Data.List.Induction

set_option autoImplicit false

namespace RiotNyAlesund.Gps.Rover

open Transition

/-- The packet is copied inside `message`. -/
def Fits (s : State) : Event → Prop
  | .packet data => s.indexin + data.length ≤ bufsize
  | .wakeup => True

instance (s : State) (event : Event) : Decidable (Fits s event) := by
  unfold Fits
  split <;> infer_instance

/-- The event is not a wake-up that dumps the buffer. -/
def NoDump (s : State) : Event → Prop
  | .packet _ => True
  | .wakeup => ¬Silent s

/-- Between two dumps the counter grows by every byte received. -/
theorem run_noDump (s : State) (stretch : List Event)
    (quiet : Meets tickStep NoDump s stretch) :
    (run s stretch).indexin = s.indexin + volume stretch := by
  induction stretch generalizing s with
  | nil => rfl
  | cons event rest ih =>
      obtain ⟨here, later⟩ := quiet (tick s event) rfl
      have tail := ih (tick s event) later
      rw [← List.singleton_append, volume_append, run_append]
      change (run (tick s event) rest).indexin = _
      rw [tail]
      cases event with
      | packet data =>
          rw [volume_packet]
          exact Nat.add_assoc _ _ _
      | wakeup =>
          rw [volume_wakeup]
          change (wakeup s).indexin + volume rest = _
          rw [wakeup_noDump here]
          omega

/-- At any time the counter is the volume of a stretch without a dump. -/
theorem last_stretch (events : List Event) :
    ∃ before stretch, events = before ++ stretch ∧
      Meets tickStep NoDump (run start before) stretch ∧
      volume stretch = (run start events).indexin := by
  induction events using List.reverseRecOn with
  | nil => exact ⟨[], [], rfl, trivial, rfl⟩
  | append_singleton events event ih =>
      obtain ⟨before, stretch, rfl, quiet, total⟩ := ih
      by_cases dump : NoDump (run start (before ++ stretch)) event
      · have extended : Meets tickStep NoDump (run start before) (stretch ++ [event]) := by
          rw [meets_tick_append, meets_tick_singleton, ← run_append]
          exact ⟨quiet, dump⟩
        refine ⟨before, stretch ++ [event], List.append_assoc _ _ _, extended, ?_⟩
        have grown := run_noDump (run start before) (stretch ++ [event]) extended
        have held := run_noDump (run start before) stretch quiet
        rw [← run_append] at grown held
        rw [List.append_assoc, grown]
        omega
      · cases event with
        | packet data => exact absurd trivial dump
        | wakeup =>
            refine ⟨before ++ stretch ++ [.wakeup], [], (List.append_nil _).symm, trivial, ?_⟩
            rw [run_append]
            exact (wakeup_dump (Decidable.not_not.mp dump)).symm

theorem fits_bounded {s : State} {events : List Event} (bounded : s.indexin ≤ bufsize)
    (fits : Meets tickStep Fits s events) : (run s events).indexin ≤ bufsize := by
  have keeps : ∀ (s : State) (event : Event) (t : State), s.indexin ≤ bufsize →
      Fits s event → tickStep s event = some t → t.indexin ≤ bufsize := by
    intro s event t bounded here taken
    cases taken
    cases event with
    | packet data => exact here
    | wakeup => exact Nat.le_trans (wakeup_indexin_le s) bounded
  exact invariant keeps bounded fits (execute_tickStep s events)

/-- Every packet lands inside `message` exactly when no stretch of events without a dump
brings more than BUFSIZE bytes. -/
theorem fits_iff_volume (events : List Event) :
    Meets tickStep Fits start events ↔
      ∀ before stretch after, events = before ++ stretch ++ after →
        Meets tickStep NoDump (run start before) stretch → volume stretch ≤ bufsize := by
  constructor
  · rintro fits before stretch after rfl quiet
    rw [meets_tick_append] at fits
    have bounded := fits_bounded (Nat.zero_le _) fits.1
    have grown := run_noDump (run start before) stretch quiet
    rw [← run_append] at grown
    omega
  · intro limited
    induction events using List.reverseRecOn with
    | nil => trivial
    | append_singleton events event ih =>
        have earlier : Meets tickStep Fits start events := by
          apply ih
          rintro before stretch after rfl quiet
          exact limited before stretch (after ++ [event]) (List.append_assoc _ _ _) quiet
        rw [meets_tick_append, meets_tick_singleton]
        refine ⟨earlier, ?_⟩
        cases event with
        | wakeup => trivial
        | packet data =>
            obtain ⟨before, stretch, rfl, quiet, total⟩ := last_stretch events
            have extended : Meets tickStep NoDump (run start before)
                (stretch ++ [.packet data]) := by
              rw [meets_tick_append, meets_tick_singleton]
              exact ⟨quiet, trivial⟩
            have limit := limited before (stretch ++ [.packet data]) []
              (by simp only [List.append_assoc, List.append_nil]) extended
            rw [volume_append, volume_packet, total] at limit
            exact limit

/-- Thirteen packets of 255 bytes, each followed by a wake-up that finds the count changed,
run past the end of the buffer. -/
theorem sustained_traffic_overflows :
    ¬ ∀ events : List Event, (∀ data ∈ packets events, data.length ≤ 255) →
      Meets tickStep Fits start events := by
  intro claim
  have fits := claim
    (List.replicate 13 [.packet (List.replicate 255 0), .wakeup]).flatten (by decide +kernel)
  exact absurd fits (by decide +kernel)

end RiotNyAlesund.Gps.Rover
