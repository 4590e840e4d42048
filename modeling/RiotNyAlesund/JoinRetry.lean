import RiotNyAlesund.Transition
import Mathlib.Data.List.Range

set_option autoImplicit false

/- lora_relay/Endpoint/loramac_utils.c: the join retry loops for OTAA and ABP. -/
namespace RiotNyAlesund.JoinRetry

open Transition

inductive Mode
  | otaa
  | abp
  deriving DecidableEq, Repr

/-- The result of semtech_loramac_join, any error being a failure. -/
inductive JoinRes
  | succeeded
  | failed
  deriving DecidableEq, Repr

/-- A call of the MAC or of xtimer_sleep. The rate of a join is the one the MAC is set to. -/
inductive Call
  | setDr (rate : UInt8)
  | join (mode : Mode) (rate : UInt8)
  | sleep (seconds : UInt32)
  deriving DecidableEq, Repr

/-- The variables of the loop, the data rate of the MAC, and the calls so far. -/
structure State where
  initDataRate : UInt8
  nextRetryTime : UInt32
  dataRate : UInt8
  joined : Bool
  calls : List Call
  deriving DecidableEq, Repr

/-- The loop is entered with the data rate set. -/
def entry (initDataRate : UInt8) (nextRetryTime : UInt32) : State :=
  ⟨initDataRate, nextRetryTime, initDataRate, false, [.setDr initDataRate]⟩

/-- RETRYTIME_PERCENT. -/
def retrytimePercent : UInt32 := 25

def backOff (nextRetryTime maxNextRetryTime : UInt32) : UInt32 :=
  if nextRetryTime < maxNextRetryTime then
    nextRetryTime + nextRetryTime * retrytimePercent / 100
  else maxNextRetryTime

/-- What follows a failed join, up to the sleep. `floor` is the rate that is not lowered. -/
def retry (floor : Nat) (maxNextRetryTime : UInt32) (s : State) : State :=
  if floor < s.initDataRate.toNat then
    { s with
      initDataRate := s.initDataRate - 1
      dataRate := s.initDataRate - 1
      calls := s.calls ++ [.setDr (s.initDataRate - 1)] }
  else { s with nextRetryTime := backOff s.nextRetryTime maxNextRetryTime }

def sleep (s : State) : State := { s with calls := s.calls ++ [.sleep s.nextRetryTime] }

def join (mode : Mode) (s : State) : State := { s with calls := s.calls ++ [.join mode s.dataRate] }

/-- One iteration, given what the join returns. -/
def loop (mode : Mode) (floor : Nat) (maxNextRetryTime : UInt32) (s : State) :
    JoinRes → Option State
  | .succeeded => if s.joined then none else some { join mode s with joined := true }
  | .failed =>
      if s.joined then none else some (sleep (retry floor maxNextRetryTime (join mode s)))

/-- loramac_utils_join_retry_loop. `minDatarate` is LORAMAC_JOIN_MIN_DATARATE. -/
def joinRetryLoop (minDatarate : Nat) (maxNextRetryTime : UInt32) :
    State → JoinRes → Option State :=
  loop .otaa minDatarate maxNextRetryTime

/-- loramac_utils_abp_join_retry_loop. -/
def abpJoinRetryLoop (maxNextRetryTime : UInt32) : State → JoinRes → Option State :=
  loop .abp 0 maxNextRetryTime

section Iteration

variable {mode : Mode} {floor : Nat} {most : UInt32} {s t : State}

theorem loop_succeeded (taken : loop mode floor most s .succeeded = some t) :
    s.joined = false ∧
      t = { s with joined := true, calls := s.calls ++ [.join mode s.dataRate] } := by
  simp only [loop, Option.ite_none_left_eq_some, Option.some.injEq, Bool.not_eq_true] at taken
  exact ⟨taken.1, taken.2.symm⟩

/-- Above the floor a failed join lowers the rate, at the floor it backs off. -/
theorem loop_failed (taken : loop mode floor most s .failed = some t) :
    s.joined = false ∧
      ((floor < s.initDataRate.toNat ∧ t =
        { s with
          initDataRate := s.initDataRate - 1
          dataRate := s.initDataRate - 1
          calls := s.calls ++ [.join mode s.dataRate, .setDr (s.initDataRate - 1),
            .sleep s.nextRetryTime] }) ∨
      (s.initDataRate.toNat ≤ floor ∧ t =
        { s with
          nextRetryTime := backOff s.nextRetryTime most
          calls := s.calls ++ [.join mode s.dataRate,
            .sleep (backOff s.nextRetryTime most)] })) := by
  simp only [loop, Option.ite_none_left_eq_some, Option.some.injEq, Bool.not_eq_true] at taken
  obtain ⟨trying, rfl⟩ := taken
  refine ⟨trying, ?_⟩
  by_cases above : floor < s.initDataRate.toNat
  · apply Or.inl
    simp only [above, sleep, retry, join, ↓reduceIte, List.append_assoc, List.cons_append,
      List.nil_append, and_self]
  · apply Or.inr
    simp only [above, Nat.not_lt.mp above, sleep, retry, join, ↓reduceIte, List.append_assoc,
      List.cons_append, List.nil_append, and_self]

end Iteration

/-- What a back-off below the ceiling adds, the product being taken modulo 2^32. -/
def increase (nextRetryTime : UInt32) : Nat := nextRetryTime.toNat * 25 % UInt32.size / 100

theorem backOff_below {next most : UInt32} (below : next < most) :
    (backOff next most).toNat = (next.toNat + increase next) % UInt32.size := by
  rw [backOff, if_pos below, UInt32.toNat_add, UInt32.toNat_div, UInt32.toNat_mul]
  rfl

/-- The increase is below a hundredth of 2^32. -/
theorem increase_lt (next : UInt32) : increase next < 42949673 := by
  have product : next.toNat * 25 % UInt32.size < UInt32.size := Nat.mod_lt _ (by decide)
  rw [increase]
  simp only [UInt32.size] at product ⊢
  omega

/-- Every delay slept so far is within the ceiling. -/
def Capped (most : UInt32) (s : State) : Prop :=
  ∀ seconds, Call.sleep seconds ∈ s.calls → seconds ≤ most

/-- A failed join that finds the rate at the floor and the delay below the ceiling leaves room
for the increase, or the sum wraps. -/
def Room (floor : Nat) (most : UInt32) (s : State) (result : JoinRes) : Prop :=
  result = .failed → s.initDataRate.toNat ≤ floor → s.nextRetryTime < most →
    increase s.nextRetryTime ≤ most.toNat - s.nextRetryTime.toNat ∨
      UInt32.size ≤ s.nextRetryTime.toNat + increase s.nextRetryTime

instance (floor : Nat) (most : UInt32) (s : State) (result : JoinRes) :
    Decidable (Room floor most s result) := inferInstanceAs (Decidable (_ → _))

theorem backOff_le_iff (next most : UInt32) :
    backOff next most ≤ most ↔ (next < most → increase next ≤ most.toNat - next.toNat ∨
      UInt32.size ≤ next.toNat + increase next) := by
  by_cases below : next < most
  · have bound := increase_lt next
    have small := next.toNat_lt
    have less := UInt32.lt_iff_toNat_lt.mp below
    have small' := most.toNat_lt
    rw [UInt32.le_iff_toNat_le, backOff_below below]
    simp only [below, forall_const, UInt32.size] at bound ⊢
    omega
  · rw [backOff, if_neg below]
    exact iff_of_true UInt32.le_rfl fun under => absurd under below

theorem capped_append {most : UInt32} {s t : State} {more : List Call}
    (calls : t.calls = s.calls ++ more) :
    Capped most t ↔ Capped most s ∧ ∀ seconds, Call.sleep seconds ∈ more → seconds ≤ most := by
  simp only [Capped, calls, List.mem_append, or_imp, forall_and]

theorem loop_capped_iff (mode : Mode) (floor : Nat) (most : UInt32) (s : State)
    (result : JoinRes) (t : State) (within : Capped most s → s.nextRetryTime ≤ most)
    (capped : Capped most s) (taken : loop mode floor most s result = some t) :
    Capped most t ↔ Room floor most s result := by
  cases result with
  | succeeded =>
      obtain ⟨_, rfl⟩ := loop_succeeded taken
      rw [capped_append rfl]
      apply iff_of_true
      · exact ⟨capped, fun seconds member => by simp at member⟩
      · exact fun failure => JoinRes.noConfusion failure
  | failed =>
      obtain ⟨_, ⟨above, rfl⟩ | ⟨lowest, rfl⟩⟩ := loop_failed taken
      · rw [capped_append rfl]
        apply iff_of_true
        · refine ⟨capped, fun seconds member => ?_⟩
          simp only [List.mem_cons, List.not_mem_nil, reduceCtorEq, Call.sleep.injEq, false_or,
            or_false] at member
          rw [member]
          exact within capped
        · exact fun _ lowest => absurd above (Nat.not_lt.mpr lowest)
      · rw [capped_append rfl, and_iff_right capped]
        simp only [List.mem_cons, List.not_mem_nil, reduceCtorEq, Call.sleep.injEq, false_or,
          or_false, forall_eq, backOff_le_iff, Room, lowest, forall_const]

/-- The delay has been slept, or is the first one. -/
theorem loop_within (mode : Mode) (floor : Nat) (most : UInt32) (s : State) (result : JoinRes)
    (t : State) (within : Capped most s → s.nextRetryTime ≤ most)
    (taken : loop mode floor most s result = some t) :
    Capped most t → t.nextRetryTime ≤ most := by
  intro capped
  cases result with
  | succeeded =>
      obtain ⟨_, rfl⟩ := loop_succeeded taken
      apply within
      exact fun seconds member => capped seconds (List.mem_append_left _ member)
  | failed =>
      obtain ⟨_, ⟨_, rfl⟩ | ⟨_, rfl⟩⟩ := loop_failed taken
      · exact capped _ (List.mem_append_right _ (by simp))
      · exact capped _ (List.mem_append_right _ (by simp))

/-- No delay is above the ceiling exactly when every back-off has room for its increase. -/
theorem delays_capped_iff (minDatarate : Nat) (rate : UInt8) (next most : UInt32)
    (initial : next ≤ most) (results : List JoinRes) :
    (Always (joinRetryLoop minDatarate most) (Capped most) (entry rate next) results ↔
      Meets (joinRetryLoop minDatarate most) (Room minDatarate most) (entry rate next) results) ∧
    (Always (abpJoinRetryLoop most) (Capped most) (entry rate next) results ↔
      Meets (abpJoinRetryLoop most) (Room 0 most) (entry rate next) results) := by
  have none : Capped most (entry rate next) := by
    intro seconds member
    simp [entry] at member
  have both : ∀ mode floor,
      Always (loop mode floor most) (Capped most) (entry rate next) results ↔
        Meets (loop mode floor most) (Room floor most) (entry rate next) results := by
    intro mode floor
    exact always_iff_meets (loop_within mode floor most) (loop_capped_iff mode floor most)
      results (fun _ => initial) none
  exact ⟨both .otaa minDatarate, both .abp 0⟩

theorem delays_capped_once :
    Always (joinRetryLoop 0 200) (Capped 200) (entry 1 100)
      [.failed, .failed, .failed, .succeeded] :=
  (delays_capped_iff 0 1 100 200 (by decide) [.failed, .failed, .failed, .succeeded]).1.mpr
    (by decide)

/-- A delay of 90 seconds under a ceiling of 100 becomes one of 112. -/
theorem back_off_above_ceiling :
    ¬ ∀ (minDatarate : Nat) (rate : UInt8) (next most : UInt32), next ≤ most →
      ∀ results : List JoinRes,
        Always (joinRetryLoop minDatarate most) (Capped most) (entry rate next) results := by
  intro claim
  have capped := (claim 0 0 90 100 (by decide) [.failed, .succeeded]).2 _ rfl
  exact absurd (capped.start 112 (by decide)) (by decide)

/-- Where a back-off lengthens the delay: the product modulo 2^32 is worth at least a second,
and the sum does not wrap. -/
def Grows (next : UInt32) : Prop :=
  100 ≤ next.toNat * 25 % UInt32.size ∧ next.toNat + increase next < UInt32.size

instance (next : UInt32) : Decidable (Grows next) := inferInstanceAs (Decidable (_ ∧ _))

theorem lt_backOff_iff {next most : UInt32} (below : next < most) :
    next < backOff next most ↔ Grows next := by
  have bound := increase_lt next
  have small := next.toNat_lt
  have worth : 100 ≤ next.toNat * 25 % UInt32.size ↔ 0 < increase next :=
    (Nat.div_pos_iff.trans (by simp)).symm
  rw [UInt32.lt_iff_toNat_lt, backOff_below below, Grows, worth]
  simp only [UInt32.size]
  omega

section Failing

variable {mode : Mode} {floor : Nat} {most : UInt32} {s : State}

/-- A failed join with the rate at the floor keeps it there. -/
theorem failed_lowest {t : State} (lowest : s.initDataRate.toNat ≤ floor)
    (taken : loop mode floor most s .failed = some t) :
    t.joined = false ∧ t.initDataRate.toNat ≤ floor ∧
      t.nextRetryTime = backOff s.nextRetryTime most := by
  obtain ⟨trying, ⟨above, _⟩ | ⟨_, rfl⟩⟩ := loop_failed taken
  · exact absurd above (Nat.not_lt.mpr lowest)
  · exact ⟨trying, lowest, rfl⟩

theorem failed_some (mode : Mode) (floor : Nat) (most : UInt32) (trying : s.joined = false) :
    ∃ t, loop mode floor most s .failed = some t := by
  rw [loop, trying]
  exact ⟨_, rfl⟩

/-- The rate stays at the floor over any number of failed joins. -/
theorem failures_lowest (trying : s.joined = false) (lowest : s.initDataRate.toNat ≤ floor)
    {count : Nat} {t : State}
    (reached : execute (loop mode floor most) s (List.replicate count .failed) = some t) :
    t.joined = false ∧ t.initDataRate.toNat ≤ floor := by
  induction count generalizing s with
  | zero =>
      cases reached
      exact ⟨trying, lowest⟩
  | succ count ih =>
      rw [List.replicate_succ, execute_cons, Option.bind_eq_some_iff] at reached
      obtain ⟨next, taken, reached⟩ := reached
      have kept := failed_lowest lowest taken
      exact ih kept.1 kept.2.1 reached

/-- A delay that grows whenever it is below the ceiling reaches it. -/
theorem failures_reach (trying : s.joined = false) (lowest : s.initDataRate.toNat ≤ floor)
    (grow : ∀ count t, execute (loop mode floor most) s (List.replicate count .failed) = some t →
      t.nextRetryTime < most → Grows t.nextRetryTime) :
    ∃ count t, execute (loop mode floor most) s (List.replicate count .failed) = some t ∧
      most ≤ t.nextRetryTime := by
  have nearer : ∀ t : State, (∃ count,
      execute (loop mode floor most) s (List.replicate count .failed) = some t) →
      ¬most ≤ t.nextRetryTime → ∃ next, loop mode floor most t .failed = some next ∧
        (∃ count, execute (loop mode floor most) s (List.replicate count .failed) = some next) ∧
          most.toNat - next.nextRetryTime.toNat < most.toNat - t.nextRetryTime.toNat := by
    rintro t ⟨count, reached⟩ unfinished
    have below := UInt32.not_le.mp unfinished
    have kept := failures_lowest trying lowest reached
    obtain ⟨next, taken⟩ := failed_some mode floor most kept.1
    have longer := (lt_backOff_iff below).mpr (grow count t reached below)
    rw [← (failed_lowest kept.2 taken).2.2] at longer
    refine ⟨next, taken, ⟨count + 1, ?_⟩, ?_⟩
    · rw [List.replicate_succ', execute_append_singleton, reached, Option.bind_some, taken]
    · rw [UInt32.lt_iff_toNat_lt] at below longer
      omega
  obtain ⟨count, t, reached, _, ended⟩ := repetition_leads_to nearer ⟨0, rfl⟩
  exact ⟨count, t, reached, ended⟩

end Failing

/-- Either loop, with the rate at its floor. A failed join below the ceiling lengthens the delay
exactly when the delay is one that grows. Every failed join does so and the ceiling is reached
exactly when every delay met below the ceiling is one that grows. -/
theorem delay_grows_iff (mode : Mode) (floor : Nat) (most : UInt32) (s : State)
    (trying : s.joined = false) (lowest : s.initDataRate.toNat ≤ floor) :
    (∀ t, s.nextRetryTime < most → loop mode floor most s .failed = some t →
      (s.nextRetryTime < t.nextRetryTime ↔ Grows s.nextRetryTime)) ∧
    (((∀ count t u, execute (loop mode floor most) s (List.replicate count .failed) = some t →
          t.nextRetryTime < most → loop mode floor most t .failed = some u →
          t.nextRetryTime < u.nextRetryTime) ∧
        ∃ count t, execute (loop mode floor most) s (List.replicate count .failed) = some t ∧
          most ≤ t.nextRetryTime) ↔
      ∀ count t, execute (loop mode floor most) s (List.replicate count .failed) = some t →
        t.nextRetryTime < most → Grows t.nextRetryTime) := by
  have once : ∀ {t u : State}, t.initDataRate.toNat ≤ floor → t.nextRetryTime < most →
      loop mode floor most t .failed = some u →
      (t.nextRetryTime < u.nextRetryTime ↔ Grows t.nextRetryTime) := by
    intro t u low below taken
    rw [(failed_lowest low taken).2.2]
    exact lt_backOff_iff below
  refine ⟨fun t below taken => once lowest below taken, ?_, ?_⟩
  · rintro ⟨longer, _⟩ count t reached below
    have kept := failures_lowest trying lowest reached
    obtain ⟨u, taken⟩ := failed_some mode floor most kept.1
    exact (once kept.2 below taken).mp (longer count t u reached below taken)
  · intro grow
    refine ⟨?_, failures_reach trying lowest grow⟩
    intro count t u reached below taken
    have kept := failures_lowest trying lowest reached
    exact (once kept.2 below taken).mpr (grow count t reached below)

/-- From a hundred seconds on the delay grows, from three it does not. -/
theorem delay_grows_from_hundred :
    (∃ t, loop .otaa 0 200 (entry 0 100) .failed = some t ∧
      (entry 0 100).nextRetryTime < t.nextRetryTime) ∧
    ∃ t, loop .abp 0 200 (entry 0 3) .failed = some t ∧
      ¬(entry 0 3).nextRetryTime < t.nextRetryTime :=
  ⟨⟨_, rfl, ((delay_grows_iff .otaa 0 200 (entry 0 100) rfl (by decide)).1 _ (by decide)
      rfl).mpr (by decide)⟩,
    ⟨_, rfl, fun longer => absurd (((delay_grows_iff .abp 0 200 (entry 0 3) rfl (by decide)).1 _
      (by decide) rfl).mp longer) (by decide)⟩⟩

/-- A quarter of a second more than one second is one second. -/
theorem short_delay_stays :
    ¬ ∀ (mode : Mode) (floor : Nat) (most : UInt32) (s t : State),
      s.initDataRate.toNat ≤ floor → 0 < s.nextRetryTime → s.nextRetryTime < most →
      loop mode floor most s .failed = some t → s.nextRetryTime < t.nextRetryTime := by
  intro claim
  have longer := claim .otaa 0 10 (entry 0 1) _ (by decide) (by decide) (by decide) rfl
  exact absurd longer (by decide)

end RiotNyAlesund.JoinRetry
