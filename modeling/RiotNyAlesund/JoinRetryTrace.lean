import RiotNyAlesund.JoinRetry

set_option autoImplicit false

/-! The data rates of the two join retry loops, attempt by attempt. -/
namespace RiotNyAlesund.JoinRetry

open Transition

/-- A data-rate setting or a sleep. -/
def Call.Retries : Call → Bool
  | .join _ _ => false
  | .setDr _ | .sleep _ => true

def Call.Sets : Call → Bool
  | .setDr _ => true
  | .join _ _ | .sleep _ => false

def Call.attempt : Call → Option UInt8
  | .join _ rate => some rate
  | .setDr _ | .sleep _ => none

/-- The data-rate settings and the sleeps in order. -/
def retries (s : State) : List Call := s.calls.filter Call.Retries

/-- The data rates of the join attempts in order. -/
def attempts (s : State) : List UInt8 := s.calls.filterMap Call.attempt

/-- The number of data-rate settings. -/
def settings (s : State) : Nat := s.calls.countP Call.Sets

theorem retries_settings {s t : State} (same : retries s = retries t) :
    settings s = settings t := by
  have counted : ∀ u : State, (retries u).countP Call.Sets = settings u := by
    intro u
    rw [retries, List.countP_filter, settings]
    apply List.countP_congr
    intro call _
    cases call <;> simp [Call.Sets, Call.Retries]
  rw [← counted, same, counted]

/-- The loop after these join results, of which only the last can be a success. -/
structure Traced (floor init : Nat) (results : List JoinRes) (s : State) : Prop where
  rate : s.initDataRate.toNat = max floor (init - results.count .failed)
  mac : s.dataRate = s.initDataRate
  trying : s.joined = false → results.count .failed = results.length
  ended : results.length ≤ results.count .failed + 1
  attempted : (attempts s).map UInt8.toNat =
    (List.range results.length).map fun k => max floor (init - k)
  set : settings s + s.initDataRate.toNat = init + 1

theorem entry_traced {floor : Nat} {init : UInt8} (next : UInt32) (above : floor ≤ init.toNat) :
    Traced floor init.toNat [] (entry init next) where
  rate := (Nat.max_eq_right above).symm
  mac := rfl
  trying := fun _ => rfl
  ended := Nat.zero_le _
  attempted := rfl
  set := Nat.add_comm _ _

section Step

variable {floor init : Nat} {results : List JoinRes} {s : State}

/-- The next attempt is made at the rate so far. -/
theorem Traced.next_attempt (traced : Traced floor init results s) (trying : s.joined = false) :
    (attempts s ++ [s.dataRate]).map UInt8.toNat =
      (List.range (results.length + 1)).map fun k => max floor (init - k) := by
  rw [List.map_append, traced.attempted, List.range_succ, List.map_append, List.map_singleton,
    List.map_singleton, traced.mac, traced.rate, traced.trying trying]

theorem Traced.count_failed (traced : Traced floor init results s) (trying : s.joined = false) :
    (results ++ [JoinRes.failed]).count .failed = results.length + 1 := by
  rw [List.count_append, traced.trying trying, List.count_singleton_self]

theorem succeeded_traced (mode : Mode) (traced : Traced floor init results s)
    (trying : s.joined = false) : Traced floor init (results ++ [.succeeded])
      { s with joined := true, calls := s.calls ++ [.join mode s.dataRate] } := by
  have count : (results ++ [JoinRes.succeeded]).count .failed = results.length := by
    rw [List.count_append, traced.trying trying]
    rfl
  refine ⟨?_, traced.mac, fun again => Bool.noConfusion again, ?_, ?_, ?_⟩
  · rw [count, ← traced.trying trying]
    exact traced.rate
  · rw [List.length_append, count, List.length_singleton]
  · rw [List.length_append, List.length_singleton, ← traced.next_attempt trying, attempts,
      List.filterMap_append]
    rfl
  · rw [settings, List.countP_append]
    exact traced.set

/-- A failed join above the floor. -/
theorem lowered_traced (mode : Mode) (traced : Traced floor init results s)
    (trying : s.joined = false) (above : floor < s.initDataRate.toNat) :
    Traced floor init (results ++ [.failed])
      { s with
        initDataRate := s.initDataRate - 1
        dataRate := s.initDataRate - 1
        calls := s.calls ++ [.join mode s.dataRate, .setDr (s.initDataRate - 1),
          .sleep s.nextRetryTime] } := by
  have count := traced.count_failed trying
  have rate := traced.rate
  have set := traced.set
  have positive : (1 : UInt8) ≤ s.initDataRate := by
    rw [UInt8.le_iff_toNat_le]
    exact Nat.succ_le_of_lt (Nat.lt_of_le_of_lt (Nat.zero_le _) above)
  have lower : (s.initDataRate - 1).toNat = s.initDataRate.toNat - 1 :=
    UInt8.toNat_sub_of_le _ _ positive
  have one : List.countP Call.Sets [.join mode s.dataRate, .setDr (s.initDataRate - 1),
      .sleep s.nextRetryTime] = 1 := rfl
  rw [traced.trying trying] at rate
  rw [settings] at set
  refine ⟨?_, rfl, ?_, ?_, ?_, ?_⟩
  · rw [lower, count]
    omega
  · rw [count, List.length_append, List.length_singleton]
    exact fun _ => rfl
  · rw [count, List.length_append, List.length_singleton]
    omega
  · rw [List.length_append, List.length_singleton, ← traced.next_attempt trying, attempts,
      List.filterMap_append]
    rfl
  · rw [settings, List.countP_append, lower, one]
    omega

/-- A failed join at the floor. -/
theorem backed_off_traced (mode : Mode) (next : UInt32) (traced : Traced floor init results s)
    (trying : s.joined = false) (lowest : s.initDataRate.toNat ≤ floor) :
    Traced floor init (results ++ [.failed])
      { s with
        nextRetryTime := next
        calls := s.calls ++ [.join mode s.dataRate, .sleep next] } := by
  have count := traced.count_failed trying
  have rate := traced.rate
  rw [traced.trying trying] at rate
  refine ⟨?_, traced.mac, ?_, ?_, ?_, ?_⟩
  · show s.initDataRate.toNat = _
    rw [count]
    omega
  · rw [count, List.length_append, List.length_singleton]
    exact fun _ => rfl
  · rw [count, List.length_append, List.length_singleton]
    omega
  · rw [List.length_append, List.length_singleton, ← traced.next_attempt trying, attempts,
      List.filterMap_append]
    rfl
  · rw [settings, List.countP_append]
    exact traced.set

end Step

theorem loop_traced {mode : Mode} {floor init : Nat} {most : UInt32} {results : List JoinRes}
    {s t : State} {result : JoinRes} (traced : Traced floor init results s)
    (taken : loop mode floor most s result = some t) :
    Traced floor init (results ++ [result]) t := by
  cases result with
  | succeeded =>
      obtain ⟨trying, rfl⟩ := loop_succeeded taken
      exact succeeded_traced mode traced trying
  | failed =>
      obtain ⟨trying, ⟨above, rfl⟩ | ⟨lowest, rfl⟩⟩ := loop_failed taken
      · exact lowered_traced mode traced trying above
      · exact backed_off_traced mode _ traced trying lowest

/-- The rate descends by one with each failed join, down to the floor. -/
theorem traced {mode : Mode} {floor : Nat} {init : UInt8} {next most : UInt32}
    {results : List JoinRes} {s : State} (above : floor ≤ init.toNat)
    (reached : execute (loop mode floor most) (entry init next) results = some s) :
    Traced floor init.toNat results s :=
  invariant_of_history (entry_traced next above) (fun _ _ _ _ => loop_traced) reached

/-- The two loops so far: the same variables, settings and sleeps. -/
structure Alongside (s t : State) : Prop where
  rate : s.initDataRate = t.initDataRate
  next : s.nextRetryTime = t.nextRetryTime
  retried : retries s = retries t

/-- Two loops that both lower the rate, or both back off, stay alongside. -/
theorem loop_alongside {mode mode' : Mode} {floor floor' : Nat} {most : UInt32}
    {s t s' t' : State} {result : JoinRes} (alongside : Alongside s t)
    (agree : result = .failed → (floor < s.initDataRate.toNat ↔ floor' < t.initDataRate.toNat))
    (taken : loop mode floor most s result = some s')
    (taken' : loop mode' floor' most t result = some t') : Alongside s' t' := by
  obtain ⟨rate, next, retried⟩ := alongside
  simp only [retries] at retried
  cases result with
  | succeeded =>
      obtain ⟨_, rfl⟩ := loop_succeeded taken
      obtain ⟨_, rfl⟩ := loop_succeeded taken'
      refine ⟨rate, next, ?_⟩
      simp [retries, retried, Call.Retries]
  | failed =>
      have agree := agree rfl
      obtain ⟨_, ⟨above, rfl⟩ | ⟨lowest, rfl⟩⟩ := loop_failed taken
      all_goals obtain ⟨_, ⟨above', rfl⟩ | ⟨lowest', rfl⟩⟩ := loop_failed taken'
      · refine ⟨congrArg (· - 1) rate, next, ?_⟩
        simp [retries, retried, Call.Retries, rate, next]
      · exact absurd (agree.mp above) (Nat.not_lt.mpr lowest')
      · exact absurd (agree.mpr above') (Nat.not_lt.mpr lowest)
      · refine ⟨rate, congrArg (backOff · most) next, ?_⟩
        simp [retries, retried, Call.Retries, next]

/-- Until the rate is at the OTAA loop's floor the two loops do the same. -/
theorem loops_alongside {minDatarate : Nat} {init : UInt8} {next most : UInt32}
    {results : List JoinRes} {s t : State} (above : minDatarate ≤ init.toNat)
    (early : minDatarate = 0 ∨ results.count .failed ≤ init.toNat - minDatarate)
    (otaa : execute (joinRetryLoop minDatarate most) (entry init next) results = some s)
    (abp : execute (abpJoinRetryLoop most) (entry init next) results = some t) :
    Alongside s t := by
  induction results using List.reverseRecOn generalizing s t with
  | nil =>
      cases otaa
      cases abp
      exact ⟨rfl, rfl, rfl⟩
  | append_singleton results result ih =>
      rw [execute_append_singleton, Option.bind_eq_some_iff] at otaa abp
      obtain ⟨before, otaa, taken⟩ := otaa
      obtain ⟨before', abp, taken'⟩ := abp
      rw [List.count_append] at early
      have rate := (traced above otaa).rate
      have rate' := (traced (Nat.zero_le _) abp).rate
      apply loop_alongside (ih (by omega) otaa abp) ?_ taken taken'
      rintro rfl
      rw [List.count_singleton_self] at early
      rw [rate, rate']
      omega

/-- The two loops set the same rates and sleep for the same times, and in both the `k`-th
attempt is made at the rate that `k` descents leave. -/
structure Alike (minDatarate init : Nat) (s t : State) : Prop where
  retried : retries s = retries t
  otaa : ∀ k rate, (attempts s)[k]? = some rate → rate.toNat = max minDatarate (init - k)
  abp : ∀ k rate, (attempts t)[k]? = some rate → rate.toNat = max minDatarate (init - k)

theorem Traced.attempt {floor init : Nat} {results : List JoinRes} {s : State}
    (traced : Traced floor init results s) {k : Nat} {rate : UInt8}
    (at_k : (attempts s)[k]? = some rate) :
    rate.toNat = max floor (init - k) ∧ k ≤ results.count .failed := by
  have ended := traced.ended
  have mapped : ((attempts s).map UInt8.toNat)[k]? = some rate.toNat := by
    rw [List.getElem?_map, at_k, Option.map_some]
  rw [traced.attempted, List.getElem?_map, Option.map_eq_some_iff] at mapped
  obtain ⟨index, found, equal⟩ := mapped
  obtain ⟨inside, same⟩ := List.getElem?_eq_some_iff.mp found
  rw [List.length_range] at inside
  rw [List.getElem_range] at same
  rw [← equal, ← same]
  exact ⟨rfl, by omega⟩

/-- The loops retry alike exactly when the floor is zero or no join fails after the rate has
reached it. -/
theorem retries_alike_iff (minDatarate : Nat) (init : UInt8) (next most : UInt32)
    (above : minDatarate ≤ init.toNat) (results : List JoinRes) (s t : State)
    (otaa : execute (joinRetryLoop minDatarate most) (entry init next) results = some s)
    (abp : execute (abpJoinRetryLoop most) (entry init next) results = some t) :
    Alike minDatarate init.toNat s t ↔
      minDatarate = 0 ∨ results.count .failed ≤ init.toNat - minDatarate := by
  have first := traced above otaa
  have second := traced (Nat.zero_le _) abp
  constructor
  · intro alike
    -- The ABP loop has set more rates when it has gone below the floor of the OTAA loop.
    have same := retries_settings alike.retried
    have set := first.set
    have set' := second.set
    rw [first.rate] at set
    rw [second.rate] at set'
    omega
  · intro early
    refine ⟨(loops_alongside above early otaa abp).retried, ?_, ?_⟩
    · exact fun k rate at_k => (first.attempt at_k).1
    · intro k rate at_k
      obtain ⟨value, inside⟩ := second.attempt at_k
      rw [value]
      omega

theorem retries_alike_once : ∃ s t,
    execute (joinRetryLoop 1 60) (entry 2 10) [.failed, .succeeded] = some s ∧
    execute (abpJoinRetryLoop 60) (entry 2 10) [.failed, .succeeded] = some t ∧
    Alike 1 2 s t :=
  ⟨_, _, rfl, rfl, (retries_alike_iff 1 2 10 60 (by decide) [.failed, .succeeded] _ _ rfl rfl).mpr
    (by decide)⟩

/-- With a least rate of 1 a failed join at rate 1 makes the ABP loop go on at rate 0. -/
theorem abp_below_least_rate :
    ¬ ∀ (minDatarate : Nat) (init : UInt8) (next most : UInt32), minDatarate ≤ init.toNat →
      ∀ (results : List JoinRes) (s t : State),
        execute (joinRetryLoop minDatarate most) (entry init next) results = some s →
        execute (abpJoinRetryLoop most) (entry init next) results = some t →
        Alike minDatarate init.toNat s t := by
  intro claim
  have alike := claim 1 1 10 60 (by decide) [.failed, .succeeded] _ _ rfl rfl
  exact absurd alike.retried (by decide)

end RiotNyAlesund.JoinRetry
