import RiotNyAlesund.Transition

set_option autoImplicit false

/-! A collector that is looked at from time to time, and that hands on what it holds when it has
as much as at the last look. On a clock it keeps bursts together and apart. -/
namespace Bursts

open Transition

variable {β : Type}

/-- `recorded` is the number of items at the last look, or what the last handing on left there. -/
structure Collector (β : Type) where
  held : List β
  recorded : Nat
  out : List (List β)
  deriving DecidableEq, Repr

def Collector.arrive (c : Collector β) (items : List β) : Collector β :=
  { c with held := c.held ++ items }

/-- A look at the collector hands on what it holds. -/
def Collector.Fires (c : Collector β) : Prop := c.held ≠ [] ∧ c.held.length = c.recorded

instance (c : Collector β) : Decidable c.Fires :=
  inferInstanceAs (Decidable (_ ∧ _))

/-- The burst that is still held. -/
def Collector.waiting (c : Collector β) : List (List β) := if c.held = [] then [] else [c.held]

/-- `leaves` is what the record is after so many items are handed on. -/
def Collector.look (leaves : Nat → Nat) (c : Collector β) : Collector β :=
  if c.Fires then ⟨[], leaves c.held.length, c.out ++ [c.held]⟩
  else if c.held = [] then c
  else { c with recorded := c.held.length }

/-- The time that passes from one look to the next, at least and at most. -/
structure Rhythm where
  shortest : Nat
  longest : Nat

/-- A collector with its clock. The record is `stale` while it is what a handing on has left.
`current` is the burst of the last arrivals, and `past` are those before it. -/
structure Watch (β : Type) where
  collector : Collector β
  stale : Bool
  now : Nat
  looked : Nat
  arrived : Nat
  past : List (List β)
  current : List β
  deriving DecidableEq, Repr

inductive Action (β : Type)
  | pass (time : Nat)
  | arrive (items : List β)
  | look
  deriving DecidableEq, Repr

def begin : Watch β := ⟨⟨[], 0, []⟩, true, 0, 0, 0, [], []⟩

/-- All bursts, the one that may go on included. -/
def Watch.bursts (w : Watch β) : List (List β) :=
  if w.current = [] then [] else w.past ++ [w.current]

section

variable (rhythm : Rhythm) (leaves : Nat → Nat)

/-- An arrival would belong to the current burst. -/
def Watch.Near (w : Watch β) : Prop := w.current ≠ [] ∧ w.now < w.arrived + rhythm.shortest

instance (w : Watch β) : Decidable (w.Near rhythm) := inferInstanceAs (Decidable (_ ∧ _))

def Watch.arrive (w : Watch β) (items : List β) : Watch β :=
  { w with
    collector := w.collector.arrive items
    arrived := w.now
    past := if w.Near rhythm then w.past else w.bursts
    current := if w.Near rhythm then w.current ++ items else items }

def Watch.look (w : Watch β) : Watch β :=
  { w with
    collector := w.collector.look leaves
    stale := if w.collector.Fires then true else if w.collector.held = [] then w.stale else false
    looked := w.now }

/-- No look comes too early, and time does not pass a look that is due. -/
def step (w : Watch β) : Action β → Option (Watch β)
  | .pass time =>
      if w.now + time ≤ w.looked + rhythm.longest then some { w with now := w.now + time } else none
  | .arrive items => some (w.arrive rhythm items)
  | .look =>
      if w.looked + rhythm.shortest ≤ w.now then some (w.look leaves) else none

/-- Arrivals are close to the last one or far from it, and the first look at a burst does not
find just as many items as the last handing on left in the record. -/
def Bursty (w : Watch β) : Action β → Prop
  | .pass _ => True
  | .arrive items =>
      items ≠ [] ∧ (w.current ≠ [] →
        w.now < w.arrived + rhythm.shortest ∨ w.arrived + 2 * rhythm.longest < w.now)
  | .look => w.stale = true → ¬w.collector.Fires

instance (w : Watch β) (action : Action β) : Decidable (Bursty rhythm w action) :=
  match action with
  | .pass _ => isTrue trivial
  | .arrive _ => inferInstanceAs (Decidable (_ ∧ (_ → _)))
  | .look => inferInstanceAs (Decidable (_ → _))

/-- Where the collector is with the current burst: none has begun, no look has found the last
arrivals, one look has, or a second one has handed the burst on. -/
inductive Phase (w : Watch β) : Prop
  | idle (current : w.current = []) (held : w.collector.held = []) (out : w.collector.out = [])
      (stale : w.stale = true)
  | fresh (current : w.current ≠ []) (held : w.collector.held = w.current)
      (out : w.collector.out = w.past) (before : w.looked ≤ w.arrived)
      (grown : w.stale = false → w.collector.recorded < w.collector.held.length)
  | seen (current : w.current ≠ []) (held : w.collector.held = w.current)
      (out : w.collector.out = w.past) (after : w.arrived ≤ w.looked)
      (soon : w.looked ≤ w.arrived + rhythm.longest)
      (recorded : w.collector.recorded = w.collector.held.length) (found : w.stale = false)
  | handedOn (current : w.current ≠ []) (held : w.collector.held = [])
      (out : w.collector.out = w.past ++ [w.current]) (stale : w.stale = true)
      (late : w.arrived + rhythm.shortest ≤ w.looked)

structure Kept (w : Watch β) : Prop where
  punctual : w.now ≤ w.looked + rhythm.longest
  looked : w.looked ≤ w.now
  arrived : w.arrived ≤ w.now
  phase : Phase rhythm w

end

namespace Collector

variable (leaves : Nat → Nat) {c : Collector β}

theorem look_fires (fires : c.Fires) :
    c.look leaves = ⟨[], leaves c.held.length, c.out ++ [c.held]⟩ := if_pos fires

theorem look_records (items : c.held ≠ []) (grown : ¬c.Fires) :
    c.look leaves = { c with recorded := c.held.length } := by
  rw [look, if_neg grown, if_neg items]

theorem look_empty (empty : c.held = []) : c.look leaves = c := by
  rw [look, if_neg fun fires => fires.1 empty, if_pos empty]

/-- A look that hands nothing on. -/
theorem look_out (quiet : ¬c.Fires) : (c.look leaves).out = c.out := by
  rw [look, if_neg quiet]
  split <;> rfl

theorem waiting_empty (empty : c.held = []) : c.waiting = [] := if_pos empty

theorem waiting_held (items : c.held ≠ []) : c.waiting = [c.held] := if_neg items

theorem waiting_length : c.waiting.length ≤ 1 := by
  by_cases empty : c.held = []
  · rw [waiting_empty empty]
    exact Nat.zero_le 1
  · rw [waiting_held empty]
    exact Nat.le_refl 1

theorem waiting_flatten : c.waiting.flatten = c.held := by
  by_cases empty : c.held = []
  · rw [waiting_empty empty, empty]
    rfl
  · rw [waiting_held empty, List.flatten_singleton]

end Collector

section

variable {rhythm : Rhythm} {leaves : Nat → Nat} {w next : Watch β}

theorem arrive_near (items : List β) (near : w.Near rhythm) :
    (w.arrive rhythm items).current = w.current ++ items ∧
      (w.arrive rhythm items).past = w.past :=
  ⟨if_pos near, if_pos near⟩

theorem arrive_far (items : List β) (far : ¬w.Near rhythm) :
    (w.arrive rhythm items).current = items ∧ (w.arrive rhythm items).past = w.bursts :=
  ⟨if_neg far, if_neg far⟩

theorem bursts_of_current (some : w.current ≠ []) : w.bursts = w.past ++ [w.current] :=
  if_neg some

/-- An arrival that belongs to the burst that is held. -/
theorem arrive_held {items : List β} (near : w.Near rhythm) (some : items ≠ [])
    (looked : w.looked ≤ w.now) (held : w.collector.held = w.current)
    (out : w.collector.out = w.past)
    (recorded : w.stale = false → w.collector.recorded ≤ w.collector.held.length) :
    Phase rhythm (w.arrive rhythm items) := by
  obtain ⟨current, past⟩ := arrive_near items near
  refine .fresh ?_ ?_ ?_ looked fun found => ?_
  · rw [current]
    exact List.append_ne_nil_of_left_ne_nil near.1 _
  · rw [current, ← held]
    rfl
  · rw [past, ← out]
    rfl
  · have before := recorded found
    have longer := List.length_pos_iff.mpr some
    show w.collector.recorded < (w.collector.held ++ items).length
    rw [List.length_append]
    omega

/-- An arrival that begins a burst finds all others handed on. -/
theorem arrive_begins {items : List β} (far : ¬w.Near rhythm) (some : items ≠ [])
    (looked : w.looked ≤ w.now) (held : w.collector.held = []) (out : w.collector.out = w.bursts)
    (stale : w.stale = true) : Phase rhythm (w.arrive rhythm items) := by
  obtain ⟨current, past⟩ := arrive_far items far
  refine .fresh ?_ ?_ ?_ looked fun found => ?_
  · rw [current]
    exact some
  · rw [current]
    show w.collector.held ++ items = items
    rw [held, List.nil_append]
  · rw [past, ← out]
    rfl
  · have still : (w.arrive rhythm items).stale = true := stale
    rw [still] at found
    cases found

theorem begin_kept : Kept rhythm (begin : Watch β) :=
  ⟨Nat.zero_le _, Nat.le_refl _, Nat.le_refl _, .idle rfl rfl rfl rfl⟩

theorem pass_kept {time : Nat} (kept : Kept rhythm w)
    (taken : step rhythm leaves w (.pass time) = some next) : Kept rhythm next := by
  simp only [step, Option.ite_none_right_eq_some, Option.some.injEq] at taken
  obtain ⟨early, rfl⟩ := taken
  refine ⟨early, Nat.le_add_right_of_le kept.looked, Nat.le_add_right_of_le kept.arrived, ?_⟩
  cases kept.phase with
  | idle current held out stale => exact .idle current held out stale
  | fresh current held out before grown => exact .fresh current held out before grown
  | seen current held out after soon recorded found =>
      exact .seen current held out after soon recorded found
  | handedOn current held out stale late => exact .handedOn current held out stale late

/-- The first look at a burst records it, the second hands it on, and the others find nothing. -/
theorem look_kept (kept : Kept rhythm w) (unlike : w.stale = true → ¬w.collector.Fires)
    (taken : step rhythm leaves w .look = some next) : Kept rhythm next := by
  simp only [step, Option.ite_none_right_eq_some, Option.some.injEq] at taken
  obtain ⟨late, rfl⟩ := taken
  refine ⟨Nat.le_add_right _ _, Nat.le_refl _, kept.arrived, ?_⟩
  cases kept.phase with
  | idle current held out stale =>
      have same : w.collector.look leaves = w.collector := Collector.look_empty leaves held
      have quiet : ¬w.collector.Fires := fun fires => fires.1 held
      refine .idle current ?_ ?_ ?_
      · simp only [Watch.look, same, held]
      · simp only [Watch.look, same, out]
      · simp only [Watch.look, quiet, held, stale, ↓reduceIte]
  | fresh current held out before grown =>
      have items : w.collector.held ≠ [] := by rwa [held]
      have quiet : ¬w.collector.Fires := by
        intro fires
        cases stale : w.stale with
        | true => exact unlike stale fires
        | false =>
            have := grown stale
            have := fires.2
            omega
      have records := Collector.look_records leaves items quiet
      have soon : w.now ≤ w.arrived + rhythm.longest := by
        have := kept.punctual
        omega
      refine .seen current ?_ ?_ kept.arrived soon ?_ ?_
      · simp only [Watch.look, records, held]
      · simp only [Watch.look, records, out]
      · simp only [Watch.look, records]
      · simp only [Watch.look, quiet, items, ↓reduceIte]
  | seen current held out after soon recorded found =>
      have items : w.collector.held ≠ [] := by rwa [held]
      have fires : w.collector.Fires := ⟨items, recorded.symm⟩
      have empties := Collector.look_fires leaves fires
      have later : w.arrived + rhythm.shortest ≤ w.now := by omega
      refine .handedOn current ?_ ?_ ?_ later
      · simp only [Watch.look, empties]
      · simp only [Watch.look, empties, held, out]
      · simp only [Watch.look, fires, ↓reduceIte]
  | handedOn current held out stale late =>
      have same : w.collector.look leaves = w.collector := Collector.look_empty leaves held
      have quiet : ¬w.collector.Fires := fun fires => fires.1 held
      have later : w.arrived + rhythm.shortest ≤ w.now := Nat.le_trans late kept.looked
      refine .handedOn current ?_ ?_ ?_ later
      · simp only [Watch.look, same, held]
      · simp only [Watch.look, same, out]
      · simp only [Watch.look, quiet, held, stale, ↓reduceIte]

/-- Arrivals that are close find the burst where it was, and arrivals that are far find it
handed on. -/
theorem arrive_kept {items : List β} (kept : Kept rhythm w) (some : items ≠ [])
    (apart : w.current ≠ [] →
      w.now < w.arrived + rhythm.shortest ∨ w.arrived + 2 * rhythm.longest < w.now) :
    Kept rhythm (w.arrive rhythm items) := by
  obtain ⟨punctual, looked, arrived, phase⟩ := kept
  refine ⟨punctual, looked, Nat.le_refl _, ?_⟩
  cases phase with
  | idle current held out stale =>
      have none : w.bursts = [] := if_pos current
      exact arrive_begins (fun near => near.1 current) some looked held (out.trans none.symm) stale
  | fresh current held out before grown =>
      have close := apart current
      exact arrive_held ⟨current, by omega⟩ some looked held out fun found =>
        Nat.le_of_lt (grown found)
  | seen current held out after soon recorded found =>
      have close := apart current
      exact arrive_held ⟨current, by omega⟩ some looked held out fun _ => Nat.le_of_eq recorded
  | handedOn current held out stale late =>
      have far : ¬w.Near rhythm := by
        intro near
        have before := near.2
        omega
      exact arrive_begins far some looked held (out.trans (bursts_of_current current).symm) stale

theorem step_kept (w : Watch β) (action : Action β) (next : Watch β) (kept : Kept rhythm w)
    (bursty : Bursty rhythm w action) (taken : step rhythm leaves w action = some next) :
    Kept rhythm next := by
  cases action with
  | pass time => exact pass_kept kept taken
  | arrive items =>
      cases taken
      exact arrive_kept kept bursty.1 bursty.2
  | look => exact look_kept kept bursty taken

/-- What a step does to the collector alone. -/
def Collector.act (leaves : Nat → Nat) (c : Collector β) : Action β → Collector β
  | .pass _ => c
  | .arrive items => c.arrive items
  | .look => c.look leaves

theorem step_collector {action : Action β} (taken : step rhythm leaves w action = some next) :
    next.collector = w.collector.act leaves action := by
  cases action with
  | pass time =>
      simp only [step, Option.ite_none_right_eq_some, Option.some.injEq] at taken
      rw [← taken.2]
      rfl
  | arrive items =>
      cases taken
      rfl
  | look =>
      simp only [step, Option.ite_none_right_eq_some, Option.some.injEq] at taken
      rw [← taken.2]
      rfl

/-- What the collector has handed on and what it holds are the bursts. -/
theorem Kept.bursts (kept : Kept rhythm w) :
    w.collector.out ++ w.collector.waiting = w.bursts := by
  rw [Collector.waiting]
  cases kept.phase with
  | idle current held out stale =>
      simp only [held, out, Watch.bursts, current, ↓reduceIte, List.append_nil]
  | fresh current held out before grown =>
      simp only [held, out, Watch.bursts, current, ↓reduceIte]
  | seen current held out after soon recorded found =>
      simp only [held, out, Watch.bursts, current, ↓reduceIte]
  | handedOn current held out stale late =>
      simp only [held, out, Watch.bursts, current, ↓reduceIte, List.append_nil]

/-- Two looks' time after the last arrival everything is handed on. -/
theorem Kept.settled (kept : Kept rhythm w) (quiet : w.arrived + 2 * rhythm.longest < w.now) :
    w.collector.held = [] := by
  have := kept.punctual
  cases kept.phase with
  | idle current held out stale => exact held
  | fresh current held out before grown => omega
  | seen current held out after soon recorded found => omega
  | handedOn current held out stale late => exact held

end

end Bursts
