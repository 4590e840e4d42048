import RiotNyAlesund.Bursts

set_option autoImplicit false

/-! Two collectors in a row. What the first hands on is cut into pieces, and the pieces arrive at
the second one by one. On a clock the second hands on the bursts of the first. -/
namespace Bursts

open Transition

variable {β : Type}

/-- `airtime` is what passes at most before the next piece arrives, and a burst of `limit` items
is cut into `most` pieces at most. -/
structure Line (β : Type) where
  near : Rhythm
  far : Rhythm
  nearLeaves : Nat → Nat
  farLeaves : Nat → Nat
  cut : List β → List (List β)
  airtime : Nat
  limit : Nat
  most : Nat
  whole : ∀ burst, (cut burst).flatten = burst
  nonempty : ∀ burst, ∀ piece ∈ cut burst, piece ≠ []
  few : ∀ burst, burst.length ≤ limit → (cut burst).length ≤ most
  fast : airtime < far.shortest

/-- When the last piece of a burst is there, counted from the last item of the burst. -/
def Line.latency (line : Line β) : Nat := 2 * line.near.longest + line.most * line.airtime

/-- The time in which a burst gets through. -/
def Line.gap (line : Line β) : Nat := line.latency + 2 * line.far.longest

/-- `moved` is when pieces were last put on the air, or one was taken off it. -/
structure Link (β : Type) where
  sender : Watch β
  air : List (List β)
  moved : Nat
  receiver : Watch β
  deriving DecidableEq, Repr

/-- `send` and `receive` are the looks at the two collectors. -/
inductive Hop (β : Type)
  | pass (time : Nat)
  | arrive (items : List β)
  | send
  | deliver
  | receive
  deriving DecidableEq, Repr

section

variable {rhythm : Rhythm} {w : Watch β}

theorem Kept.held_eq (kept : Kept rhythm w) (some : w.collector.held ≠ []) :
    w.collector.held = w.current := by
  cases kept.phase with
  | idle current held out stale => exact absurd held some
  | fresh current held out before grown => exact held
  | seen current held out after soon recorded found => exact held
  | handedOn current held out stale late => exact absurd held some

/-- What is handed on is the current burst, within two looks of its last arrival. -/
theorem Kept.fires (kept : Kept rhythm w) (unlike : w.stale = true → ¬w.collector.Fires)
    (fires : w.collector.Fires) :
    w.collector.held = w.current ∧ w.collector.out = w.past ∧
      w.now ≤ w.arrived + 2 * rhythm.longest := by
  cases kept.phase with
  | idle current held out stale => exact absurd held fires.1
  | fresh current held out before grown =>
      cases stale : w.stale with
      | true => exact absurd fires (unlike stale)
      | false =>
          have less := grown stale
          have same := fires.2
          omega
  | seen current held out after soon recorded found =>
      have punctual := kept.punctual
      exact ⟨held, out, by omega⟩
  | handedOn current held out stale late => exact absurd held fires.1

/-- A burst that is no longer held has been handed on, after its time. -/
theorem Kept.handedOn (kept : Kept rhythm w) (some : w.current ≠ [])
    (empty : w.collector.held = []) :
    w.collector.out = w.past ++ [w.current] ∧ w.arrived + rhythm.shortest ≤ w.now := by
  cases kept.phase with
  | idle current held out stale => exact absurd current some
  | fresh current held out before grown => exact absurd (held.symm.trans empty) current
  | seen current held out after soon recorded found => exact absurd (held.symm.trans empty) current
  | handedOn current held out stale late => exact ⟨out, Nat.le_trans late kept.looked⟩

/-- Nothing has arrived, or two looks have come since. -/
def Watch.Rested (rhythm : Rhythm) (w : Watch β) : Prop :=
  w.current ≠ [] → w.arrived + 2 * rhythm.longest < w.now

theorem Kept.rested (kept : Kept rhythm w) (rested : w.Rested rhythm) :
    w.collector.held = [] := by
  by_cases none : w.current = []
  · by_contra some
    exact some ((kept.held_eq some).trans none)
  · exact kept.settled (rested none)

theorem Kept.rested_far (kept : Kept rhythm w) (rested : w.Rested rhythm) :
    ¬w.Near rhythm := by
  rintro ⟨some, near⟩
  have late := (kept.handedOn some (kept.rested rested)).2
  omega

/-- Rest leaves nothing to hand on. -/
theorem Kept.rested_out (kept : Kept rhythm w) (rested : w.Rested rhythm) :
    w.collector.out = w.bursts := by
  rw [← kept.bursts, Collector.waiting_empty (kept.rested rested), List.append_nil]

theorem arrive_bursts {items : List β} (some : items ≠ []) :
    (w.arrive rhythm items).bursts.flatten = w.bursts.flatten ++ items := by
  by_cases near : w.Near rhythm
  · obtain ⟨current, past⟩ := arrive_near items near
    rw [bursts_of_current (by rw [current]; exact List.append_ne_nil_of_right_ne_nil _ some),
      bursts_of_current near.1, current, past]
    simp only [List.flatten_append, List.flatten_singleton, List.append_assoc]
  · obtain ⟨current, past⟩ := arrive_far items near
    rw [bursts_of_current (by rw [current]; exact some), current, past, List.flatten_append,
      List.flatten_singleton]

end

namespace Link

def start : Link β := ⟨begin, [], 0, begin⟩

section

variable (line : Line β)

/-- Time does not pass a piece that is due either. -/
def step (l : Link β) : Hop β → Option (Link β)
  | .pass time =>
      if l.air = [] ∨ l.sender.now + time ≤ l.moved + line.airtime then
        (Bursts.step line.near line.nearLeaves l.sender (.pass time)).bind fun sender =>
          (Bursts.step line.far line.farLeaves l.receiver (.pass time)).map fun receiver =>
            { l with sender := sender, receiver := receiver }
      else none
  | .arrive items => some { l with sender := l.sender.arrive line.near items }
  | .send =>
      (Bursts.step line.near line.nearLeaves l.sender .look).map fun sender =>
        if l.sender.collector.Fires then
          { l with
            sender := sender
            air := l.air ++ line.cut l.sender.collector.held
            moved := l.sender.now }
        else { l with sender := sender }
  | .deliver =>
      match l.air with
      | [] => none
      | piece :: air =>
          some { l with
            air := air
            moved := l.receiver.now
            receiver := l.receiver.arrive line.far piece }
  | .receive =>
      (Bursts.step line.far line.farLeaves l.receiver .look).map fun receiver =>
        { l with receiver := receiver }

/-- Arrivals at the sender are close to the last one, or so far from it that the burst before is
through, and no burst is longer than the limit. The looks are as for one collector. -/
def Spread (l : Link β) : Hop β → Prop
  | .pass _ | .deliver => True
  | .arrive items =>
      items ≠ [] ∧ l.sender.collector.held.length + items.length ≤ line.limit ∧
        (l.sender.current ≠ [] → l.sender.now < l.sender.arrived + line.near.shortest ∨
          l.sender.arrived + line.gap < l.sender.now)
  | .send => l.sender.stale = true → ¬l.sender.collector.Fires
  | .receive => l.receiver.stale = true → ¬l.receiver.collector.Fires

instance (l : Link β) (hop : Hop β) : Decidable (Spread line l hop) :=
  match hop with
  | .pass _ | .deliver => isTrue trivial
  | .arrive _ => inferInstanceAs (Decidable (_ ∧ _ ∧ (_ → _)))
  | .send | .receive => inferInstanceAs (Decidable (_ → _))

/-- The receiver has handed on all that has arrived before the current burst began. -/
def Clear (l : Link β) : Prop :=
  l.receiver.current ≠ [] → l.receiver.arrived + 2 * line.far.longest < l.sender.arrived

/-- The sender has handed on the current burst, and what is still on the air of it is due. -/
structure Leaving (l : Link β) : Prop where
  current : l.sender.current ≠ []
  held : l.sender.collector.held = []
  out : l.sender.collector.out = l.sender.past ++ [l.sender.current]
  pieces : ∀ piece ∈ l.air, piece ≠ []
  due : l.air ≠ [] → l.sender.now ≤ l.moved + line.airtime
  soon : l.moved + l.air.length * line.airtime ≤ l.sender.arrived + line.latency

/-- Where the last burst is: with the sender, on the air, or some of it with the receiver. -/
inductive Stage (l : Link β) : Prop
  | gathered (air : l.air = []) (through : l.receiver.bursts = l.sender.collector.out)
      (clear : Clear line l)
  | sent (leaving : Leaving line l) (whole : l.air.flatten = l.sender.current)
      (through : l.receiver.bursts = l.sender.past) (clear : Clear line l)
  | arriving (leaving : Leaving line l)
      (whole : l.receiver.current ++ l.air.flatten = l.sender.current)
      (begun : l.receiver.current ≠ []) (past : l.receiver.past = l.sender.past)
      (last : l.receiver.arrived = l.moved)

structure Steady (l : Link β) : Prop where
  sender : Kept line.near l.sender
  receiver : Kept line.far l.receiver
  together : l.receiver.now = l.sender.now
  short : l.sender.current.length ≤ line.limit
  stage : Stage line l

end

section

variable {line : Line β} {l next : Link β}

theorem Steady.rested (steady : Steady line l) (clear : Clear line l) :
    l.receiver.Rested line.far := by
  intro some
  have before := clear some
  have arrived := steady.sender.arrived
  have together := steady.together
  omega

/-- After the time of a burst none of its pieces is on the air. -/
theorem Leaving.gone (leaving : Leaving line l)
    (late : l.sender.arrived + line.latency < l.sender.now) : l.air = [] := by
  by_contra some
  have now := leaving.due some
  have soon := leaving.soon
  have one : 1 ≤ l.air.length := List.length_pos_iff.mpr some
  have long := Nat.mul_le_mul_right line.airtime one
  omega

theorem Leaving.air (leaving : Leaving line l) (whole : l.air.flatten = l.sender.current) :
    l.air ≠ [] := by
  intro none
  rw [none] at whole
  exact leaving.current whole.symm

theorem pass_steady {time : Nat} (steady : Steady line l)
    (taken : step line l (.pass time) = some next) : Steady line next := by
  simp only [step, Option.ite_none_right_eq_some, Option.bind_eq_some_iff,
    Option.map_eq_some_iff] at taken
  obtain ⟨early, sender, sent, receiver, received, rfl⟩ := taken
  have kept := pass_kept steady.sender sent
  have kept' := pass_kept steady.receiver received
  simp only [Bursts.step, Option.ite_none_right_eq_some, Option.some.injEq] at sent received
  obtain ⟨_, rfl⟩ := sent
  obtain ⟨_, rfl⟩ := received
  have leaves : Leaving line l → Leaving line { l with
      sender := { l.sender with now := l.sender.now + time }
      receiver := { l.receiver with now := l.receiver.now + time } } := fun leaving =>
    ⟨leaving.current, leaving.held, leaving.out, leaving.pieces, early.resolve_left, leaving.soon⟩
  refine ⟨kept, kept', congrArg (· + time) steady.together, steady.short, ?_⟩
  cases steady.stage with
  | gathered air through clear => exact .gathered air through clear
  | sent leaving whole through clear => exact .sent (leaves leaving) whole through clear
  | arriving leaving whole begun past last => exact .arriving (leaves leaving) whole begun past last

/-- A burst begins when the one before it is with the receiver, and at rest there. -/
theorem arrive_steady {items : List β} (steady : Steady line l)
    (spread : Spread line l (.arrive items)) :
    Steady line { l with sender := l.sender.arrive line.near items } := by
  obtain ⟨some, fits, apart⟩ := spread
  have kept : Kept line.near (l.sender.arrive line.near items) := by
    apply arrive_kept steady.sender some
    intro begun
    have far := apart begun
    rw [Line.gap, Line.latency] at far
    omega
  have grown : l.sender.collector.held ++ items ≠ [] := List.append_ne_nil_of_right_ne_nil _ some
  have far : Leaving line l → l.sender.arrived + line.gap < l.sender.now := by
    intro leaving
    have late := (steady.sender.handedOn leaving.current leaving.held).2
    have near := apart leaving.current
    omega
  refine ⟨kept, steady.receiver, steady.together, ?_, ?_⟩
  · show (l.sender.arrive line.near items).current.length ≤ line.limit
    rw [← kept.held_eq grown]
    show (l.sender.collector.held ++ items).length ≤ line.limit
    rw [List.length_append]
    exact fits
  · cases steady.stage with
    | gathered air through clear =>
        refine .gathered air through fun begun => ?_
        exact Nat.lt_of_lt_of_le (clear begun) steady.sender.arrived
    | sent leaving whole through clear =>
        have late := far leaving
        rw [Line.gap] at late
        exact absurd (leaving.gone (by omega)) (leaving.air whole)
    | arriving leaving whole begun past last =>
        have late := far leaving
        have soon := leaving.soon
        rw [Line.gap] at late
        have none := leaving.gone (by omega)
        rw [none, List.flatten_nil, List.append_nil] at whole
        refine .gathered none ?_ fun _ => ?_
        · rw [bursts_of_current begun, past, whole]
          exact leaving.out.symm
        · show l.receiver.arrived + 2 * line.far.longest < l.sender.now
          omega

/-- The sender hands on the burst when nothing is on the air. -/
theorem send_fires (steady : Steady line l) (spread : Spread line l .send)
    (fires : l.sender.collector.Fires) :
    Stage line { l with
      sender := l.sender.look line.nearLeaves
      air := l.air ++ line.cut l.sender.collector.held
      moved := l.sender.now } := by
  obtain ⟨held, out, soon⟩ := steady.sender.fires spread fires
  have empties := Collector.look_fires line.nearLeaves fires
  cases steady.stage with
  | gathered air through clear =>
      have pieces : l.air ++ line.cut l.sender.collector.held = line.cut l.sender.current := by
        rw [air, held, List.nil_append]
      have few := line.few _ steady.short
      have long := Nat.mul_le_mul_right line.airtime few
      refine .sent ⟨?_, ?_, ?_, ?_, fun _ => Nat.le_add_right _ _, ?_⟩ ?_ ?_ clear
      · show l.sender.current ≠ []
        rw [← held]
        exact fires.1
      · simp only [Watch.look, empties]
      · simp only [Watch.look, empties, out, held]
      · simp only [pieces]
        exact line.nonempty _
      · simp only [Watch.look, pieces, Line.latency]
        omega
      · simp only [Watch.look, pieces, line.whole]
      · rw [through, out]
        rfl
  | sent leaving whole through clear => exact absurd leaving.held fires.1
  | arriving leaving whole begun past last => exact absurd leaving.held fires.1

theorem send_waits (steady : Steady line l) (waits : ¬l.sender.collector.Fires) :
    Stage line { l with sender := l.sender.look line.nearLeaves } := by
  have out := Collector.look_out line.nearLeaves waits
  have leaves : Leaving line l →
      Leaving line { l with sender := l.sender.look line.nearLeaves } := by
    intro leaving
    have same := Collector.look_empty line.nearLeaves leaving.held
    refine ⟨leaving.current, ?_, ?_, leaving.pieces, leaving.due, leaving.soon⟩
    all_goals simp only [Watch.look, same, leaving.held, leaving.out]
  cases steady.stage with
  | gathered air through clear => exact .gathered air (through.trans out.symm) clear
  | sent leaving whole through clear => exact .sent (leaves leaving) whole through clear
  | arriving leaving whole begun past last => exact .arriving (leaves leaving) whole begun past last

theorem send_steady (steady : Steady line l) (spread : Spread line l .send)
    (taken : step line l .send = some next) : Steady line next := by
  simp only [step, Option.map_eq_some_iff] at taken
  obtain ⟨sender, looked, rfl⟩ := taken
  have kept := look_kept steady.sender spread looked
  simp only [Bursts.step, Option.ite_none_right_eq_some, Option.some.injEq] at looked
  obtain ⟨_, rfl⟩ := looked
  by_cases fires : l.sender.collector.Fires
  · rw [if_pos fires]
    exact ⟨kept, steady.receiver, steady.together, steady.short, send_fires steady spread fires⟩
  · rw [if_neg fires]
    exact ⟨kept, steady.receiver, steady.together, steady.short, send_waits steady fires⟩

/-- A piece that arrives while its burst is under way is near the one before. -/
theorem Leaving.near (leaving : Leaving line l) (together : l.receiver.now = l.sender.now)
    (begun : l.receiver.current ≠ []) (last : l.receiver.arrived = l.moved) (some : l.air ≠ []) :
    l.receiver.Near line.far := by
  have now := leaving.due some
  have fast := line.fast
  exact ⟨begun, by omega⟩

/-- The receiver has room for a piece that arrives. -/
theorem Steady.room {piece : List β} {air : List (List β)} (steady : Steady line l)
    (next : l.air = piece :: air) :
    l.receiver.collector.held.length + piece.length ≤ line.limit := by
  have short := steady.short
  cases steady.stage with
  | gathered none through clear => rw [none] at next; cases next
  | sent leaving whole through clear =>
      rw [steady.receiver.rested (steady.rested clear), List.length_nil, Nat.zero_add]
      rw [← whole, next, List.flatten_cons, List.length_append] at short
      omega
  | arriving leaving whole begun past last =>
      rw [← whole, next, List.flatten_cons, List.length_append, List.length_append] at short
      by_cases empty : l.receiver.collector.held = []
      · rw [empty, List.length_nil]
        omega
      · rw [steady.receiver.held_eq empty]
        omega

/-- A piece leaves the air, and the next one has its time from now. -/
theorem Leaving.deliver {piece : List β} {air : List (List β)} (leaving : Leaving line l)
    (together : l.receiver.now = l.sender.now) (split : l.air = piece :: air) :
    Leaving line { l with
      air := air
      moved := l.receiver.now
      receiver := l.receiver.arrive line.far piece } := by
  obtain ⟨current, held, out, pieces, due, soon⟩ := leaving
  rw [split] at pieces due soon
  have now := due (List.cons_ne_nil _ _)
  rw [List.length_cons, Nat.succ_mul] at soon
  refine ⟨current, held, out, fun other inside => pieces other (List.mem_cons_of_mem _ inside),
    fun _ => ?_, ?_⟩
  · show l.sender.now ≤ l.receiver.now + line.airtime
    omega
  · show l.receiver.now + air.length * line.airtime ≤ l.sender.arrived + line.latency
    omega

/-- The first piece of a burst finds the receiver at rest, and the others find it waiting. -/
theorem deliver_steady (steady : Steady line l) (taken : step line l .deliver = some next) :
    Steady line next := by
  have together := steady.together
  simp only [step] at taken
  split at taken
  · cases taken
  · rename_i piece air split
    cases taken
    have some : Leaving line l → piece ≠ [] := fun leaving =>
      leaving.pieces piece (by rw [split]; exact List.mem_cons_self)
    cases steady.stage with
    | gathered none through clear => rw [none] at split; cases split
    | sent leaving whole through clear =>
        have rested := steady.rested clear
        have kept := arrive_kept steady.receiver (some leaving) fun begun => Or.inr (rested begun)
        obtain ⟨first, past⟩ := arrive_far piece (steady.receiver.rested_far rested)
        refine ⟨steady.sender, kept, together, steady.short,
          .arriving (leaving.deliver together split) ?_ ?_ ?_ rfl⟩
        · rw [first, ← whole, split, List.flatten_cons]
        · rw [first]
          exact some leaving
        · rw [past, through]
    | arriving leaving whole begun past last =>
        have near := leaving.near together begun last (by rw [split]; exact List.cons_ne_nil _ _)
        have kept := arrive_kept steady.receiver (some leaving) fun _ => Or.inl near.2
        obtain ⟨longer, same⟩ := arrive_near piece near
        refine ⟨steady.sender, kept, together, steady.short,
          .arriving (leaving.deliver together split) ?_ ?_ ?_ rfl⟩
        · rw [longer, ← whole, split, List.flatten_cons, List.append_assoc]
        · rw [longer]
          exact List.append_ne_nil_of_left_ne_nil begun _
        · rw [same, past]

theorem receive_steady (steady : Steady line l) (spread : Spread line l .receive)
    (taken : step line l .receive = some next) : Steady line next := by
  simp only [step, Option.map_eq_some_iff] at taken
  obtain ⟨receiver, looked, rfl⟩ := taken
  have kept := look_kept steady.receiver spread looked
  simp only [Bursts.step, Option.ite_none_right_eq_some, Option.some.injEq] at looked
  obtain ⟨_, rfl⟩ := looked
  have leaves : Leaving line l →
      Leaving line { l with receiver := l.receiver.look line.farLeaves } := fun leaving =>
    ⟨leaving.current, leaving.held, leaving.out, leaving.pieces, leaving.due, leaving.soon⟩
  refine ⟨steady.sender, kept, steady.together, steady.short, ?_⟩
  cases steady.stage with
  | gathered air through clear => exact .gathered air through clear
  | sent leaving whole through clear => exact .sent (leaves leaving) whole through clear
  | arriving leaving whole begun past last => exact .arriving (leaves leaving) whole begun past last

theorem start_steady : Steady line (start : Link β) :=
  ⟨begin_kept, begin_kept, rfl, Nat.zero_le _, .gathered rfl rfl fun begun => absurd rfl begun⟩

theorem step_steady (l : Link β) (hop : Hop β) (next : Link β) (steady : Steady line l)
    (spread : Spread line l hop) (taken : step line l hop = some next) : Steady line next := by
  cases hop with
  | pass time => exact pass_steady steady taken
  | arrive items =>
      cases taken
      exact arrive_steady steady spread
  | send => exact send_steady steady spread taken
  | deliver => exact deliver_steady steady taken
  | receive => exact receive_steady steady spread taken

/-- The receiver has handed on every burst but the last, and it hands on the last one in time. -/
theorem Steady.through (steady : Steady line l) :
    ∃ waiting, l.receiver.collector.out ++ waiting = l.sender.bursts ∧ waiting.length ≤ 1 ∧
      (l.sender.arrived + line.gap < l.sender.now → waiting = []) := by
  have together := steady.together
  cases steady.stage with
  | gathered air through clear =>
      have out := steady.receiver.rested_out (steady.rested clear)
      refine ⟨l.sender.collector.waiting, ?_, Collector.waiting_length, fun quiet => ?_⟩
      · rw [out, through]
        exact steady.sender.bursts
      · rw [Line.gap, Line.latency] at quiet
        exact Collector.waiting_empty (steady.sender.settled (by omega))
  | sent leaving whole through clear =>
      have handed := steady.receiver.rested_out (steady.rested clear)
      refine ⟨[l.sender.current], ?_, Nat.le_refl 1, fun quiet => ?_⟩
      · rw [handed, through, bursts_of_current leaving.current]
      · rw [Line.gap] at quiet
        exact absurd (leaving.gone (by omega)) (leaving.air whole)
  | arriving leaving whole begun past last =>
      by_cases empty : l.receiver.collector.held = []
      · obtain ⟨handed, late⟩ := steady.receiver.handedOn begun empty
        -- A partial burst is not handed on: its next piece would have been in time.
        have none : l.air = [] := by
          by_contra some
          have before := (leaving.near together begun last some).2
          omega
        rw [none, List.flatten_nil, List.append_nil] at whole
        refine ⟨[], ?_, Nat.zero_le 1, fun _ => rfl⟩
        rw [List.append_nil, handed, past, whole, bursts_of_current leaving.current]
      · have collected := steady.receiver.bursts
        rw [Collector.waiting_held empty, steady.receiver.held_eq empty,
          bursts_of_current begun] at collected
        refine ⟨[l.sender.current], ?_, Nat.le_refl 1, fun quiet => ?_⟩
        · rw [List.append_cancel_right collected, past, bursts_of_current leaving.current]
        · have soon := leaving.soon
          rw [Line.gap] at quiet
          exact absurd (steady.receiver.settled (by omega)) empty

end

end Link

end Bursts
