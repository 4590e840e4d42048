import RiotNyAlesund.BurstLink
import RiotNyAlesund.GpsBursts

set_option autoImplicit false

/-! Station and rover on one clock, with a pass of main and a wake-up of _rsrx_thread as one step
each: the bursts of the station's UART come out of the rover's. -/
namespace RiotNyAlesund.Gps.Bridge

open Transition Bursts

/-- The times between two passes of main, flushes included, between two of _rsrx_thread, and
between two packets at the rover, all at most, in µs. A packet is there within a period of the
rover. -/
structure Timing where
  pass : Nat
  wakeup : Nat
  airtime : Nat
  fast : airtime < 25600 * 2

theorem chunks_flatten (bytes : List UInt8) : (Base.chunks bytes).flatten = bytes := by
  have stored := Cells.slice_store_self (fun _ => 0) 0 bytes
  rw [← Base.pieces_eq_chunks rfl stored, Cells.flatten_pieces _ (by decide), stored]

theorem chunks_few (bytes : List UInt8) (short : bytes.length ≤ Rover.dumpLimit) :
    (Base.chunks bytes).length ≤ 23 := by
  rw [Base.chunks, Cells.pieces_length, Base.sx127xLoraMsgQueue]
  rw [Rover.dumpLimit] at short
  omega

/-- A burst of the length of a dump takes 23 packets. -/
def line (timing : Timing) : Line UInt8 where
  near := Base.rhythm timing.pass
  far := Rover.rhythm timing.wakeup
  nearLeaves count := Base.leftOver count count
  farLeaves := id
  cut := Base.chunks
  airtime := timing.airtime
  limit := Rover.dumpLimit
  most := 23
  whole := chunks_flatten
  nonempty _ _ member := List.length_pos_iff.mp (Cells.length_of_mem_pieces member).1
  few := chunks_few
  fast := timing.fast

/-- `air` holds the payloads that the station has sent and the rover has not received. -/
structure System where
  base : Base.State
  air : List (List UInt8)
  rover : Rover.State
  link : Link UInt8

def start : System := ⟨Base.start, [], Rover.start, Link.start⟩

/-- What a flush sends is on the air from its start, and arrives packet by packet. -/
def handle (s : System) : Hop UInt8 → System
  | .pass _ => s
  | .arrive items => { s with base := items.foldl Base.rstxThread s.base }
  | .send =>
      { s with
        base := Base.tick s.base
        air := s.air ++ (Base.tick s.base).sent.drop s.base.sent.length }
  | .deliver => { s with air := s.air.tail, rover := Rover.eventCb s.rover (s.air.headD []) }
  | .receive => { s with rover := Rover.wakeup s.rover }

def step (timing : Timing) (s : System) (hop : Hop UInt8) : Option System :=
  (Link.step (line timing) s.link hop).map fun link => { handle s hop with link := link }

/-- The bytes come in bursts that a dump can write, and the bursts are far apart. -/
def Spread (timing : Timing) (s : System) (hop : Hop UInt8) : Prop :=
  Link.Spread (line timing) s.link hop

instance (timing : Timing) (s : System) (hop : Hop UInt8) : Decidable (Spread timing s hop) :=
  inferInstanceAs (Decidable (Link.Spread (line timing) s.link hop))

/-- Both nodes do what their collectors do, and the link carries what the station sends. -/
structure Bridged (timing : Timing) (s : System) : Prop where
  base : Base.Gathers s.base s.link.sender.collector
  rover : Rover.Gathers s.rover s.link.receiver.collector
  air : s.air = s.link.air
  accepted : s.base.accepted = s.link.sender.bursts.flatten
  steady : Link.Steady (line timing) s.link

theorem start_bridged (timing : Timing) : Bridged timing start where
  base := ⟨rfl, rfl, rfl, rfl⟩
  rover := ⟨rfl, rfl, rfl, rfl, Nat.zero_le _⟩
  air := rfl
  accepted := rfl
  steady := Link.start_steady

theorem rstxThread_accepted {items : List UInt8} {s : Base.State}
    (fits : s.compteurin + items.length ≤ bufsize) :
    (items.foldl Base.rstxThread s).accepted = s.accepted ++ items := by
  induction items generalizing s with
  | nil => exact (List.append_nil _).symm
  | cons val rest ih =>
      rw [List.length_cons] at fits
      have room : s.compteurin < bufsize := by omega
      have first : Base.rstxThread s val =
          { s with
            message := Cells.store s.message s.compteurin [val]
            compteurin := s.compteurin + 1
            accepted := s.accepted ++ [val] } := if_pos room
      rw [List.foldl_cons, first, ih (by show s.compteurin + 1 + rest.length ≤ bufsize; omega)]
      exact List.append_assoc _ _ _

theorem tick_accepted (s : Base.State) : (Base.tick s).accepted = s.accepted := by
  rw [Base.tick]
  split
  · split <;> rfl
  · rfl

section

variable {timing : Timing} {s next : System}

theorem arrive_bridged {items : List UInt8} (bridged : Bridged timing s)
    (spread : Spread timing s (.arrive items))
    (taken : step timing s (.arrive items) = some next) : Bridged timing next := by
  obtain ⟨base, rover, air, accepted, steady⟩ := bridged
  rw [step, Option.map_eq_some_iff] at taken
  obtain ⟨link, moved, rfl⟩ := taken
  have steady' := Link.step_steady _ _ _ steady spread moved
  cases moved
  have fits : s.base.compteurin + items.length ≤ bufsize := by
    have short : s.link.sender.collector.held.length + items.length ≤ 1432 := spread.2.1
    rw [base.counted, bufsize]
    omega
  refine ⟨Base.arrive_gathers base fits, rover, air, ?_, steady'⟩
  show (items.foldl Base.rstxThread s.base).accepted = _
  rw [rstxThread_accepted fits, accepted]
  exact (arrive_bursts spread.1).symm

/-- What the flush sends is what the collector hands on, cut into packets. -/
theorem send_bridged (bridged : Bridged timing s) (spread : Spread timing s .send)
    (taken : step timing s .send = some next) : Bridged timing next := by
  obtain ⟨base, rover, air, accepted, steady⟩ := bridged
  rw [step, Option.map_eq_some_iff] at taken
  obtain ⟨link, moved, rfl⟩ := taken
  have steady' := Link.step_steady _ _ _ steady spread moved
  have gathers := Base.tick_gathers base
  have accepted' : (Base.tick s.base).accepted = s.link.sender.bursts.flatten :=
    (tick_accepted s.base).trans accepted
  simp only [Link.step, Option.map_eq_some_iff, Bursts.step, Option.ite_none_right_eq_some,
    Option.some.injEq] at moved
  obtain ⟨sender, ⟨_, rfl⟩, rfl⟩ := moved
  by_cases fires : s.link.sender.collector.Fires
  · rw [if_pos fires] at steady' ⊢
    refine ⟨gathers, rover, ?_, accepted', steady'⟩
    show s.air ++ (Base.tick s.base).sent.drop s.base.sent.length =
      s.link.air ++ Base.chunks s.link.sender.collector.held
    rw [gathers.sent, Collector.look_fires _ fires, List.flatMap_append, ← base.sent,
      List.drop_left, List.flatMap_singleton, air]
  · rw [if_neg fires] at steady' ⊢
    refine ⟨gathers, rover, ?_, accepted', steady'⟩
    show s.air ++ (Base.tick s.base).sent.drop s.base.sent.length = s.link.air
    rw [gathers.sent, Collector.look_out _ fires, ← base.sent, List.drop_length, List.append_nil,
      air]

theorem deliver_bridged (bridged : Bridged timing s)
    (taken : step timing s .deliver = some next) : Bridged timing next := by
  obtain ⟨base, rover, air, accepted, steady⟩ := bridged
  rw [step, Option.map_eq_some_iff] at taken
  obtain ⟨link, moved, rfl⟩ := taken
  have steady' := Link.deliver_steady steady moved
  simp only [Link.step] at moved
  split at moved
  · cases moved
  · rename_i piece rest split
    cases moved
    rw [split] at air
    have room : s.rover.indexin + piece.length ≤ Rover.dumpLimit := by
      rw [rover.counted]
      exact steady.room split
    have received := Rover.eventCb_gathers rover room
    refine ⟨base, ?_, ?_, accepted, steady'⟩
    · show Rover.Gathers (Rover.eventCb s.rover (s.air.headD [])) _
      rw [air]
      exact received
    · show s.air.tail = rest
      rw [air, List.tail_cons]

theorem receive_bridged (bridged : Bridged timing s) (spread : Spread timing s .receive)
    (taken : step timing s .receive = some next) : Bridged timing next := by
  obtain ⟨base, rover, air, accepted, steady⟩ := bridged
  rw [step, Option.map_eq_some_iff] at taken
  obtain ⟨link, moved, rfl⟩ := taken
  have steady' := Link.receive_steady steady spread moved
  simp only [Link.step, Option.map_eq_some_iff, Bursts.step, Option.ite_none_right_eq_some,
    Option.some.injEq] at moved
  obtain ⟨receiver, ⟨_, rfl⟩, rfl⟩ := moved
  exact ⟨base, Rover.wakeup_gathers rover, air, accepted, steady'⟩

theorem pass_bridged {time : Nat} (bridged : Bridged timing s)
    (taken : step timing s (.pass time) = some next) : Bridged timing next := by
  obtain ⟨base, rover, air, accepted, steady⟩ := bridged
  rw [step, Option.map_eq_some_iff] at taken
  obtain ⟨link, moved, rfl⟩ := taken
  have steady' := Link.pass_steady steady moved
  simp only [Link.step, Option.ite_none_right_eq_some, Option.bind_eq_some_iff,
    Option.map_eq_some_iff, Bursts.step, Option.some.injEq] at moved
  obtain ⟨_, sender, ⟨_, rfl⟩, receiver, ⟨_, rfl⟩, rfl⟩ := moved
  exact ⟨base, rover, air, accepted, steady'⟩

theorem step_bridged (s : System) (hop : Hop UInt8) (next : System) (bridged : Bridged timing s)
    (spread : Spread timing s hop) (taken : step timing s hop = some next) :
    Bridged timing next := by
  cases hop with
  | pass time => exact pass_bridged bridged taken
  | arrive items => exact arrive_bridged bridged spread taken
  | send => exact send_bridged bridged spread taken
  | deliver => exact deliver_bridged bridged taken
  | receive => exact receive_bridged bridged spread taken

end

/-- Bursts within the limit of a dump come out of the rover as they went into the station, one
dump for each, when the pause between two of them lets one through: two passes of main, the
packets of a longest burst, and two wake-ups of the rover. Only the last burst may be on its
way, and it is out after that time. -/
theorem bursts_bridged (timing : Timing) (hops : List (Hop UInt8)) (s : System)
    (reached : execute (step timing) start hops = some s)
    (spread : Meets (step timing) (Spread timing) start hops) :
    s.link.sender.bursts.flatten = s.base.accepted ∧
    ∃ waiting, s.rover.written ++ waiting = s.link.sender.bursts ∧ waiting.length ≤ 1 ∧
      (s.link.sender.arrived + (2 * timing.pass + 23 * timing.airtime + 2 * timing.wakeup) <
        s.link.sender.now → waiting = []) := by
  have bridged := invariant step_bridged (start_bridged timing) spread reached
  refine ⟨bridged.accepted.symm, ?_⟩
  rw [bridged.rover.written]
  exact bridged.steady.through

def slowRadio : Timing := ⟨26000, 52000, 30000, by decide⟩

def period : List (Hop UInt8) := [.pass 25600, .send, .pass 25600, .send, .receive]

/-- A burst of two packets, and one of one byte when the first is through. -/
def twoBursts : List (Hop UInt8) :=
  .arrive (List.replicate 65 7) :: period ++
    [.pass 20000, .deliver, .pass 5600, .send, .pass 20000, .deliver, .pass 5600, .send,
      .receive] ++
    (List.replicate 15 period).flatten ++
    .arrive [8] :: period ++
    [.pass 20000, .deliver, .pass 5600, .send, .pass 25600, .send, .receive] ++ period

theorem bursts_bridged_twice :
    ∃ s, execute (step slowRadio) start twoBursts = some s ∧
      s.rover.written = [List.replicate 65 7, [8]] ∧
      s.link.sender.bursts.flatten = s.base.accepted ∧
      ∃ waiting, s.rover.written ++ waiting = s.link.sender.bursts ∧ waiting.length ≤ 1 ∧
        (s.link.sender.arrived + (2 * 26000 + 23 * 30000 + 2 * 52000) < s.link.sender.now →
          waiting = []) := by
  have ran : (execute (step slowRadio) start twoBursts).map (fun s => s.rover.written) =
      some [List.replicate 65 7, [8]] := by decide +kernel
  obtain ⟨s, reached, written⟩ := Option.map_eq_some_iff.mp ran
  exact ⟨s, reached, written, bursts_bridged slowRadio twoBursts s reached (by decide +kernel)⟩

end RiotNyAlesund.Gps.Bridge
