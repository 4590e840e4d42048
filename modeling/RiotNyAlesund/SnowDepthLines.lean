import RiotNyAlesund.SnowDepthRing
import RiotNyAlesund.SnowDepthCycle

set_option autoImplicit false

/-! While no byte and no notification is lost, each cycle takes the next nine lines. -/
namespace RiotNyAlesund.SnowDepth

open Transition

/-- An interrupt overwrites no byte of the ring, and its notification is not dropped. -/
def Kept (s : State) : Action → Prop
  | .rx data => s.ring.items.length < uartBufsize ∧
      (data = cr → s.queue.isSome = true ∧ waiting s < msgQueue)
  | _ => True

instance (s : State) : ∀ action, Decidable (Kept s action)
  | .rx _ => inferInstanceAs (Decidable (_ ∧ _))
  | .printer _ | .main _ => inferInstanceAs (Decidable True)

/-- Every line in the ring has its notification, and every notification its line. -/
structure Settled (s : State) : Prop where
  ordered : Ordered s
  early : s.main = .lock ∨ s.main = .initRing → s.uart = false ∧ s.ring.items = []
  unset : s.pc = .initQueue → s.queue = none
  balanced : waiting s + working s = lines s

theorem Settled.backed {s : State} (settled : Settled s) : Backed s :=
  (backed_iff s).mpr (Nat.le_of_eq settled.balanced)

/-- The bytes of a cycle that has not sent. -/
def unsent (f : Followed) : List UInt8 := if f.node.pc.Sent then [] else f.taken

/-- The bytes received are those of the cycles in order, then those of this cycle, then those
in the ring. -/
structure Framed (f : Followed) : Prop where
  tracks : Tracks f
  settled : Settled f.node
  divided : f.stream = (f.cycles.map Cycle.taken).flatten ++ unsent f ++
    f.node.ring.items.map Cell.byte
  groups : Lines.Groups cr 9 (f.cycles.map Cycle.taken)
  collected : ∀ cycle ∈ f.cycles,
    cycle.collected.map Cell.byte = Lines.after cr 6 cycle.taken

/-- A step that takes no byte and does not send. -/
theorem Framed.frame {f g : Followed} (framed : Framed f) (tracks : Tracks g)
    (settled : Settled g.node) (stream : g.stream = f.stream) (cycles : g.cycles = f.cycles)
    (owed : unsent g = unsent f) (ring : g.node.ring.items = f.node.ring.items) :
    Framed g where
  tracks := tracks
  settled := settled
  divided := by rw [stream, cycles, owed, ring, framed.divided]
  groups := by
    rw [cycles]
    exact framed.groups
  collected := by
    rw [cycles]
    exact framed.collected

end RiotNyAlesund.SnowDepth
