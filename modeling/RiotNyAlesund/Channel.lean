set_option autoImplicit false

/-- A lossless first-in first-out channel with its history: what it has taken in is what it
has passed on followed by what it still holds. -/
structure Channel (α : Type) where
  taken : List α
  passed : List α
  held : List α
  conserved : passed ++ held = taken

namespace Channel

variable {α : Type}

def empty : Channel α := ⟨[], [], [], rfl⟩

/-- Take in `items` behind everything already held. -/
def accept (channel : Channel α) (items : List α) : Channel α where
  taken := channel.taken ++ items
  passed := channel.passed
  held := channel.held ++ items
  conserved := by rw [← List.append_assoc, channel.conserved]

/-- Pass on the oldest `count` items held. -/
def pass (channel : Channel α) (count : Nat) : Channel α where
  taken := channel.taken
  passed := channel.passed ++ channel.held.take count
  held := channel.held.drop count
  conserved := by rw [List.append_assoc, List.take_append_drop, channel.conserved]

inductive Move : Channel α → Channel α → Prop
  | accept (channel : Channel α) (items : List α) : Move channel (channel.accept items)
  | pass (channel : Channel α) (count : Nat) : Move channel (channel.pass count)

/-- Two channels one after the other, with `between` on its way from the first to the second. -/
def series (first second : Channel α) (between : List α)
    (joined : first.passed = second.taken ++ between) : Channel α where
  taken := first.taken
  passed := second.passed
  held := second.held ++ between ++ first.held
  conserved := by
    rw [← first.conserved, joined, ← second.conserved, List.append_assoc, List.append_assoc,
      List.append_assoc]

/-- A channel that holds nothing has passed on all it took. -/
theorem passed_eq_taken (channel : Channel α) (drained : channel.held = []) :
    channel.passed = channel.taken := by
  rw [← channel.conserved, drained, List.append_nil]

end Channel
