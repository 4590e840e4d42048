import RiotNyAlesund.Transition
import Mathlib.Data.List.Nodup

set_option autoImplicit false

/- 2604_meshcore: SensorMesh::alertIf with the block that the patch puts in front of it. -/
namespace RiotNyAlesund.Meshcore

open Transition

inductive AlertPriority
  | lowPriAlert
  | highPriAlert
  deriving DecidableEq, Repr

structure Trigger where
  text : List Char
  pri : AlertPriority
  sendExpiry : Nat
  attempt : Nat
  currContactIdx : Int
  deriving DecidableEq, Repr

/-- The arguments of alertIf, with the trigger by its name. -/
structure Call (τ : Type) where
  condition : Bool
  t : τ
  pri : AlertPriority
  text : List Char
  deriving DecidableEq, Repr

/-- `alertTasks` is alert_tasks[0..num_alert_tasks), and `calling` the call of alertIf that has
left the patched block and not yet returned. -/
structure State (τ : Type) where
  triggers : τ → Trigger
  alertTasks : List τ
  calling : Option (Call τ)

def Trigger.isTriggered (t : Trigger) : Bool := t.text ≠ []

/-- The sources that the patch does not show: the capacity of the queue, the copy of a text
into a trigger, the guarded branch after that copy, the branch for a false condition, and the
other operations of SensorMesh. -/
structure Unseen (τ ρ : Type) where
  maxConcurrentAlerts : Nat
  copyText : List Char → List Char
  raise : Call τ → State τ → State τ
  lower : Call τ → State τ → State τ
  other : ρ → State τ → State τ
  raise_enqueues : ∀ call s, (raise call s).alertTasks = s.alertTasks ++ [call.t]
  lower_removes : ∀ call s, (lower call s).alertTasks.Sublist s.alertTasks
  other_removes : ∀ operation s, (other operation s).alertTasks.Sublist s.alertTasks

inductive Action (τ ρ : Type)
  | alertIf (call : Call τ)
  | finish
  | other (operation : ρ)
  deriving DecidableEq, Repr

def start {τ : Type} (triggers : τ → Trigger) : State τ := ⟨triggers, [], none⟩

section Model

variable {τ ρ : Type} [DecidableEq τ] (unseen : Unseen τ ρ)

def setTrigger (s : State τ) (t : τ) (trigger : Trigger) : State τ :=
  { s with triggers := fun other => if other = t then trigger else s.triggers other }

/-- The patched block. -/
def forcePeriodic (call : Call τ) (s : State τ) : State τ :=
  if call.text.head? = some 'P' then
    { setTrigger s call.t ⟨unseen.copyText call.text, call.pri, 0, 3, -1⟩ with
      alertTasks := s.alertTasks ++ [call.t] }
  else s

/-- The rest of alertIf. -/
def raiseOrLower (call : Call τ) (s : State τ) : State τ :=
  if call.condition then
    if !(s.triggers call.t).isTriggered && s.alertTasks.length < unseen.maxConcurrentAlerts then
      unseen.raise call (setTrigger s call.t
        { s.triggers call.t with text := unseen.copyText call.text })
    else s
  else unseen.lower call s

def step (s : State τ) : Action τ ρ → Option (State τ)
  | .alertIf call =>
      match s.calling with
      | none => some { forcePeriodic unseen call s with calling := some call }
      | some _ => none
  | .finish =>
      match s.calling with
      | none => none
      | some call => some { raiseOrLower unseen call s with calling := none }
  | .other operation =>
      match s.calling with
      | none => some { unseen.other operation s with calling := none }
      | some _ => none

end Model

section Queue

variable {τ ρ : Type} (unseen : Unseen τ ρ)

/-- The queue is within its array, and no trigger is in it twice. -/
def Sound (s : State τ) : Prop :=
  s.alertTasks.length ≤ unseen.maxConcurrentAlerts ∧ s.alertTasks.Nodup

/-- A call about to enqueue its trigger does not find it in the queue, and the patched block
finds room. -/
def Admitted (s : State τ) : Action τ ρ → Prop
  | .alertIf call => call.text.head? = some 'P' →
      s.alertTasks.length < unseen.maxConcurrentAlerts ∧ call.t ∉ s.alertTasks
  | .finish =>
      match s.calling with
      | none => True
      | some call => call.condition = true → (s.triggers call.t).isTriggered = false →
          s.alertTasks.length < unseen.maxConcurrentAlerts → call.t ∉ s.alertTasks
  | .other _ => True

theorem nodup_append_singleton_iff {tasks : List τ} (t : τ) (distinct : tasks.Nodup) :
    (tasks ++ [t]).Nodup ↔ t ∉ tasks := by
  simp [List.nodup_append', distinct]

theorem Sound.sublist {s t : State τ} (sound : Sound unseen s)
    (removes : t.alertTasks.Sublist s.alertTasks) : Sound unseen t :=
  ⟨Nat.le_trans removes.length_le sound.1, removes.nodup sound.2⟩

variable [DecidableEq τ]

instance (s : State τ) : Decidable (Sound unseen s) := inferInstanceAs (Decidable (_ ∧ _))

/-- The patched block keeps the queue sound where it enqueues a new trigger into a free slot. -/
theorem forcePeriodic_sound_iff {s : State τ} (call : Call τ) (sound : Sound unseen s) :
    Sound unseen (forcePeriodic unseen call s) ↔
      Admitted unseen s (Action.alertIf call : Action τ ρ) := by
  by_cases forced : call.text.head? = some 'P'
  · simp only [Sound, forcePeriodic, Admitted, forced, ↓reduceIte, forall_const,
      List.length_append, List.length_singleton, nodup_append_singleton_iff call.t sound.2]
    exact Iff.rfl
  · simp only [forcePeriodic, Admitted, forced, ↓reduceIte, false_implies, iff_true]
    exact sound

/-- The guarded branch checks for a free slot, so all it needs is a new trigger. -/
theorem raiseOrLower_sound_iff {s : State τ} {call : Call τ} (sound : Sound unseen s)
    (calling : s.calling = some call) :
    Sound unseen (raiseOrLower unseen call s) ↔
      Admitted unseen s (Action.finish : Action τ ρ) := by
  by_cases raises : call.condition = true
  · by_cases passes : (s.triggers call.t).isTriggered = false ∧
        s.alertTasks.length < unseen.maxConcurrentAlerts
    · obtain ⟨fresh, room⟩ := passes
      simp only [Sound, raiseOrLower, Admitted, calling, raises, fresh, room, Bool.not_false,
        decide_true, Bool.and_self, ↓reduceIte, forall_const, unseen.raise_enqueues, setTrigger,
        List.length_append, List.length_singleton, nodup_append_singleton_iff call.t sound.2]
      exact and_iff_right room
    · have blocked : ¬(!(s.triggers call.t).isTriggered &&
          decide (s.alertTasks.length < unseen.maxConcurrentAlerts)) = true := by
        simpa only [Bool.and_eq_true, Bool.not_eq_true', decide_eq_true_eq] using passes
      simp only [raiseOrLower, Admitted, calling, raises, blocked, ↓reduceIte, forall_const]
      exact iff_of_true sound fun fresh room => absurd ⟨fresh, room⟩ passes
  · simp only [raiseOrLower, Admitted, calling, raises, Bool.false_eq_true, ↓reduceIte,
      false_implies, iff_true]
    exact sound.sublist unseen (unseen.lower_removes call s)

/-- The queue stays sound exactly in the runs in which every call that enqueues finds its
trigger outside the queue, and the patched block a free slot. -/
theorem always_sound_iff (triggers : τ → Trigger) (actions : List (Action τ ρ)) :
    Always (step unseen) (Sound unseen) (start triggers) actions ↔
      Meets (step unseen) (Admitted unseen) (start triggers) actions := by
  have exact : ∀ (s : State τ) (action : Action τ ρ) (t : State τ), True → Sound unseen s →
      step unseen s action = some t → (Sound unseen t ↔ Admitted unseen s action) := by
    intro s action t _ sound taken
    cases action with
    | alertIf call =>
        cases calling : s.calling <;> simp only [step, calling, reduceCtorEq] at taken
        cases taken
        exact forcePeriodic_sound_iff unseen call sound
    | finish =>
        cases calling : s.calling <;> simp only [step, calling, reduceCtorEq] at taken
        cases taken
        exact raiseOrLower_sound_iff unseen sound calling
    | other operation =>
        cases calling : s.calling <;> simp only [step, calling, reduceCtorEq] at taken
        cases taken
        exact iff_of_true (sound.sublist unseen (unseen.other_removes operation s)) trivial
  have keeps : ∀ (s : State τ) (action : Action τ ρ) (t : State τ), True →
      step unseen s action = some t → True := fun _ _ _ _ _ => trivial
  exact always_iff_meets keeps exact actions trivial ⟨Nat.zero_le _, List.nodup_nil⟩

end Queue

/-- The triggers of MyMesh. -/
inductive Sensor
  | criticalBatt
  | lowBatt
  | periodic
  deriving DecidableEq, Repr

/-- The calls of MyMesh::onSensorDataRead, with the outcomes of its three comparisons. -/
def onSensorDataRead {ρ : Type} (critical low elapsed : Bool) : List (Action Sensor ρ) :=
  [.alertIf ⟨critical, .criticalBatt, .highPriAlert, "Battery is critical!".toList⟩, .finish,
    .alertIf ⟨low, .lowBatt, .lowPriAlert, "Battery is low".toList⟩, .finish,
    .alertIf ⟨elapsed, .periodic, .lowPriAlert, "Periodic JMF".toList⟩, .finish]

/-- A SensorMesh with four slots, whose other operations remove the entry at an index. -/
def fourSlots : Unseen Sensor Nat where
  maxConcurrentAlerts := 4
  copyText := id
  raise := fun call s =>
    { setTrigger s call.t ⟨(s.triggers call.t).text, call.pri, 0, 4, -1⟩ with
      alertTasks := s.alertTasks ++ [call.t] }
  lower := fun call s =>
    { setTrigger s call.t { s.triggers call.t with text := [] } with
      alertTasks := s.alertTasks.erase call.t }
  other := fun index s => { s with alertTasks := s.alertTasks.eraseIdx index }
  raise_enqueues := fun _ _ => rfl
  lower_removes := fun _ _ => List.erase_sublist
  other_removes := fun _ _ => List.eraseIdx_sublist _ _

/-- A second reading that comes before the first periodic alert is out enqueues it again. -/
theorem periodic_enqueued_twice :
    ¬ ∀ actions : List (Action Sensor Nat), Always (step fourSlots) (Sound fourSlots)
      (start fun _ => ⟨[], .lowPriAlert, 0, 0, 0⟩) actions := by
  intro claim
  have sound := claim (onSensorDataRead false false true ++ onSensorDataRead false false true)
  exact absurd sound (by decide +kernel)

end RiotNyAlesund.Meshcore
