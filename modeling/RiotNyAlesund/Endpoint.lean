import RiotNyAlesund.Forge
import RiotNyAlesund.HexDump
import RiotNyAlesund.Pace

set_option autoImplicit false

/- The mains of lora_relay/Endpoint and lora_relay/simpleExample: the keys, the join, and the
uplinks. -/
namespace RiotNyAlesund.Endpoint

open Transition Pace Forge HexDump

/-- Where the two mains differ: the sleep after the join, if there is one, in µs, and the text
they send. -/
structure Program where
  settle : Option Nat
  message : List Char

def endpoint : Program := ⟨none, "my message".toList⟩

def simpleExample : Program := ⟨some (10 * 1000000), "this is a message".toList⟩

/-- SEND_PERIOD* 1000000, in µs. -/
def sendPeriod : Nat := 30 * 1000000

/-- What a node starts from. `others` are the arrays as they happen to be, `overrun` is what is
left of them where one of them is written past its end, and fmt_hex_bytes and the SHA-1 are
RIOT's. -/
structure Boot where
  fmtHexBytes : List Char → List UInt8
  sha1 : List UInt8 → Vector UInt8 sha1DigestLength
  cpuid : List UInt8
  secretText : List Char
  others : Region → Nat → UInt8
  overrun : Memory

structure Keys where
  deveui : List UInt8
  appeui : List UInt8
  appkey : List UInt8
  deriving DecidableEq, Repr

/-- The arrays with the secret that fmt_hex_bytes has written. -/
def Boot.arrays (boot : Boot) : Region → Nat → UInt8
  | .secret => Cells.store (boot.others .secret) 0 (boot.fmtHexBytes boot.secretText)
  | region => boot.others region

/-- fmt_hex_bytes stays inside `secret`, and the copy of the CPUID inside `deveui`. -/
def Boot.Contained (boot : Boot) : Prop :=
  (boot.fmtHexBytes boot.secretText).length ≤ appkeyLen ∧ deveuiLen ≤ boot.cpuid.length

instance (boot : Boot) : Decidable boot.Contained := inferInstanceAs (Decidable (_ ∧ _))

def Boot.forged (boot : Boot) : Memory :=
  if boot.Contained then forgeEuisAndKey boot.sha1 boot.cpuid (entry boot.arrays)
  else boot.overrun

/-- What DEBUG and printf_ba print of an array, up to the end of the line. -/
def keyLine (memory : Memory) (label : String) (region : Region) (len : Nat) : List Char :=
  label.toList ++ printfBa (memory.block region 0 len)

/-- set_keys: the lines it prints, and the keys that the MAC layer is given. -/
def setKeys (boot : Boot) : List (List Char) × Keys :=
  ([keyLine boot.forged "[otaa] Secret:" .secret appkeyLen,
    keyLine boot.forged "[otaa] DevEUI:" .deveui deveuiLen,
    keyLine boot.forged "[otaa] AppEUI:" .appeui appeuiLen,
    keyLine boot.forged "[otaa] AppKey:" .appkey appkeyLen],
   ⟨boot.forged.block .deveui 0 deveuiLen, boot.forged.block .appeui 0 appeuiLen,
    boot.forged.block .appkey 0 appkeyLen⟩)

/-- The statement main is at. `configure` covers set_param and the synchronisation word of the
one, and set_tx_mode of the other. -/
inductive Pc
  | init
  | setKeys
  | join
  | settle
  | configure
  | send
  | report (done : Bool)
  | asleep
  | stopped
  deriving DecidableEq, Repr

/-- A call of semtech_loramac_send, with the keys of the MAC layer then. -/
structure Uplink where
  keys : Option Keys
  message : List Char
  deriving DecidableEq, Repr

structure State where
  pc : Pc
  keyLines : List (List Char)
  keys : Option Keys
  uplinks : List Uplink
  deriving DecidableEq, Repr

def start : State := ⟨.init, [], none, []⟩

/-- `ok` is the outcome of semtech_loramac_join, or of semtech_loramac_send. -/
def step (program : Program) (boot : Boot) (s : State) (ok : Bool) : Option State :=
  match s.pc with
  | .init => some { s with pc := .setKeys }
  | .setKeys =>
      some { s with keyLines := (setKeys boot).1, keys := some (setKeys boot).2, pc := .join }
  | .join =>
      some { s with
        pc := if ok then (if program.settle.isSome then .settle else .configure) else .stopped }
  | .settle => some { s with pc := .configure }
  | .configure => some { s with pc := .send }
  | .send =>
      some { s with uplinks := s.uplinks ++ [⟨s.keys, program.message⟩], pc := .report ok }
  | .report _ => some { s with pc := .asleep }
  | .asleep => some { s with pc := .configure }
  | .stopped => none

/-- Statements before set_keys. -/
def Pc.Keyless : Pc → Prop
  | .init | .setKeys => True
  | _ => False

/-- Statements up to the first uplink, and the end after a join that failed. -/
def Pc.Silent : Pc → Prop
  | .init | .setKeys | .join | .settle | .stopped => True
  | _ => False

/-- Past set_keys the MAC layer has the keys and the lines are printed, and uplinks come from
main's loop only. -/
structure Keyed (program : Program) (boot : Boot) (s : State) : Prop where
  before : s.pc.Keyless → s.keys = none ∧ s.keyLines = []
  after : ¬s.pc.Keyless → s.keys = some (setKeys boot).2 ∧ s.keyLines = (setKeys boot).1
  silent : s.pc.Silent → s.uplinks = []
  uplinks : ∀ uplink ∈ s.uplinks, uplink = ⟨some (setKeys boot).2, program.message⟩

section

variable {program : Program} {boot : Boot}

theorem start_keyed : Keyed program boot start :=
  ⟨fun _ => ⟨rfl, rfl⟩, fun past => absurd trivial past, fun _ => rfl,
    fun _ member => absurd member List.not_mem_nil⟩

theorem step_keyed (s : State) (ok : Bool) (t : State) (keyed : Keyed program boot s)
    (taken : step program boot s ok = some t) : Keyed program boot t := by
  obtain ⟨before, after, silent, uplinks⟩ := keyed
  cases pc : s.pc <;> simp only [step, pc] at taken <;>
    simp only [pc, Pc.Keyless, Pc.Silent, not_true_eq_false, not_false_eq_true, false_implies,
      forall_const] at before after silent
  case init =>
    cases taken
    exact ⟨fun _ => before, fun past => absurd trivial past, fun _ => silent, uplinks⟩
  case setKeys =>
    cases taken
    exact ⟨fun early => early.elim, fun _ => ⟨rfl, rfl⟩, fun _ => silent, uplinks⟩
  case join =>
    cases taken
    have entered : ∀ pc : Pc, pc = (if ok then (if program.settle.isSome then Pc.settle
        else .configure) else .stopped) → ¬pc.Keyless := by
      rintro pc rfl
      split
      · split <;> exact id
      · exact id
    exact ⟨fun early => absurd early (entered _ rfl), fun _ => after, fun _ => silent, uplinks⟩
  case send =>
    cases taken
    refine ⟨fun early => early.elim, fun _ => after, fun early => early.elim, ?_⟩
    intro uplink member
    rcases List.mem_append.mp member with member | last
    · exact uplinks uplink member
    · rw [List.mem_singleton.mp last, after.1]
  case stopped => cases taken
  all_goals
    cases taken
    exact ⟨fun early => early.elim, fun _ => after, fun early => early.elim, uplinks⟩

theorem forged_eq (sized : (boot.fmtHexBytes boot.secretText).length = appkeyLen)
    (long : deveuiLen ≤ boot.cpuid.length) :
    boot.forged = forgeEuisAndKey boot.sha1 boot.cpuid (entry boot.arrays) :=
  if_pos ⟨Nat.le_of_eq sized, long⟩

/-- Forging within the arrays leaves the secret as it is. -/
theorem forged_secret (sized : (boot.fmtHexBytes boot.secretText).length = appkeyLen)
    (long : deveuiLen ≤ boot.cpuid.length) :
    boot.forged.block .secret 0 appkeyLen = boot.fmtHexBytes boot.secretText := by
  have stored := Cells.slice_store_self (boot.others .secret) 0 (boot.fmtHexBytes boot.secretText)
  rw [sized] at stored
  rw [forged_eq sized long, forgeEuisAndKey, Regions.Memory.block,
    forgeAppkey_cells _ (by decide) (by decide), forgeAppeui_cells (by decide),
    forgeDeveui_cells (by decide), Regions.Memory.write_cells_other _ _ _ (by decide)]
  exact stored

/-- The digits of a line, behind its fourteen characters of label. -/
def digits (line : List Char) : List Char := line.drop 14

theorem digits_keyLine {label : String} (sized : label.toList.length = 14) (memory : Memory)
    (region : Region) (len : Nat) :
    digits (keyLine memory label region len) = printfBa (memory.block region 0 len) :=
  List.drop_left' sized

/-- What the lines of set_keys show is what it has stored. -/
theorem digits_setKeys : (setKeys boot).1.map digits =
    [printfBa (boot.forged.block .secret 0 appkeyLen), printfBa (setKeys boot).2.deveui,
      printfBa (setKeys boot).2.appeui, printfBa (setKeys boot).2.appkey] := by
  simp only [setKeys, List.map_cons, List.map_nil]
  rw [digits_keyLine rfl, digits_keyLine rfl, digits_keyLine rfl, digits_keyLine rfl]

/-- Once a node with a CPUID of eight bytes or more and a SECRET of sixteen has printed its keys,
its lines give them back: who reads the lines as fmt_hex_bytes does has the secret of the node and
the keys that its MAC layer has at the join and at every uplink, and they are the ones forged from
its CPUID and this secret. -/
theorem keys_read_back (program : Program) (boot : Boot)
    (reads : ∀ bytes, boot.fmtHexBytes (printfBa bytes) = bytes)
    (sized : (boot.fmtHexBytes boot.secretText).length = appkeyLen)
    (long : deveuiLen ≤ boot.cpuid.length) (outcomes : List Bool) (s : State)
    (reached : execute (step program boot) start outcomes = some s) :
    (s.keyLines = [] ∧ s.keys = none ∧ s.uplinks = []) ∨
      ∃ keys, s.keys = some keys ∧ (∀ uplink ∈ s.uplinks, uplink.keys = some keys) ∧
        (s.keyLines.map digits).map boot.fmtHexBytes =
          [boot.fmtHexBytes boot.secretText, keys.deveui, keys.appeui, keys.appkey] ∧
        keys.deveui = rightAligned boot.cpuid ∧
        keys.appeui = (rightAligned boot.cpuid).take 4 ++ [0xff, 0xff, 0xff, 0xff] ∧
        keys.appkey = (boot.sha1 (keys.deveui ++ keys.appeui ++
          boot.fmtHexBytes boot.secretText)).toList.take appkeyLen := by
  have keyed : Keyed program boot s := invariant_of_step step_keyed start_keyed reached
  by_cases early : s.pc.Keyless
  · left
    refine ⟨(keyed.before early).2, (keyed.before early).1, keyed.silent ?_⟩
    cases pc : s.pc <;> rw [pc] at early <;> first | exact early.elim | trivial
  · right
    obtain ⟨keys, lines⟩ := keyed.after early
    have forged := forge_forged boot.sha1 boot.cpuid boot.arrays long
    rw [← forged_eq sized long] at forged
    have secret : Cells.slice (boot.arrays .secret) 0 appkeyLen =
        boot.fmtHexBytes boot.secretText := by
      rw [← sized]
      exact Cells.slice_store_self _ _ _
    refine ⟨(setKeys boot).2, keys, ?_, ?_, forged.deveui, forged.appeui, ?_⟩
    · intro uplink member
      rw [keyed.uplinks uplink member]
    · rw [lines, digits_setKeys, forged_secret sized long]
      simp only [List.map_cons, List.map_nil, reads]
    · have appkey := forged.appkey
      rw [secret] at appkey
      rw [show (setKeys boot).2.deveui = rightAligned boot.cpuid from forged.deveui,
        show (setKeys boot).2.appeui = (rightAligned boot.cpuid).take 4 ++
          [0xff, 0xff, 0xff, 0xff] from forged.appeui]
      exact appkey

/-- A CPUID of twelve bytes, a hash that is constant, and the SECRET of the Makefile. -/
def exampleBoot : Boot where
  fmtHexBytes := HexText.unhex
  sha1 _ := Vector.replicate _ 7
  cpuid := [1, 2, 3, 4, 5, 6, 7, 8, 9, 10, 11, 12]
  secretText := "cafebabe02000001cafebabe02ffffff".toList
  others _ _ := 0
  overrun := entry fun _ _ => 0

theorem keys_read_back_once :
    ∃ s, execute (step endpoint exampleBoot) start [true, true, true, true, true] = some s ∧
      s.uplinks.map Uplink.message = ["my message".toList] ∧
      ((s.keyLines = [] ∧ s.keys = none ∧ s.uplinks = []) ∨
        ∃ keys, s.keys = some keys ∧ (∀ uplink ∈ s.uplinks, uplink.keys = some keys) ∧
          (s.keyLines.map digits).map exampleBoot.fmtHexBytes =
            [exampleBoot.fmtHexBytes exampleBoot.secretText, keys.deveui, keys.appeui,
              keys.appkey] ∧
          keys.deveui = rightAligned exampleBoot.cpuid ∧
          keys.appeui = (rightAligned exampleBoot.cpuid).take 4 ++ [0xff, 0xff, 0xff, 0xff] ∧
          keys.appkey = (exampleBoot.sha1 (keys.deveui ++ keys.appeui ++
            exampleBoot.fmtHexBytes exampleBoot.secretText)).toList.take appkeyLen) :=
  ⟨_, rfl, rfl, keys_read_back endpoint exampleBoot HexText.unhex_padded (by decide) (by decide)
    [true, true, true, true, true] _ rfl⟩

end

/-- The node on a clock in µs, with xtimer_usleep. -/
def sleeper (program : Program) (boot : Boot) : Sleeper State Bool where
  step := step program boot
  sleeps s :=
    match s.pc with
    | .settle => program.settle
    | .asleep => some sendPeriod
    | _ => none
  event s _ := s.pc == .send

/-- The node has sent before, and has slept since. -/
structure Slept (s : State) : Prop where
  sent : s.uplinks ≠ []
  awake : s.pc = .configure ∨ s.pc = .send

section

variable {program : Program} {boot : Boot} {s t : State} {ok : Bool}

/-- Nothing but the call of semtech_loramac_send is an uplink. -/
theorem step_uplinks (taken : step program boot s ok = some t) :
    t.uplinks = s.uplinks ++ if s.pc == .send then [⟨s.keys, program.message⟩] else [] := by
  cases pc : s.pc <;> simp only [step, pc] at taken
  case stopped => cases taken
  case send =>
    cases taken
    rfl
  all_goals
    cases taken
    exact (List.append_nil _).symm

theorem step_counts (taken : step program boot s ok = some t) :
    t.uplinks.length = s.uplinks.length + if s.pc == .send then 1 else 0 := by
  rw [step_uplinks taken, List.length_append]
  split <;> rfl

/-- The loop comes back to its uplink through its sleep only. -/
theorem step_slept (keyed : Keyed program boot s) (taken : step program boot s ok = some t)
    (elsewhere : s.pc ≠ .send) (slept : Slept t) :
    Slept s ∨ (s.pc = .asleep ∧ t.pc = .configure) := by
  have same : t.uplinks = s.uplinks := by
    rw [step_uplinks taken, if_neg (by simpa using elsewhere), List.append_nil]
  obtain ⟨sent, awake⟩ := slept
  rw [same] at sent
  cases pc : s.pc <;> simp only [step, pc] at taken
  case init | setKeys | join | settle =>
    exact absurd (keyed.silent (by rw [pc]; trivial)) sent
  case configure => exact Or.inl ⟨sent, Or.inl pc⟩
  case asleep =>
    cases taken
    exact Or.inr ⟨rfl, rfl⟩
  case report =>
    cases taken
    rcases awake with moved | moved <;> cases moved
  case send => exact absurd pc elsewhere
  case stopped => cases taken

theorem sleeper_rests : Rests (sleeper program boot) sendPeriod (Keyed program boot)
    (fun s => s.uplinks = []) Slept where
  keeps := step_keyed
  event := by
    intro s ok t keyed taken event
    have sends : s.pc = .send := eq_of_beq event
    have sent : t.uplinks ≠ [] := by
      rw [step_uplinks taken, sends]
      exact List.append_ne_nil_of_right_ne_nil _ (List.cons_ne_nil _ _)
    refine ⟨by simp only [sleeper, sends], ?_, sent, ?_⟩
    · by_cases first : s.uplinks = []
      · exact Or.inl first
      · exact Or.inr ⟨first, Or.inr sends⟩
    · intro slept
      simp only [sleeper, step, sends, Option.some.injEq] at taken
      subst taken
      rcases slept.awake with moved | moved <;> cases moved
  stale := by
    intro s ok t _ taken _ first
    rw [step_uplinks taken] at first
    exact (List.append_eq_nil_iff.mp first).1
  sleep := by
    intro s ok t keyed taken quiet slept
    have elsewhere : s.pc ≠ .send := by simpa [sleeper] using quiet
    rcases step_slept keyed taken elsewhere slept with before | ⟨asleep, awake⟩
    · exact Or.inl before
    · exact Or.inr ⟨sendPeriod, Nat.le_refl _, by simp only [sleeper, asleep],
        by simp only [sleeper, awake]⟩

end

/-- A node sends whole messages only, with its keys, and at least SEND_PERIOD apart: no
stretch of time holds more of them than that allows. -/
theorem messages_paced (program : Program) (boot : Boot) (actions : List (Pace.Action Bool))
    (s : Timed State)
    (reached : execute (run (sleeper program boot)) (begin start) actions = some s) :
    s.marks.length = s.inner.uplinks.length ∧ Spaced sendPeriod s.marks ∧
      (∀ first length, (window first length s.marks).length ≤ length / sendPeriod + 1) ∧
      (∀ uplink ∈ s.inner.uplinks, uplink = ⟨some (setKeys boot).2, program.message⟩) ∧
      (s.inner.pc.Silent → s.inner.uplinks = []) := by
  have paced := sleeper_rests.paced start_keyed reached
  refine ⟨?_, paced.spaced, ?_, paced.inner.uplinks, paced.inner.silent⟩
  · exact marks_length (m := sleeper program boot) (fun _ _ _ => step_counts) rfl reached
  · exact fun first length => paced.spaced.window_length (by decide) first length

theorem messages_paced_twice :
    ∃ s, execute (run (sleeper simpleExample exampleBoot)) (begin start)
        [.act true, .act true, .act true, .pass 10000000, .act true, .act true, .act true,
          .act false, .pass 30000000, .act true, .act true, .act true] = some s ∧
      s.marks = [10000000, 40000000] ∧
      s.marks.length = s.inner.uplinks.length ∧ Spaced sendPeriod s.marks ∧
      (∀ first length, (window first length s.marks).length ≤ length / sendPeriod + 1) ∧
      (∀ uplink ∈ s.inner.uplinks,
        uplink = ⟨some (setKeys exampleBoot).2, simpleExample.message⟩) ∧
      (s.inner.pc.Silent → s.inner.uplinks = []) :=
  ⟨_, rfl, rfl, messages_paced simpleExample exampleBoot
    [.act true, .act true, .act true, .pass 10000000, .act true, .act true, .act true,
      .act false, .pass 30000000, .act true, .act true, .act true] _ rfl⟩

end RiotNyAlesund.Endpoint
