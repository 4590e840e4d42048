import Mathlib.Tactic.SplitIfs

set_option autoImplicit false

/- The four functions that configure a modem: lora_setup_cmd and channel_cmd of
lora_GPS/main.c, and set_param of lora_relay/Relay, lora_relay/ListenOnly and
lora_relay/Endpoint. -/
namespace RiotNyAlesund.RadioSetup

/-- The settings that the modem was last given, as the driver's codes. -/
structure Radio where
  bandwidth : UInt8
  spreadingFactor : UInt8
  codingRate : UInt8
  channel : UInt32
  deriving DecidableEq, Repr

/-- What a local uint8_t holds where it is read, and whether it was written before. -/
structure Local where
  value : UInt8
  written : Bool
  deriving DecidableEq, Repr

/-- The setters of the driver. Only a bandwidth is ever read from a local that a path of the
source leaves without a value. -/
inductive Call
  | bandwidth (code : Local)
  | spreadingFactor (code : UInt8)
  | codingRate (code : UInt8)
  | channel (frequency : UInt32)
  deriving DecidableEq, Repr

/-- The driver stores what it is given. -/
def store (radio : Radio) : Call → Radio
  | .bandwidth code => { radio with bandwidth := code.value }
  | .spreadingFactor code => { radio with spreadingFactor := code }
  | .codingRate code => { radio with codingRate := code }
  | .channel frequency => { radio with channel := frequency }

def run (radio : Radio) (calls : List Call) : Radio := calls.foldl store radio

def Call.Defined : Call → Prop
  | .bandwidth code => code.written = true
  | .spreadingFactor _ | .codingRate _ | .channel _ => True

/-- The switch on the bandwidth that all four make. -/
def bandwidthCode (bandwidth : Int) : Option UInt8 :=
  if bandwidth = 125 then some 0
  else if bandwidth = 250 then some 1
  else if bandwidth = 500 then some 2
  else none

/-- The driver's calls and the result. The spreading factor is narrowed at the call. -/
def loraSetupCmd (bw : Int) (loraSf : UInt8) (cr : Int) : List Call × Int :=
  match bandwidthCode bw with
  | none => ([], -1)
  | some loraBw =>
      if loraSf < 7 ∨ 12 < loraSf then ([], -1)
      else if cr < 5 ∨ 8 < cr then ([], -1)
      else
        ([.bandwidth ⟨loraBw, true⟩, .spreadingFactor loraSf,
          .codingRate (UInt8.ofInt (cr - 4))], 0)

def channelCmd (chan : UInt32) : List Call × Int := ([.channel chan], 0)

def relaySetParam (chanFreq bandwidth spreadingFactor codeRate : Int) : List Call :=
  (match bandwidthCode bandwidth with
    | some code => [.bandwidth ⟨code, true⟩]
    | none => []) ++
  [.spreadingFactor (UInt8.ofInt spreadingFactor)] ++
  (if codeRate < 5 ∨ 8 < codeRate then [] else [.codingRate (UInt8.ofInt (codeRate - 4))]) ++
  [.channel (UInt32.ofInt chanFreq)]

/-- The text of the relay's. -/
def listenOnlySetParam (chanFreq bandwidth spreadingFactor codeRate : Int) : List Call :=
  relaySetParam chanFreq bandwidth spreadingFactor codeRate

/-- `stale` is what the stack happens to hold where `bw` is put. -/
def endpointSetParam (stale : UInt8) (chanFreq bandwidth spreadingFactor codeRate : Int) :
    List Call :=
  let bw : Local :=
    match bandwidthCode bandwidth with
    | some code => ⟨code, true⟩
    -- The default branch prints, and `bw` is passed on all the same.
    | none => ⟨stale, false⟩
  [.bandwidth bw, .spreadingFactor (UInt8.ofInt spreadingFactor),
    .codingRate (UInt8.ofInt codeRate), .channel (UInt32.ofInt chanFreq)]

/-- The parameters, with the coding rate 4/5 to 4/8 given by its denominator. -/
structure Request where
  channel : Int
  bandwidth : Int
  spreadingFactor : Int
  codingRate : Int
  deriving DecidableEq, Repr

inductive Node
  | gps
  | relay
  | listenOnly
  | endpoint
  deriving DecidableEq, Repr

/-- What a node calls for a request. The mains of lora_GPS call channel_cmd whatever
lora_setup_cmd has returned, and an endpoint is given the coding rate as its code. -/
def Request.calls (request : Request) (stale : UInt8) : Node → List Call
  | .gps =>
      (loraSetupCmd request.bandwidth (UInt8.ofInt request.spreadingFactor)
        request.codingRate).1 ++ (channelCmd (UInt32.ofInt request.channel)).1
  | .relay =>
      relaySetParam request.channel request.bandwidth request.spreadingFactor request.codingRate
  | .listenOnly =>
      listenOnlySetParam request.channel request.bandwidth request.spreadingFactor
        request.codingRate
  | .endpoint =>
      endpointSetParam stale request.channel request.bandwidth request.spreadingFactor
        (request.codingRate - 4)

structure Request.Valid (request : Request) : Prop where
  bandwidth : request.bandwidth = 125 ∨ request.bandwidth = 250 ∨ request.bandwidth = 500
  spreadingFactor : 7 ≤ request.spreadingFactor ∧ request.spreadingFactor ≤ 12
  codingRate : 5 ≤ request.codingRate ∧ request.codingRate ≤ 8

/-- The settings a request comes to when nothing of it is refused. -/
def Request.settings (request : Request) (code : UInt8) : Radio where
  bandwidth := code
  spreadingFactor := UInt8.ofInt request.spreadingFactor
  codingRate := UInt8.ofInt (request.codingRate - 4)
  channel := UInt32.ofInt request.channel

/-- The calls that ask for these settings. -/
def Request.asked (request : Request) (code : UInt8) : List Call :=
  [.bandwidth ⟨code, true⟩, .spreadingFactor (UInt8.ofInt request.spreadingFactor),
    .codingRate (UInt8.ofInt (request.codingRate - 4)), .channel (UInt32.ofInt request.channel)]

/-- What lora_setup_cmd tests after the bandwidth. -/
structure Request.InRange (request : Request) : Prop where
  spreadingFactor : 7 ≤ UInt8.ofInt request.spreadingFactor ∧
    UInt8.ofInt request.spreadingFactor ≤ 12
  codingRate : 5 ≤ request.codingRate ∧ request.codingRate ≤ 8

section

variable {request : Request} {radio : Radio} {stale code : UInt8}

theorem bandwidthCode_eq_none_iff {bandwidth : Int} :
    bandwidthCode bandwidth = none ↔ ¬(bandwidth = 125 ∨ bandwidth = 250 ∨ bandwidth = 500) := by
  simp only [bandwidthCode]
  split_ifs with low middle high
  all_goals simp [*]

/-- Narrowing keeps a spreading factor that is in range. -/
theorem narrowed_range {factor : Int} (low : 7 ≤ factor) (high : factor ≤ 12) :
    7 ≤ UInt8.ofInt factor ∧ UInt8.ofInt factor ≤ 12 := by
  have value : (UInt8.ofInt factor).toNat = factor.toNat := by
    rw [UInt8.ofInt, UInt8.toNat_ofNat']
    omega
  rw [UInt8.le_iff_toNat_le, UInt8.le_iff_toNat_le, value]
  show 7 ≤ factor.toNat ∧ factor.toNat ≤ 12
  omega

theorem Request.Valid.inRange (valid : request.Valid) : request.InRange :=
  ⟨narrowed_range valid.spreadingFactor.1 valid.spreadingFactor.2, valid.codingRate⟩

theorem Request.Valid.selects (valid : request.Valid) :
    ∃ code, bandwidthCode request.bandwidth = some code := by
  cases selected : bandwidthCode request.bandwidth with
  | none => exact absurd valid.bandwidth (bandwidthCode_eq_none_iff.mp selected)
  | some code => exact ⟨code, rfl⟩

/-- lora_setup_cmd tests everything before its first call. -/
theorem loraSetupCmd_accepts (selected : bandwidthCode request.bandwidth = some code)
    (inRange : request.InRange) :
    loraSetupCmd request.bandwidth (UInt8.ofInt request.spreadingFactor) request.codingRate =
      ([.bandwidth ⟨code, true⟩, .spreadingFactor (UInt8.ofInt request.spreadingFactor),
        .codingRate (UInt8.ofInt (request.codingRate - 4))], 0) := by
  obtain ⟨factor, rate⟩ := inRange
  have factorPasses : ¬(UInt8.ofInt request.spreadingFactor < 7 ∨
      12 < UInt8.ofInt request.spreadingFactor) := by
    simpa only [not_or, UInt8.not_lt] using factor
  have ratePasses : ¬(request.codingRate < 5 ∨ 8 < request.codingRate) := by omega
  simp only [loraSetupCmd, selected, if_neg factorPasses, if_neg ratePasses]

theorem loraSetupCmd_refuses (fails : ¬request.InRange) :
    loraSetupCmd request.bandwidth (UInt8.ofInt request.spreadingFactor) request.codingRate =
      ([], -1) := by
  rw [loraSetupCmd]
  split
  · rfl
  · split_ifs with factor rate
    · rfl
    · rfl
    · rw [not_or, UInt8.not_lt, UInt8.not_lt] at factor
      exact absurd ⟨factor, by omega⟩ fails

/-- Calls that ask for what the radio has leave it alone. -/
theorem run_settled {calls : List Call} (settled : ∀ call ∈ calls, store radio call = radio) :
    run radio calls = radio := by
  induction calls with
  | nil => rfl
  | cons call rest ih =>
      rw [List.forall_mem_cons] at settled
      rw [run, List.foldl_cons, settled.1]
      exact ih settled.2

theorem run_asked : run radio (request.asked code) = request.settings code := rfl

theorem asked_defined : ∀ call ∈ request.asked code, call.Defined := by
  simp [Request.asked, Call.Defined]

theorem endpoint_calls (selected : bandwidthCode request.bandwidth = some code) :
    request.calls stale .endpoint = request.asked code := by
  simp only [Request.calls, endpointSetParam, selected, Request.asked]

theorem relaySetParam_accepts (selected : bandwidthCode request.bandwidth = some code)
    (rate : 5 ≤ request.codingRate ∧ request.codingRate ≤ 8) :
    relaySetParam request.channel request.bandwidth request.spreadingFactor
      request.codingRate = request.asked code := by
  have passes : ¬(request.codingRate < 5 ∨ 8 < request.codingRate) := by omega
  simp only [relaySetParam, selected, if_neg passes]
  rfl

/-- A node that knows the bandwidth asks for nothing but the settings. -/
theorem calls_subset (selected : bandwidthCode request.bandwidth = some code) (node : Node) :
    request.calls stale node ⊆ request.asked code := by
  cases node with
  | gps =>
      by_cases inRange : request.InRange
      · rw [Request.calls, loraSetupCmd_accepts selected inRange]
        exact List.Subset.refl _
      · rw [Request.calls, loraSetupCmd_refuses inRange]
        simp [channelCmd, Request.asked]
  | relay | listenOnly =>
      simp only [Request.calls, listenOnlySetParam, relaySetParam, selected]
      split_ifs
      all_goals simp [Request.asked]
  | endpoint =>
      rw [endpoint_calls selected]
      exact List.Subset.refl _

/-- A valid request is granted in full by every node. -/
theorem Request.Valid.calls_eq (valid : request.Valid)
    (selected : bandwidthCode request.bandwidth = some code) (node : Node) :
    request.calls stale node = request.asked code := by
  cases node with
  | gps =>
      rw [Request.calls, loraSetupCmd_accepts selected valid.inRange]
      rfl
  | relay | listenOnly => exact relaySetParam_accepts selected valid.codingRate
  | endpoint => exact endpoint_calls selected

end

/-- What the four ask of one another: a request is granted in full by all of them, or it
leaves every setting as it was, and no driver is handed a local without a value. -/
structure AllOrNothing (stale : UInt8) (radio : Radio) (request : Request) : Prop where
  returned : (loraSetupCmd request.bandwidth (UInt8.ofInt request.spreadingFactor)
    request.codingRate).2 = 0 ↔ request.Valid
  accepted : request.Valid → ∃ code, bandwidthCode request.bandwidth = some code ∧
    ∀ node, run radio (request.calls stale node) = request.settings code
  rejected : ¬request.Valid → ∀ node, run radio (request.calls stale node) = radio
  defined : ∀ node, ∀ call ∈ request.calls stale node, call.Defined

/-- lora_setup_cmd refuses the request, and set_param asks for what the radio has anyway. -/
def Request.Idle (request : Request) (radio : Radio) : Prop :=
  ¬request.InRange ∧
    ∃ code, bandwidthCode request.bandwidth = some code ∧ radio = request.settings code

section

variable {request : Request} {radio : Radio} {stale : UInt8}

theorem Request.Valid.allOrNothing (valid : request.Valid) :
    AllOrNothing stale radio request := by
  obtain ⟨code, selected⟩ := valid.selects
  have calls : ∀ node, request.calls stale node = request.asked code :=
    valid.calls_eq selected
  refine ⟨?_, ?_, fun invalid => absurd valid invalid, ?_⟩
  · rw [loraSetupCmd_accepts selected valid.inRange]
    exact iff_of_true rfl valid
  · intro _
    refine ⟨code, selected, fun node => ?_⟩
    rw [calls node, run_asked]
  · intro node
    rw [calls node]
    exact asked_defined

theorem Request.Idle.allOrNothing (idle : request.Idle radio) :
    AllOrNothing stale radio request := by
  obtain ⟨fails, code, selected, rfl⟩ := idle
  have invalid : ¬request.Valid := fun valid => fails valid.inRange
  refine ⟨?_, fun valid => absurd valid invalid, ?_, ?_⟩
  · rw [loraSetupCmd_refuses fails]
    exact iff_of_false (by decide) invalid
  · intro _ node
    apply run_settled
    intro call member
    have asks := calls_subset selected node member
    simp only [Request.asked, List.mem_cons, List.not_mem_nil, or_false] at asks
    rcases asks with rfl | rfl | rfl | rfl
    all_goals rfl
  · intro node call member
    exact asked_defined call (calls_subset selected node member)

/-- Where the bandwidth is unknown an endpoint hands on its local all the same. -/
theorem AllOrNothing.selects (holds : AllOrNothing stale radio request) :
    ∃ code, bandwidthCode request.bandwidth = some code := by
  cases selected : bandwidthCode request.bandwidth with
  | some code => exact ⟨code, rfl⟩
  | none =>
      have handed : Call.bandwidth ⟨stale, false⟩ ∈ request.calls stale .endpoint := by
        simp only [Request.calls, endpointSetParam, selected, List.mem_cons_self]
      have written : false = true := holds.defined .endpoint _ handed
      cases written

theorem AllOrNothing.valid_or_idle (holds : AllOrNothing stale radio request) :
    request.Valid ∨ request.Idle radio := by
  by_cases valid : request.Valid
  · exact Or.inl valid
  · obtain ⟨code, selected⟩ := holds.selects
    have unchanged := holds.rejected valid .endpoint
    rw [endpoint_calls selected, run_asked] at unchanged
    refine Or.inr ⟨?_, code, selected, unchanged.symm⟩
    intro inRange
    apply valid
    apply holds.returned.mp
    rw [loraSetupCmd_accepts selected inRange]

theorem all_or_nothing_iff (stale : UInt8) (radio : Radio) (request : Request) :
    AllOrNothing stale radio request ↔ request.Valid ∨ request.Idle radio := by
  constructor
  · exact AllOrNothing.valid_or_idle
  · rintro (valid | idle)
    · exact valid.allOrNothing
    · exact idle.allOrNothing

/-- The relay refuses 4/9 and takes the bandwidth that came with it. -/
theorem relay_applies_part :
    run ⟨0, 7, 1, 868100000⟩ (Request.calls ⟨868100000, 500, 7, 9⟩ 0 .relay) =
        ⟨2, 7, 1, 868100000⟩ ∧
      ¬AllOrNothing 0 ⟨0, 7, 1, 868100000⟩ ⟨868100000, 500, 7, 9⟩ := by
  have changed : run ⟨0, 7, 1, 868100000⟩ (Request.calls ⟨868100000, 500, 7, 9⟩ 0 .relay) =
      ⟨2, 7, 1, 868100000⟩ := by decide
  refine ⟨changed, fun holds => ?_⟩
  have invalid : ¬Request.Valid ⟨868100000, 500, 7, 9⟩ := by
    intro valid
    exact absurd valid.codingRate (by decide)
  have kept := holds.rejected invalid .relay
  rw [changed] at kept
  exact absurd kept (by decide)

end

end RiotNyAlesund.RadioSetup
