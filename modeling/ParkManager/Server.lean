import ParkManager.Models
import ParkManager.Lib.History
import ParkManager.Lib.MapCount
import Mathlib.Data.Finset.Insert
import Mathlib.Data.Rat.Floor

/-!
# The park manager

The state of `ParkManagerServer` and what its three handlers do with a decoded
request.  A `unique_ptr<Car>` is an `Option Car`; an entry of `m_RegisteredCars`
can therefore be a key with an empty pointer behind it.  Log calls change nothing here,
but a line that is too long for its buffer ends the process: `Logging` says which lines
are, and `GateLog` has the handlers with their log calls.

Proved here: `startUp_spec`, the state at start-up, and `registerGate_cases`,
`checkOut_cases`, which say all that a registration and an exit can do (for an
entrance see `Pools`); `handle_cases`, that a step of a run is one of the three.
-/

namespace ParkManager

/-! ## State -/

structure Car where
  idTag : UInt32
  plate : Str
  enterenceTime : Str
  payment : UInt32
  enterenceGate : Str
  exitingGate : Str
  handicap : Str
  slot : Int32
  deriving DecidableEq

/-- The constructor of `Car`. -/
def Car.new (idTag : UInt32) (plate enterenceTime enterenceGate handicapStatus : Str) : Car where
  idTag := idTag
  plate := plate
  enterenceTime := enterenceTime
  payment := 0
  enterenceGate := enterenceGate
  exitingGate := []
  handicap := handicapStatus
  slot := -1

/-- `std::map<std::string, std::unique_ptr<Car>>`. -/
abbrev CarMap := AList fun _ : Str => Option Car

structure ParkManagerServer where
  handicapSlotCount : UInt32
  normalSlotCount : UInt32
  handicapSlotMax : UInt32
  normalSlotMax : UInt32
  enternceGates : Finset Str
  exitingGates : Finset Str
  registeredCars : CarMap
  unRegisteredCars : CarMap
  deriving DecidableEq

/-- What the process gets from outside its own code: the configuration file and
the library functions that read JSON, prices and times. -/
structure Env where
  /-- `utils::GetValueFromConfigFile` -/
  getValueFromConfigFile : Str → Str
  /-- `nlohmann::json::parse`; `none` when it throws. -/
  parse : Str → Option Json
  /-- `std::atof`, its value taken exactly. -/
  atof : Str → ℚ
  /-- `GetTimeinSeconds` -/
  getTimeinSeconds : Str → ℤ

/-- What one request finds around it: the next `random()` and the current time. -/
structure Ambient where
  random : ℕ
  timeUTC : Str
  deriving DecidableEq

/-- The constructor of `ParkManagerServer`. -/
def ParkManagerServer.start (env : Env) : Except Fault ParkManagerServer := do
  let handicapSlotCount ← stoi (env.getValueFromConfigFile (str "HandicapSlotCount"))
  let normalSlotCount ← stoi (env.getValueFromConfigFile (str "NormalSlotCount"))
  let _websocketPort ← stoi (env.getValueFromConfigFile (str "WebSocketPort"))
  return {
    handicapSlotCount := UInt32.ofInt handicapSlotCount
    normalSlotCount := UInt32.ofInt normalSlotCount
    handicapSlotMax := UInt32.ofInt handicapSlotCount
    normalSlotMax := UInt32.ofInt normalSlotCount
    enternceGates := ∅
    exitingGates := ∅
    registeredCars := ∅
    unRegisteredCars := ∅ }

/-! ## Gate registration -/

/-- `OnGateRegistration` on a decoded request. -/
def registerGate (s : ParkManagerServer) (gateRegist : GateRegistration) :
    ParkManagerServer × GateRegistrationResponse :=
  let gateName := gateRegist.gateName
  let gateType := match stoi gateRegist.gateType with
    | .ok n => n
    | .error _ => -1
  if gateType = GateType.enterence.toInt then
    if gateName ∉ s.enternceGates then
      ({ s with enternceGates := insert gateName s.enternceGates }, ⟨RegistrationStatus.accept⟩)
    else (s, ⟨RegistrationStatus.exist⟩)
  else if gateType = GateType.exiting.toInt then
    if gateName ∉ s.exitingGates then
      ({ s with exitingGates := insert gateName s.exitingGates }, ⟨RegistrationStatus.accept⟩)
    else (s, ⟨RegistrationStatus.exist⟩)
  else (s, ⟨RegistrationStatus.reject⟩)

/-! ## Entrance -/

/-- The choice of a slot: the counters after it, the slot number (0 for none)
and the handicap flag to store in the car. -/
def allocateSlot (s : ParkManagerServer) (handicap : Str) : ParkManagerServer × Int32 × Str :=
  if handicap = HandicapStatus.yes ∧ s.handicapSlotCount ≠ 0 then
    ({ s with handicapSlotCount := s.handicapSlotCount - 1 },
      (s.normalSlotMax + s.handicapSlotCount).toInt32, handicap)
  else if s.normalSlotCount ≠ 0 then
    ({ s with normalSlotCount := s.normalSlotCount - 1 },
      s.normalSlotCount.toInt32, HandicapStatus.no)
  else (s, 0, handicap)

/-- What the format of the welcome text expands to. -/
def welcomeText (env : Env) (carEnter : CarEnterence) (slot : Int32) : Str :=
  str "Welcome " ++ cstr carEnter.carPlate ++ str " ,Gate " ++ cstr carEnter.enterenceGate ++
  str " will be opened for you, first " ++
  cstr (env.getValueFromConfigFile (str "FreeDurationinMin")) ++
  str " minutes of your stay is free of charge then its only " ++
  cstr (env.getValueFromConfigFile (str "PricePerMin")) ++
  cstr (env.getValueFromConfigFile (str "Currency")) ++
  str " per min proceed to slot number " ++ decimalInt slot.toInt ++ str " entering time " ++
  cstr carEnter.enteranceTime

/-- `snprintf(buffer, 250, ...)` keeps 249 bytes. -/
def welcome (env : Env) (carEnter : CarEnterence) (slot : Int32) : Str :=
  (welcomeText env carEnter slot).take 249

def notRegisteredGate : CarEnterenceResponse :=
  ⟨RegistrationStatus.reject, str "Can not access, gate not registered"⟩

def parkingFull : CarEnterenceResponse :=
  ⟨RegistrationStatus.full, str "sorry the Parking is full"⟩

/-- `OnCarEnterence` on a decoded request. -/
def admitCar (env : Env) (a : Ambient) (s : ParkManagerServer) (carEnter : CarEnterence) :
    ParkManagerServer × CarEnterenceResponse :=
  if carEnter.enterenceGate ∉ s.enternceGates then (s, notRegisteredGate)
  else
    let (s', slot, handicap) := allocateSlot s carEnter.handicap
    if slot ≠ 0 then
      let newEntryCar := Car.new a.random.toUInt32 carEnter.carPlate carEnter.enteranceTime
        carEnter.enterenceGate handicap
      ({ s' with registeredCars := s'.registeredCars.insert newEntryCar.plate (some newEntryCar) },
        ⟨RegistrationStatus.accept, welcome env carEnter slot⟩)
    else (s', parkingFull)

/-! ## Exit -/

/-- `std::round`: to the nearest integer, halves away from zero. -/
def stdRound (q : ℚ) : ℤ := if 0 ≤ q then ⌊q + 1 / 2⌋ else ⌈q - 1 / 2⌉

/-- `freeDurationinMin * 60`, a product of `int`s.  An overflow, which C++ leaves
undefined, wraps around on x86. -/
def freeSeconds (freeDurationinMin : ℤ) : ℤ := (Int32.ofInt (freeDurationinMin * 60)).toInt

/-- The amount before it is stored in `ToPay`. -/
def amount (pricePerMin : ℚ) (duration freeDurationinMin : ℤ) : ℤ :=
  if duration > freeSeconds freeDurationinMin then
    stdRound (pricePerMin * ((duration.tdiv 60 - freeDurationinMin : ℤ) : ℚ))
  else 0

/-- A `double` stored in an `int`; out of range, the x86 conversion gives `INT_MIN`. -/
def toInt32 (n : ℤ) : ℤ := if -2 ^ 31 ≤ n ∧ n < 2 ^ 31 then n else -2 ^ 31

def policeComment : Str :=
  str ("How did you get in ?? you are not registered , calling the police" ++
    " ....just kidding :D bye bye")

def byeByeComment : Str := str " bye bye come again :D"

/-- The answer to an exit of a plate that is no key of `m_RegisteredCars`. -/
def notRegisteredCar (env : Env) : CarStatusUpdateResponse where
  status := RegistrationStatus.exist
  payable := str "0"
  curreny := env.getValueFromConfigFile (str "Currency")
  comment := policeComment

/-- The answer to an exit of a registered car. -/
def byeBye (env : Env) (duration freeDurationinMin : ℤ) : CarStatusUpdateResponse where
  status := RegistrationStatus.exist
  payable :=
    if duration > freeSeconds freeDurationinMin then
      decimalInt (toInt32 (amount (env.atof (env.getValueFromConfigFile (str "PricePerMin")))
        duration freeDurationinMin))
    else str "0"
  curreny := env.getValueFromConfigFile (str "Currency")
  comment := byeByeComment

/-- The state update of an exit.  Only a normal car is moved to the history. -/
def release (s : ParkManagerServer) (plate : Str) (car : Car) : ParkManagerServer :=
  if car.handicap = HandicapStatus.yes then
    { s with handicapSlotCount := s.handicapSlotCount + 1 }
  else
    { s with
      normalSlotCount := s.normalSlotCount + 1
      unRegisteredCars := s.unRegisteredCars.insert plate (some car)
      registeredCars := s.registeredCars.insert plate none }

/-- `OnCarStatusUpdate` on a decoded request.  An exiting gate that is not
registered is logged and nothing else. -/
def checkOut (env : Env) (a : Ambient) (s : ParkManagerServer) (carStatusUp : CarStatusUpdate) :
    Except Fault (ParkManagerServer × CarStatusUpdateResponse) :=
  match s.registeredCars.lookup carStatusUp.carPlate with
  | none => .ok (s, notRegisteredCar env)
  | some none => .error .nullPointer
  | some (some car) => do
    let duration := env.getTimeinSeconds a.timeUTC - env.getTimeinSeconds car.enterenceTime
    let freeDurationinMin ← stoi (env.getValueFromConfigFile (str "FreeDurationinMin"))
    return (release s carStatusUp.carPlate car, byeBye env duration freeDurationinMin)

/-! ## One request -/

inductive Request
  | gateRegistration (r : GateRegistration)
  | carEnterence (r : CarEnterence)
  | carStatusUpdate (r : CarStatusUpdate)
  deriving DecidableEq

inductive Response
  | gateRegistration (r : GateRegistrationResponse)
  | carEnterence (r : CarEnterenceResponse)
  | carStatusUpdate (r : CarStatusUpdateResponse)
  deriving DecidableEq

/-- `to_json` of a response. -/
def Response.toJson : Response → List (Str × Str)
  | gateRegistration r => r.toJson
  | carEnterence r => r.toJson
  | carStatusUpdate r => r.toJson

/-- The handlers on a decoded request. -/
def handle (env : Env) (s : ParkManagerServer) :
    Request × Ambient → Except Fault (Response × ParkManagerServer)
  | (.gateRegistration r, _) =>
    let (s', resp) := registerGate s r
    .ok (.gateRegistration resp, s')
  | (.carEnterence r, a) =>
    let (s', resp) := admitCar env a s r
    .ok (.carEnterence resp, s')
  | (.carStatusUpdate r, a) =>
    match checkOut env a s r with
    | .ok (s', resp) => .ok (.carStatusUpdate resp, s')
    | .error e => .error e

/-- A transition of the server. -/
abbrev ServerStep := History.Step ParkManagerServer (Request × Ambient) Response

/-- A run of requests, newest first. -/
abbrev ServerRun (env : Env) (s₀ : ParkManagerServer) (h : List ServerStep)
    (s : ParkManagerServer) : Prop :=
  History.Run (History.Graph (handle env)) s₀ h s

/-- Start-up with slot numbers that are not negative. -/
structure StartUp (env : Env) (s₀ : ParkManagerServer) : Prop where
  started : ParkManagerServer.start env = .ok s₀
  handicap_nonneg : ∀ n, stoi (env.getValueFromConfigFile (str "HandicapSlotCount")) = .ok n → 0 ≤ n
  normal_nonneg : ∀ n, stoi (env.getValueFromConfigFile (str "NormalSlotCount")) = .ok n → 0 ≤ n

/-! ## The packaged server -/

/-- `examplePackageX86/PM/ServerConfig.ini`. -/
def serverConfig (key : Str) : Str :=
  if key = str "WebSocketPort" then str "1884"
  else if key = str "HandicapSlotCount" then str "5"
  else if key = str "NormalSlotCount" then str "20"
  else if key = str "Currency" then str "$"
  else if key = str "PricePerMin" then str "1"
  else if key = str "FreeDurationinMin" then str "30"
  else []

/-- The server of the example package on one morning in July. -/
def packaged : Env where
  getValueFromConfigFile := serverConfig
  parse := fun _ => none
  atof := fun text => if text = str "1" then 1 else 0
  getTimeinSeconds := fun timeUTC => if timeUTC = str "2022-07-01T08:00:00Z" then 1656669600 else 0

def morning : Ambient := ⟨1804289383, str "2022-07-01T08:00:00Z"⟩

def packagedStart : ParkManagerServer where
  handicapSlotCount := 5
  normalSlotCount := 20
  handicapSlotMax := 5
  normalSlotMax := 20
  enternceGates := ∅
  exitingGates := ∅
  registeredCars := ∅
  unRegisteredCars := ∅

theorem startUp_packaged : StartUp packaged packagedStart where
  started := rfl
  handicap_nonneg n h := by
    have e : stoi (packaged.getValueFromConfigFile (str "HandicapSlotCount")) = .ok 5 := rfl
    rw [e] at h
    cases h
    decide
  normal_nonneg n h := by
    have e : stoi (packaged.getValueFromConfigFile (str "NormalSlotCount")) = .ok 20 := rfl
    rw [e] at h
    cases h
    decide

def entranceGate : Request := .gateRegistration ⟨str "EntGate1", str "0"⟩

def exitGate : Request := .gateRegistration ⟨str "EntGate2", str "1"⟩

def enter (plate handicap : Str) : Request :=
  .carEnterence ⟨plate, handicap, str "2022-07-01T08:00:00Z", str "EntGate1"⟩

def leave (plate : Str) : Request := .carStatusUpdate ⟨str "EntGate2", plate⟩

def onMorning (rs : List Request) : List (Request × Ambient) := rs.map fun r => (r, morning)

/-! ## What the handlers can do -/

theorem toNat_ofInt {n : ℤ} (h₀ : 0 ≤ n) (h₁ : n < 2 ^ 31) : (UInt32.ofInt n).toNat = n.toNat := by
  have hm : n % 2 ^ 32 = n := Int.emod_eq_of_lt h₀ (by omega)
  unfold UInt32.ofInt
  rw [hm, UInt32.toNat_ofNat']
  exact Nat.mod_eq_of_lt (by omega)

/-- The state at start-up: nothing registered, all slots free, and fewer than
2^31 of each kind. -/
theorem startUp_spec {env : Env} {s₀ : ParkManagerServer} (h : StartUp env s₀) :
    s₀.handicapSlotCount = s₀.handicapSlotMax ∧ s₀.normalSlotCount = s₀.normalSlotMax ∧
    s₀.handicapSlotMax.toNat < 2 ^ 31 ∧ s₀.normalSlotMax.toNat < 2 ^ 31 ∧
    s₀.enternceGates = ∅ ∧ s₀.exitingGates = ∅ ∧ s₀.registeredCars = ∅ ∧
    s₀.unRegisteredCars = ∅ := by
  have hs := h.started
  unfold ParkManagerServer.start at hs
  obtain ⟨hc, hhc, hs⟩ := bind_ok_iff.mp hs
  obtain ⟨nc, hnc, hs⟩ := bind_ok_iff.mp hs
  obtain ⟨_, _, hs⟩ := bind_ok_iff.mp hs
  have e := Except.ok.inj hs
  subst e
  have h₀ := h.handicap_nonneg hc hhc
  have h₁ := h.normal_nonneg nc hnc
  have b₀ := (stoi_bounds hhc).2
  have b₁ := (stoi_bounds hnc).2
  simp only [toNat_ofInt h₀ b₀, toNat_ofInt h₁ b₁, and_self, and_true, true_and]
  omega

/-- The number `stoi` reads, or -1. -/
def gateTypeOf (r : GateRegistration) : ℤ :=
  match stoi r.gateType with
  | .ok n => n
  | .error _ => -1

/-- A registration adds the name to the set of its type, or changes nothing. -/
theorem registerGate_cases (s : ParkManagerServer) (r : GateRegistration) :
    (registerGate s r = ({ s with enternceGates := insert r.gateName s.enternceGates },
        ⟨RegistrationStatus.accept⟩) ∧ gateTypeOf r = 0 ∧ r.gateName ∉ s.enternceGates) ∨
    (registerGate s r = ({ s with exitingGates := insert r.gateName s.exitingGates },
        ⟨RegistrationStatus.accept⟩) ∧ gateTypeOf r = 1 ∧ r.gateName ∉ s.exitingGates) ∨
    (registerGate s r = (s, ⟨RegistrationStatus.exist⟩) ∧
      (gateTypeOf r = 0 ∧ r.gateName ∈ s.enternceGates ∨
        gateTypeOf r = 1 ∧ r.gateName ∈ s.exitingGates)) ∨
    (registerGate s r = (s, ⟨RegistrationStatus.reject⟩) ∧
      gateTypeOf r ≠ 0 ∧ gateTypeOf r ≠ 1) := by
  have hr : registerGate s r =
      if gateTypeOf r = 0 then
        if r.gateName ∉ s.enternceGates then
          ({ s with enternceGates := insert r.gateName s.enternceGates },
            ⟨RegistrationStatus.accept⟩)
        else (s, ⟨RegistrationStatus.exist⟩)
      else if gateTypeOf r = 1 then
        if r.gateName ∉ s.exitingGates then
          ({ s with exitingGates := insert r.gateName s.exitingGates },
            ⟨RegistrationStatus.accept⟩)
        else (s, ⟨RegistrationStatus.exist⟩)
      else (s, ⟨RegistrationStatus.reject⟩) := rfl
  rw [hr]
  split_ifs with h₁ h₂ h₃ h₄
  · exact Or.inr (Or.inr (Or.inl ⟨rfl, Or.inl ⟨h₁, h₂⟩⟩))
  · exact Or.inl ⟨rfl, h₁, h₂⟩
  · exact Or.inr (Or.inr (Or.inl ⟨rfl, Or.inr ⟨h₃, h₄⟩⟩))
  · exact Or.inr (Or.inl ⟨rfl, h₃, h₄⟩)
  · exact Or.inr (Or.inr (Or.inr ⟨rfl, h₁, h₃⟩))

/-- An exit that returns: the plate is no key, or its car is released. -/
theorem checkOut_cases {env : Env} {a : Ambient} {s s' : ParkManagerServer} {r : CarStatusUpdate}
    {o : CarStatusUpdateResponse} (h : checkOut env a s r = .ok (s', o)) :
    (s.registeredCars.lookup r.carPlate = none ∧ s' = s ∧ o = notRegisteredCar env) ∨
    ∃ car duration free, s.registeredCars.lookup r.carPlate = some (some car) ∧
      stoi (env.getValueFromConfigFile (str "FreeDurationinMin")) = .ok free ∧
      s' = release s r.carPlate car ∧ o = byeBye env duration free := by
  unfold checkOut at h
  split at h
  · rename_i hl
    obtain ⟨rfl, rfl⟩ := Prod.mk.inj (Except.ok.inj h)
    exact Or.inl ⟨hl, rfl, rfl⟩
  · cases h
  · rename_i car hl
    obtain ⟨free, hf, h⟩ := bind_ok_iff.mp h
    obtain ⟨rfl, rfl⟩ := Prod.mk.inj (Except.ok.inj h)
    exact Or.inr ⟨car, _, free, hl, hf, rfl, rfl⟩

/-- One step of a run is one of the three handlers. -/
theorem handle_cases {env : Env} {s s' : ParkManagerServer} {i : Request × Ambient} {o : Response}
    (h : handle env s i = .ok (o, s')) :
    (∃ r a resp, i = (.gateRegistration r, a) ∧ registerGate s r = (s', resp) ∧
      o = .gateRegistration resp) ∨
    (∃ r a resp, i = (.carEnterence r, a) ∧ admitCar env a s r = (s', resp) ∧
      o = .carEnterence resp) ∨
    (∃ r a resp, i = (.carStatusUpdate r, a) ∧ checkOut env a s r = .ok (s', resp) ∧
      o = .carStatusUpdate resp) := by
  obtain ⟨req, a⟩ := i
  cases req with
  | gateRegistration r =>
    obtain ⟨ho, hs⟩ := Prod.mk.inj (Except.ok.inj h)
    exact Or.inl ⟨r, a, _, rfl, Prod.ext hs rfl, ho.symm⟩
  | carEnterence r =>
    obtain ⟨ho, hs⟩ := Prod.mk.inj (Except.ok.inj h)
    exact Or.inr (Or.inl ⟨r, a, _, rfl, Prod.ext hs rfl, ho.symm⟩)
  | carStatusUpdate r =>
    simp only [handle] at h
    split at h
    · rename_i t resp hc
      obtain ⟨ho, hs⟩ := Prod.mk.inj (Except.ok.inj h)
      exact Or.inr (Or.inr ⟨r, a, resp, rfl, hs ▸ hc, ho.symm⟩)
    · cases h

end ParkManager
