import ParkManager.Json

/-!
# The messages of the protocol

The request and response bodies (the `quicktype` classes with their `from_json`
and `to_json`), the action names and the status texts.  A JSON object is written
with its members in the order of their keys, as the library keeps them.

Proved here: `decode_iff` for each request and each response, that reading it
succeeds exactly on an object that has all its keys with strings under them.
-/

namespace ParkManager

/-! ## Names and status texts -/

/-- The three actions, `models::Action...`. -/
inductive Action
  | gateRegistration
  | carStatusUpdate
  | carEnterence
  deriving DecidableEq, Repr

def Action.name : Action → Str
  | gateRegistration => str "GateRegistration"
  | carStatusUpdate => str "CarStatusUpdate"
  | carEnterence => str "CarEnterence"

namespace RegistrationStatus
def accept : Str := str "Accept"
def full : Str := str "Full"
def exist : Str := str "Exist"
def reject : Str := str "Reject"
end RegistrationStatus

namespace HandicapStatus
def yes : Str := str "Yes"
def no : Str := str "No"
end HandicapStatus

/-- `ParkManagment::GateType`. -/
inductive GateType
  | notSet
  | enterence
  | exiting
  deriving DecidableEq, Repr

def GateType.toInt : GateType → ℤ
  | notSet => -1
  | enterence => 0
  | exiting => 1

/-! ## Requests -/

structure GateRegistration where
  gateName : Str
  gateType : Str
  deriving DecidableEq

structure CarEnterence where
  carPlate : Str
  handicap : Str
  enteranceTime : Str
  enterenceGate : Str
  deriving DecidableEq

structure CarStatusUpdate where
  exitingGate : Str
  carPlate : Str
  deriving DecidableEq

/-- `from_json` of a `GateRegistration`. -/
def GateRegistration.fromJson (j : Json) : Except Fault GateRegistration := do
  let gateName ← j.field (str "GateName")
  let gateType ← j.field (str "GateType")
  return { gateName, gateType }

def GateRegistration.toJson (x : GateRegistration) : List (Str × Str) :=
  [(str "GateName", x.gateName), (str "GateType", x.gateType)]

/-- `from_json` of a `CarEnterence`. -/
def CarEnterence.fromJson (j : Json) : Except Fault CarEnterence := do
  let carPlate ← j.field (str "CarPlate")
  let handicap ← j.field (str "handicap")
  let enteranceTime ← j.field (str "enteranceTime")
  let enterenceGate ← j.field (str "enterenceGate")
  return { carPlate, handicap, enteranceTime, enterenceGate }

def CarEnterence.toJson (x : CarEnterence) : List (Str × Str) :=
  [(str "CarPlate", x.carPlate), (str "enteranceTime", x.enteranceTime),
    (str "enterenceGate", x.enterenceGate), (str "handicap", x.handicap)]

/-- `from_json` of a `CarStatusUpdate`. -/
def CarStatusUpdate.fromJson (j : Json) : Except Fault CarStatusUpdate := do
  let exitingGate ← j.field (str "exitingGate")
  let carPlate ← j.field (str "CarPlate")
  return { exitingGate, carPlate }

def CarStatusUpdate.toJson (x : CarStatusUpdate) : List (Str × Str) :=
  [(str "CarPlate", x.carPlate), (str "exitingGate", x.exitingGate)]

/-! ## Responses -/

structure GateRegistrationResponse where
  result : Str
  deriving DecidableEq

structure CarEnterenceResponse where
  result : Str
  comment : Str
  deriving DecidableEq

structure CarStatusUpdateResponse where
  status : Str
  payable : Str
  curreny : Str
  comment : Str
  deriving DecidableEq

/-- `from_json` of a `GateRegistrationResponse`. -/
def GateRegistrationResponse.fromJson (j : Json) : Except Fault GateRegistrationResponse := do
  let result ← j.field (str "Result")
  return { result }

def GateRegistrationResponse.toJson (x : GateRegistrationResponse) : List (Str × Str) :=
  [(str "Result", x.result)]

/-- `from_json` of a `CarEnterenceResponse`. -/
def CarEnterenceResponse.fromJson (j : Json) : Except Fault CarEnterenceResponse := do
  let result ← j.field (str "result")
  let comment ← j.field (str "comment")
  return { result, comment }

def CarEnterenceResponse.toJson (x : CarEnterenceResponse) : List (Str × Str) :=
  [(str "comment", x.comment), (str "result", x.result)]

/-- `from_json` of a `CarStatusUpdateResponse`. -/
def CarStatusUpdateResponse.fromJson (j : Json) : Except Fault CarStatusUpdateResponse := do
  let status ← j.field (str "status")
  let payable ← j.field (str "payable")
  let curreny ← j.field (str "curreny")
  let comment ← j.field (str "comment")
  return { status, payable, curreny, comment }

def CarStatusUpdateResponse.toJson (x : CarStatusUpdateResponse) : List (Str × Str) :=
  [(str "comment", x.comment), (str "curreny", x.curreny), (str "payable", x.payable),
    (str "status", x.status)]

/-! ## What decodes -/

theorem GateRegistration.decode_iff {j : Json} {x : GateRegistration} :
    GateRegistration.fromJson j = .ok x ↔
      j.HasString (str "GateName") x.gateName ∧ j.HasString (str "GateType") x.gateType := by
  obtain ⟨gateName, gateType⟩ := x
  simp [fromJson, bind_ok_iff, Json.field_ok_iff, pure, Except.pure]

theorem CarEnterence.decode_iff {j : Json} {x : CarEnterence} :
    CarEnterence.fromJson j = .ok x ↔
      j.HasString (str "CarPlate") x.carPlate ∧ j.HasString (str "handicap") x.handicap ∧
      j.HasString (str "enteranceTime") x.enteranceTime ∧
      j.HasString (str "enterenceGate") x.enterenceGate := by
  obtain ⟨carPlate, handicap, enteranceTime, enterenceGate⟩ := x
  simp [fromJson, bind_ok_iff, Json.field_ok_iff, pure, Except.pure]

theorem CarStatusUpdate.decode_iff {j : Json} {x : CarStatusUpdate} :
    CarStatusUpdate.fromJson j = .ok x ↔
      j.HasString (str "exitingGate") x.exitingGate ∧ j.HasString (str "CarPlate") x.carPlate := by
  obtain ⟨exitingGate, carPlate⟩ := x
  simp [fromJson, bind_ok_iff, Json.field_ok_iff, pure, Except.pure]

theorem GateRegistrationResponse.decode_iff {j : Json} {x : GateRegistrationResponse} :
    GateRegistrationResponse.fromJson j = .ok x ↔ j.HasString (str "Result") x.result := by
  obtain ⟨result⟩ := x
  simp [fromJson, bind_ok_iff, Json.field_ok_iff, pure, Except.pure]

theorem CarEnterenceResponse.decode_iff {j : Json} {x : CarEnterenceResponse} :
    CarEnterenceResponse.fromJson j = .ok x ↔
      j.HasString (str "result") x.result ∧ j.HasString (str "comment") x.comment := by
  obtain ⟨result, comment⟩ := x
  simp [fromJson, bind_ok_iff, Json.field_ok_iff, pure, Except.pure]

theorem CarStatusUpdateResponse.decode_iff {j : Json} {x : CarStatusUpdateResponse} :
    CarStatusUpdateResponse.fromJson j = .ok x ↔
      j.HasString (str "status") x.status ∧ j.HasString (str "payable") x.payable ∧
      j.HasString (str "curreny") x.curreny ∧ j.HasString (str "comment") x.comment := by
  obtain ⟨status, payable, curreny, comment⟩ := x
  simp [fromJson, bind_ok_iff, Json.field_ok_iff, pure, Except.pure]

end ParkManager
