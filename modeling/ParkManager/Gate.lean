import ParkManager.Wire

/-!
# The gate

The three calls of `Gate`.  What the network does with a request is the parameter
`exchange`; `random` and `timeUTC` are what `random()` and `GetCurrentUTCTime` give.
Log calls and the flag that makes `ConnectionHolder` reconnect are left out.

Proved here:

* `ask_answered`, `ask_some`: a call that is answered has read the answer off the
  response;
* `run_congr`: a call asks the network for nothing but the exchange of its request;
* `gateRegistration_cases`: all that a registration can do;
* `served`: what the server does with a request of a gate, and what it writes.
-/

namespace ParkManager

/-- `namespace ReturnValue`. -/
inductive ReturnValue
  | success
  | failed
  deriving DecidableEq, Repr

def ReturnValue.toInt : ReturnValue → ℤ
  | success => 0
  | failed => -1

structure UpdateStatus where
  comment : Str
  payable : Str
  status : Str
  deriving DecidableEq

/-- A gate: its name and type, and `RegistratinResult` in its configuration file. -/
structure Gate where
  gateName : Str
  gateType : ℤ
  registratinResult : Str
  deriving DecidableEq

/-- What comes of a request: `SendMessage` returned false, or the text that
`GetResponseMessage` returned, which is empty when it gave up. -/
inductive Exchange
  | notSent
  | answered (Respond : Str)
  deriving DecidableEq

/-- The text of a request, as `c_str()` leaves it. -/
def requestText (request : Request) (random : ℕ) : Except Fault Str := do
  let body ← dumpObject request.toJson
  return cstr (addBase body .call request.action.name [] random)

/-- What the three calls have in common: write the request, send it, and read the
response if there is one. -/
def ask {α : Type} (env : Env) (random : ℕ) (exchange : Str → Exchange) (request : Request)
    (fromJson : Json → Except Fault α) : Except Fault (Option α) := do
  let text ← requestText request random
  match exchange text with
  | .notSent => return none
  | .answered Respond =>
    if Respond = [] then return none
    else
      let response ← readResponse env fromJson Respond
      return some response

namespace Gate

/-- The text of `RegistratinResult` after a registration that succeeded. -/
def registered : Str := decimalInt ReturnValue.success.toInt

/-- `GateRegistration`: the value returned, and the gate after it. -/
def gateRegistration (env : Env) (random : ℕ) (exchange : Str → Exchange) (g : Gate) :
    Except Fault (ReturnValue × Gate) :=
  if g.gateType = GateType.notSet.toInt then .ok (.failed, g)
  else if g.registratinResult = registered then .ok (.success, g)
  else do
    let request := Request.gateRegistration ⟨g.gateName, decimalInt g.gateType⟩
    match ← ask env random exchange request GateRegistrationResponse.fromJson with
    | none => return (.failed, g)
    | some response =>
      if response.result ≠ RegistrationStatus.accept then return (.failed, g)
      else return (.success, { g with registratinResult := registered })

/-- `CarRegistration`: the value returned and `msg`. -/
def carRegistration (env : Env) (random : ℕ) (exchange : Str → Exchange) (timeUTC : Str)
    (g : Gate) (carPlate : Str) (handicap : Bool) : Except Fault (ReturnValue × Str) :=
  if g.gateType ≠ GateType.enterence.toInt then
    .ok (.failed, str "this gate is not entrance gate! \n")
  else do
    let request := Request.carEnterence
      ⟨carPlate, if handicap then HandicapStatus.yes else HandicapStatus.no, timeUTC, g.gateName⟩
    match ← ask env random exchange request CarEnterenceResponse.fromJson with
    | none => return (.failed, [])
    | some response =>
      if response.result ≠ RegistrationStatus.accept then return (.failed, [])
      else return (.success, response.comment)

/-- `CarStatusUpdate`: the value returned and `UpdateStatusMsg`. -/
def carStatusUpdate (env : Env) (random : ℕ) (exchange : Str → Exchange) (g : Gate)
    (carPlate : Str) : Except Fault (ReturnValue × UpdateStatus) :=
  if g.gateType ≠ GateType.exiting.toInt then
    .ok (.failed, ⟨str "this gate is not entrance gate! \n", [], RegistrationStatus.reject⟩)
  else do
    let request := Request.carStatusUpdate ⟨g.gateName, carPlate⟩
    match ← ask env random exchange request CarStatusUpdateResponse.fromJson with
    | none => return (.failed, ⟨[], [], []⟩)
    | some response =>
      if response.status ≠ RegistrationStatus.exist then return (.failed, ⟨[], [], []⟩)
      else return (.success, ⟨response.comment, response.payable, response.status⟩)

end Gate

/-! ## The calls -/

/-- One of the three calls, with its arguments. -/
inductive GateCall
  | gateRegistration
  | carRegistration (timeUTC carPlate : Str) (handicap : Bool)
  | carStatusUpdate (carPlate : Str)
  deriving DecidableEq

namespace GateCall

/-- The value returned, and the gate after the call. -/
def run (env : Env) (random : ℕ) (exchange : Str → Exchange) (g : Gate) :
    GateCall → Except Fault (ReturnValue × Gate)
  | gateRegistration => g.gateRegistration env random exchange
  | carRegistration timeUTC carPlate handicap =>
    (g.carRegistration env random exchange timeUTC carPlate handicap).map fun r => (r.1, g)
  | carStatusUpdate carPlate =>
    (g.carStatusUpdate env random exchange carPlate).map fun r => (r.1, g)

/-- The request of a call, if it gets as far as writing one. -/
def request (g : Gate) : GateCall → Option Request
  | gateRegistration =>
    if g.gateType = GateType.notSet.toInt ∨ g.registratinResult = Gate.registered then none
    else some (.gateRegistration ⟨g.gateName, decimalInt g.gateType⟩)
  | carRegistration timeUTC carPlate handicap =>
    if g.gateType ≠ GateType.enterence.toInt then none
    else some (.carEnterence ⟨carPlate, if handicap then HandicapStatus.yes else HandicapStatus.no,
      timeUTC, g.gateName⟩)
  | carStatusUpdate carPlate =>
    if g.gateType ≠ GateType.exiting.toInt then none
    else some (.carStatusUpdate ⟨g.gateName, carPlate⟩)

end GateCall

/-! ## What a call reads -/

/-- A text that is sent and answered is read. -/
theorem ask_answered {α : Type} {env : Env} {random : ℕ} {exchange : Str → Exchange}
    {request : Request} {fromJson : Json → Except Fault α} {text Respond : Str} {x : α}
    (ht : requestText request random = .ok text) (hx : exchange text = .answered Respond)
    (hne : Respond ≠ []) (hread : readResponse env fromJson Respond = .ok x) :
    ask env random exchange request fromJson = .ok (some x) := by
  unfold ask
  simp only [ht, bind, Except.bind, hx, hne, ↓reduceIte, hread, pure, Except.pure]

/-- An answer was read off a response that came. -/
theorem ask_some {α : Type} {env : Env} {random : ℕ} {exchange : Str → Exchange}
    {request : Request} {fromJson : Json → Except Fault α} {x : α}
    (h : ask env random exchange request fromJson = .ok (some x)) :
    ∃ text Respond, exchange text = .answered Respond ∧ Respond ≠ [] ∧
      readResponse env fromJson Respond = .ok x := by
  obtain ⟨text, -, h⟩ := bind_ok_iff.mp h
  split at h
  · cases h
  · rename_i Respond hx
    split_ifs at h with hne
    · cases h
    · obtain ⟨x', hread, h⟩ := bind_ok_iff.mp h
      obtain rfl := Option.some.inj (Except.ok.inj h)
      exact ⟨text, Respond, hx, hne, hread⟩

/-- A registration leaves the gate as it was and fails, or finds that it has
succeeded before, or reads `Accept` and stores that it has succeeded. -/
theorem gateRegistration_cases {env : Env} {random : ℕ} {exchange : Str → Exchange} {g g' : Gate}
    {value : ReturnValue} (h : g.gateRegistration env random exchange = .ok (value, g')) :
    (value = .failed ∧ g' = g) ∨
    (g.registratinResult = Gate.registered ∧ g' = g) ∨
    (g' = { g with registratinResult := Gate.registered } ∧
      ∃ text Respond, exchange text = .answered Respond ∧ Respond ≠ [] ∧
        readResponse env GateRegistrationResponse.fromJson Respond =
          .ok ⟨RegistrationStatus.accept⟩) := by
  unfold Gate.gateRegistration at h
  split_ifs at h with htype hflag
  · obtain ⟨rfl, rfl⟩ := Prod.mk.inj (Except.ok.inj h)
    exact Or.inl ⟨rfl, rfl⟩
  · obtain ⟨-, rfl⟩ := Prod.mk.inj (Except.ok.inj h)
    exact Or.inr (Or.inl ⟨hflag, rfl⟩)
  · obtain ⟨answer, hask, h⟩ := bind_ok_iff.mp h
    cases answer with
    | none =>
      obtain ⟨rfl, rfl⟩ := Prod.mk.inj (Except.ok.inj h)
      exact Or.inl ⟨rfl, rfl⟩
    | some response =>
      simp only at h
      split_ifs at h with hres
      · obtain ⟨rfl, rfl⟩ := Prod.mk.inj (Except.ok.inj h)
        exact Or.inl ⟨rfl, rfl⟩
      · obtain ⟨-, rfl⟩ := Prod.mk.inj (Except.ok.inj h)
        obtain ⟨text, Respond, hx, hne, hread⟩ := ask_some hask
        obtain ⟨result⟩ := response
        obtain rfl : result = RegistrationStatus.accept := not_not.mp hres
        exact Or.inr (Or.inr ⟨rfl, text, Respond, hx, hne, hread⟩)

/-- A gate of some type that has registered before is not asked again. -/
theorem gateRegistration_registered {g : Gate} (htype : g.gateType ≠ GateType.notSet.toInt)
    (hflag : g.registratinResult = Gate.registered) (env : Env) (random : ℕ)
    (exchange : Str → Exchange) : g.gateRegistration env random exchange = .ok (.success, g) := by
  rw [Gate.gateRegistration, if_neg htype, if_pos hflag]

theorem request_gateRegistration_none {g : Gate} :
    GateCall.request g .gateRegistration = none ↔
      g.gateType = GateType.notSet.toInt ∨ g.registratinResult = Gate.registered := by
  rw [GateCall.request, ite_eq_left_iff]
  simp only [reduceCtorEq, imp_false, not_not]

/-- A call asks the network for nothing but the exchange of its request. -/
theorem run_congr {env : Env} {random : ℕ} {exchange exchange' : Str → Exchange} {g : Gate}
    {c : GateCall} (h : ∀ request text, c.request g = some request →
      requestText request random = .ok text → exchange text = exchange' text) :
    c.run env random exchange g = c.run env random exchange' g := by
  have hask : ∀ {α : Type} {request : Request} (fromJson : Json → Except Fault α),
      c.request g = some request →
      ask env random exchange request fromJson = ask env random exchange' request fromJson := by
    intro α request fromJson hreq
    unfold ask
    cases ht : requestText request random with
    | error e => rfl
    | ok text => simp only [bind, Except.bind, h request text hreq ht]
  cases c with
  | gateRegistration =>
    simp only [GateCall.run, Gate.gateRegistration]
    split_ifs with htype hflag
    · rfl
    · rfl
    · rw [hask _ (by simp only [GateCall.request, htype, hflag, or_self, ↓reduceIte])]
  | carRegistration timeUTC carPlate handicap =>
    simp only [GateCall.run, Gate.carRegistration]
    by_cases htype : g.gateType ≠ GateType.enterence.toInt
    · rw [if_pos htype, if_pos htype]
    · rw [if_neg htype, if_neg htype, hask _ (by simp only [GateCall.request, if_neg htype])]
  | carStatusUpdate carPlate =>
    simp only [GateCall.run, Gate.carStatusUpdate]
    split_ifs with htype
    · rfl
    · rw [hask _ (by simp only [GateCall.request, htype, ↓reduceIte])]

theorem requestText_eq {request : Request} {body : Str}
    (hbody : dumpObject request.toJson = .ok body) (random : ℕ) :
    requestText request random = .ok (cstr (addBase body .call request.action.name [] random)) := by
  simp only [requestText, hbody, bind, Except.bind, pure, Except.pure]

/-! ## What the server makes of a request -/

/-- A request of a gate that has come in and is served without an exception was
read as it was sent, and is answered under its id. -/
theorem served {env : Env} (hp : ParsesText env.parse) {a : Ambient} {s s' : ParkManagerServer}
    {request : Request} {random : ℕ} {text uri : Str} {answer : Option (Str × Str)}
    (ht : requestText request random = .ok text)
    (h : gateHanlder env a s ⟨uri, str "Server", uptoHash text⟩ = (s', .ok answer)) :
    ∃ resp body, handle env s (request, a) = .ok (resp, s') ∧
      dumpObject resp.toJson = .ok body ∧
      answer = some (uri, cstr (addBase body .respond [] (quoted (decimal random)) 0)) := by
  obtain ⟨body, hbody, ht⟩ := bind_ok_iff.mp ht
  obtain rfl := Except.ok.inj ht
  have hcstr : cstr (addBase body .call request.action.name [] random) =
      addBase body .call request.action.name [] random :=
    cstr_addBase hbody .call (notMem_name (by decide) request.action) (by simp) random
  have hhead : uptoHash (cstr (addBase body .call request.action.name [] random)) =
      requestHead request.action random (uptoHash (body ++ [ch ']'])) := by
    rw [hcstr, addBase_eq_requestHead, uptoHash_requestHead]
  rw [hhead, gateHanlder_requestHead, ← hhead] at h
  unfold onRequest at h
  split at h
  · cases (Prod.mk.inj h).2
  · rename_i id request' hd
    obtain ⟨rfl, rfl⟩ := decodeRequest_arrived env hp request hbody random hd
    split at h
    · cases (Prod.mk.inj h).2
    · rename_i resp t hh
      obtain ⟨rfl, hanswer⟩ := Prod.mk.inj h
      obtain ⟨body', hbody', rfl⟩ := map_ok_iff.mp hanswer
      exact ⟨resp, body', hh, hbody', rfl⟩

end ParkManager
