import ParkManager.Visits
import ParkManager.MessageManager

/-!
# The gate handler

One iteration of the loop that serves the gates: split the request, pick the
handler, decode, update the state, answer.

Proved here, for every state and every queued request, whatever its bytes:

* `handleIncomingMsg_call`: the decoder accesses nothing out of range once the
  dispatcher has found its three fields;
* `answers_iff`, `onRequest_returns_iff`: when one handler returns;
* `gateHanlder_returns_iff`: an iteration returns exactly on a request that
  `Survives`;
* `queued_type`: what a client sends is queued as a message to the server.

Log calls are left out here, and put back in `GateLog`.
-/

namespace ParkManager

open ParkManagerServer

/-! ## The three handlers on a raw request -/

/-- `nlohmann::json::parse`. -/
def parseJson (env : Env) (text : Str) : Except Fault Json :=
  match env.parse text with
  | some j => .ok j
  | none => .error .parseError

/-- `from_json` of the request of an action. -/
def requestFromJson : Action → Json → Except Fault Request
  | .gateRegistration, j => (GateRegistration.fromJson j).map .gateRegistration
  | .carStatusUpdate, j => (CarStatusUpdate.fromJson j).map .carStatusUpdate
  | .carEnterence, j => (CarEnterence.fromJson j).map .carEnterence

/-- The message id and the decoded body of a raw request. -/
def decodeRequest (action : Action) (env : Env) (input : Str) : Except Fault (Str × Request) := do
  let (messageId, jsonString) ← handleIncomingMsg input .call
  let j ← parseJson env jsonString
  let request ← requestFromJson action j
  return (messageId, request)

/-- What a handler leaves behind: the state, also when an exception escapes, and
else the uri and the text of the answer if there is one. -/
abbrev Outcome := ParkManagerServer × Except Fault (Option (Str × Str))

/-- What the three handlers have in common: decode the body, handle the request,
dump the answer under the id of the request and send it to the uri. -/
def onRequest (action : Action) (env : Env) (a : Ambient) (s : ParkManagerServer)
    (uri input : Str) : Outcome :=
  match decodeRequest action env input with
  | .error e => (s, .error e)
  | .ok (messageId, request) =>
    match handle env s (request, a) with
    | .error e => (s, .error e)
    | .ok (resp, s') =>
      (s', (dumpObject resp.toJson).map fun text =>
        some (uri, cstr (addBase text .respond [] messageId 0)))

/-- `OnGateRegistration`. -/
def onGateRegistration := onRequest .gateRegistration

/-- `OnCarEnterence`. -/
def onCarEnterence := onRequest .carEnterence

/-- `OnCarStatusUpdate`. -/
def onCarStatusUpdate := onRequest .carStatusUpdate

/-! ## The loop body -/

/-- The handler `GateHanlder` picks for the third field. -/
def dispatch (action : Str) : Option Action :=
  if contains action (quoted Action.gateRegistration.name) then some .gateRegistration
  else if contains action (quoted Action.carStatusUpdate.name) then some .carStatusUpdate
  else if contains action (quoted Action.carEnterence.name) then some .carEnterence
  else none

/-- The second and the third comma field of a request. -/
def requestFields (input : Str) : Except Fault (Str × Str) := do
  let requestItems := input.splitOn (ch ',')
  let messageId ← vectorAt requestItems 1
  let action ← vectorAt requestItems 2
  return (messageId, action)

/-- One iteration of `GateHanlder` on the request taken from the queue, without its log
calls; `Logged.gateHanlder` is the same with them. -/
def gateHanlder (env : Env) (a : Ambient) (s : ParkManagerServer) (ocppMessage : WSMessage) :
    Outcome :=
  match requestFields ocppMessage.payload with
  | .error e => (s, .error e)
  | .ok (_, action) =>
    if ocppMessage.type = str "Server" then
      match dispatch action with
      | some .gateRegistration => onGateRegistration env a s ocppMessage.uri ocppMessage.payload
      | some .carStatusUpdate => onCarStatusUpdate env a s ocppMessage.uri ocppMessage.payload
      | some .carEnterence => onCarEnterence env a s ocppMessage.uri ocppMessage.payload
      | none => (s, .ok none)
    else (s, .ok none)

/-! ## The decoder behind the dispatcher -/

/-- The fields of a request behind the first three, joined again, less their last
two characters. -/
def bodyOf (input : Str) : Str :=
  let joined := ((input.splitOn (ch ',')).drop 3).flatMap (· ++ str ",")
  joined.take (sizeSub joined.length 2)

/-- With three fields there is nothing out of range left to access. -/
theorem handleIncomingMsg_call {input messageId : Str}
    (hid : vectorAt (input.splitOn (ch ',')) 1 = .ok messageId)
    (hlen : 3 ≤ (input.splitOn (ch ',')).length) :
    handleIncomingMsg input .call = .ok (messageId, bodyOf input) := by
  unfold handleIncomingMsg
  simp only [hid, ↓reduceIte, vectorFrom, if_pos hlen, bind, Except.bind, substr, Nat.zero_le,
    List.drop_zero, pure, Except.pure, bodyOf]

/-! ## One handler -/

/-- The object has the keys of the action, with the strings of the request under
them. -/
def Decodes (j : Json) : Action → Request → Prop
  | .gateRegistration, .gateRegistration r =>
    j.HasString (str "GateName") r.gateName ∧ j.HasString (str "GateType") r.gateType
  | .carStatusUpdate, .carStatusUpdate r =>
    j.HasString (str "exitingGate") r.exitingGate ∧ j.HasString (str "CarPlate") r.carPlate
  | .carEnterence, .carEnterence r =>
    j.HasString (str "CarPlate") r.carPlate ∧ j.HasString (str "handicap") r.handicap ∧
    j.HasString (str "enteranceTime") r.enteranceTime ∧
    j.HasString (str "enterenceGate") r.enterenceGate
  | _, _ => False

theorem map_ok_iff {ε α β : Type} {x : Except ε α} {f : α → β} {b : β} :
    x.map f = .ok b ↔ ∃ a, x = .ok a ∧ f a = b := by
  cases x <;> simp [Except.map]

theorem requestFromJson_iff {action : Action} {j : Json} {req : Request} :
    requestFromJson action j = .ok req ↔ Decodes j action req := by
  cases action with
  | gateRegistration =>
    simp only [requestFromJson, map_ok_iff, GateRegistration.decode_iff]
    cases req <;> simp [Decodes]
  | carStatusUpdate =>
    simp only [requestFromJson, map_ok_iff, CarStatusUpdate.decode_iff]
    cases req <;> simp [Decodes]
  | carEnterence =>
    simp only [requestFromJson, map_ok_iff, CarEnterence.decode_iff]
    cases req <;> simp [Decodes]

/-- The request neither dereferences an empty pointer nor reads a bad number, and
its answer is UTF-8.  That a line of the log overflows is not considered here. -/
def Answerable (env : Env) (s : ParkManagerServer) : Request → Prop
  | .gateRegistration _ => True
  | .carEnterence r => ∀ p, s.takesFrom r = some p → s.slotNumber p ≠ 0 →
    utf8Accepts (welcome env r (s.slotNumber p)) = true
  | .carStatusUpdate r => s.registeredCars.lookup r.carPlate ≠ some none ∧
    (s.IsParked r.carPlate →
      ∃ n, stoi (env.getValueFromConfigFile (str "FreeDurationinMin")) = .ok n) ∧
    utf8Accepts (env.getValueFromConfigFile (str "Currency")) = true

theorem utf8Accepts_decimalInt (n : ℤ) : utf8Accepts (decimalInt n) = true := by
  have hd : ∀ b ∈ decimal n.natAbs, b < 0x80 := by
    intro b hb
    have h := (digit_of_mem_decimal hb).2
    rw [UInt8.lt_iff_toNat_lt]
    exact Nat.lt_of_le_of_lt h (by decide)
  refine utf8Accepts_ascii ?_
  unfold decimalInt
  split_ifs
  · exact List.forall_mem_cons.mpr ⟨by decide, hd⟩
  · exact hd

theorem dump_gateRegistration_iff (r : GateRegistrationResponse) :
    (∃ t, dumpObject r.toJson = .ok t) ↔ utf8Accepts r.result = true := by
  have hk : utf8Accepts (str "Result") = true := by decide
  simp [dumpObject_isOk_iff, GateRegistrationResponse.toJson, hk]

theorem dump_carEnterence_iff (r : CarEnterenceResponse) :
    (∃ t, dumpObject r.toJson = .ok t) ↔
      utf8Accepts r.comment = true ∧ utf8Accepts r.result = true := by
  have hk : utf8Accepts (str "comment") = true ∧ utf8Accepts (str "result") = true := by decide
  simp [dumpObject_isOk_iff, CarEnterenceResponse.toJson, hk]

theorem dump_carStatusUpdate_iff (r : CarStatusUpdateResponse) :
    (∃ t, dumpObject r.toJson = .ok t) ↔
      utf8Accepts r.comment = true ∧ utf8Accepts r.curreny = true ∧
      utf8Accepts r.payable = true ∧ utf8Accepts r.status = true := by
  have hk : utf8Accepts (str "comment") = true ∧ utf8Accepts (str "curreny") = true ∧
      utf8Accepts (str "payable") = true ∧ utf8Accepts (str "status") = true := by decide
  simp [dumpObject_isOk_iff, CarStatusUpdateResponse.toJson, hk]

/-- A text that is written after its answer was worked out. -/
def Answers (env : Env) (a : Ambient) (s : ParkManagerServer) (req : Request) : Prop :=
  ∃ resp s' text, handle env s (req, a) = .ok (resp, s') ∧ dumpObject resp.toJson = .ok text

theorem answers_gateRegistration (env : Env) (a : Ambient) (s : ParkManagerServer)
    (r : GateRegistration) : Answers env a s (.gateRegistration r) := by
  have hres : utf8Accepts (registerGate s r).2.result = true := by
    have hacc : utf8Accepts RegistrationStatus.accept = true := by decide
    have hex : utf8Accepts RegistrationStatus.exist = true := by decide
    have hrej : utf8Accepts RegistrationStatus.reject = true := by decide
    rcases registerGate_cases s r with ⟨e, -⟩ | ⟨e, -⟩ | ⟨e, -⟩ | ⟨e, -⟩ <;> rw [e]
    · exact hacc
    · exact hacc
    · exact hex
    · exact hrej
  obtain ⟨text, ht⟩ := (dump_gateRegistration_iff _).mpr hres
  exact ⟨_, _, text, rfl, ht⟩

theorem answers_carEnterence_iff (env : Env) (a : Ambient) (s : ParkManagerServer)
    (r : CarEnterence) :
    Answers env a s (.carEnterence r) ↔ Answerable env s (.carEnterence r) := by
  have hdump : Answers env a s (.carEnterence r) ↔
      utf8Accepts (admitCar env a s r).2.comment = true ∧
        utf8Accepts (admitCar env a s r).2.result = true := by
    rw [← dump_carEnterence_iff]
    constructor
    · rintro ⟨resp, s', text, h, ht⟩
      obtain ⟨rfl, -⟩ := Prod.mk.inj (Except.ok.inj h)
      exact ⟨text, ht⟩
    · rintro ⟨text, ht⟩
      exact ⟨_, _, text, rfl, ht⟩
  have hgateText : utf8Accepts notRegisteredGate.comment = true ∧
      utf8Accepts notRegisteredGate.result = true := by decide +kernel
  have hfullText : utf8Accepts parkingFull.comment = true ∧
      utf8Accepts parkingFull.result = true := by decide
  have hacc : utf8Accepts RegistrationStatus.accept = true := by decide
  rw [hdump]
  simp only [Answerable]
  rcases admitCar_cases env a s r with ⟨hgate, e⟩ | ⟨hgate, hp, e⟩ | ⟨p, hp, h0, e⟩ |
    ⟨p, hp, h0, e⟩ <;> rw [e]
  · refine iff_of_true hgateText fun p hp => ?_
    rw [takesFrom_none_of_gate hgate] at hp
    cases hp
  · refine iff_of_true hfullText fun p hp' => ?_
    rw [takesFrom_none_of_full hgate hp] at hp'
    cases hp'
  · refine iff_of_true hfullText fun q hq hq0 => ?_
    rw [hp] at hq
    cases hq
    exact absurd h0 hq0
  · simp only [hacc, and_true, hp, Option.some.injEq, forall_eq', ne_eq, h0, not_false_eq_true,
      forall_const]

theorem dump_notRegisteredCar_iff (env : Env) :
    (∃ t, dumpObject (notRegisteredCar env).toJson = .ok t) ↔
      utf8Accepts (env.getValueFromConfigFile (str "Currency")) = true := by
  have hc : utf8Accepts policeComment = true := by decide +kernel
  have hp : utf8Accepts (str "0") = true := by decide
  have hs : utf8Accepts RegistrationStatus.exist = true := by decide
  simp only [dump_carStatusUpdate_iff, notRegisteredCar, hc, hp, hs, and_true, true_and]

theorem dump_byeBye_iff (env : Env) (duration freeDurationinMin : ℤ) :
    (∃ t, dumpObject (byeBye env duration freeDurationinMin).toJson = .ok t) ↔
      utf8Accepts (env.getValueFromConfigFile (str "Currency")) = true := by
  have hc : utf8Accepts byeByeComment = true := by decide
  have hp : utf8Accepts (byeBye env duration freeDurationinMin).payable = true := by
    simp only [byeBye]
    split_ifs
    · exact utf8Accepts_decimalInt _
    · decide
  have hs : utf8Accepts RegistrationStatus.exist = true := by decide
  simp only [dump_carStatusUpdate_iff, hp, true_and]
  simp only [byeBye, hc, hs, and_true, true_and]

theorem answers_carStatusUpdate_iff (env : Env) (a : Ambient) (s : ParkManagerServer)
    (r : CarStatusUpdate) :
    Answers env a s (.carStatusUpdate r) ↔ Answerable env s (.carStatusUpdate r) := by
  have hdump : Answers env a s (.carStatusUpdate r) ↔
      ∃ s' resp, checkOut env a s r = .ok (s', resp) ∧ ∃ t, dumpObject resp.toJson = .ok t := by
    constructor
    · rintro ⟨resp, s', text, h, ht⟩
      rcases handle_cases h with ⟨_, _, _, e, -⟩ | ⟨_, _, _, e, -⟩ | ⟨r', a', resp', e, hc, rfl⟩
      · cases e
      · cases e
      · cases e
        exact ⟨s', resp', hc, text, ht⟩
    · rintro ⟨s', resp, hc, text, ht⟩
      exact ⟨.carStatusUpdate resp, s', text, by simp only [handle, hc], ht⟩
  rw [hdump]
  simp only [Answerable, IsParked]
  cases hl : s.registeredCars.lookup r.carPlate with
  | none =>
    have hc : checkOut env a s r = .ok (s, notRegisteredCar env) := by simp only [checkOut, hl]
    simp [hc, dump_notRegisteredCar_iff]
  | some entry =>
    cases entry with
    | none =>
      have hc : checkOut env a s r = .error .nullPointer := by simp only [checkOut, hl]
      simp [hc]
    | some car =>
      cases hf : stoi (env.getValueFromConfigFile (str "FreeDurationinMin")) with
      | error e =>
        have hc : checkOut env a s r = .error e := by
          simp only [checkOut, hl, hf, bind, Except.bind]
        simp [hc]
      | ok free =>
        have hc : checkOut env a s r = .ok (release s r.carPlate car,
            byeBye env (env.getTimeinSeconds a.timeUTC - env.getTimeinSeconds car.enterenceTime)
              free) := by
          simp only [checkOut, hl, hf, bind, Except.bind, pure, Except.pure]
        simp [hc, dump_byeBye_iff]

theorem answers_iff (env : Env) (a : Ambient) (s : ParkManagerServer) (req : Request) :
    Answers env a s req ↔ Answerable env s req := by
  cases req with
  | gateRegistration r => exact iff_of_true (answers_gateRegistration env a s r) trivial
  | carEnterence r => exact answers_carEnterence_iff env a s r
  | carStatusUpdate r => exact answers_carStatusUpdate_iff env a s r

theorem parseJson_ok_iff {env : Env} {text : Str} {j : Json} :
    parseJson env text = .ok j ↔ env.parse text = some j := by
  unfold parseJson
  cases env.parse text <;> simp

theorem decodeRequest_iff {action : Action} {env : Env} {input messageId : Str}
    (hid : vectorAt (input.splitOn (ch ',')) 1 = .ok messageId)
    (hlen : 3 ≤ (input.splitOn (ch ',')).length) {id : Str} {req : Request} :
    decodeRequest action env input = .ok (id, req) ↔
      id = messageId ∧ ∃ j, env.parse (bodyOf input) = some j ∧ Decodes j action req := by
  constructor
  · intro h
    obtain ⟨⟨id', body⟩, hmsg, h⟩ := bind_ok_iff.mp h
    rw [handleIncomingMsg_call hid hlen] at hmsg
    cases hmsg
    obtain ⟨j, hj, h⟩ := bind_ok_iff.mp h
    obtain ⟨req', hreq, h⟩ := bind_ok_iff.mp h
    cases h
    exact ⟨rfl, j, parseJson_ok_iff.mp hj, requestFromJson_iff.mp hreq⟩
  · rintro ⟨rfl, j, hj, hreq⟩
    exact bind_ok_iff.mpr ⟨_, handleIncomingMsg_call hid hlen, bind_ok_iff.mpr
      ⟨j, parseJson_ok_iff.mpr hj, bind_ok_iff.mpr ⟨req, requestFromJson_iff.mpr hreq, rfl⟩⟩⟩

/-- No exception escapes. -/
def Returns (o : Outcome) : Prop := ∃ answer, o.2 = .ok answer

theorem onRequest_returns_iff {action : Action} {env : Env} {a : Ambient} {s : ParkManagerServer}
    {uri input messageId : Str} (hid : vectorAt (input.splitOn (ch ',')) 1 = .ok messageId)
    (hlen : 3 ≤ (input.splitOn (ch ',')).length) :
    Returns (onRequest action env a s uri input) ↔
      ∃ j req, env.parse (bodyOf input) = some j ∧ Decodes j action req ∧ Answerable env s req := by
  constructor
  · rintro ⟨answer, h⟩
    unfold onRequest at h
    cases hd : decodeRequest action env input with
    | error e =>
      rw [hd] at h
      cases h
    | ok r =>
      obtain ⟨id, req⟩ := r
      obtain ⟨-, j, hj, hreq⟩ := (decodeRequest_iff hid hlen).mp hd
      refine ⟨j, req, hj, hreq, (answers_iff env a s req).mp ?_⟩
      cases hh : handle env s (req, a) with
      | error e =>
        simp only [hd, hh] at h
        cases h
      | ok r =>
        obtain ⟨resp, s'⟩ := r
        simp only [hd, hh] at h
        obtain ⟨text, htext, -⟩ := map_ok_iff.mp h
        exact ⟨resp, s', text, hh, htext⟩
  · rintro ⟨j, req, hj, hreq, hans⟩
    obtain ⟨resp, s', text, hh, htext⟩ := (answers_iff env a s req).mpr hans
    have hd : decodeRequest action env input = .ok (messageId, req) :=
      (decodeRequest_iff hid hlen).mpr ⟨rfl, j, hj, hreq⟩
    refine ⟨some (uri, cstr (addBase text .respond [] messageId 0)), ?_⟩
    simp only [onRequest, hd, hh, htext, Except.map]

/-! ## The loop body -/

/-- The request has three fields, and if the third names an action, its body is an
object with the strings of that action which can be answered. -/
def Survives (env : Env) (s : ParkManagerServer) (input : Str) : Prop :=
  ∃ field, (input.splitOn (ch ','))[2]? = some field ∧
    ∀ action, dispatch field = some action → ∃ j req, env.parse (bodyOf input) = some j ∧
      Decodes j action req ∧ Answerable env s req

theorem gateHanlder_returns_iff (env : Env) (a : Ambient) (s : ParkManagerServer) (m : WSMessage)
    (ht : m.type = str "Server") :
    Returns (gateHanlder env a s m) ↔ Survives env s m.payload := by
  cases hget : (m.payload.splitOn (ch ','))[2]? with
  | none =>
    refine iff_of_false ?_ ?_
    · rintro ⟨answer, h⟩
      unfold gateHanlder at h
      cases hf : requestFields m.payload with
      | error e =>
        rw [hf] at h
        cases h
      | ok r =>
        obtain ⟨_, -, hf⟩ := bind_ok_iff.mp hf
        obtain ⟨_, hf, -⟩ := bind_ok_iff.mp hf
        rw [vectorAt_ok_iff, hget] at hf
        cases hf
    · rintro ⟨field, hfield, -⟩
      rw [hget] at hfield
      cases hfield
  | some field =>
    have hlen : 2 < (m.payload.splitOn (ch ',')).length := (List.getElem?_eq_some_iff.mp hget).1
    obtain ⟨messageId, hid⟩ := vectorAt_isOk_iff.mpr (show 1 < (m.payload.splitOn (ch ',')).length
      by omega)
    have hfields : requestFields m.payload = .ok (messageId, field) :=
      bind_ok_iff.mpr ⟨_, hid, bind_ok_iff.mpr ⟨_, vectorAt_ok_iff.mpr hget, rfl⟩⟩
    have hbody : gateHanlder env a s m = match dispatch field with
        | some action => onRequest action env a s m.uri m.payload
        | none => (s, .ok none) := by
      simp only [gateHanlder, hfields, ht, ↓reduceIte]
      cases dispatch field with
      | none => rfl
      | some action => cases action <;> rfl
    rw [hbody]
    simp only [Survives, hget, Option.some.injEq, exists_eq_left']
    cases dispatch field with
    | none => exact iff_of_true ⟨none, rfl⟩ fun _ h => by cases h
    | some action =>
      simp only [Option.some.injEq, forall_eq']
      exact onRequest_returns_iff hid hlen

/-! ## A message of a client -/

/-- The request filed for a text that a client sent. -/
theorem queued_type {mm mm' : MessageManager} {uri text : Str} {m : WSMessage}
    (hadd : mm.addMessage (envelope (str "Server") uri text) = .ok (mm', true))
    (hm : mm'.ocppCALLMessageQueue = mm.ocppCALLMessageQueue ++ [m]) : m.type = str "Server" := by
  obtain ⟨type, htype, hadd⟩ := bind_ok_iff.mp hadd
  obtain ⟨u, -, hadd⟩ := bind_ok_iff.mp hadd
  obtain ⟨payload, -, hadd⟩ := bind_ok_iff.mp hadd
  have ht : type = str "Server" := by
    rw [vectorAt_ok_iff, MessageManager.envelope_fields _ _ _ (by decide)] at htype
    exact (Option.some.inj htype).symm
  split_ifs at hadd with hlen
  · obtain ⟨messageType, -, hadd⟩ := bind_ok_iff.mp hadd
    have hput := Except.ok.inj hadd
    unfold MessageManager.put at hput
    split_ifs at hput
    · obtain ⟨rfl, -⟩ := Prod.mk.inj hput
      have := List.append_cancel_left hm
      rw [← (List.cons.inj this).1, ht]
    · obtain ⟨rfl, -⟩ := Prod.mk.inj hput
      simp at hm
    · cases hput
  · cases hadd

end ParkManager
