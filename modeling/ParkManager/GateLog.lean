import ParkManager.Logging

/-!
# The gate handler with its log

The loop body and the handlers log what they do, at each level and also in
`WebSocketServer::SendMessage`, and most lines repeat what a client sent.  A line that is
longer than the buffer of `LOGGER` writes past its end, so that log calls decide with
everything else whether the loop goes on.

Proved here, for every state, every message and whatever is logged:

* `Logged.gateHanlder_returns_iff`: an iteration returns exactly on a request that
  `Survives` and about which all lines are short, and `client_message_survives_iff`: the
  same for a text sent by a client;
* `Logged.gateHanlder_eq`: an iteration that returns does what `gateHanlder` does;
* `short_message_kills`: three bytes that end the loop, and a long name that does.
-/

namespace ParkManager

open ParkManagerServer

/-! ## Lines -/

/-- How the process logs. -/
structure Log where
  logLvl : ℕ
  /-- `ParkManagerServer.cpp` -/
  serverFile : SourceFile
  /-- `WebSocketServer.cpp` -/
  socketFile : SourceFile
  /-- `__PRETTY_FUNCTION__` in a member of `WebSocketServer`; compilers spell it differently. -/
  prettyFunction : Str → Str
  /-- Each call reads the clock for itself. -/
  clock : LogCall → Timeval

/-- How `SendMessage` ends: the message went out, every attempt failed, the server was
never open, or there is no connection of the uri. -/
inductive Sending
  | sent
  | failed (error : Str)
  | notOpen
  | unknownUri
  deriving DecidableEq

/-- What the log calls of one iteration find. -/
structure LogAmbient where
  /-- `time(0)` -/
  time : ℤ
  /-- The text that `%s` finds where no argument was passed; `none` if there is none. -/
  stray : Option Str
  sending : Sending
  deriving DecidableEq

/-- A log call and its level; no call if it asks for an argument that is not there. -/
structure LogLine where
  file : SourceFile
  level : ErrorLevel
  call : Option LogCall

/-- The line is not logged, or ends within the buffer. -/
def Log.Fits (log : Log) (l : LogLine) : Prop :=
  match l.call with
  | some c => ParkManager.Fits log.logLvl l.file (log.clock c) l.level c
  | none => l.level.toNat < log.logLvl

/-- The bytes of a line: its prefix, its text and its arguments, which take the place of
two characters each. -/
def lineLength (file : SourceFile) (level : ErrorLevel) (c : LogCall) : ℕ :=
  20 + level.text.length + file.path.length + c.func.length + (decimal c.line).length +
    c.text.length + (c.args.map fun arg => arg.written.length).sum - 2 * c.args.length

/-- The line is not logged, or has at most 1023 bytes. -/
def Log.Short (log : Log) (l : LogLine) : Prop :=
  l.level.toNat < log.logLvl ∨ ∃ c ∈ l.call, lineLength l.file l.level c ≤ 1023

instance (log : Log) : DecidablePred log.Short := fun l =>
  inferInstanceAs (Decidable (l.level.toNat < log.logLvl ∨
    ∃ c ∈ l.call, lineLength l.file l.level c ≤ 1023))

theorem Log.fits_iff (log : Log) (l : LogLine) : log.Fits l ↔ log.Short l := by
  obtain ⟨file, level, call⟩ := l
  cases call with
  | none => simp [Log.Fits, Log.Short]
  | some c =>
    simp only [Log.Fits, Log.Short, ParkManager.fits_iff, Option.mem_def, Option.some.injEq,
      exists_eq_left', lineLength]
    omega

instance (log : Log) : DecidablePred log.Fits := fun l => decidable_of_iff _ (log.fits_iff l).symm

/-- Log calls, and what comes after them. -/
def Log.write (log : Log) (s : ParkManagerServer) (lines : List LogLine) (rest : Outcome) :
    Outcome :=
  if ∀ l ∈ lines, log.Fits l then rest else (s, .error .badLogLine)

def Log.serverLine (log : Log) (level : ErrorLevel) (c : LogCall) : LogLine :=
  ⟨log.serverFile, level, some c⟩

def Log.socketLine (log : Log) (level : ErrorLevel) (c : LogCall) : LogLine :=
  ⟨log.socketFile, level, some c⟩

/-- What `%d` prints of a number that is no `int`. -/
def LogArg.int (n : ℤ) : LogArg := .d (Int32.ofInt n).toInt

/-! ## The lines of `GateHanlder` -/

/-- The lines about a message whose fields were read.  The first number is for `%ld`. -/
def incomingLines (log : Log) (la : LogAmbient) (m : WSMessage) : List LogLine :=
  [log.serverLine .info ⟨str "GateHanlder", 100,
    str "###################Incoming Message PM <-> Gate #############\n", [],
    by decide, by decide, ⟨_, rfl⟩⟩,
  log.serverLine .debug ⟨str "GateHanlder", 101, str "timestamp:%d\n", [.d la.time],
    by decide, by decide, ⟨_, rfl⟩⟩,
  log.serverLine .debug ⟨str "GateHanlder", 102, str "type:%s\n", [.s m.type],
    by decide, by decide, ⟨_, rfl⟩⟩,
  log.serverLine .debug ⟨str "GateHanlder", 103, str "uri:%s\n", [.s m.uri],
    by decide, by decide, ⟨_, rfl⟩⟩,
  log.serverLine .debug ⟨str "GateHanlder", 104, str "input:%s\n", [.s m.payload],
    by decide, by decide, ⟨_, rfl⟩⟩,
  log.serverLine .debug ⟨str "GateHanlder", 105,
    str "###############################################\n", [],
    by decide, by decide, ⟨_, rfl⟩⟩]

/-- The line about a request that names no action. -/
def unsupportedLine (log : Log) (action : Str) : LogLine :=
  log.serverLine .fatal ⟨str "GateHanlder", 114, str "unkown or unsupport action: %s\n",
    [.s action], by decide, by decide, ⟨_, rfl⟩⟩

/-! ## The lines of the handlers -/

/-- `__FUNCTION__` in the handler of an action. -/
def Action.handler : Action → Str
  | .gateRegistration => str "OnGateRegistration"
  | .carEnterence => str "OnCarEnterence"
  | .carStatusUpdate => str "OnCarStatusUpdate"

theorem Action.plain_handler (action : Action) : ch '%' ∉ action.handler := by
  cases action <;> decide

/-- The lines of `OnGateRegistration` between decoding and answer. -/
def registrationLines (log : Log) (la : LogAmbient) (s : ParkManagerServer) (uri : Str)
    (gateRegist : GateRegistration) : List LogLine :=
  -- `e.what()` of an exception of `stoi`
  let unread := match stoi gateRegist.gateType with
    | .ok _ => []
    | .error _ => [log.serverLine .error ⟨Action.handler .gateRegistration, 139,
        str " error on registration of gate with URI %s \n ", [.s (str "stoi")],
        Action.plain_handler _, by decide, ⟨_, rfl⟩⟩]
  let gateType := gateTypeOf gateRegist
  let outcome :=
    if gateType = GateType.enterence.toInt then
      if gateRegist.gateName ∉ s.enternceGates then
        log.serverLine .info ⟨Action.handler .gateRegistration, 144,
          str "Registering Entrance gate %s with uri %s \n", [.s gateRegist.gateName, .s uri],
          Action.plain_handler _, by decide, ⟨_, rfl⟩⟩
      else ⟨log.serverFile, .info, la.stray.map fun name => ⟨Action.handler .gateRegistration, 149,
          str "gate %s is already registered\n", [.s name],
          Action.plain_handler _, by decide, ⟨_, rfl⟩⟩⟩
    else if gateType = GateType.exiting.toInt then
      if gateRegist.gateName ∉ s.exitingGates then
        log.serverLine .info ⟨Action.handler .gateRegistration, 154,
          str "Registering exitingGates  %s with uri %s \n", [.s gateRegist.gateName, .s uri],
          Action.plain_handler _, by decide, ⟨_, rfl⟩⟩
      else ⟨log.serverFile, .info, la.stray.map fun name => ⟨Action.handler .gateRegistration, 159,
          str "gate %s is already registered\n", [.s name],
          Action.plain_handler _, by decide, ⟨_, rfl⟩⟩⟩
    else log.serverLine .error ⟨Action.handler .gateRegistration, 163,
      str "unknown Gate type %d \n", [.d gateType], Action.plain_handler _, by decide, ⟨_, rfl⟩⟩
  unread ++ [outcome]

/-- The lines of `OnCarEnterence` between decoding and answer. -/
def entranceLines (log : Log) (s : ParkManagerServer) (uri : Str) (carEnter : CarEnterence) :
    List LogLine :=
  if carEnter.enterenceGate ∉ s.enternceGates then
    [log.serverLine .info ⟨Action.handler .carEnterence, 186,
      str " gate %s with uri %s is not registered \n", [.s carEnter.enterenceGate, .s uri],
      Action.plain_handler _, by decide, ⟨_, rfl⟩⟩]
  else if carEnter.handicap = HandicapStatus.yes ∧ s.handicapSlotCount ≠ 0 then
    [log.serverLine .info ⟨Action.handler .carEnterence, 197,
      str "allocating Handicap slot , remaining slots %d \n", [.int s.handicapSlotCount.toNat],
      Action.plain_handler _, by decide, ⟨_, rfl⟩⟩]
  else []

/-- The lines of `OnCarStatusUpdate` between decoding and answer.  The last one is reached
if there is a car and the free time can be read. -/
def exitLines (log : Log) (env : Env) (a : Ambient) (s : ParkManagerServer)
    (carStatusUp : CarStatusUpdate) : List LogLine :=
  let stranger := if carStatusUp.exitingGate ∉ s.exitingGates then
      [log.serverLine .info ⟨Action.handler .carStatusUpdate, 251,
        str "gate not register ,register the gate\n", [],
        Action.plain_handler _, by decide, ⟨_, rfl⟩⟩]
    else []
  let ct := env.getTimeinSeconds a.timeUTC
  let now := [log.serverLine .debug ⟨Action.handler .carStatusUpdate, 259,
      str "current time UTC %s \n ", [.s a.timeUTC], Action.plain_handler _, by decide, ⟨_, rfl⟩⟩,
    log.serverLine .debug ⟨Action.handler .carStatusUpdate, 262,
      str "current time %d \n ", [.int ct], Action.plain_handler _, by decide, ⟨_, rfl⟩⟩]
  match s.registeredCars.lookup carStatusUp.carPlate,
    stoi (env.getValueFromConfigFile (str "FreeDurationinMin")) with
  | none, _ => stranger
  | some (some car), .ok freeDurationinMin =>
    let et := env.getTimeinSeconds car.enterenceTime
    stranger ++ now ++ [log.serverLine .debug ⟨Action.handler .carStatusUpdate, 267,
      str "EnterenceTimeUTC  %d EnterenceTimeUTC  %s durationSec %d , free time s:%d\n ",
      [.int et, .s car.enterenceTime, .int (ct - et), .int (freeDurationinMin * 60)],
      Action.plain_handler _, by decide, ⟨_, rfl⟩⟩]
  | _, _ => stranger ++ now

def handlingLines (log : Log) (env : Env) (a : Ambient) (la : LogAmbient) (s : ParkManagerServer)
    (uri : Str) : Request → List LogLine
  | .gateRegistration r => registrationLines log la s uri r
  | .carEnterence r => entranceLines log s uri r
  | .carStatusUpdate r => exitLines log env a s r

/-- The lines of `SendMessage`. -/
def sendingLines (log : Log) (la : LogAmbient) (uri message : Str) : List LogLine :=
  log.socketLine .debug ⟨str "SendMessage", 160, str "%s %d send message:%s\n",
    [.s (str "SendMessage"), .d 160, .s message], by decide, by decide, ⟨_, rfl⟩⟩ ::
  match la.sending with
  | .sent => [log.socketLine .debug ⟨str "SendMessage", 171,
      str "%s %d: Sending message successful.\n",
      [.s (log.prettyFunction (str "SendMessage")), .d 171], by decide, by decide, ⟨_, rfl⟩⟩]
  | .failed error => [log.socketLine .fatal ⟨str "SendMessage", 180,
      str "%s %d: Error Sending message (%s)\n",
      [.s (log.prettyFunction (str "SendMessage")), .d 180, .s error],
      by decide, by decide, ⟨_, rfl⟩⟩]
  | .notOpen => []
  | .unknownUri => [log.socketLine .fatal ⟨str "SendMessage", 183,
      str "%s %d: unknown uri:%s\n",
      [.s (log.prettyFunction (str "SendMessage")), .d 183, .s uri],
      by decide, by decide, ⟨_, rfl⟩⟩]

/-! ## The handlers and the loop body -/

namespace Logged

/-- What the three handlers have in common, with their log calls. -/
def onRequest (log : Log) (action : Action) (env : Env) (a : Ambient) (la : LogAmbient)
    (s : ParkManagerServer) (uri input : Str) : Outcome :=
  log.write s [log.serverLine .info (requestLog action input)] <|
  match handleIncomingMsg input .call with
  | .error e => (s, .error e)
  | .ok (messageId, jsonString) =>
    log.write s (if action = .gateRegistration then
      [log.serverLine .info (bodyLog messageId jsonString)] else []) <|
    match (parseJson env jsonString).bind (requestFromJson action) with
    | .error e => (s, .error e)
    | .ok request =>
      log.write s (handlingLines log env a la s uri request) <|
      match handle env s (request, a) with
      | .error e => (s, .error e)
      | .ok (resp, s') =>
        match dumpObject resp.toJson with
        | .error e => (s', .error e)
        | .ok text =>
          let response := cstr (addBase text .respond [] messageId 0)
          log.write s' (log.serverLine .info (responseLog action response) ::
            sendingLines log la uri response) (s', .ok (some (uri, response)))

/-- `OnGateRegistration`. -/
def onGateRegistration (log : Log) := onRequest log .gateRegistration

/-- `OnCarEnterence`. -/
def onCarEnterence (log : Log) := onRequest log .carEnterence

/-- `OnCarStatusUpdate`. -/
def onCarStatusUpdate (log : Log) := onRequest log .carStatusUpdate

/-- One iteration of `GateHanlder` on the request taken from the queue. -/
def gateHanlder (log : Log) (env : Env) (a : Ambient) (la : LogAmbient) (s : ParkManagerServer)
    (ocppMessage : WSMessage) : Outcome :=
  match requestFields ocppMessage.payload with
  | .error e => (s, .error e)
  | .ok (_, action) =>
    log.write s (incomingLines log la ocppMessage) <|
    if ocppMessage.type = str "Server" then
      match dispatch action with
      | some .gateRegistration =>
        onGateRegistration log env a la s ocppMessage.uri ocppMessage.payload
      | some .carStatusUpdate =>
        onCarStatusUpdate log env a la s ocppMessage.uri ocppMessage.payload
      | some .carEnterence => onCarEnterence log env a la s ocppMessage.uri ocppMessage.payload
      | none => log.write s [unsupportedLine log action] (s, .ok none)
    else (s, .ok none)

end Logged

/-! ## When all lines are short -/

/-- What a registration is answered, by the type of the gate and the gates there are. -/
def registrationResult (s : ParkManagerServer) (r : GateRegistration) : Str :=
  if gateTypeOf r = 0 ∧ r.gateName ∈ s.enternceGates ∨
      gateTypeOf r = 1 ∧ r.gateName ∈ s.exitingGates then RegistrationStatus.exist
  else if gateTypeOf r = 0 ∨ gateTypeOf r = 1 then RegistrationStatus.accept
  else RegistrationStatus.reject

/-- What an entrance is answered, by the slot it can take. -/
def entranceResponse (env : Env) (s : ParkManagerServer) (r : CarEnterence) :
    CarEnterenceResponse :=
  match s.takesFrom r with
  | some p =>
    if s.slotNumber p ≠ 0 then ⟨RegistrationStatus.accept, welcome env r (s.slotNumber p)⟩
    else parkingFull
  | none => if r.enterenceGate ∈ s.enternceGates then parkingFull else notRegisteredGate

/-- What an exit is answered, by the car under the plate. -/
def exitResponse (env : Env) (a : Ambient) (s : ParkManagerServer) (r : CarStatusUpdate) :
    CarStatusUpdateResponse :=
  match s.registeredCars.lookup r.carPlate,
    stoi (env.getValueFromConfigFile (str "FreeDurationinMin")) with
  | some (some car), .ok free =>
    byeBye env (env.getTimeinSeconds a.timeUTC - env.getTimeinSeconds car.enterenceTime) free
  | _, _ => notRegisteredCar env

/-- What a request is answered, by the state it finds. -/
def answerTo (env : Env) (a : Ambient) (s : ParkManagerServer) : Request → Response
  | .gateRegistration r => .gateRegistration ⟨registrationResult s r⟩
  | .carEnterence r => .carEnterence (entranceResponse env s r)
  | .carStatusUpdate r => .carStatusUpdate (exitResponse env a s r)

theorem registerGate_result (s : ParkManagerServer) (r : GateRegistration) :
    (registerGate s r).2 = ⟨registrationResult s r⟩ := by
  rcases registerGate_cases s r with ⟨e, ht, hg⟩ | ⟨e, ht, hg⟩ | ⟨e, h⟩ | ⟨e, h₀, h₁⟩ <;>
    rw [e, registrationResult]
  · simp [ht, hg]
  · simp [ht, hg]
  · rw [if_pos h]
  · simp [h₀, h₁]

theorem admitCar_response (env : Env) (a : Ambient) (s : ParkManagerServer) (r : CarEnterence) :
    (admitCar env a s r).2 = entranceResponse env s r := by
  rcases admitCar_cases env a s r with ⟨hg, e⟩ | ⟨hg, hp, e⟩ | ⟨p, hp, h0, e⟩ |
    ⟨p, hp, h0, e⟩ <;> rw [e, entranceResponse]
  · simp only [takesFrom_none_of_gate hg, if_neg hg]
  · simp only [takesFrom_none_of_full hg hp, if_pos hg]
  · simp [hp, h0]
  · simp [hp, h0]

/-- A handler that returns gives this answer. -/
theorem handle_answerTo {env : Env} {a : Ambient} {s s' : ParkManagerServer} {req : Request}
    {resp : Response} (h : handle env s (req, a) = .ok (resp, s')) :
    resp = answerTo env a s req := by
  cases req with
  | gateRegistration r =>
    have hresp : .gateRegistration (registerGate s r).2 = resp := (Prod.mk.inj (Except.ok.inj h)).1
    rw [← hresp, registerGate_result]
    rfl
  | carEnterence r =>
    have hresp : .carEnterence (admitCar env a s r).2 = resp := (Prod.mk.inj (Except.ok.inj h)).1
    rw [← hresp, admitCar_response]
    rfl
  | carStatusUpdate r =>
    simp only [handle] at h
    split at h
    · rename_i t resp' hc
      rw [← (Prod.mk.inj (Except.ok.inj h)).1]
      simp only [checkOut, answerTo, exitResponse] at hc ⊢
      cases hl : s.registeredCars.lookup r.carPlate with
      | none =>
        rw [hl] at hc
        rw [← (Prod.mk.inj (Except.ok.inj hc)).2]
      | some entry =>
        rw [hl] at hc
        cases entry with
        | none => cases hc
        | some car =>
          obtain ⟨free, hfree, hc⟩ := bind_ok_iff.mp hc
          rw [← (Prod.mk.inj (Except.ok.inj hc)).2, hfree]
    · cases h

/-- The lines about a request that was decoded, with the answer it gets. -/
def requestLines (log : Log) (action : Action) (env : Env) (a : Ambient) (la : LogAmbient)
    (s : ParkManagerServer) (uri messageId : Str) (request : Request) (text : Str) :
    List LogLine :=
  let response := cstr (addBase text .respond [] messageId 0)
  handlingLines log env a la s uri request ++
    log.serverLine .info (responseLog action response) :: sendingLines log la uri response

/-- The lines about a message with this id and this third field are short: for one that
names no action the line that says so; for one that names an action those about the
request, its id and its body, and what the handler says of it and of its answer. -/
def FieldsShort (log : Log) (env : Env) (a : Ambient) (la : LogAmbient) (s : ParkManagerServer)
    (m : WSMessage) (messageId field : Str) : Prop :=
  (dispatch field = none → log.Short (unsupportedLine log field)) ∧
  ∀ action, dispatch field = some action →
    log.Short (log.serverLine .info (requestLog action m.payload)) ∧
    (action = .gateRegistration →
      log.Short (log.serverLine .info (bodyLog messageId (bodyOf m.payload)))) ∧
    ∀ j request, env.parse (bodyOf m.payload) = some j → Decodes j action request →
      ∀ text, dumpObject (answerTo env a s request).toJson = .ok text →
        ∀ l ∈ requestLines log action env a la s m.uri messageId request text, log.Short l

/-- All lines about a message are short. -/
def LinesShort (log : Log) (env : Env) (a : Ambient) (la : LogAmbient) (s : ParkManagerServer)
    (m : WSMessage) : Prop :=
  (∀ l ∈ incomingLines log la m, log.Short l) ∧
  ∀ messageId field, (m.payload.splitOn (ch ','))[1]? = some messageId →
    (m.payload.splitOn (ch ','))[2]? = some field → FieldsShort log env a la s m messageId field

/-! ## When an iteration returns -/

theorem decodeBody_iff {env : Env} {action : Action} {text : Str} {request : Request} :
    (parseJson env text).bind (requestFromJson action) = .ok request ↔
      ∃ j, env.parse text = some j ∧ Decodes j action request :=
  bind_ok_iff.trans (exists_congr fun _ => and_congr parseJson_ok_iff requestFromJson_iff)

/-- A body is decoded in one way. -/
theorem decoded_unique {env : Env} {action : Action} {text : Str} {j j' : Json}
    {request request' : Request} (hj : env.parse text = some j) (hreq : Decodes j action request)
    (hj' : env.parse text = some j') (hreq' : Decodes j' action request') :
    request' = request := by
  have h := decodeBody_iff.mpr ⟨j, hj, hreq⟩
  rw [decodeBody_iff.mpr ⟨j', hj', hreq'⟩] at h
  exact Except.ok.inj h

namespace Logged

theorem returns_write_iff {log : Log} {s : ParkManagerServer} {lines : List LogLine}
    {rest : Outcome} :
    Returns (log.write s lines rest) ↔ (∀ l ∈ lines, log.Short l) ∧ Returns rest := by
  have hfits : (∀ l ∈ lines, log.Fits l) ↔ ∀ l ∈ lines, log.Short l := by
    simp only [Log.fits_iff]
  unfold Log.write
  split_ifs with h
  · exact (and_iff_right (hfits.mp h)).symm
  · refine iff_of_false (fun ⟨_, e⟩ => by cases e) fun ⟨hs, _⟩ => h (hfits.mpr hs)

theorem not_returns_error {s : ParkManagerServer} {e : Fault} : ¬ Returns (s, .error e) :=
  fun ⟨_, h⟩ => by cases h

theorem decodeRequest_eq {action : Action} {env : Env} {input messageId jsonString : Str}
    (h : handleIncomingMsg input .call = .ok (messageId, jsonString)) :
    decodeRequest action env input =
      ((parseJson env jsonString).bind (requestFromJson action)).map fun request =>
        (messageId, request) := by
  simp only [decodeRequest, h, bind, Except.bind, pure, Except.pure]
  cases parseJson env jsonString with
  | error e => rfl
  | ok j => cases requestFromJson action j <;> rfl

/-- A handler returns where it does without its log calls and its lines are short. -/
theorem onRequest_returns_iff {log : Log} {action : Action} {env : Env} {a : Ambient}
    {la : LogAmbient} {s : ParkManagerServer} {uri input messageId : Str}
    (hid : vectorAt (input.splitOn (ch ',')) 1 = .ok messageId)
    (hlen : 3 ≤ (input.splitOn (ch ',')).length) :
    Returns (onRequest log action env a la s uri input) ↔
      Returns (ParkManager.onRequest action env a s uri input) ∧
      log.Short (log.serverLine .info (requestLog action input)) ∧
      (action = .gateRegistration →
        log.Short (log.serverLine .info (bodyLog messageId (bodyOf input)))) ∧
      ∀ j request, env.parse (bodyOf input) = some j → Decodes j action request →
        ∀ text, dumpObject (answerTo env a s request).toJson = .ok text →
          ∀ l ∈ requestLines log action env a la s uri messageId request text, log.Short l := by
  have hmsg := handleIncomingMsg_call hid hlen
  have hbody : (∀ l ∈ if action = .gateRegistration then
        [log.serverLine .info (bodyLog messageId (bodyOf input))] else [], log.Short l) ↔
      (action = .gateRegistration →
        log.Short (log.serverLine .info (bodyLog messageId (bodyOf input)))) := by
    split_ifs with h <;> simp [h]
  unfold onRequest ParkManager.onRequest
  simp only [hmsg, decodeRequest_eq hmsg]
  rw [returns_write_iff, List.forall_mem_singleton, returns_write_iff, hbody,
    and_left_comm (a := Returns _)]
  refine and_congr_right fun _ => ?_
  rw [and_left_comm (a := Returns _)]
  refine and_congr_right fun _ => ?_
  cases hd : (parseJson env (bodyOf input)).bind (requestFromJson action) with
  | error e => exact iff_of_false not_returns_error fun h => not_returns_error h.1
  | ok request =>
    obtain ⟨j, hj, hreq⟩ := decodeBody_iff.mp hd
    -- the body is decoded to this request and no other
    have hdecoded : (∀ j' request', env.parse (bodyOf input) = some j' →
          Decodes j' action request' →
          ∀ text, dumpObject (answerTo env a s request').toJson = .ok text →
            ∀ l ∈ requestLines log action env a la s uri messageId request' text, log.Short l) ↔
        ∀ text, dumpObject (answerTo env a s request).toJson = .ok text →
          ∀ l ∈ requestLines log action env a la s uri messageId request text, log.Short l :=
      ⟨fun h => h j request hj hreq,
        fun h j' request' hj' hreq' => by rwa [decoded_unique hj hreq hj' hreq']⟩
    rw [hdecoded, returns_write_iff]
    simp only [Except.map]
    cases hh : handle env s (request, a) with
    | error e =>
      exact iff_of_false (fun h => not_returns_error h.2) fun h => not_returns_error h.1
    | ok r =>
      obtain ⟨resp, s'⟩ := r
      cases htext : dumpObject resp.toJson with
      | error e =>
        simp only [htext]
        exact iff_of_false (fun h => not_returns_error h.2) fun h => not_returns_error h.1
      | ok text =>
        have hanswer : dumpObject (answerTo env a s request).toJson = .ok text := by
          rw [← handle_answerTo hh, htext]
        simp only [htext, hanswer, Except.ok.injEq, forall_eq', requestLines,
          List.forall_mem_append, returns_write_iff]
        constructor
        · rintro ⟨hhandling, hlines, -⟩
          exact ⟨⟨_, rfl⟩, hhandling, hlines⟩
        · rintro ⟨-, hhandling, hlines⟩
          exact ⟨hhandling, hlines, ⟨_, rfl⟩⟩

theorem gateHanlder_returns_iff (log : Log) (env : Env) (a : Ambient) (la : LogAmbient)
    (s : ParkManagerServer) (m : WSMessage) (ht : m.type = str "Server") :
    Returns (gateHanlder log env a la s m) ↔
      Survives env s m.payload ∧ LinesShort log env a la s m := by
  rw [← ParkManager.gateHanlder_returns_iff env a s m ht]
  unfold gateHanlder ParkManager.gateHanlder
  cases hf : requestFields m.payload with
  | error e => exact iff_of_false not_returns_error fun h => not_returns_error h.1
  | ok r =>
    obtain ⟨messageId, field⟩ := r
    obtain ⟨_, hid, hf'⟩ := bind_ok_iff.mp hf
    obtain ⟨_, hfield, hf'⟩ := bind_ok_iff.mp hf'
    cases hf'
    have hget₁ := vectorAt_ok_iff.mp hid
    have hget₂ := vectorAt_ok_iff.mp hfield
    have hlen : 3 ≤ (m.payload.splitOn (ch ',')).length := (List.getElem?_eq_some_iff.mp hget₂).1
    have hlines : LinesShort log env a la s m ↔ (∀ l ∈ incomingLines log la m, log.Short l) ∧
        FieldsShort log env a la s m messageId field := by
      refine and_congr_right fun _ => ⟨fun h => h _ _ hget₁ hget₂, fun h id' field' h₁ h₂ => ?_⟩
      cases hget₁.symm.trans h₁
      cases hget₂.symm.trans h₂
      exact h
    simp only [ht, ↓reduceIte]
    rw [hlines, returns_write_iff, and_left_comm]
    refine and_congr_right fun _ => ?_
    unfold FieldsShort
    cases hd : dispatch field with
    | none =>
      have hret : Returns (s, .ok none) := ⟨none, rfl⟩
      simp [returns_write_iff, hret]
    | some action =>
      simp only [reduceCtorEq, false_implies, true_and, Option.some.injEq, forall_eq']
      cases action <;> exact onRequest_returns_iff hid hlen

/-! ## The iteration without its log calls -/

theorem write_of_returns {log : Log} {s : ParkManagerServer} {lines : List LogLine}
    {rest : Outcome} (h : Returns (log.write s lines rest)) :
    log.write s lines rest = rest ∧ Returns rest := by
  unfold Log.write at h ⊢
  split_ifs at h ⊢
  · exact ⟨rfl, h⟩
  · exact absurd h not_returns_error

theorem onRequest_eq {log : Log} {action : Action} {env : Env} {a : Ambient} {la : LogAmbient}
    {s : ParkManagerServer} {uri input : Str}
    (h : Returns (onRequest log action env a la s uri input)) :
    onRequest log action env a la s uri input =
      ParkManager.onRequest action env a s uri input := by
  unfold onRequest at h ⊢
  obtain ⟨hrequest, h⟩ := write_of_returns h
  rw [hrequest]
  unfold ParkManager.onRequest
  cases hmsg : handleIncomingMsg input .call with
  | error e => simp only [decodeRequest, hmsg, bind, Except.bind]
  | ok r =>
    obtain ⟨messageId, jsonString⟩ := r
    simp only [hmsg] at h
    rw [decodeRequest_eq hmsg]
    simp only
    obtain ⟨hbody, h⟩ := write_of_returns h
    rw [hbody]
    cases hreq : (parseJson env jsonString).bind (requestFromJson action) with
    | error e => rfl
    | ok request =>
      simp only [hreq, Except.map] at h ⊢
      obtain ⟨hhandling, h⟩ := write_of_returns h
      rw [hhandling]
      cases hh : handle env s (request, a) with
      | error e => rfl
      | ok r =>
        obtain ⟨resp, s'⟩ := r
        simp only [hh] at h ⊢
        cases htext : dumpObject resp.toJson with
        | error e => rfl
        | ok text =>
          simp only [htext] at h ⊢
          exact (write_of_returns h).1

/-- An iteration that returns does what it would do if nothing were logged. -/
theorem gateHanlder_eq {log : Log} {env : Env} {a : Ambient} {la : LogAmbient}
    {s : ParkManagerServer} {m : WSMessage} (h : Returns (gateHanlder log env a la s m)) :
    gateHanlder log env a la s m = ParkManager.gateHanlder env a s m := by
  unfold gateHanlder at h ⊢
  unfold ParkManager.gateHanlder
  cases hf : requestFields m.payload with
  | error e => rfl
  | ok r =>
    simp only [hf] at h ⊢
    obtain ⟨hincoming, h⟩ := write_of_returns h
    rw [hincoming]
    by_cases ht : m.type = str "Server"
    · simp only [if_pos ht] at h ⊢
      cases hd : dispatch r.2 with
      | none =>
        simp only [hd] at h ⊢
        exact (write_of_returns h).1
      | some action =>
        simp only [hd] at h ⊢
        cases action <;> exact onRequest_eq h
    · simp only [if_neg ht]

end Logged

/-! ## A message of a client -/

/-- **No client message stops the server**, if it survives and is short.  Whatever the uri
and the text, and whatever the state: if the text is queued as a `CALL`, the iteration on it
returns exactly when the filed payload survives and all lines about it are short. -/
theorem client_message_survives_iff (log : Log) (env : Env) (a : Ambient) (la : LogAmbient)
    (s : ParkManagerServer) {mm mm' : MessageManager} {uri text : Str} {m : WSMessage}
    (hadd : mm.addMessage (envelope (str "Server") uri text) = .ok (mm', true))
    (hm : mm'.ocppCALLMessageQueue = mm.ocppCALLMessageQueue ++ [m]) :
    Returns (Logged.gateHanlder log env a la s m) ↔
      Survives env s m.payload ∧ LinesShort log env a la s m :=
  Logged.gateHanlder_returns_iff log env a la s m (queued_type hadd hm)

/-- The levels from `INFO` on, and the files of a checkout at the root. -/
def defaultLog : Log where
  logLvl := ErrorLevel.info.toNat
  serverFile := checkedOut
  socketFile :=
    { path := str "/park_manager/src/ParkManager/WebSocketServer.cpp"
      plain := by decide
      short := by decide }
  prettyFunction name := str "WebSocketServer::" ++ name
  clock := fun _ => ⟨0, 0, by decide⟩

/-- One iteration, whose answer goes out. -/
def quiet : LogAmbient := ⟨1656669600, none, .sent⟩

/-- A client that sends `[0]` ends the loop, and so does one that registers a gate with a
name of 1000 letters. -/
theorem short_message_kills :
    (∃ m, MessageManager.empty.addMessage (envelope (str "Server") (str "/Gate1") (str "[0]")) =
        .ok (⟨[m], []⟩, true) ∧
      (Logged.gateHanlder defaultLog packaged morning quiet packagedStart m).2 =
        .error .vectorRange) ∧
    ∃ m, MessageManager.empty.addMessage (envelope (str "Server") (str "/Gate1")
        (namedRegistration 1000)) = .ok (⟨[m], []⟩, true) ∧
      (Logged.gateHanlder defaultLog packaged morning quiet packagedStart m).2 =
        .error .badLogLine :=
  ⟨⟨⟨str "/Gate1", str "Server", str "[0]"⟩, rfl, rfl⟩,
    ⟨⟨str "/Gate1", str "Server", namedRegistration 1000⟩, by decide +kernel, by decide +kernel⟩⟩

/-- The registration of an entrance gate, as a client writes it. -/
def registrationText : Str :=
  str "[0,\"1804289383\",\"GateRegistration\",\x7b\"GateName\":\"EntGate1\",\"GateType\":\"0\"\x7d]"

/-- The packaged server, with a parser that knows this one body. -/
def packagedParser : Env :=
  { packaged with
    parse := fun text =>
      if text = str "\x7b\"GateName\":\"EntGate1\",\"GateType\":\"0\"\x7d" then
        some (.object [(str "GateName", .string (str "EntGate1")),
          (str "GateType", .string (str "0"))])
      else none }

theorem client_message_survives_registration :
    ∃ m, MessageManager.empty.addMessage (envelope (str "Server") (str "/Gate1")
        registrationText) = .ok (⟨[m], []⟩, true) ∧
      Returns (Logged.gateHanlder defaultLog packagedParser morning quiet packagedStart m) := by
  have hadd : MessageManager.empty.addMessage (envelope (str "Server") (str "/Gate1")
      registrationText) = .ok (⟨[⟨str "/Gate1", str "Server", registrationText⟩], []⟩, true) := rfl
  have hid : (registrationText.splitOn (ch ','))[1]? = some (str "\"1804289383\"") := by decide
  have hfield : (registrationText.splitOn (ch ','))[2]? = some (str "\"GateRegistration\"") := by
    decide
  have hd : dispatch (str "\"GateRegistration\"") = some .gateRegistration := by decide
  have hj : packagedParser.parse (bodyOf registrationText) =
      some (.object [(str "GateName", .string (str "EntGate1")),
        (str "GateType", .string (str "0"))]) := rfl
  have hreq : Decodes (.object [(str "GateName", .string (str "EntGate1")),
      (str "GateType", .string (str "0"))]) .gateRegistration
      (.gateRegistration ⟨str "EntGate1", str "0"⟩) := ⟨⟨_, rfl, rfl⟩, ⟨_, rfl, rfl⟩⟩
  have htext : dumpObject (answerTo packagedParser morning packagedStart
      (.gateRegistration ⟨str "EntGate1", str "0"⟩)).toJson =
      .ok (str "\x7b\"Result\":\"Accept\"\x7d") := by decide +kernel
  refine ⟨_, hadd, (client_message_survives_iff defaultLog packagedParser morning quiet
    packagedStart hadd rfl).mpr ⟨⟨_, hfield, fun action ha => ?_⟩, by decide +kernel, ?_⟩⟩
  · cases hd.symm.trans ha
    exact ⟨_, _, hj, hreq, trivial⟩
  · intro messageId field h₁ h₂
    cases hid.symm.trans h₁
    cases hfield.symm.trans h₂
    refine ⟨fun h => (by cases hd.symm.trans h), fun action ha => ?_⟩
    cases hd.symm.trans ha
    refine ⟨by decide +kernel, fun _ => by decide +kernel, fun j request hj' hreq' text ht => ?_⟩
    cases decoded_unique hj hreq hj' hreq'
    cases htext.symm.trans ht
    decide +kernel

end ParkManager
