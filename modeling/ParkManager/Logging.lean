import ParkManager.GateHandler
import ParkManager.Time
import ParkManager.Lib.Printf

/-!
# The log

`LOGGER` writes time, level, function, file and line in front of the text of a log call,
which `snprintf` and `strncat` keep within 1023 bytes, and expands the result with
`vsprintf` into a second buffer of 1024 bytes, where nothing keeps it.

Proved here:

* `fits_iff`: what a line needs, for every log call of the server;
* `log_lines_fit_iff`: the lines in which a handler logs a request and its answer fit
  exactly when both are short; `long_request_overflows` is a request that is not.
-/

namespace ParkManager

/-! ## `LOGGER` -/

/-- `ERROR_LEVEL`. -/
inductive ErrorLevel
  | trace | debug | info | warn | error | fatal | all
  deriving DecidableEq, Repr

def ErrorLevel.toNat : ErrorLevel → ℕ
  | .trace => 0
  | .debug => 1
  | .info => 2
  | .warn => 3
  | .error => 4
  | .fatal => 5
  | .all => 6

/-- `ERROR_LEVEL_TEXT`, which has no text for `ALL`. -/
def ErrorLevel.text : ErrorLevel → Str
  | .trace => str "TRACE"
  | .debug => str "DEBUG"
  | .info => str "INFO"
  | .warn => str "WARN"
  | .error => str "ERROR"
  | .fatal => str "FATAL"
  | .all => []

/-- `struct timeval`, as `gettimeofday` fills it in. -/
structure Timeval where
  sec : ℤ
  usec : ℕ
  usec_lt : usec < 1000000

/-- An argument of a log call, for `%s` or for `%d`. -/
inductive LogArg
  | s (text : Str)
  | d (n : ℤ)

def LogArg.letter : LogArg → UInt8
  | .s _ => ch 's'
  | .d _ => ch 'd'

def LogArg.written : LogArg → Str
  | .s text => cstr text
  | .d n => decimalInt n

/-- `vsprintf`; `none` where its behaviour is undefined. -/
def vsprintf (format : Str) (args : List LogArg) : Option Str :=
  (Printf.expand (ch '%') LogArg.letter LogArg.written format args).map Prod.fst

/-- `__FILE__`, the path that the compiler was given. -/
structure SourceFile where
  path : Str
  plain : ch '%' ∉ path
  /-- It leaves room for the text of a log call. -/
  short : path.length ≤ 900

/-- A log call and where it stands. -/
structure LogCall where
  func : Str
  line : ℕ
  text : Str
  args : List LogArg
  plain : ch '%' ∉ func
  short : func.length + (decimal line).length + text.length ≤ 98
  /-- The text asks for the arguments that follow it. -/
  takes : ∃ out, Printf.expand (ch '%') LogArg.letter LogArg.written text args = some (out, [])

/-- `strftime(time_buffer, 40, "%H:%M:%S", gmtime(&(t.tv_sec)))`. -/
def timeBuffer (t : Timeval) : Str :=
  setw 2 (decimalInt (gmtime t.sec).tmHour) ++ (ch ':' ::
    (setw 2 (decimalInt (gmtime t.sec).tmMin) ++
      (ch ':' :: setw 2 (decimalInt (gmtime t.sec).tmSec))))

/-- `func[file:line]: `, the end of both formats. -/
def place (file : SourceFile) (c : LogCall) : Str :=
  c.func ++ (ch '[' :: (file.path ++ (ch ':' :: (decimal c.line ++ str "]: "))))

/-- What `LOGGER` has `snprintf` write: `"%s.%04ld %s %s[%s:%d]: "`, for `ALL`
`"%s.%04ld  %s[%s:%d]: "`. -/
def logPrefix (file : SourceFile) (t : Timeval) (level : ErrorLevel) (c : LogCall) : Str :=
  timeBuffer t ++ (ch '.' :: (setw 4 (decimal (t.usec / 100)) ++
    (if level.toNat < ErrorLevel.all.toNat then
      ch ' ' :: (level.text ++ (ch ' ' :: place file c))
    else str "  " ++ place file c)))

/-- `new_text`: `snprintf` and `strncat` stop at its size. -/
def newText (file : SourceFile) (t : Timeval) (level : ErrorLevel) (c : LogCall) : Str :=
  let newText := (logPrefix file t level c).take 1023
  newText ++ c.text.take (1024 - newText.length - 1)

/-- The line that `LOGGER` formats. -/
def logLine (file : SourceFile) (t : Timeval) (level : ErrorLevel) (c : LogCall) : Option Str :=
  vsprintf (newText file t level c) c.args

/-- The line, if the level is logged at all, ends within the 1024 bytes of `buffer`. -/
def Fits (logLvl : ℕ) (file : SourceFile) (t : Timeval) (level : ErrorLevel) (c : LogCall) :
    Prop :=
  logLvl ≤ level.toNat → ∃ line, logLine file t level c = some line ∧ line.length ≤ 1023

/-! ## The log calls of the handlers -/

/-- `LOG_INFO(text, __FUNCTION__, __LINE__, payload)`. -/
def logPayload (func : Str) (line : ℕ) (text payload : Str) (plain : ch '%' ∉ func)
    (short : func.length + (decimal line).length + text.length ≤ 98)
    (takes : ∃ out, Printf.expand (ch '%') LogArg.letter LogArg.written text
      [.s func, .d line, .s payload] = some (out, [])) : LogCall where
  func := func
  line := line
  text := text
  args := [.s func, .d line, .s payload]
  plain := plain
  short := short
  takes := takes

/-- How the handler of an action logs a request. -/
def requestLog (action : Action) (input : Str) : LogCall :=
  match action with
  | .gateRegistration => logPayload (str "OnGateRegistration") 124
      (str "%s %d Gate GateRegistration request:%s\n") input (by decide) (by decide)
      ⟨_, rfl⟩
  | .carEnterence => logPayload (str "OnCarEnterence") 175
      (str "%s %d Gate CarEnterence request:%s\n") input (by decide) (by decide)
      ⟨_, rfl⟩
  | .carStatusUpdate => logPayload (str "OnCarStatusUpdate") 237
      (str "%s %d Gate CarStatusUpdate request:%s\n") input (by decide) (by decide)
      ⟨_, rfl⟩

/-- How it logs the answer. -/
def responseLog (action : Action) (response : Str) : LogCall :=
  match action with
  | .gateRegistration => logPayload (str "OnGateRegistration") 169
      (str "%s %d  GateRegistrationResponse : \n %s \n") response (by decide) (by decide)
      ⟨_, rfl⟩
  | .carEnterence => logPayload (str "OnCarEnterence") 231
      (str "%s %d  CarEnterence : \n %s \n") response (by decide) (by decide)
      ⟨_, rfl⟩
  | .carStatusUpdate => logPayload (str "OnCarStatusUpdate") 291
      (str "%s %d  CarStatusUpdate : \n %s \n") response (by decide) (by decide)
      ⟨_, rfl⟩

/-- `OnGateRegistration` also logs the request taken apart. -/
def bodyLog (messageId jsonString : Str) : LogCall where
  func := str "OnGateRegistration"
  line := 131
  text := str "messageId %s JsonString %s \n"
  args := [.s messageId, .s jsonString]
  plain := by decide
  short := by decide
  takes := ⟨_, rfl⟩

/-! ## How long a line is -/

theorem length_timeBuffer (t : Timeval) : (timeBuffer t).length = 8 := by
  have hfield : ∀ n : ℤ, 0 ≤ n → n < 100 → (setw 2 (decimalInt n)).length = 2 := by
    intro n h₀ h₁
    obtain ⟨m, rfl⟩ := Int.eq_ofNat_of_zero_le h₀
    rw [decimalInt_natCast]
    exact length_setw (by decide) (by omega)
  have hhour : 0 ≤ t.sec % 86400 / 3600 ∧ t.sec % 86400 / 3600 < 100 := by omega
  have hmin : 0 ≤ t.sec % 86400 / 60 % 60 ∧ t.sec % 86400 / 60 % 60 < 100 := by omega
  have hsec : 0 ≤ t.sec % 86400 % 60 ∧ t.sec % 86400 % 60 < 100 := by omega
  simp only [timeBuffer, gmtime, List.length_append, List.length_cons, hfield _ hhour.1 hhour.2,
    hfield _ hmin.1 hmin.2, hfield _ hsec.1 hsec.2]

/-- Both formats write the same but for the level. -/
theorem logPrefix_eq (file : SourceFile) (t : Timeval) (level : ErrorLevel) (c : LogCall) :
    logPrefix file t level c = timeBuffer t ++ (ch '.' :: (setw 4 (decimal (t.usec / 100)) ++
      ch ' ' :: (level.text ++ (ch ' ' :: place file c)))) := by
  have hblanks : str "  " = [ch ' ', ch ' '] := by decide
  cases level with
  | all =>
    rw [logPrefix, if_neg (lt_irrefl _), hblanks]
    rfl
  | _ => rfl

theorem length_logPrefix (file : SourceFile) (t : Timeval) (level : ErrorLevel) (c : LogCall) :
    (logPrefix file t level c).length = 20 + level.text.length + file.path.length +
      c.func.length + (decimal c.line).length := by
  have husec : (setw 4 (decimal (t.usec / 100))).length = 4 := by
    have := t.usec_lt
    exact length_setw (by decide) (by omega)
  have hend : (str "]: ").length = 3 := by decide
  simp only [logPrefix_eq, place, List.length_append, List.length_cons, length_timeBuffer, husec,
    hend]
  omega

/-- It is copied into the format as it is. -/
theorem percent_notMem_logPrefix (file : SourceFile) (t : Timeval) (level : ErrorLevel)
    (c : LogCall) : ch '%' ∉ logPrefix file t level c := by
  have hnumber : ∀ w n, ch '%' ∉ setw w (decimalInt n) := by
    intro w n h
    rcases mem_setw_decimalInt h with h | h
    · exact absurd h (by decide)
    · exact absurd h (by decide)
  have hlevel : ch '%' ∉ level.text := by cases level <;> decide
  have hline : ch '%' ∉ decimal c.line := notMem_decimal (by decide)
  have husec : ch '%' ∉ setw 4 (decimal (t.usec / 100)) := by
    rw [← decimalInt_natCast]
    exact hnumber _ _
  have hlit : ch '%' ≠ ch ':' ∧ ch '%' ≠ ch '.' ∧ ch '%' ≠ ch ' ' ∧ ch '%' ≠ ch '[' ∧
      ch '%' ∉ str "]: " := by decide
  simp only [logPrefix_eq, timeBuffer, place, List.mem_append, List.mem_cons, hnumber, husec,
    hlevel, hline, hlit, c.plain, file.plain, or_self, not_false_eq_true]

/-- Neither `snprintf` nor `strncat` has anything to cut. -/
theorem newText_eq (file : SourceFile) (t : Timeval) (level : ErrorLevel) (c : LogCall) :
    newText file t level c = logPrefix file t level c ++ c.text := by
  have hlevel : level.text.length ≤ 5 := by cases level <;> decide
  have hprefix := length_logPrefix file t level c
  have hfile := file.short
  have hcall := c.short
  rw [newText, List.take_of_length_le (i := 1023) (by omega), List.take_of_length_le (by omega)]

/-- A line is as long as its prefix, text and arguments, which take the place of two
characters each. -/
theorem logLine_isSome (file : SourceFile) (t : Timeval) (level : ErrorLevel) (c : LogCall) :
    ∃ line, logLine file t level c = some line ∧ line.length + 2 * c.args.length =
      (logPrefix file t level c).length + c.text.length +
        (c.args.map fun arg => arg.written.length).sum := by
  obtain ⟨out, hout⟩ := c.takes
  have hline : logLine file t level c = some (logPrefix file t level c ++ out) := by
    rw [logLine, vsprintf, newText_eq, Printf.expand_append _
      (Printf.expand_literal (percent_notMem_logPrefix file t level c) _), hout]
    rfl
  obtain ⟨taken, htaken, hlen⟩ := Printf.length_expand hout
  rw [List.append_nil] at htaken
  subst htaken
  refine ⟨_, hline, ?_⟩
  rw [List.length_append]
  omega

/-- What the line of any log call needs. -/
theorem fits_iff (logLvl : ℕ) (file : SourceFile) (t : Timeval) (level : ErrorLevel)
    (c : LogCall) :
    Fits logLvl file t level c ↔ level.toNat < logLvl ∨
      20 + level.text.length + file.path.length + c.func.length + (decimal c.line).length +
        c.text.length + (c.args.map fun arg => arg.written.length).sum ≤
          1023 + 2 * c.args.length := by
  obtain ⟨line, hline, hlen⟩ := logLine_isSome file t level c
  rw [length_logPrefix] at hlen
  simp only [Fits, hline, Option.some.injEq, exists_eq_left']
  omega

/-! ## The lines of a handler -/

/-- What `logPayload` writes besides level, path and payload. -/
theorem fits_logPayload_iff (logLvl : ℕ) (file : SourceFile) (t : Timeval) (level : ErrorLevel)
    {func text : Str} {line : ℕ} (payload : Str) {frame : ℕ} (plain : ch '%' ∉ func)
    (short : func.length + (decimal line).length + text.length ≤ 98)
    (takes : ∃ out, Printf.expand (ch '%') LogArg.letter LogArg.written text
      [.s func, .d line, .s payload] = some (out, []))
    (hframe : 14 + func.length + (decimal line).length + text.length + (cstr func).length +
      (decimalInt line).length = frame) :
    Fits logLvl file t level (logPayload func line text payload plain short takes) ↔
      level.toNat < logLvl ∨
        frame + level.text.length + file.path.length + (cstr payload).length ≤ 1023 := by
  rw [fits_iff]
  simp only [logPayload, List.map_cons, List.map_nil, List.sum_cons, List.sum_nil,
    List.length_cons, List.length_nil, LogArg.written]
  omega

/-- The length of a line about a request, less level, path and request. -/
def requestFrame : Action → ℕ
  | .gateRegistration => 95
  | .carEnterence => 83
  | .carStatusUpdate => 92

/-- The length of a line about an answer, less level, path and answer. -/
def responseFrame : Action → ℕ
  | .gateRegistration => 96
  | .carEnterence => 76
  | .carStatusUpdate => 85

theorem fits_requestLog_iff (logLvl : ℕ) (file : SourceFile) (t : Timeval) (level : ErrorLevel)
    (action : Action) (input : Str) :
    Fits logLvl file t level (requestLog action input) ↔ level.toNat < logLvl ∨
      requestFrame action + level.text.length + file.path.length + (cstr input).length ≤ 1023 := by
  cases action with
  | gateRegistration => exact fits_logPayload_iff _ _ _ _ _ _ _ _ (by decide +kernel)
  | carEnterence => exact fits_logPayload_iff _ _ _ _ _ _ _ _ (by decide +kernel)
  | carStatusUpdate => exact fits_logPayload_iff _ _ _ _ _ _ _ _ (by decide +kernel)

theorem fits_responseLog_iff (logLvl : ℕ) (file : SourceFile) (t : Timeval) (level : ErrorLevel)
    (action : Action) (response : Str) :
    Fits logLvl file t level (responseLog action response) ↔ level.toNat < logLvl ∨
      responseFrame action + level.text.length + file.path.length + (cstr response).length ≤
        1023 := by
  cases action with
  | gateRegistration => exact fits_logPayload_iff _ _ _ _ _ _ _ _ (by decide +kernel)
  | carEnterence => exact fits_logPayload_iff _ _ _ _ _ _ _ _ (by decide +kernel)
  | carStatusUpdate => exact fits_logPayload_iff _ _ _ _ _ _ _ _ (by decide +kernel)

theorem fits_bodyLog_iff (logLvl : ℕ) (file : SourceFile) (t : Timeval) (level : ErrorLevel)
    (messageId jsonString : Str) :
    Fits logLvl file t level (bodyLog messageId jsonString) ↔ level.toNat < logLvl ∨
      65 + level.text.length + file.path.length + (cstr messageId).length +
        (cstr jsonString).length ≤ 1023 := by
  have hframe : 20 + (str "OnGateRegistration").length + (decimal 131).length +
      (str "messageId %s JsonString %s \n").length = 65 + 4 := by decide
  rw [fits_iff]
  simp only [bodyLog, List.map_cons, List.map_nil, List.sum_cons, List.sum_nil,
    List.length_cons, List.length_nil, LogArg.written]
  omega

/-- `OnGateRegistration` logs what it makes of the request. -/
def bodyLogs (action : Action) (input : Str) : List LogCall :=
  match action, handleIncomingMsg input .call with
  | .gateRegistration, .ok (messageId, jsonString) => [bodyLog messageId jsonString]
  | _, _ => []

/-- An answer is logged before it is sent. -/
def answerLogs (action : Action) (o : Outcome) : List LogCall :=
  match o.2 with
  | .ok (some (_, response)) => [responseLog action response]
  | _ => []

/-- The calls with which a handler logs a request and its answer. -/
def payloadLog (action : Action) (env : Env) (a : Ambient) (s : ParkManagerServer)
    (uri input : Str) : List LogCall :=
  requestLog action input ::
    (bodyLogs action input ++ answerLogs action (onRequest action env a s uri input))

theorem mem_bodyLogs {action : Action} {input : Str} {c : LogCall} :
    c ∈ bodyLogs action input ↔ ∃ messageId jsonString, action = .gateRegistration ∧
      handleIncomingMsg input .call = .ok (messageId, jsonString) ∧
      c = bodyLog messageId jsonString := by
  unfold bodyLogs
  cases action <;> cases handleIncomingMsg input .call <;> simp [Prod.ext_iff]

theorem mem_answerLogs {action : Action} {o : Outcome} {c : LogCall} :
    c ∈ answerLogs action o ↔ ∃ dest response, o.2 = .ok (some (dest, response)) ∧
      c = responseLog action response := by
  obtain ⟨s, e | _ | ⟨dest, response⟩⟩ := o <;> simp [answerLogs]

theorem mem_payloadLog {action : Action} {env : Env} {a : Ambient} {s : ParkManagerServer}
    {uri input : Str} {c : LogCall} :
    c ∈ payloadLog action env a s uri input ↔ c = requestLog action input ∨
      (∃ messageId jsonString, action = .gateRegistration ∧
        handleIncomingMsg input .call = .ok (messageId, jsonString) ∧
        c = bodyLog messageId jsonString) ∨
      ∃ dest response, (onRequest action env a s uri input).2 = .ok (some (dest, response)) ∧
        c = responseLog action response := by
  rw [payloadLog, List.mem_cons, List.mem_append, mem_bodyLogs, mem_answerLogs]

/-- **Log lines fit** exactly if the level is not logged, or request and answer, up to
their first NUL, are short.  Each call reads the clock for itself. -/
theorem log_lines_fit_iff (logLvl : ℕ) (file : SourceFile) (clock : LogCall → Timeval)
    (level : ErrorLevel) (action : Action) (env : Env) (a : Ambient) (s : ParkManagerServer)
    (uri input : Str) :
    (∀ c ∈ payloadLog action env a s uri input, Fits logLvl file (clock c) level c) ↔
      level.toNat < logLvl ∨
        requestFrame action + level.text.length + file.path.length + (cstr input).length ≤ 1023 ∧
        (∀ messageId jsonString, action = .gateRegistration →
          handleIncomingMsg input .call = .ok (messageId, jsonString) →
          65 + level.text.length + file.path.length + (cstr messageId).length +
            (cstr jsonString).length ≤ 1023) ∧
        ∀ dest response, (onRequest action env a s uri input).2 = .ok (some (dest, response)) →
          responseFrame action + level.text.length + file.path.length +
            (cstr response).length ≤ 1023 := by
  constructor
  · intro h
    by_cases hlevel : level.toNat < logLvl
    · exact Or.inl hlevel
    · refine Or.inr ⟨?_, ?_, ?_⟩
      · have hreq := h _ (mem_payloadLog.mpr (Or.inl rfl))
        exact ((fits_requestLog_iff ..).mp hreq).resolve_left hlevel
      · intro messageId jsonString haction hmsg
        have hbody := h _ (mem_payloadLog.mpr (Or.inr (Or.inl ⟨_, _, haction, hmsg, rfl⟩)))
        exact ((fits_bodyLog_iff ..).mp hbody).resolve_left hlevel
      · intro dest response hresp
        have hans := h _ (mem_payloadLog.mpr (Or.inr (Or.inr ⟨_, _, hresp, rfl⟩)))
        exact ((fits_responseLog_iff ..).mp hans).resolve_left hlevel
  · rintro (hlevel | ⟨hreq, hbody, hans⟩) c hc
    · exact (fits_iff ..).mpr (Or.inl hlevel)
    · rcases mem_payloadLog.mp hc with rfl | ⟨messageId, jsonString, haction, hmsg, rfl⟩ |
        ⟨dest, response, hresp, rfl⟩
      · exact (fits_requestLog_iff ..).mpr (Or.inr hreq)
      · exact (fits_bodyLog_iff ..).mpr (Or.inr (hbody _ _ haction hmsg))
      · exact (fits_responseLog_iff ..).mpr (Or.inr (hans _ _ hresp))

/-- The path of the source file in a checkout at the root. -/
def checkedOut : SourceFile where
  path := str "/park_manager/src/ParkManager/ParkManagerServer.cpp"
  plain := by decide
  short := by decide

/-- The registration of an entrance gate with a name of this length. -/
def namedRegistration (n : ℕ) : Str :=
  str "[0,\"1804289383\",\"GateRegistration\",\x7b\"GateName\":\"" ++
    List.replicate n (ch 'A') ++ str "\",\"GateType\":\"0\"\x7d]"

/-- A gate that registers under a name of 1000 letters: the request is taken, handed to
`OnGateRegistration`, and the line in which it is logged does not fit. -/
theorem long_request_overflows :
    ∃ m, MessageManager.empty.addMessage (envelope (str "Server") (str "/Gate1")
        (namedRegistration 1000)) = .ok (⟨[m], []⟩, true) ∧
      requestFields m.payload = .ok (str "\"1804289383\"", str "\"GateRegistration\"") ∧
      dispatch (str "\"GateRegistration\"") = some .gateRegistration ∧
      ¬ ∀ c ∈ payloadLog .gateRegistration packaged morning packagedStart m.uri m.payload,
        Fits ErrorLevel.info.toNat checkedOut ⟨0, 0, by decide⟩ .info c := by
  refine ⟨⟨str "/Gate1", str "Server", namedRegistration 1000⟩, by decide +kernel,
    by decide +kernel, by decide, fun h => ?_⟩
  have hfits := h _ (mem_payloadLog.mpr (Or.inl rfl))
  rw [fits_requestLog_iff] at hfits
  exact absurd hfits (by decide +kernel)

end ParkManager
