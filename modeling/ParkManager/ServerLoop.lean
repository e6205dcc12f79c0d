import ParkManager.Gate
import ParkManager.GateLog
import ParkManager.ResponseScan

/-!
# The server process

Texts come in on the threads of the web-socket server, where `on_message` files them;
the loop of `GateHanlder` takes one request after the other from the queue.  Both go on
at the same time.  An exception ends the loop and nothing else: `std::async` keeps it in
the future that the server holds, and texts are filed as before.

Proved here, for every order of the two and whatever texts come in:

* `gateHanlder_ok`: an iteration that returns has handled the request it read off the
  message, or has found none;
* `onMessage_returns`: texts are filed whether the loop goes on or has ended;
* `sequential_step`: what one step preserves;
* `sequential_service`: the state of the server and the answers it has sent are those
  of a server that handles the requests one by one in the order of their arrival, up to
  the one on which the loop has ended.
-/

namespace ParkManager

open History

/-- The message manager, the state of `ParkManagerServer`, and the exception that has
ended the loop. -/
structure ServerProcess where
  messageManager : MessageManager
  server : ParkManagerServer
  ended : Option Fault

inductive ServerEvent
  /-- `on_message`: a text comes in on a connection with the uri. -/
  | onMessage (time : ℤ) (uri text : Str)
  /-- An iteration of the loop of `GateHanlder`. -/
  | gateHanlder (a : Ambient) (la : LogAmbient)
  deriving DecidableEq

/-- A message taken from the queue, and the uri and the text sent for it. -/
structure Service where
  message : WSMessage
  ambient : Ambient
  answer : Option (Str × Str)
  deriving DecidableEq

/-- The lines of `on_message`.  The first number is for `%ld`. -/
def messageLines (log : Log) (time : ℤ) (text : Str) : List LogLine :=
  [log.socketLine .debug ⟨str "on_message", 145, str "[%d] >> %s: %d\n",
    [.d time, .s (log.prettyFunction (str "on_message")), .d 145],
    by decide, by decide, ⟨_, rfl⟩⟩,
  log.socketLine .trace ⟨str "on_message", 151, str "message: %s\n", [.s text],
    by decide, by decide, ⟨_, rfl⟩⟩]

/-- Behaviour that is undefined has no next state. -/
def ServerProcess.step (log : Log) (env : Env) (p : ServerProcess) :
    ServerEvent → Except Fault (Option Service × ServerProcess)
  | .onMessage time uri text =>
    if ∀ l ∈ messageLines log time text, log.Fits l then do
      let (messageManager, _) ← p.messageManager.addMessage (envelope (str "Server") uri text)
      return (none, { p with messageManager })
    else .error .badLogLine
  | .gateHanlder a la =>
    if p.ended = none ∧ p.messageManager.getCALLMessageSize > 0 then do
      let (ocppMessage, messageManager) ← p.messageManager.getCALLMessage
      match Logged.gateHanlder log env a la p.server ocppMessage with
      | (server, .ok answer) =>
        return (some ⟨ocppMessage, a, answer⟩, { p with messageManager, server })
      | (server, .error e) =>
        if e.isException then return (none, { messageManager, server, ended := some e })
        else .error e
    else .ok (none, p)

abbrev ProcessStep := Step ServerProcess ServerEvent (Option Service)

abbrev ProcessRun (log : Log) (env : Env) (p₀ : ServerProcess) (h : List ProcessStep)
    (p : ServerProcess) : Prop :=
  Run (Graph (ServerProcess.step log env)) p₀ h p

/-- The requests the transition added to the queue. -/
def queuedBy (st : ProcessStep) : List WSMessage :=
  match st.input with
  | .onMessage _ _ _ => st.post.messageManager.ocppCALLMessageQueue.drop
      st.pre.messageManager.ocppCALLMessageQueue.length
  | .gateHanlder _ _ => []

/-- The requests queued, in the order of their arrival. -/
def queued : List ProcessStep → List WSMessage
  | [] => []
  | st :: past => queued past ++ queuedBy st

/-- The messages served, oldest first. -/
def services : List ProcessStep → List Service
  | [] => []
  | st :: past => services past ++ st.output.toList

/-! ## One iteration -/

/-- The id and the request that the handlers read off a message. -/
def asked (env : Env) (m : WSMessage) : Option (Str × Request) :=
  if m.type = str "Server" then
    match requestFields m.payload with
    | .ok (_, field) =>
      (dispatch field).bind fun action => (decodeRequest action env m.payload).toOption
    | .error _ => none
  else none

/-- What a handler that returns has done. -/
theorem onRequest_ok {action : Action} {env : Env} {a : Ambient} {s s' : ParkManagerServer}
    {uri input : Str} {answer : Option (Str × Str)}
    (h : onRequest action env a s uri input = (s', .ok answer)) :
    ∃ id req resp body, decodeRequest action env input = .ok (id, req) ∧
      handle env s (req, a) = .ok (resp, s') ∧ dumpObject resp.toJson = .ok body ∧
      answer = some (uri, cstr (addBase body .respond [] id 0)) := by
  unfold onRequest at h
  split at h
  · cases (Prod.mk.inj h).2
  · rename_i id req hd
    split at h
    · cases (Prod.mk.inj h).2
    · rename_i resp t hh
      obtain ⟨rfl, hanswer⟩ := Prod.mk.inj h
      obtain ⟨body, hbody, rfl⟩ := map_ok_iff.mp hanswer
      exact ⟨id, req, resp, body, hd, hh, hbody, rfl⟩

/-- An iteration that returns has handled the request it read off the message and sends
the answer to where it came from, or it has read none. -/
theorem gateHanlder_ok {env : Env} {a : Ambient} {s s' : ParkManagerServer} {m : WSMessage}
    {answer : Option (Str × Str)} (h : gateHanlder env a s m = (s', .ok answer)) :
    (asked env m = none ∧ s' = s ∧ answer = none) ∨
    ∃ id req resp body, asked env m = some (id, req) ∧ handle env s (req, a) = .ok (resp, s') ∧
      dumpObject resp.toJson = .ok body ∧
      answer = some (m.uri, cstr (addBase body .respond [] id 0)) := by
  have handled : ∀ {action : Action} {x : Str × Str}, requestFields m.payload = .ok x →
      m.type = str "Server" → dispatch x.2 = some action →
      onRequest action env a s m.uri m.payload = (s', .ok answer) →
      ∃ id req resp body, asked env m = some (id, req) ∧ handle env s (req, a) = .ok (resp, s') ∧
        dumpObject resp.toJson = .ok body ∧
        answer = some (m.uri, cstr (addBase body .respond [] id 0)) := by
    intro action x hf ht hd hreq
    obtain ⟨id, req, resp, body, hdec, hh, hbody, hanswer⟩ := onRequest_ok hreq
    refine ⟨id, req, resp, body, ?_, hh, hbody, hanswer⟩
    simp only [asked, ht, ↓reduceIte, hf, hd, Option.bind_some, hdec, Except.toOption]
  unfold gateHanlder at h
  split at h
  · cases (Prod.mk.inj h).2
  · rename_i x field hf
    by_cases ht : m.type = str "Server"
    · rw [if_pos ht] at h
      cases hd : dispatch field with
      | none =>
        rw [hd] at h
        obtain ⟨rfl, hanswer⟩ := Prod.mk.inj h
        refine Or.inl ⟨?_, rfl, (Except.ok.inj hanswer).symm⟩
        simp only [asked, ht, ↓reduceIte, hf, hd, Option.bind_none]
      | some action =>
        rw [hd] at h
        refine Or.inr (handled hf ht hd ?_)
        cases action <;> exact h
    · rw [if_neg ht] at h
      obtain ⟨rfl, hanswer⟩ := Prod.mk.inj h
      exact Or.inl ⟨if_neg ht, rfl, (Except.ok.inj hanswer).symm⟩

/-! ## One step of the process -/

/-- `AddMessage` leaves the requests that wait where they are. -/
theorem addMessage_queue {mm mm' : MessageManager} {raw : Str} {rc : Bool}
    (h : mm.addMessage raw = .ok (mm', rc)) :
    ∃ l, mm'.ocppCALLMessageQueue = mm.ocppCALLMessageQueue ++ l := by
  obtain ⟨type, -, h⟩ := bind_ok_iff.mp h
  obtain ⟨uri, -, h⟩ := bind_ok_iff.mp h
  obtain ⟨payload, -, h⟩ := bind_ok_iff.mp h
  split_ifs at h
  · obtain ⟨messageType, -, h⟩ := bind_ok_iff.mp h
    have hput := Except.ok.inj h
    unfold MessageManager.put at hput
    split_ifs at hput <;> obtain ⟨rfl, -⟩ := Prod.mk.inj hput
    · exact ⟨_, rfl⟩
    · exact ⟨[], (List.append_nil _).symm⟩
    · exact ⟨[], (List.append_nil _).symm⟩
  · obtain ⟨rfl, -⟩ := Prod.mk.inj (Except.ok.inj h)
    exact ⟨[], (List.append_nil _).symm⟩

/-- Texts are filed whether the loop goes on or has ended. -/
theorem onMessage_returns {log : Log} {env : Env} (p : ServerProcess) {time : ℤ} (uri : Str)
    {text : Str} (h : ∀ l ∈ messageLines log time text, log.Short l) :
    ∃ mm, p.step log env (.onMessage time uri text) = .ok (none, { p with messageManager := mm })
      := by
  obtain ⟨⟨mm, rc⟩, hadd⟩ := addMessage_returns p.messageManager ⟨uri, str "Server", text⟩
  have hfits : ∀ l ∈ messageLines log time text, log.Fits l := fun l hl =>
    (log.fits_iff l).mpr (h l hl)
  exact ⟨mm, by simp only [ServerProcess.step, if_pos hfits, hadd, bind, Except.bind, pure,
    Except.pure]⟩

/-- All that a step can do: file a text, find nothing to do or the loop ended, serve the
head of the queue, or end the loop on it. -/
inductive Stepped (log : Log) (env : Env) (p : ServerProcess) :
    ServerEvent → Option Service → ServerProcess → Prop
  | filed {time : ℤ} {uri text : Str} {mm : MessageManager} (l : List WSMessage)
      (hq : mm.ocppCALLMessageQueue = p.messageManager.ocppCALLMessageQueue ++ l) :
      Stepped log env p (.onMessage time uri text) none { p with messageManager := mm }
  | idle {a : Ambient} {la : LogAmbient} : Stepped log env p (.gateHanlder a la) none p
  | serves {a : Ambient} {la : LogAmbient} {m : WSMessage} {rest : List WSMessage}
      {server : ParkManagerServer} {answer : Option (Str × Str)} (hloop : p.ended = none)
      (hq : p.messageManager.ocppCALLMessageQueue = m :: rest)
      (h : Logged.gateHanlder log env a la p.server m = (server, .ok answer)) :
      Stepped log env p (.gateHanlder a la) (some ⟨m, a, answer⟩)
        ⟨{ p.messageManager with ocppCALLMessageQueue := rest }, server, none⟩
  | throws {a : Ambient} {la : LogAmbient} {m : WSMessage} {rest : List WSMessage}
      {server : ParkManagerServer} {e : Fault} (hloop : p.ended = none)
      (hq : p.messageManager.ocppCALLMessageQueue = m :: rest)
      (h : Logged.gateHanlder log env a la p.server m = (server, .error e))
      (he : e.isException = true) :
      Stepped log env p (.gateHanlder a la) none
        ⟨{ p.messageManager with ocppCALLMessageQueue := rest }, server, some e⟩

theorem stepped {log : Log} {env : Env} {p p' : ServerProcess} {e : ServerEvent}
    {o : Option Service} (h : p.step log env e = .ok (o, p')) : Stepped log env p e o p' := by
  cases e with
  | onMessage time uri text =>
    simp only [ServerProcess.step] at h
    split_ifs at h
    obtain ⟨⟨mm, rc⟩, hadd, h⟩ := bind_ok_iff.mp h
    obtain ⟨rfl, rfl⟩ := Prod.mk.inj (Except.ok.inj h)
    obtain ⟨l, hl⟩ := addMessage_queue hadd
    exact .filed l hl
  | gateHanlder a la =>
    simp only [ServerProcess.step] at h
    split_ifs at h with hgo
    · obtain ⟨hloop, hsize⟩ := hgo
      obtain ⟨m, rest, hq⟩ := List.exists_cons_of_length_pos hsize
      have hget : p.messageManager.getCALLMessage =
          .ok (m, { p.messageManager with ocppCALLMessageQueue := rest }) := by
        unfold MessageManager.getCALLMessage
        rw [hq]
        rfl
      rw [hget] at h
      obtain ⟨taken, htaken, h⟩ := bind_ok_iff.mp h
      obtain rfl := Except.ok.inj htaken
      cases hserve : Logged.gateHanlder log env a la p.server m with
      | mk server outcome =>
        cases outcome with
        | ok answer =>
          simp only [hserve] at h
          obtain ⟨rfl, rfl⟩ := Prod.mk.inj (Except.ok.inj h)
          rw [hloop]
          exact .serves hloop hq hserve
        | error e =>
          simp only [hserve] at h
          split_ifs at h with he
          obtain ⟨rfl, rfl⟩ := Prod.mk.inj (Except.ok.inj h)
          exact .throws hloop hq hserve he
    · obtain ⟨rfl, rfl⟩ := Prod.mk.inj (Except.ok.inj h)
      exact .idle

/-! ## Runs -/

/-- The services are those of a server that handles the requests one by one: each
message that is a request is one transition, and its answer goes back under its id to
the uri it came from; the others are passed over. -/
inductive Serves (env : Env) : List Service → List ServerStep → Prop
  | start : Serves env [] []
  | ignored {done : List Service} {g : List ServerStep} {m : WSMessage} (a : Ambient)
      (h : Serves env done g) (hask : asked env m = none) :
      Serves env (done ++ [⟨m, a, none⟩]) g
  | handled {done : List Service} {g : List ServerStep} {m : WSMessage} {a : Ambient} {id : Str}
      {req : Request} {resp : Response} {s s' : ParkManagerServer} {body : Str}
      (h : Serves env done g) (hask : asked env m = some (id, req))
      (hbody : dumpObject resp.toJson = .ok body) :
      Serves env (done ++ [⟨m, a, some (m.uri, cstr (addBase body .respond [] id 0))⟩])
        (⟨s, (req, a), resp, s'⟩ :: g)

/-- The process is where a server would be that handles the requests one by one: what was
queued was served or waits, and a run of the requests served ends in the state there is.
If the loop has ended, then on the request behind those served, which left the state there
is and is gone from the queue. -/
def Sequential (log : Log) (env : Env) (s₀ : ParkManagerServer) (h : List ProcessStep)
    (p : ServerProcess) : Prop :=
  ∃ g s, ServerRun env s₀ g s ∧ Serves env (services h) g ∧
    match p.ended with
    | none => p.server = s ∧ queued h = (services h).map Service.message ++
        p.messageManager.ocppCALLMessageQueue
    | some e => e.isException = true ∧ ∃ m a la,
        Logged.gateHanlder log env a la s m = (p.server, .error e) ∧
        queued h = (services h).map Service.message ++
          m :: p.messageManager.ocppCALLMessageQueue

/-- **Step lemma.** -/
theorem sequential_step {log : Log} {env : Env} {s₀ : ParkManagerServer}
    {past : List ProcessStep} {p p' : ServerProcess} {e : ServerEvent} {o : Option Service}
    (hs : Sequential log env s₀ past p) (h : p.step log env e = .ok (o, p')) :
    Sequential log env s₀ (⟨p, e, o, p'⟩ :: past) p' := by
  obtain ⟨g, s, hr, hg, hend⟩ := hs
  cases stepped h with
  | @filed _ _ _ mm l hq =>
    refine ⟨g, s, hr, by simpa [services] using hg, ?_⟩
    cases he : p.ended with
    | none =>
      rw [he] at hend
      obtain ⟨hserver, hqueue⟩ := hend
      exact ⟨hserver, by simp [queued, services, queuedBy, hq, hqueue]⟩
    | some e =>
      rw [he] at hend
      obtain ⟨hexc, m, a, la, hthrow, hqueue⟩ := hend
      exact ⟨hexc, m, a, la, hthrow, by simp [queued, services, queuedBy, hq, hqueue]⟩
  | idle =>
    refine ⟨g, s, hr, by simpa [services] using hg, ?_⟩
    simpa [queued, services, queuedBy] using hend
  | @serves a la m rest server answer hloop hq hserve =>
    rw [hloop] at hend
    obtain ⟨rfl, hqueue⟩ := hend
    have hret : Returns (Logged.gateHanlder log env a la p.server m) :=
      ⟨answer, congrArg Prod.snd hserve⟩
    have hplain := Logged.gateHanlder_eq hret
    rw [hserve] at hplain
    have hqueue' : queued past ++ [] =
        (services past ++ [(⟨m, a, answer⟩ : Service)]).map Service.message ++ rest := by
      simp [hq, hqueue]
    rcases gateHanlder_ok hplain.symm with ⟨hask, rfl, rfl⟩ |
      ⟨id, req, resp, body, hask, hh, hbody, rfl⟩
    · exact ⟨g, _, hr, .ignored _ hg hask, rfl, hqueue'⟩
    · exact ⟨_, _, hr.next hh, .handled hg hask hbody, rfl, hqueue'⟩
  | @throws a la m rest server e hloop hq hserve he =>
    rw [hloop] at hend
    obtain ⟨rfl, hqueue⟩ := hend
    refine ⟨g, _, hr, by simpa [services] using hg, he, m, a, la, hserve, ?_⟩
    simp [queued, services, queuedBy, hq, hqueue]

/-- **Sequential service.**  However the texts that come in and the iterations of the
loop alternate: the requests are served in the order in which they were queued, each
once, and the state of the server and the answers sent are those of a run of its handlers
on them, until an exception ends the loop. -/
theorem sequential_service {log : Log} {env : Env} {s₀ : ParkManagerServer}
    {h : List ProcessStep} {p : ServerProcess}
    (hr : ProcessRun log env ⟨.empty, s₀, none⟩ h p) : Sequential log env s₀ h p :=
  hr.invariant_hist (I := Sequential log env s₀) ⟨[], s₀, .start, .start, rfl, rfl⟩
    fun _ hs hst => sequential_step hs hst

/-- A registration whose body is no JSON. -/
def brokenText : Str := str "[0,\"846930886\",\"GateRegistration\",EntGate1]"

/-- A registration is served, the next one ends the loop, and the last one waits. -/
theorem sequential_service_registration :
    ∃ h p, ProcessRun defaultLog packagedParser ⟨.empty, packagedStart, none⟩ h p ∧
      (services h).map Service.message =
        [⟨str "/Gate1", str "Server", registrationText⟩] ∧
      p.messageManager.ocppCALLMessageQueue =
        [⟨str "/Gate2", str "Server", registrationText⟩] ∧
      p.ended = some .parseError ∧
      Sequential defaultLog packagedParser packagedStart h p := by
  obtain ⟨h, p, hr, hserved, hqueue, hended⟩ : ∃ h p,
      ProcessRun defaultLog packagedParser ⟨.empty, packagedStart, none⟩ h p ∧
      ((services h).map Service.message =
          [⟨str "/Gate1", str "Server", registrationText⟩] ∧
        p.messageManager.ocppCALLMessageQueue =
          [⟨str "/Gate2", str "Server", registrationText⟩] ∧
        p.ended = some .parseError) := by
    refine exists_run_of_execute [.onMessage 0 (str "/Gate1") registrationText,
      .onMessage 0 (str "/Gate2") brokenText, .gateHanlder morning quiet,
      .onMessage 0 (str "/Gate2") registrationText, .gateHanlder morning quiet,
      .gateHanlder morning quiet] _ ?_
    decide +kernel
  exact ⟨h, p, hr, hserved, hqueue, hended, sequential_service hr⟩

end ParkManager
