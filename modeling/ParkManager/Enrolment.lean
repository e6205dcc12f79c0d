import ParkManager.Correlation
import ParkManager.Gate

/-!
# One gate and its registration

The site of one gate, with what the gate keeps: the call it is making, and its
configuration, in which `RegistratinResult` outlives the process.  The server keeps
the names of its gates in memory only.  Either process may be restarted at any point.

Proved here:

* `step_cases`: all that a step can do;
* `mail_step`: the gate sends nothing but its own requests;
* `config_step`: a success is stored only when a response that accepts the gate is
  taken;
* `enrolled_of_accepts`: the server answers `Accept` only when it takes the name into its set.
-/

namespace ParkManager

open History

/-! ## The gate and its site -/

/-- The response one scan of `GetResponseMessage` returns. -/
def GateProcess.response (p : GateProcess) : Except Fault (Option WSMessage) :=
  match p.waiting with
  | none => .ok none
  | some t => (p.resultManager.getResponse t.item).map (·.1)

/-- The site of one gate, the gate, and the call it is making. -/
structure Enrolment where
  site : Site Unit
  gate : Gate
  inCall : Option GateCall

inductive EnrolmentEvent
  /-- A call, up to its request going out, or to its end if it sends none. -/
  | invoke (c : GateCall)
  /-- The same with `SendMessage` returning `false`. -/
  | invokeFails (c : GateCall)
  /-- Something that happens to a message or a connection, or at the server. -/
  | network (e : Event Unit)
  /-- One scan for the response; the call ends if it takes one. -/
  | scan
  /-- The call ends without a response. -/
  | timeout
  | restartGate
  | restartServer
  deriving DecidableEq

/-- What can be seen of a step at the gate. -/
inductive Report
  | quiet
  /-- The request went out; the call has the number. -/
  | began (call : ℕ)
  | threw
  /-- The call returned, and took no response. -/
  | returned (c : GateCall) (value : ReturnValue)
  /-- The call returned; its number, and that of the call whose response it took. -/
  | answered (c : GateCall) (value : ReturnValue) (call response : ℕ)
  deriving DecidableEq

/-- The value `GateRegistration` returned. -/
def Report.registration : Report → Option ReturnValue
  | returned .gateRegistration value => some value
  | answered .gateRegistration value _ _ => some value
  | _ => none

/-- The events that are not those of the gate process. -/
def Event.isNetwork {γ : Type} : Event γ → Bool
  | .deliverRequest _ | .loseRequest _ | .serve _ _ | .deliverReply _ _ | .loseReply _
  | .reconnect _ => true
  | _ => false

namespace Enrolment

variable (w : Setup Unit)

/-- Everything just started. -/
def start (server : ParkManagerServer) (g : Gate) : Enrolment := ⟨Site.start server, g, none⟩

/-- The call ends with what came of its request. -/
def finish (s : Enrolment) (c : GateCall) (site : Site Unit) (x : Exchange)
    (report : ReturnValue → Report) : Report × Enrolment :=
  match c.run w.env (w.random ((site.gates ()).drawn - 1)) (fun _ => x) s.gate with
  | .ok (value, gate) => (report value, ⟨site, gate, none⟩)
  | .error _ => (.threw, ⟨site, s.gate, none⟩)

/-- A step of the site, and what follows from it at the gate. -/
def onSite (s : Enrolment) (e : Event Unit) (next : Site Unit → Report × Enrolment) :
    Except (Option Fault) (Report × Enrolment) :=
  match w.step s.site e with
  | .ok (_, site) => .ok (next site)
  | .error f => .error f

/-- The start of a call.  A gate makes one call at a time. -/
def invoke (s : Enrolment) (c : GateCall) : Except (Option Fault) (Report × Enrolment) :=
  if s.inCall.isSome then .error none
  else
    match c.request s.gate with
    | none => .ok (finish w s c s.site .notSent (.returned c))
    | some request =>
      match dumpObject request.toJson with
      | .ok body => onSite w s (.call () request.action body) fun site =>
          (.began s.site.calls, ⟨site, s.gate, some c⟩)
      | .error _ => .ok (.threw, s)

def invokeFails (s : Enrolment) (c : GateCall) : Except (Option Fault) (Report × Enrolment) :=
  if s.inCall.isSome then .error none
  else
    match c.request s.gate with
    | none => .error none
    | some request =>
      match dumpObject request.toJson with
      | .ok _ => onSite w s (.callFails ()) fun site => finish w s c site .notSent (.returned c)
      | .error _ => .error none

/-- A scan of the call that is being made. -/
def scan (s : Enrolment) : Except (Option Fault) (Report × Enrolment) :=
  match s.inCall with
  | none => .error none
  | some c =>
    match Setup.scan s.site () with
    | .error f => .error f
    | .ok (none, site) => .ok (.quiet, { s with site })
    | .ok (some (call, response), site) =>
      match (s.site.gates ()).response with
      | .error f => .error (some f)
      | .ok m => .ok (finish w s c site (.answered (m.elim [] (·.payload)))
          fun value => .answered c value call response)

def timeout (s : Enrolment) : Except (Option Fault) (Report × Enrolment) :=
  match s.inCall with
  | none => .error none
  | some c => onSite w s (.timeout ()) fun site => finish w s c site (.answered []) (.returned c)

/-- A new process of the server, with nothing in its queue. -/
def restartServer (s : Enrolment) : Except (Option Fault) (Report × Enrolment) :=
  match ParkManagerServer.start w.env with
  | .ok server => .ok (.quiet, { s with site := { s.site with server, queue := [] } })
  | .error f => .error (some f)

def step (s : Enrolment) : EnrolmentEvent → Except (Option Fault) (Report × Enrolment)
  | .invoke c => invoke w s c
  | .invokeFails c => invokeFails w s c
  | .network e =>
    if e.isNetwork then onSite w s e fun site => (.quiet, { s with site }) else .error none
  | .scan => scan w s
  | .timeout => timeout w s
  | .restartGate => onSite w s (.restart ()) fun site => (.quiet, ⟨site, s.gate, none⟩)
  | .restartServer => restartServer w s

end Enrolment

abbrev EnrolmentStep := Step Enrolment EnrolmentEvent Report

abbrev EnrolmentRun (w : Setup Unit) (s₀ : Enrolment) (h : List EnrolmentStep) (s : Enrolment) :
    Prop :=
  Run (Graph (Enrolment.step w)) s₀ h s

/-- The server has the name in the set of the gate's type. -/
def Gate.EnrolledAt (g : Gate) (s : ParkManagerServer) : Prop :=
  g.gateType = GateType.enterence.toInt ∧ g.gateName ∈ s.enternceGates ∨
  g.gateType = GateType.exiting.toInt ∧ g.gateName ∈ s.exitingGates

instance (g : Gate) (s : ParkManagerServer) : Decidable (g.EnrolledAt s) :=
  inferInstanceAs (Decidable (_ ∧ _ ∨ _ ∧ _))

namespace Enrolment

/-- The running server has the name of the gate. -/
def Enrolled (s : Enrolment) : Prop := s.gate.EnrolledAt s.site.server

/-- `RegistratinResult` is stored as successful. -/
def Stored (s : Enrolment) : Prop := s.gate.registratinResult = Gate.registered

instance (s : Enrolment) : Decidable s.Enrolled := inferInstanceAs (Decidable (Gate.EnrolledAt _ _))

instance (s : Enrolment) : Decidable s.Stored := inferInstanceAs (Decidable (_ = _))

end Enrolment

section
variable {w : Setup Unit} {s s' : Enrolment} {e : EnrolmentEvent} {o : Report}

open Enrolment

/-! ## What a step does -/

theorem onSite_inv {ev : Event Unit} {next : Site Unit → Report × Enrolment}
    (h : onSite w s ev next = .ok (o, s')) :
    ∃ so site, w.step s.site ev = .ok (so, site) ∧ next site = (o, s') := by
  unfold onSite at h
  split at h
  · rename_i so site hs
    exact ⟨so, site, hs, Except.ok.inj h⟩
  · cases h

/-- What a step does, at the site and at the gate. -/
inductive EnrolmentCases (w : Setup Unit) (s : Enrolment) :
    EnrolmentEvent → Report → Enrolment → Prop
  /-- A call that sends nothing. -/
  | early {c : GateCall} {o : Report} {s' : Enrolment} : s.inCall = none →
      c.request s.gate = none → finish w s c s.site .notSent (.returned c) = (o, s') →
      EnrolmentCases w s (.invoke c) o s'
  /-- A call whose request cannot be written. -/
  | threw {c : GateCall} : EnrolmentCases w s (.invoke c) .threw s
  | began {c : GateCall} {request : Request} {body : Str} {so : Option (ℕ × ℕ)}
      {site : Site Unit} : s.inCall = none → c.request s.gate = some request →
      dumpObject request.toJson = .ok body →
      w.step s.site (.call () request.action body) = .ok (so, site) →
      EnrolmentCases w s (.invoke c) (.began s.site.calls) ⟨site, s.gate, some c⟩
  | failed {c : GateCall} {so : Option (ℕ × ℕ)} {site : Site Unit} {o : Report}
      {s' : Enrolment} : w.step s.site (.callFails ()) = .ok (so, site) →
      finish w s c site .notSent (.returned c) = (o, s') →
      EnrolmentCases w s (.invokeFails c) o s'
  | network {e : Event Unit} {so : Option (ℕ × ℕ)} {site : Site Unit} : e.isNetwork = true →
      w.step s.site e = .ok (so, site) →
      EnrolmentCases w s (.network e) .quiet { s with site }
  | scanned {so : Option (ℕ × ℕ)} {site : Site Unit} : w.step s.site (.scan ()) = .ok (so, site) →
      EnrolmentCases w s .scan .quiet { s with site }
  /-- The scan takes a response. -/
  | taken {c : GateCall} {call : ℕ} {m : Tagged WSMessage} {site : Site Unit} {o : Report}
      {s' : Enrolment} : s.inCall = some c →
      w.step s.site (.scan ()) = .ok (some (call, m.call), site) →
      m ∈ (s.site.gates ()).results →
      finish w s c site (.answered m.item.payload) (.answered c · call m.call) = (o, s') →
      EnrolmentCases w s .scan o s'
  | timeout {c : GateCall} {so : Option (ℕ × ℕ)} {site : Site Unit} {o : Report}
      {s' : Enrolment} : s.inCall = some c → w.step s.site (.timeout ()) = .ok (so, site) →
      finish w s c site (.answered []) (.returned c) = (o, s') →
      EnrolmentCases w s .timeout o s'
  | restartGate {so : Option (ℕ × ℕ)} {site : Site Unit} :
      w.step s.site (.restart ()) = .ok (so, site) →
      EnrolmentCases w s .restartGate .quiet ⟨site, s.gate, none⟩
  | restartServer {server : ParkManagerServer} : ParkManagerServer.start w.env = .ok server →
      EnrolmentCases w s .restartServer .quiet
        { s with site := { s.site with server, queue := [] } }

/-- A scan that takes a response takes it out of the queue. -/
theorem scan_response {site site' : Site Unit} {call response : ℕ}
    (h : Setup.scan site () = .ok (some (call, response), site')) :
    ∃ m ∈ (site.gates ()).results, m.call = response ∧
      (site.gates ()).response = .ok (some m.item) := by
  unfold Setup.scan at h
  simp only at h
  split at h
  · cases h
  · rename_i t hw
    split at h
    · cases h
    · cases h
    · rename_i i hfind
      split at h
      · cases h
      · rename_i m hm
        obtain ⟨ho, -⟩ := Prod.mk.inj (Except.ok.inj h)
        obtain ⟨-, hcall⟩ := Prod.mk.inj (Option.some.inj ho)
        have hv : vectorAt ((site.gates ()).results.map (·.item)) i = .ok m.item := by
          rw [vectorAt_ok_iff, List.getElem?_map, hm, Option.map_some]
        refine ⟨m, List.mem_of_getElem? hm, hcall, ?_⟩
        have hget : (site.gates ()).resultManager.getResponse t.item =
            .ok (some m.item, ⟨[], ((site.gates ()).results.map (·.item)).eraseIdx i⟩) :=
          bind_ok_iff.mpr ⟨_, hfind, bind_ok_iff.mpr ⟨_, hv, rfl⟩⟩
        simp only [GateProcess.response, hw, hget, Except.map]

theorem step_cases (h : Enrolment.step w s e = .ok (o, s')) :
    EnrolmentCases w s e o s' := by
  cases e with
  | invoke c =>
    simp only [Enrolment.step, invoke] at h
    split_ifs at h with hin
    rw [Bool.not_eq_true, Option.isSome_eq_false_iff, Option.isNone_iff_eq_none] at hin
    split at h
    · rename_i hreq
      exact .early hin hreq (Except.ok.inj h)
    · rename_i request hreq
      split at h
      · rename_i body hbody
        obtain ⟨so, site, hs, hnext⟩ := onSite_inv h
        obtain ⟨rfl, rfl⟩ := Prod.mk.inj hnext
        exact .began hin hreq hbody hs
      · obtain ⟨rfl, rfl⟩ := Prod.mk.inj (Except.ok.inj h)
        exact .threw
  | invokeFails c =>
    simp only [Enrolment.step, invokeFails] at h
    split_ifs at h with hin
    split at h
    · cases h
    · split at h
      · obtain ⟨so, site, hs, hnext⟩ := onSite_inv h
        exact .failed hs hnext
      · cases h
  | network e =>
    simp only [Enrolment.step] at h
    split_ifs at h with hnet
    obtain ⟨so, site, hs, hnext⟩ := onSite_inv h
    obtain ⟨rfl, rfl⟩ := Prod.mk.inj hnext
    exact .network hnet hs
  | scan =>
    simp only [Enrolment.step, Enrolment.scan] at h
    split at h
    · cases h
    · rename_i c hin
      split at h
      · cases h
      · rename_i site hs
        obtain ⟨rfl, rfl⟩ := Prod.mk.inj (Except.ok.inj h)
        exact .scanned hs
      · rename_i call response site hs
        obtain ⟨m, hm, rfl, hresp⟩ := scan_response hs
        simp only [hresp, Option.elim_some] at h
        exact .taken hin hs hm (Except.ok.inj h)
  | timeout =>
    simp only [Enrolment.step, Enrolment.timeout] at h
    split at h
    · cases h
    · rename_i c hin
      obtain ⟨so, site, hs, hnext⟩ := onSite_inv h
      exact .timeout hin hs hnext
  | restartGate =>
    simp only [Enrolment.step] at h
    obtain ⟨so, site, hs, hnext⟩ := onSite_inv h
    obtain ⟨rfl, rfl⟩ := Prod.mk.inj hnext
    exact .restartGate hs
  | restartServer =>
    simp only [Enrolment.step, Enrolment.restartServer] at h
    split at h
    · rename_i server hs
      obtain ⟨rfl, rfl⟩ := Prod.mk.inj (Except.ok.inj h)
      exact .restartServer hs
    · cases h

/-! ## What happens to the gate -/

/-- A gate reads the text as the response that it is accepted. -/
def Accepts (env : Env) (text : Str) : Prop :=
  readResponse env GateRegistrationResponse.fromJson text = .ok ⟨RegistrationStatus.accept⟩

/-- The gate with the success stored. -/
def Gate.store (g : Gate) : Gate := { g with registratinResult := Gate.registered }

/-- A call that ends leaves the gate as it was, or is a registration that has read
that it is accepted, and stores it. -/
theorem finish_cases {c : GateCall} {site : Site Unit} {x : Exchange}
    {report : ReturnValue → Report} (h : finish w s c site x report = (o, s')) :
    s'.site = site ∧ s'.inCall = none ∧
    (s'.gate = s.gate ∧ (o = .threw ∨ ∃ value, o = report value ∧
        (c = .gateRegistration → value = .success → s.Stored)) ∨
      c = .gateRegistration ∧ s'.gate = s.gate.store ∧ ∃ value Respond, o = report value ∧
        x = .answered Respond ∧ Accepts w.env Respond) := by
  unfold finish at h
  split at h
  · rename_i value gate hrun
    obtain ⟨rfl, rfl⟩ := Prod.mk.inj h
    refine ⟨rfl, rfl, ?_⟩
    cases c with
    | gateRegistration =>
      rcases gateRegistration_cases hrun with ⟨rfl, rfl⟩ | ⟨hflag, rfl⟩ |
        ⟨rfl, text, Respond, hx, -, hread⟩
      · exact Or.inl ⟨rfl, Or.inr ⟨_, rfl, fun _ hv => by cases hv⟩⟩
      · exact Or.inl ⟨rfl, Or.inr ⟨_, rfl, fun _ _ => hflag⟩⟩
      · exact Or.inr ⟨rfl, rfl, value, Respond, rfl, hx, hread⟩
    | carRegistration timeUTC carPlate handicap =>
      obtain ⟨r, -, hr⟩ := map_ok_iff.mp hrun
      exact Or.inl ⟨(Prod.mk.inj hr).2.symm, Or.inr ⟨_, rfl, fun hc => by cases hc⟩⟩
    | carStatusUpdate carPlate =>
      obtain ⟨r, -, hr⟩ := map_ok_iff.mp hrun
      exact Or.inl ⟨(Prod.mk.inj hr).2.symm, Or.inr ⟨_, rfl, fun hc => by cases hc⟩⟩
  · obtain ⟨rfl, rfl⟩ := Prod.mk.inj h
    exact ⟨rfl, rfl, Or.inl ⟨rfl, Or.inl rfl⟩⟩

/-- What a step does to the configuration of the gate. -/
inductive ConfigStep (w : Setup Unit) (s : Enrolment) (o : Report) (s' : Enrolment) : Prop
  | kept : s'.gate = s.gate → (o.registration = some .success → s.Stored) → ConfigStep w s o s'
  /-- A response that accepts the gate was taken. -/
  | stored {m : Tagged WSMessage} {value : ReturnValue} {call : ℕ} : s'.gate = s.gate.store →
      m ∈ (s.site.gates ()).results → Accepts w.env m.item.payload →
      o = .answered .gateRegistration value call m.call → ConfigStep w s o s'

theorem registration_returned (c : GateCall) (value : ReturnValue) :
    (Report.returned c value).registration =
      if c = .gateRegistration then some value else none := by
  cases c <;> rfl

theorem registration_answered (c : GateCall) (value : ReturnValue) (call response : ℕ) :
    (Report.answered c value call response).registration =
      if c = .gateRegistration then some value else none := by
  cases c <;> rfl

/-- A call that returns without a response. -/
theorem finish_config {c : GateCall} {site : Site Unit} {x : Exchange}
    (hx : ∀ Respond, x = .answered Respond → ¬ Accepts w.env Respond)
    (h : finish w s c site x (.returned c) = (o, s')) : ConfigStep w s o s' := by
  obtain ⟨-, -, ⟨hg, ho⟩ | ⟨-, -, value, Respond, -, hx', hacc⟩⟩ := finish_cases h
  · refine .kept hg fun hsuccess => ?_
    rcases ho with rfl | ⟨value, rfl, hv⟩
    · cases hsuccess
    · rw [registration_returned] at hsuccess
      split_ifs at hsuccess with hc
      exact hv hc (Option.some.inj hsuccess)
  · exact absurd hacc (hx Respond hx')

theorem not_accepts_nil (env : Env) : ¬ Accepts env [] := by
  intro h
  obtain ⟨r, hmsg, -⟩ := bind_ok_iff.mp h
  cases hmsg

/-- **Step lemma** for the configuration. -/
theorem config_step (h : EnrolmentCases w s e o s') : ConfigStep w s o s' := by
  cases h with
  | early _ _ hf => exact finish_config (fun _ hx => by cases hx) hf
  | threw => exact .kept rfl fun ho => by cases ho
  | began _ _ _ _ => exact .kept rfl fun ho => by cases ho
  | failed _ hf => exact finish_config (fun _ hx => by cases hx) hf
  | network _ _ => exact .kept rfl fun ho => by cases ho
  | scanned _ => exact .kept rfl fun ho => by cases ho
  | taken _ _ hm hf =>
    obtain ⟨-, -, ⟨hg, ho⟩ | ⟨rfl, hg, value, Respond, rfl, hx, hacc⟩⟩ := finish_cases hf
    · refine .kept hg fun hsuccess => ?_
      rcases ho with rfl | ⟨value, rfl, hv⟩
      · cases hsuccess
      · rw [registration_answered] at hsuccess
        split_ifs at hsuccess with hc
        exact hv hc (Option.some.inj hsuccess)
    · cases hx
      exact .stored hg hm hacc rfl
  | timeout _ _ hf =>
    refine finish_config (fun Respond hx => ?_) hf
    cases hx
    exact not_accepts_nil w.env
  | restartGate _ => exact .kept rfl fun ho => by cases ho
  | restartServer _ => exact .kept rfl fun ho => by cases ho

/-! ## What happens to the messages -/

/-- A request of the gate, as it is sent. -/
def OwnText (g : Gate) (text : Str) : Prop :=
  ∃ request random, requestText request random = .ok text ∧
    ∀ r, request = .gateRegistration r → r = ⟨g.gateName, decimalInt g.gateType⟩

/-- All requests, on their way and queued at the server, are the gate's own. -/
structure Own (s : Enrolment) : Prop where
  requests : ∀ r ∈ s.site.requests, OwnText s.gate r.item.text
  queue : ∀ m ∈ s.site.queue, ∃ uri text, OwnText s.gate text ∧
    m.item = ⟨uri, str "Server", uptoHash text⟩

theorem request_gateRegistration {g : Gate} {c : GateCall} {r : GateRegistration}
    (h : c.request g = some (.gateRegistration r)) :
    c = .gateRegistration ∧ g.gateType ≠ GateType.notSet.toInt ∧
      g.registratinResult ≠ Gate.registered ∧ r = ⟨g.gateName, decimalInt g.gateType⟩ := by
  cases c with
  | gateRegistration =>
    simp only [GateCall.request] at h
    split_ifs at h with hn
    rw [not_or] at hn
    cases h
    exact ⟨rfl, hn.1, hn.2, rfl⟩
  | carRegistration timeUTC carPlate handicap =>
    simp only [GateCall.request] at h
    split_ifs at h <;> cases h
  | carStatusUpdate carPlate =>
    simp only [GateCall.request] at h
    split_ifs at h
    cases h

/-- What a step does to the site: the messages move, and a request that is sent is
the gate's own, or the server is restarted. -/
inductive MailStep (w : Setup Unit) (s : Enrolment) (e : EnrolmentEvent) (s' : Enrolment) : Prop
  | moved {ev : Event Unit} : Traffic w s.site s'.site ev →
      (∀ r ∈ s'.site.requests, r ∈ s.site.requests ∨ OwnText s.gate r.item.text) →
      MailStep w s e s'
  | restarted {server : ParkManagerServer} : e = .restartServer →
      s'.site = { s.site with server, queue := [] } → MailStep w s e s'

/-- A step of the site in which the gate calls nobody. -/
theorem mail_of_site (hs : Sent w s.site) {ev : Event Unit} {so : Option (ℕ × ℕ)}
    (h : w.step s.site ev = .ok (so, s'.site)) (hno : ∀ g action body, ev ≠ .call g action body) :
    MailStep w s e s' := by
  have htraffic := step_traffic hs h
  refine .moved htraffic fun r hr => Or.inl ?_
  rcases htraffic.requests r hr with hr | ⟨-, g, action, body, hcall, -⟩
  · exact hr
  · exact absurd hcall (hno g action body)

/-- **Step lemma** for the messages. -/
theorem mail_step (hs : Sent w s.site) (h : EnrolmentCases w s e o s') : MailStep w s e s' := by
  have hstill : s'.site = s.site → MailStep w s e s' := by
    intro hsite
    have hfew : Fewer s.site s'.site := by
      rw [hsite]
      exact ⟨List.Subset.refl _, List.Subset.refl _, List.Subset.refl _,
        fun _ => List.Subset.refl _⟩
    have htraffic : Traffic w s.site s'.site (.scan ()) :=
      hfew.traffic (congrArg _ hsite) (congrArg _ hsite)
    exact .moved htraffic fun r hr => Or.inl (hfew.requests hr)
  cases h with
  | early _ _ hf => exact hstill (finish_cases hf).1
  | threw => exact hstill rfl
  | @began c request body so site _ hreq hbody hsite =>
    have htraffic := step_traffic hs hsite
    refine @MailStep.moved w s _ ⟨site, s.gate, some c⟩ _ htraffic fun r hr => ?_
    rcases htraffic.requests r hr with hr | ⟨-, g, action, body', he, rfl⟩
    · exact Or.inl hr
    · cases he
      refine Or.inr ⟨request, _, requestText_eq hbody _, ?_⟩
      rintro r rfl
      exact (request_gateRegistration hreq).2.2.2
  | failed hsite hf =>
    exact mail_of_site hs ((finish_cases hf).1 ▸ hsite) fun _ _ _ he => by cases he
  | network hnet hsite =>
    refine mail_of_site hs hsite fun g action body he => ?_
    subst he
    cases hnet
  | scanned hsite => exact mail_of_site hs hsite fun _ _ _ he => by cases he
  | taken _ hsite _ hf =>
    exact mail_of_site hs ((finish_cases hf).1 ▸ hsite) fun _ _ _ he => by cases he
  | timeout _ hsite hf =>
    exact mail_of_site hs ((finish_cases hf).1 ▸ hsite) fun _ _ _ he => by cases he
  | restartGate hsite => exact mail_of_site hs hsite fun _ _ _ he => by cases he
  | restartServer _ => exact .restarted rfl rfl

theorem sent_mail (hs : Sent w s.site) (h : MailStep w s e s') : Sent w s'.site := by
  cases h with
  | moved htraffic _ => exact htraffic.sent hs
  | restarted _ hsite =>
    rw [hsite]
    exact ⟨hs.requests, fun m hm => (by cases hm), hs.replies, hs.results⟩

theorem OwnText.congr {g g' : Gate} (hn : g'.gateName = g.gateName)
    (ht : g'.gateType = g.gateType) {text : Str} (h : OwnText g text) : OwnText g' text := by
  obtain ⟨request, random, htext, hown⟩ := h
  refine ⟨request, random, htext, ?_⟩
  rw [hn, ht]
  exact hown

theorem own_step (ho : Own s) (hn : s'.gate.gateName = s.gate.gateName)
    (ht : s'.gate.gateType = s.gate.gateType) (h : MailStep w s e s') : Own s' := by
  cases h with
  | moved htraffic hreq =>
    constructor
    · intro r hr
      rcases hreq r hr with hr | hr
      · exact (ho.requests r hr).congr hn ht
      · exact hr.congr hn ht
    · intro m hm
      rcases htraffic.queue m hm with hm | ⟨r, hr, rfl⟩
      · obtain ⟨uri, text, hown, hitem⟩ := ho.queue m hm
        exact ⟨uri, text, hown.congr hn ht, hitem⟩
      · exact ⟨_, _, (ho.requests r hr).congr hn ht, rfl⟩
  | restarted _ hsite =>
    constructor
    · intro r hr
      rw [hsite] at hr
      exact (ho.requests r hr).congr hn ht
    · intro m hm
      rw [hsite] at hm
      cases hm

/-- The name and the type of a gate never change. -/
theorem sameGate_step (h : ConfigStep w s o s') :
    s'.gate.gateName = s.gate.gateName ∧ s'.gate.gateType = s.gate.gateType := by
  cases h with
  | kept hg _ =>
    rw [hg]
    exact ⟨rfl, rfl⟩
  | stored hg _ _ _ =>
    rw [hg]
    exact ⟨rfl, rfl⟩

/-! ## Acceptance -/

/-- The type the server reads off a registration of the gate. -/
theorem gateType_of_gateTypeOf {g : Gate} {n : ℤ} (hn : 0 ≤ n)
    (h : gateTypeOf ⟨g.gateName, decimalInt g.gateType⟩ = n) : g.gateType = n := by
  unfold gateTypeOf at h
  rw [stoi_decimalInt] at h
  split_ifs at h
  · exact h
  · simp only at h
    omega

theorem Gate.EnrolledAt.mono {g : Gate} {t t' : ParkManagerServer} {env : Env}
    {i : Request × Ambient} {resp : Response} (hh : handle env t i = .ok (resp, t'))
    (h : g.EnrolledAt t) : g.EnrolledAt t' := by
  obtain ⟨hent, hexit⟩ := handle_gates_mono hh
  exact h.imp (And.imp_right (@hent _)) (And.imp_right (@hexit _))

/-- Only the response to a registration that was accepted is read as `Accept`. -/
theorem accepts_response {env : Env} (hp : ParsesExactly env.parse) {resp : Response} {body : Str}
    (hbody : dumpObject resp.toJson = .ok body) {random : ℕ}
    (h : Accepts env (uptoHash (cstr (addBase body .respond [] (quoted (decimal random)) 0)))) :
    resp = .gateRegistration ⟨RegistrationStatus.accept⟩ := by
  obtain ⟨j, hj, hread⟩ := readResponse_arrived hp.toParsesText hbody random 0 h
  have hmem := hp.noOther _ _ _ _ _ hbody hj (GateRegistrationResponse.decode_iff.mp hread)
  have hkey := List.mem_map_of_mem (f := Prod.fst) hmem
  cases resp with
  | gateRegistration r =>
    obtain ⟨result⟩ := r
    have he := (Prod.mk.inj (List.mem_singleton.mp hmem)).2
    exact congrArg (fun result => Response.gateRegistration ⟨result⟩) he.symm
  | carEnterence r =>
    exact absurd hkey (by decide : str "Result" ∉ [str "comment", str "result"])
  | carStatusUpdate r =>
    exact absurd hkey
      (by decide : str "Result" ∉ [str "comment", str "curreny", str "payable", str "status"])

/-- The server answers `Accept` only when it takes the name into its set. -/
theorem enrolled_of_accepts {env : Env} (hp : ParsesExactly env.parse) {g : Gate} {a : Ambient}
    {t t' : ParkManagerServer} {text uri uri' resp : Str} (hown : OwnText g text)
    (hserve : gateHanlder env a t ⟨uri, str "Server", uptoHash text⟩ =
      (t', .ok (some (uri', resp))))
    (hacc : Accepts env (uptoHash resp)) : ¬ g.EnrolledAt t ∧ g.EnrolledAt t' := by
  obtain ⟨request, random, ht, hreg⟩ := hown
  obtain ⟨o, body, hh, hbody, hanswer⟩ := served hp.toParsesText ht hserve
  obtain ⟨-, rfl⟩ := Prod.mk.inj (Option.some.inj hanswer)
  obtain rfl := accepts_response hp hbody hacc
  rcases handle_cases hh with ⟨r, _, resp, e, hg, ho⟩ | ⟨_, _, _, -, -, e⟩ | ⟨_, _, _, -, -, e⟩
  · cases e
    cases ho
    obtain rfl := hreg r rfl
    rcases registerGate_cases t ⟨g.gateName, decimalInt g.gateType⟩ with ⟨e, htype, hnew⟩ |
      ⟨e, htype, hnew⟩ | ⟨e, -⟩ | ⟨e, -⟩
    · have hg0 := gateType_of_gateTypeOf le_rfl htype
      rw [e] at hg
      obtain ⟨rfl, -⟩ := Prod.mk.inj hg
      refine ⟨?_, Or.inl ⟨hg0, Finset.mem_insert_self _ _⟩⟩
      rintro (⟨-, hin⟩ | ⟨h1, -⟩)
      · exact hnew hin
      · rw [hg0] at h1
        cases h1
    · have hg1 := gateType_of_gateTypeOf (by decide) htype
      rw [e] at hg
      obtain ⟨rfl, -⟩ := Prod.mk.inj hg
      refine ⟨?_, Or.inr ⟨hg1, Finset.mem_insert_self _ _⟩⟩
      rintro (⟨h0, -⟩ | ⟨-, hin⟩)
      · rw [hg1] at h0
        cases h0
      · exact hnew hin
    · rw [e] at hg
      exact absurd (Prod.mk.inj hg).2 (by decide)
    · rw [e] at hg
      exact absurd (Prod.mk.inj hg).2 (by decide)
  · cases e
  · cases e

end

end ParkManager
