import ParkManager.Enrolment

/-!
# Registration agreement

What a gate believes about its registration, against what the running server knows.

Proved here, for every run of a gate and its server and any order of steps:

* `registration_agreement`: as long as the server is not restarted while the gate
  has stored its success, or is about to, a registration that returns `SUCCESS`
  finds the name in the set of the running server;
* `stale_success`: a restart of the server that the gate does not notice;
* `lost_reply_iff`: a registration of a name that the server has already succeeds
  exactly when its success has been stored before;
* `locked_out`: a registration whose response was lost.
-/

namespace ParkManager

open History

variable {w : Setup Unit} {s s' : Enrolment} {e : EnrolmentEvent} {o : Report}

/-! ## Messages that accept the gate -/

/-- No response that accepts the gate is on its way, or queued at the gate. -/
structure NoAcceptance (env : Env) (s : Enrolment) : Prop where
  replies : ∀ r ∈ s.site.replies, ¬ Accepts env (uptoHash r.item.text)
  results : ∀ m ∈ (s.site.gates ()).results, ¬ Accepts env m.item.payload

/-- What holds in every state: the messages carry their ids, the requests are the
gate's own. -/
structure Proper (w : Setup Unit) (s : Enrolment) : Prop where
  sent : Sent w s.site
  own : Own s

theorem proper_start (server : ParkManagerServer) (g : Gate) :
    Proper w (Enrolment.start server g) :=
  ⟨sent_start server, ⟨fun r hr => (by cases hr), fun m hm => (by cases hm)⟩⟩

theorem proper_step (hs : Proper w s) (h : EnrolmentCases w s e o s') : Proper w s' := by
  have hmail := mail_step hs.sent h
  obtain ⟨hn, ht⟩ := sameGate_step (config_step h)
  exact ⟨sent_mail hs.sent hmail, own_step hs.own hn ht hmail⟩

theorem enrolled_iff (hn : s'.gate.gateName = s.gate.gateName)
    (ht : s'.gate.gateType = s.gate.gateType) (t : ParkManagerServer) :
    s'.gate.EnrolledAt t ↔ s.gate.EnrolledAt t := by
  rw [Gate.EnrolledAt, Gate.EnrolledAt, hn, ht]

/-- Until the server is restarted, it does not forget the gate. -/
theorem enrolled_step (hp : ParsesExactly w.env.parse) (hs : Proper w s)
    (h : EnrolmentCases w s e o s') (hno : e ≠ .restartServer) (henr : s.Enrolled) :
    s'.Enrolled := by
  obtain ⟨hn, ht⟩ := sameGate_step (config_step h)
  rw [Enrolment.Enrolled, enrolled_iff hn ht]
  cases mail_step hs.sent h with
  | moved htraffic _ =>
    rcases htraffic.server with hserver | ⟨m, hm, a, answer, hg⟩
    · rw [hserver]
      exact henr
    · obtain ⟨uri, text, ⟨request, random, htext, -⟩, hitem⟩ := hs.own.queue m hm
      rw [hitem] at hg
      obtain ⟨resp, body, hh, -, -⟩ := served hp.toParsesText htext hg
      exact henr.mono hh
  | restarted he _ => exact absurd he hno

/-- A new response that accepts the gate comes from a server that has just taken
its name. -/
theorem accepts_step (hp : ParsesExactly w.env.parse) (hs : Proper w s)
    (h : EnrolmentCases w s e o s') :
    (∀ r ∈ s'.site.replies, Accepts w.env (uptoHash r.item.text) →
      r ∈ s.site.replies ∨ ¬ s.Enrolled ∧ s'.Enrolled) ∧
    ∀ m ∈ (s'.site.gates ()).results, m ∈ (s.site.gates ()).results ∨
      ∃ r ∈ s.site.replies, m.call = r.call ∧ m.item.payload = uptoHash r.item.text := by
  obtain ⟨hn, ht⟩ := sameGate_step (config_step h)
  cases mail_step hs.sent h with
  | moved htraffic _ =>
    constructor
    · intro r hr hacc
      rcases htraffic.replies r hr with hr | ⟨m, hm, a, -, hg⟩
      · exact Or.inl hr
      · obtain ⟨uri, text, hown, hitem⟩ := hs.own.queue m hm
        rw [hitem] at hg
        rw [Enrolment.Enrolled, Enrolment.Enrolled, enrolled_iff hn ht]
        exact Or.inr (enrolled_of_accepts hp hown hg hacc)
    · intro m hm
      rcases htraffic.results () m hm with hm | ⟨r, hr, -, rfl⟩
      · exact Or.inl hm
      · exact Or.inr ⟨r, hr, rfl, rfl⟩
  | restarted _ hsite =>
    rw [hsite]
    exact ⟨fun r hr _ => Or.inl hr, fun m hm => Or.inl hm⟩

/-! ## The gate and the server agree -/

/-- A registration that returns `SUCCESS` finds the name at the running server. -/
def Agrees (_past : List EnrolmentStep) (st : EnrolmentStep) : Prop :=
  st.output.registration = some .success → st.post.Enrolled

/-- The server is restarted only while the gate has no success stored, and no
response that accepts it on the way. -/
def ForgetsNothing (env : Env) (_past : List EnrolmentStep) (st : EnrolmentStep) : Prop :=
  st.input = .restartServer → ¬ st.pre.Stored ∧ NoAcceptance env st.pre

instance (past : List EnrolmentStep) (st : EnrolmentStep) : Decidable (Agrees past st) :=
  inferInstanceAs (Decidable (_ → _))

instance (env : Env) (text : Str) : Decidable (Accepts env text) :=
  inferInstanceAs (Decidable (_ = _))

instance (env : Env) (s : Enrolment) : Decidable (NoAcceptance env s) :=
  decidable_of_iff ((∀ r ∈ s.site.replies, ¬ Accepts env (uptoHash r.item.text)) ∧
    ∀ m ∈ (s.site.gates ()).results, ¬ Accepts env m.item.payload)
    ⟨fun h => ⟨h.1, h.2⟩, fun h => ⟨h.1, h.2⟩⟩

instance (env : Env) (past : List EnrolmentStep) (st : EnrolmentStep) :
    Decidable (ForgetsNothing env past st) :=
  inferInstanceAs (Decidable (_ → _))

/-- What the gate believes, or is about to believe, is true. -/
structure Believed (w : Setup Unit) (s : Enrolment) : Prop extends Proper w s where
  stored : s.Stored → s.Enrolled
  replies : ∀ r ∈ s.site.replies, Accepts w.env (uptoHash r.item.text) → s.Enrolled
  results : ∀ m ∈ (s.site.gates ()).results, Accepts w.env m.item.payload → s.Enrolled

theorem believed_start {server : ParkManagerServer} {g : Gate}
    (hg : g.registratinResult ≠ Gate.registered) : Believed w (Enrolment.start server g) where
  toProper := proper_start server g
  stored h := absurd h hg
  replies r hr := by cases hr
  results m hm := by cases hm

/-- **Step lemma**: only a restart of the server makes a belief false. -/
theorem believed_step (hp : ParsesExactly w.env.parse) (hs : Believed w s)
    (h : EnrolmentCases w s e o s')
    (hc : e = .restartServer → ¬ s.Stored ∧ NoAcceptance w.env s) : Believed w s' := by
  have hproper := proper_step hs.toProper h
  by_cases he : e = .restartServer
  · subst he
    obtain ⟨hstored, hreplies, hresults⟩ := hc rfl
    cases h with
    | restartServer _ =>
      exact ⟨hproper, fun h => absurd h hstored, fun r hr hacc => absurd hacc (hreplies r hr),
        fun m hm hacc => absurd hacc (hresults m hm)⟩
  · have hkeep := enrolled_step hp hs.toProper h he
    obtain ⟨hreplies, hresults⟩ := accepts_step hp hs.toProper h
    refine ⟨hproper, fun hst => ?_, fun r hr hacc => ?_, fun m hm hacc => ?_⟩
    · cases config_step h with
      | kept hg _ =>
        rw [Enrolment.Stored, hg] at hst
        exact hkeep (hs.stored hst)
      | stored _ hm hacc _ => exact hkeep (hs.results _ hm hacc)
    · rcases hreplies r hr hacc with hr | ⟨-, henr⟩
      · exact hkeep (hs.replies r hr hacc)
      · exact henr
    · rcases hresults m hm with hm | ⟨r, hr, -, hpay⟩
      · exact hkeep (hs.results m hm hacc)
      · rw [hpay] at hacc
        exact hkeep (hs.replies r hr hacc)

/-- A registration that returns `SUCCESS` leaves it stored. -/
theorem stored_of_success (h : EnrolmentCases w s e o s')
    (ho : o.registration = some .success) : s'.Stored := by
  cases config_step h with
  | kept hg hst =>
    rw [Enrolment.Stored, hg]
    exact hst ho
  | stored hg _ _ _ =>
    rw [Enrolment.Stored, hg]
    rfl

theorem believed_run (hp : ParsesExactly w.env.parse) {server : ParkManagerServer} {g : Gate}
    (hg : g.registratinResult ≠ Gate.registered) {h : List EnrolmentStep}
    (hr : EnrolmentRun w (Enrolment.start server g) h s) (hc : Each (ForgetsNothing w.env) h) :
    Each Agrees h ∧ Believed w s := by
  induction hr with
  | start => exact ⟨trivial, believed_start hg⟩
  | next hr hst ih =>
    obtain ⟨hagree, hs⟩ := ih hc.2
    have hcases := step_cases hst
    have hs' := believed_step hp hs hcases hc.1
    exact ⟨⟨fun ho => hs'.stored (stored_of_success hcases ho), hagree⟩, hs'⟩

/-- **Registration agreement.**  In a run in which the server is restarted only
while the gate has no success stored and no acceptance on the way, a registration
returns `SUCCESS` only if the running server has the name. -/
theorem registration_agreement (hp : ParsesExactly w.env.parse) {server : ParkManagerServer}
    {g : Gate} (hg : g.registratinResult ≠ Gate.registered) {h : List EnrolmentStep}
    (hr : EnrolmentRun w (Enrolment.start server g) h s) (hc : Each (ForgetsNothing w.env) h) :
    Each Agrees h :=
  (believed_run hp hg hr hc).1

/-- In whatever state the success is stored: after a restart of the server, the
next registration returns `SUCCESS`, and the server does not have the name. -/
theorem restart_unnoticed (hstored : s.Stored) (hcall : s.inCall = none)
    (htype : s.gate.gateType ≠ GateType.notSet.toInt) {server : ParkManagerServer}
    (hstart : ParkManagerServer.start w.env = .ok server) :
    ∃ s₁ s₂, Enrolment.step w s .restartServer = .ok (.quiet, s₁) ∧
      Enrolment.step w s₁ (.invoke .gateRegistration) =
        .ok (.returned .gateRegistration .success, s₂) ∧ ¬ s₂.Enrolled := by
  have hsets : server.enternceGates = ∅ ∧ server.exitingGates = ∅ := by
    obtain ⟨_, -, hstart⟩ := bind_ok_iff.mp hstart
    obtain ⟨_, -, hstart⟩ := bind_ok_iff.mp hstart
    obtain ⟨_, -, hstart⟩ := bind_ok_iff.mp hstart
    rw [← Except.ok.inj hstart]
    exact ⟨rfl, rfl⟩
  refine ⟨{ s with site := { s.site with server, queue := [] } },
    ⟨{ s.site with server, queue := [] }, s.gate, none⟩, ?_, ?_, ?_⟩
  · simp only [Enrolment.step, Enrolment.restartServer, hstart]
  · have hreq := request_gateRegistration_none.mpr (Or.inr hstored)
    simp only [Enrolment.step, Enrolment.invoke, hcall, Option.isSome_none, Bool.false_eq_true,
      ↓reduceIte, hreq, Enrolment.finish, GateCall.run, gateRegistration_registered htype hstored]
  · rintro (⟨-, hin⟩ | ⟨-, hin⟩)
    · rw [hsets.1] at hin
      cases hin
    · rw [hsets.2] at hin
      cases hin

/-- The packaged server, and the uri of one entrance gate. -/
def gate1 : Setup Unit where
  env := packagedReader
  random := fun n => 1804289383 + n
  clientURI := fun _ => str "Gate1"
  clientURI_injective := fun _ _ _ => rfl
  hash_notMem_clientURI := by decide

/-- An entrance gate with its configuration cleaned up. -/
def cleanGate : Gate := ⟨str "EntGate1", 0, str "-1"⟩

/-- A registration whose request and response arrive. -/
def enrol : List EnrolmentEvent :=
  [.invoke .gateRegistration, .network (.deliverRequest 0), .network (.serve morning 0),
    .network (.deliverReply 0 ()), .scan]

/-- The same with the response lost. -/
def enrolUnheard : List EnrolmentEvent :=
  [.invoke .gateRegistration, .network (.deliverRequest 0), .network (.serve morning 0),
    .network (.loseReply 0), .timeout]

/-- The gate registers, and again after a restart of the server. -/
theorem stale_success :
    ParsesExactly gate1.env.parse ∧ cleanGate.registratinResult ≠ Gate.registered ∧
    StartUp gate1.env packagedStart ∧
    ∃ h s, EnrolmentRun gate1 (Enrolment.start packagedStart cleanGate) h s ∧
      h.reverse.map (·.input) = enrol ++ [.restartServer, .invoke .gateRegistration] ∧
      ¬ Each Agrees h := by
  refine ⟨parsesExactly_readObject, by decide, startUp_packagedReader, ?_⟩
  refine exists_run_of_execute (enrol ++ [.restartServer, .invoke .gateRegistration])
    (fun h _ => h.reverse.map (·.input) = enrol ++ [.restartServer, .invoke .gateRegistration] ∧
      ¬ Each Agrees h) ?_
  decide +kernel

theorem registration_agreement_restart :
    ∃ h s, EnrolmentRun gate1 (Enrolment.start packagedStart cleanGate) h s ∧
      h.reverse.map (·.input) = enrolUnheard ++ .restartServer :: enrol ∧
      (h.head?.map (·.output) = some (.answered .gateRegistration .success 1 1)) ∧
      Each Agrees h := by
  obtain ⟨h, s, hr, hin, hout, hc⟩ :
      ∃ h s, EnrolmentRun gate1 (Enrolment.start packagedStart cleanGate) h s ∧
        (h.reverse.map (·.input) = enrolUnheard ++ .restartServer :: enrol ∧
          h.head?.map (·.output) = some (.answered .gateRegistration .success 1 1) ∧
          Each (ForgetsNothing gate1.env) h) := by
    refine exists_run_of_execute (enrolUnheard ++ .restartServer :: enrol) _ ?_
    decide +kernel
  exact ⟨h, s, hr, hin, hout,
    registration_agreement parsesExactly_readObject (by decide) hr hc⟩

/-! ## Responses that are lost or late -/

/-- A registration that was called in `b` returns with the transition: at once, or
since the response to its own request came in time. -/
inductive Completes (past : List EnrolmentStep) (st b : EnrolmentStep) (value : ReturnValue) : Prop
  | atOnce : b = st → st.input = .invoke .gateRegistration →
      st.output = .returned .gateRegistration value → Completes past st b value
  | inTime {call : ℕ} : b ∈ past → b.input = .invoke .gateRegistration → b.output = .began call →
      st.output = .answered .gateRegistration value call call → Completes past st b value

/-- A registration of a name that the server has already succeeds. -/
def SurvivesLoss (past : List EnrolmentStep) (st : EnrolmentStep) : Prop :=
  ∀ b value, Completes past st b value → b.pre.Enrolled → value = .success ∧ st.post.Stored

def NoServerRestart (_past : List EnrolmentStep) (st : EnrolmentStep) : Prop :=
  st.input ≠ .restartServer

instance (past : List EnrolmentStep) (st : EnrolmentStep) : Decidable (NoServerRestart past st) :=
  inferInstanceAs (Decidable (_ ≠ _))

/-- The messages go back to calls that have been made. -/
structure CallsMade (s : Site Unit) : Prop where
  requests : ∀ r ∈ s.requests, r.call < s.calls
  queue : ∀ m ∈ s.queue, m.call < s.calls
  replies : ∀ r ∈ s.replies, r.call < s.calls
  results : ∀ m ∈ (s.gates ()).results, m.call < s.calls

theorem callsMade_step (hs : CallsMade s.site) (h : MailStep w s e s') : CallsMade s'.site := by
  cases h with
  | moved htraffic _ =>
    have hle := htraffic.calls
    refine ⟨fun r hr => ?_, fun m hm => ?_, fun r hr => ?_, fun m hm => ?_⟩
    · rcases htraffic.requests r hr with hr | ⟨hlt, _, _, _, -, rfl⟩
      · exact (hs.requests r hr).trans_le hle
      · exact hlt
    · rcases htraffic.queue m hm with hm | ⟨r, hr, rfl⟩
      · exact (hs.queue m hm).trans_le hle
      · exact (hs.requests r hr).trans_le hle
    · rcases htraffic.replies r hr with hr | ⟨m, hm, a, hcall, -⟩
      · exact (hs.replies r hr).trans_le hle
      · rw [hcall]
        exact (hs.queue m hm).trans_le hle
    · rcases htraffic.results () m hm with hm | ⟨r, hr, -, rfl⟩
      · exact (hs.results m hm).trans_le hle
      · exact (hs.replies r hr).trans_le hle
  | restarted _ hsite =>
    rw [hsite]
    exact ⟨hs.requests, fun m hm => (by cases hm), hs.replies, hs.results⟩

/-- No response to the call accepts the gate. -/
structure Unaccepted (env : Env) (s : Enrolment) (call : ℕ) : Prop where
  made : call < s.site.calls
  replies : ∀ r ∈ s.site.replies, r.call = call → ¬ Accepts env (uptoHash r.item.text)
  results : ∀ m ∈ (s.site.gates ()).results, m.call = call → ¬ Accepts env m.item.payload

/-- While a registration is being made its success is not stored, and the calls
made since the server has the name are not accepted. -/
structure TooLate (w : Setup Unit) (past : List EnrolmentStep) (s : Enrolment) : Prop
    extends Proper w s where
  made : CallsMade s.site
  notStored : s.inCall = some .gateRegistration → ¬ s.Stored
  asked : ∀ b ∈ past, b.input = .invoke .gateRegistration → ∀ call, b.output = .began call →
    ¬ b.pre.Stored
  enrolled : ∀ b ∈ past, b.pre.Enrolled → s.Enrolled
  unaccepted : ∀ b ∈ past, b.pre.Enrolled → ∀ call, b.output = .began call →
    Unaccepted w.env s call

theorem notStored_step (hs : s.inCall = some .gateRegistration → ¬ s.Stored)
    (h : EnrolmentCases w s e o s') (hin : s'.inCall = some .gateRegistration) : ¬ s'.Stored := by
  cases h with
  | early _ _ hf =>
    rw [(finish_cases hf).2.1] at hin
    cases hin
  | threw => exact hs hin
  | began _ hreq _ _ =>
    cases hin
    intro hstored
    rw [request_gateRegistration_none.mpr (Or.inr hstored)] at hreq
    cases hreq
  | failed _ hf =>
    rw [(finish_cases hf).2.1] at hin
    cases hin
  | network _ _ => exact hs hin
  | scanned _ => exact hs hin
  | taken _ _ _ hf =>
    rw [(finish_cases hf).2.1] at hin
    cases hin
  | timeout _ _ hf =>
    rw [(finish_cases hf).2.1] at hin
    cases hin
  | restartGate _ => cases hin
  | restartServer _ => exact hs hin

/-- What a call that ends reports. -/
theorem finish_report {c : GateCall} {site : Site Unit} {x : Exchange}
    {report : ReturnValue → Report} (h : Enrolment.finish w s c site x report = (o, s')) :
    o = .threw ∨ ∃ value, o = report value := by
  obtain ⟨-, -, ⟨-, ho | ⟨value, ho, -⟩⟩ | ⟨-, -, value, _, ho, -⟩⟩ := finish_cases h
  · exact Or.inl ho
  · exact Or.inr ⟨value, ho⟩
  · exact Or.inr ⟨value, ho⟩

/-- A call that ends does not begin. -/
theorem finish_ne_began {c : GateCall} {site : Site Unit} {x : Exchange}
    {report : ReturnValue → Report} {call : ℕ} (hreport : ∀ value, report value ≠ .began call)
    (h : Enrolment.finish w s c site x report = (.began call, s')) : False := by
  rcases finish_report h with ho | ⟨value, ho⟩
  · cases ho
  · exact hreport value ho.symm

/-- The call that has just been made is not accepted if the server has the name. -/
theorem unaccepted_began (hp : ParsesExactly w.env.parse) (hs : Proper w s)
    (hmade : CallsMade s.site) {call : ℕ} (h : EnrolmentCases w s e (.began call) s')
    (henr : s.Enrolled) : Unaccepted w.env s' call := by
  obtain ⟨hreplies, hresults⟩ := accepts_step hp hs h
  have hcall : call = s.site.calls ∧ s.site.calls < s'.site.calls := by
    cases h with
    | early _ _ hf => exact (finish_ne_began (fun _ hv => by cases hv) hf).elim
    | began _ _ _ hsite =>
      obtain ⟨t, ht, heq⟩ := map_ok_iff.mp hsite
      obtain ⟨-, rfl⟩ := Prod.mk.inj heq
      obtain ⟨-, rfl⟩ := call_inv ht
      exact ⟨rfl, Nat.lt_succ_self _⟩
    | failed _ hf => exact (finish_ne_began (fun _ hv => by cases hv) hf).elim
    | taken _ _ _ hf => exact (finish_ne_began (fun _ hv => by cases hv) hf).elim
    | timeout _ _ hf => exact (finish_ne_began (fun _ hv => by cases hv) hf).elim
  obtain ⟨rfl, hlt⟩ := hcall
  refine ⟨hlt, fun r hr htag hacc => ?_, fun m hm htag hacc => ?_⟩
  · rcases hreplies r hr hacc with hr | ⟨hnot, -⟩
    · exact absurd (hmade.replies r hr) (by omega)
    · exact hnot henr
  · rcases hresults m hm with hm | ⟨r, hr, hcall, -⟩
    · exact absurd (hmade.results m hm) (by omega)
    · exact absurd (hmade.replies r hr) (by omega)

/-- A call that is not accepted will not be. -/
theorem unaccepted_step (hp : ParsesExactly w.env.parse) (hs : Proper w s)
    (h : EnrolmentCases w s e o s') (henr : s.Enrolled) {call : ℕ}
    (hu : Unaccepted w.env s call) : Unaccepted w.env s' call := by
  obtain ⟨hreplies, hresults⟩ := accepts_step hp hs h
  have hle : s.site.calls ≤ s'.site.calls := by
    cases mail_step hs.sent h with
    | moved htraffic _ => exact htraffic.calls
    | restarted _ hsite => rw [hsite]
  refine ⟨hu.made.trans_le hle, fun r hr htag hacc => ?_, fun m hm htag hacc => ?_⟩
  · rcases hreplies r hr hacc with hr | ⟨hnot, -⟩
    · exact hu.replies r hr htag hacc
    · exact hnot henr
  · rcases hresults m hm with hm | ⟨r, hr, hcall, hpay⟩
    · exact hu.results m hm htag hacc
    · rw [hpay] at hacc
      exact hu.replies r hr (hcall.symm.trans htag) hacc

/-- A registration that sends a request has no success stored. -/
theorem notStored_began {call : ℕ}
    (h : EnrolmentCases w s (.invoke .gateRegistration) (.began call) s') : ¬ s.Stored := by
  intro hstored
  cases h with
  | early _ _ hf => exact finish_ne_began (fun _ hv => by cases hv) hf
  | began _ hreq _ _ =>
    rw [request_gateRegistration_none.mpr (Or.inr hstored)] at hreq
    cases hreq

/-- **Step lemma.** -/
theorem tooLate_step {past : List EnrolmentStep} (hp : ParsesExactly w.env.parse)
    (hs : TooLate w past s) (h : EnrolmentCases w s e o s') (hno : e ≠ .restartServer) :
    TooLate w (⟨s, e, o, s'⟩ :: past) s' := by
  have hkeep := enrolled_step hp hs.toProper h hno
  refine ⟨proper_step hs.toProper h, callsMade_step hs.made (mail_step hs.sent h),
    notStored_step hs.notStored h, ?_, ?_, ?_⟩
  · intro b hb hin call hout
    rcases List.mem_cons.mp hb with rfl | hb
    · cases hin
      cases hout
      exact notStored_began h
    · exact hs.asked b hb hin call hout
  · intro b hb henr
    rcases List.mem_cons.mp hb with rfl | hb
    · exact hkeep henr
    · exact hkeep (hs.enrolled b hb henr)
  · intro b hb henr call hout
    rcases List.mem_cons.mp hb with rfl | hb
    · cases hout
      exact unaccepted_began hp hs.toProper hs.made h henr
    · exact unaccepted_step hp hs.toProper h (hs.enrolled b hb henr)
        (hs.unaccepted b hb henr call hout)

/-- A response is taken for the call that is being made. -/
theorem inCall_of_answered {c : GateCall} {value : ReturnValue} {call response : ℕ}
    (h : EnrolmentCases w s e (.answered c value call response) s') : s.inCall = some c := by
  cases h with
  | early _ _ hf => rcases finish_report hf with ho | ⟨_, ho⟩ <;> cases ho
  | failed _ hf => rcases finish_report hf with ho | ⟨_, ho⟩ <;> cases ho
  | taken hin _ _ hf =>
    rcases finish_report hf with ho | ⟨_, ho⟩ <;> cases ho
    exact hin
  | timeout _ _ hf => rcases finish_report hf with ho | ⟨_, ho⟩ <;> cases ho

/-- A registration of a name that the server has already. -/
theorem completes_iff {past : List EnrolmentStep} (hs : TooLate w past s)
    (h : EnrolmentCases w s e o s') {b : EnrolmentStep} {value : ReturnValue}
    (hb : Completes past ⟨s, e, o, s'⟩ b value) (henr : b.pre.Enrolled) :
    (value = .success ∧ s'.Stored) ↔ b.pre.Stored := by
  cases hb with
  | atOnce hb hin hout =>
    subst hb
    cases hin
    cases hout
    have htype : s.gate.gateType ≠ GateType.notSet.toInt := by
      rcases henr with ⟨ht, -⟩ | ⟨ht, -⟩
      · rw [ht]
        decide
      · rw [ht]
        decide
    cases h with
    | early _ hreq hf =>
      have hstored : s.Stored := (request_gateRegistration_none.mp hreq).resolve_left htype
      unfold Enrolment.finish at hf
      rw [GateCall.run, gateRegistration_registered htype hstored] at hf
      obtain ⟨hv, rfl⟩ := Prod.mk.inj hf
      cases hv
      exact iff_of_true ⟨rfl, hstored⟩ hstored
  | inTime hb hin hbegan hout =>
    refine iff_of_false ?_ (hs.asked b hb hin _ hbegan)
    rintro ⟨rfl, -⟩
    cases hout
    have hu := hs.unaccepted b hb henr _ hbegan
    cases config_step h with
    | kept _ hstored => exact hs.notStored (inCall_of_answered h) (hstored rfl)
    | stored _ hm hacc ho =>
      cases ho
      exact hu.results _ hm rfl hacc

theorem tooLate_run (hp : ParsesExactly w.env.parse) {server : ParkManagerServer} {g : Gate}
    {h : List EnrolmentStep} (hr : EnrolmentRun w (Enrolment.start server g) h s)
    (hno : Each NoServerRestart h) : TooLate w h s := by
  induction hr with
  | start =>
    exact ⟨proper_start server g,
      ⟨fun r hr => (by cases hr), fun m hm => (by cases hm), fun r hr => (by cases hr),
        fun m hm => (by cases hm)⟩, fun hin => (by cases hin), fun b hb => (by cases hb),
      fun b hb => (by cases hb), fun b hb => (by cases hb)⟩
  | next hr hst ih => exact tooLate_step hp (ih hno.2) (step_cases hst) hno.1

/-- **A lost response.**  As long as the server is not restarted, a registration of
a name that it has already succeeds exactly if its success was stored before: no
response that comes in time to a request the server has got makes up for one that
was lost. -/
theorem lost_reply_iff (hp : ParsesExactly w.env.parse) {server : ParkManagerServer} {g : Gate}
    {h : List EnrolmentStep} (hr : EnrolmentRun w (Enrolment.start server g) h s)
    (hno : Each NoServerRestart h) :
    Each (fun past st => ∀ b value, Completes past st b value → b.pre.Enrolled →
      ((value = .success ∧ st.post.Stored) ↔ b.pre.Stored)) h := by
  induction hr with
  | start => trivial
  | next hr hst ih =>
    refine ⟨fun b value hb henr => ?_, ih hno.2⟩
    exact completes_iff (tooLate_run hp hr hno.2) (step_cases hst) hb henr

/-- A registration whose response is lost, and one whose response comes in time. -/
theorem locked_out :
    ParsesExactly gate1.env.parse ∧ StartUp gate1.env packagedStart ∧
    ∃ h s, EnrolmentRun gate1 (Enrolment.start packagedStart cleanGate) h s ∧
      h.reverse.map (·.input) = enrolUnheard ++ enrol ∧ Each NoServerRestart h ∧
      ¬ Each SurvivesLoss h := by
  refine ⟨parsesExactly_readObject, startUp_packagedReader, ?_⟩
  obtain ⟨h, s, hr, hin, hno, hlast⟩ :
      ∃ h s, EnrolmentRun gate1 (Enrolment.start packagedStart cleanGate) h s ∧
        (h.reverse.map (·.input) = enrolUnheard ++ enrol ∧ Each NoServerRestart h ∧
          ∃ st ∈ h.head?, st.output = .answered .gateRegistration .failed 1 1 ∧
            ∃ b ∈ h.tail, b.input = .invoke .gateRegistration ∧ b.output = .began 1 ∧
              b.pre.Enrolled) := by
    refine exists_run_of_execute (enrolUnheard ++ enrol) _ ?_
    decide +kernel
  refine ⟨h, s, hr, hin, hno, fun hsurvives => ?_⟩
  obtain ⟨st, hst, hout, b, hb, hinvoke, hbegan, henr⟩ := hlast
  cases h with
  | nil => cases hst
  | cons _ past =>
    cases hst
    have := (hsurvives.1 b .failed (.inTime hb hinvoke hbegan hout) henr).1
    cases this

/-- A gate that registers twice. -/
theorem lost_reply_registered :
    ∃ h s, EnrolmentRun gate1 (Enrolment.start packagedStart cleanGate) h s ∧
      h.reverse.map (·.input) = enrol ++ [.invoke .gateRegistration] ∧
      Each NoServerRestart h ∧
      ∃ st past, h = st :: past ∧ Completes past st st .success ∧ st.pre.Enrolled ∧
        st.pre.Stored ∧ st.post.Stored := by
  obtain ⟨h, s, hr, hin, hno, hlast⟩ :
      ∃ h s, EnrolmentRun gate1 (Enrolment.start packagedStart cleanGate) h s ∧
        (h.reverse.map (·.input) = enrol ++ [.invoke .gateRegistration] ∧ Each NoServerRestart h ∧
          ∃ st ∈ h.head?, st.input = .invoke .gateRegistration ∧
            st.output = .returned .gateRegistration .success ∧ st.pre.Enrolled ∧
            st.pre.Stored) := by
    refine exists_run_of_execute (enrol ++ [.invoke .gateRegistration]) _ ?_
    decide +kernel
  obtain ⟨st, hst, hinvoke, hout, henr, hstored⟩ := hlast
  cases h with
  | nil => cases hst
  | cons _ past =>
    cases hst
    have hc : Completes past st st .success := .atOnce rfl hinvoke hout
    have hiff := (lost_reply_iff parsesExactly_readObject hr hno).1 st .success hc henr
    exact ⟨_, s, hr, hin, hno, st, past, rfl, hc, henr, hstored, (hiff.mpr hstored).2⟩

end ParkManager
