import ParkManager.RoundTrip

/-!
# The server and its gates

Any number of gate processes, the server, and the messages on their way between
them.  Every event is one step, in any order: a gate draws an id and sends a
request, a message arrives or is lost, the server serves the oldest request, a
waiting gate scans its responses or gives up, a gate reconnects or its process is
restarted.  `γ` is the type of the gates.

A call of a gate has a number, and every message carries the number of the call
it goes back to.  The numbers are not part of the program: no step looks at them.

Proved here:

* `serve_getCALLMessage`, `scan_getResponse`: the steps use the queues as the
  message managers do;
* `filed_request`, `filed_reply`, `answer_carries`, `matches_reply`: an id is
  carried through the queues, the handler and the scan.
-/

namespace ParkManager

open History

/-- A thing that goes back to a call. -/
structure Tagged (α : Type) where
  item : α
  call : ℕ

/-- A gate process: the number of ids drawn from `random()`, the queue of
responses, the id `GetResponseMessage` is waiting for, and the connection. -/
structure GateProcess where
  drawn : ℕ
  results : List (Tagged WSMessage)
  waiting : Option (Tagged Str)
  connection : ℕ

/-- A request on its way. -/
structure Letter (γ : Type) where
  gate : γ
  text : Str

/-- A response on its way, on one of the connections of its uri. -/
structure Reply where
  uri : Str
  connection : ℕ
  text : Str

structure Site (γ : Type) where
  gates : γ → GateProcess
  requests : List (Tagged (Letter γ))
  queue : List (Tagged WSMessage)
  server : ParkManagerServer
  replies : List (Tagged Reply)
  calls : ℕ

/-- What stays the same: the surroundings of the server, the sequence every
process draws from `random()`, and the uris of the gates. -/
structure Setup (γ : Type) where
  env : Env
  random : ℕ → ℕ
  clientURI : γ → Str
  clientURI_injective : Function.Injective clientURI
  hash_notMem_clientURI : ∀ g, ch '#' ∉ clientURI g

inductive Event (γ : Type)
  /-- One of the three calls of a gate, up to the request going out. -/
  | call (g : γ) (action : Action) (body : Str)
  /-- The same with `SendMessage` returning `false`. -/
  | callFails (g : γ)
  | deliverRequest (i : ℕ)
  | loseRequest (i : ℕ)
  /-- An iteration of `GateHanlder`; the answer goes out on some connection. -/
  | serve (a : Ambient) (connection : ℕ)
  | deliverReply (i : ℕ) (g : γ)
  | loseReply (i : ℕ)
  /-- One scan of `GetResponseMessage`. -/
  | scan (g : γ)
  /-- `GetResponseMessage` gives up. -/
  | timeout (g : γ)
  /-- A new process of the gate. -/
  | restart (g : γ)
  /-- `ConnectionHolder` replaces the web-socket client. -/
  | reconnect (g : γ)
  deriving DecidableEq

namespace Setup

variable {γ : Type} [DecidableEq γ] (w : Setup γ)

/-- The uri under which the server knows a gate. -/
def uri (g : γ) : Str := str "/" ++ w.clientURI g

/-- The text of a request. -/
def requestText (action : Action) (body : Str) (drawn : ℕ) : Str :=
  cstr (addBase body .call action.name [] (w.random drawn))

def setGate (s : Site γ) (g : γ) (p : GateProcess) : Site γ :=
  { s with gates := Function.update s.gates g p }

/-- A call: draw an id, send the request, wait for its second comma field. -/
def call (s : Site γ) (g : γ) (action : Action) (body : Str) : Except (Option Fault) (Site γ) :=
  let p := s.gates g
  let text := w.requestText action body p.drawn
  if p.waiting.isSome then .error none
  else
    match vectorAt (text.splitOn (ch ',')) 1 with
    | .error f => .error (some f)
    | .ok messageId =>
      .ok { setGate s g { p with drawn := p.drawn + 1, waiting := some ⟨messageId, s.calls⟩ } with
        requests := ⟨⟨g, text⟩, s.calls⟩ :: s.requests
        calls := s.calls + 1 }

/-- A request arrives: `on_message` of the server. -/
def deliverRequest (s : Site γ) (i : ℕ) : Except (Option Fault) (Site γ) :=
  match s.requests[i]? with
  | none => .error none
  | some r =>
    let mm : MessageManager := ⟨s.queue.map (·.item), []⟩
    match mm.addMessage (envelope (str "Server") (w.uri r.item.gate) r.item.text) with
    | .error f => .error (some f)
    | .ok (mm', _) =>
      .ok { s with
        requests := s.requests.eraseIdx i
        queue := s.queue ++
          (mm'.ocppCALLMessageQueue.drop s.queue.length).map fun m => ⟨m, r.call⟩ }

/-- The server serves the request at the head of its queue. -/
def serve (s : Site γ) (a : Ambient) (connection : ℕ) : Except (Option Fault) (Site γ) :=
  match s.queue with
  | [] => .error none
  | m :: queue =>
    match gateHanlder w.env a s.server m.item with
    | (_, .error f) => .error (some f)
    | (server, .ok none) => .ok { s with server, queue }
    | (server, .ok (some (uri, text))) =>
      .ok { s with server, queue, replies := ⟨⟨uri, connection, text⟩, m.call⟩ :: s.replies }

/-- A response arrives on the connection it was sent on: `on_message` of the
client. -/
def deliverReply (s : Site γ) (i : ℕ) (g : γ) : Except (Option Fault) (Site γ) :=
  let p := s.gates g
  match s.replies[i]? with
  | none => .error none
  | some r =>
    if r.item.uri = w.uri g ∧ r.item.connection = p.connection then
      let mm : MessageManager := ⟨[], p.results.map (·.item)⟩
      match mm.addMessage (envelope (str "LC") (w.clientURI g) r.item.text) with
      | .error f => .error (some f)
      | .ok (mm', _) =>
        .ok { setGate s g { p with
            results := p.results ++
              (mm'.ocppCALLRESULTMessageQueue.drop p.results.length).map fun m => ⟨m, r.call⟩ }
          with replies := s.replies.eraseIdx i }
    else .error none

/-- A scan of the responses: the calls of the gate and of the response it takes,
if it takes one. -/
def scan (s : Site γ) (g : γ) : Except (Option Fault) (Option (ℕ × ℕ) × Site γ) :=
  let p := s.gates g
  match p.waiting with
  | none => .error none
  | some t =>
    match MessageManager.findResponse t.item (p.results.map (·.item)) with
    | .error f => .error (some f)
    | .ok none => .ok (none, s)
    | .ok (some i) =>
      match p.results[i]? with
      | none => .error (some .vectorRange)
      | some m =>
        .ok (some (t.call, m.call),
          setGate s g { p with results := p.results.eraseIdx i, waiting := none })

/-- One step of the site; the output are the two calls of a scan that took a
response. -/
def step (s : Site γ) : Event γ → Except (Option Fault) (Option (ℕ × ℕ) × Site γ)
  | .call g action body => (w.call s g action body).map (none, ·)
  | .callFails g =>
    if (s.gates g).waiting.isSome then .error none
    else .ok (none, setGate s g { s.gates g with drawn := (s.gates g).drawn + 1 })
  | .deliverRequest i => (w.deliverRequest s i).map (none, ·)
  | .loseRequest i => .ok (none, { s with requests := s.requests.eraseIdx i })
  | .serve a connection => (w.serve s a connection).map (none, ·)
  | .deliverReply i g => (w.deliverReply s i g).map (none, ·)
  | .loseReply i => .ok (none, { s with replies := s.replies.eraseIdx i })
  | .scan g => scan s g
  | .timeout g => .ok (none, setGate s g { s.gates g with waiting := none })
  | .restart g => .ok (none, setGate s g ⟨0, [], none, (s.gates g).connection + 1⟩)
  | .reconnect g =>
    if (s.gates g).waiting.isSome then .error none
    else .ok (none, setGate s g { s.gates g with connection := (s.gates g).connection + 1 })

end Setup

/-- Everything just started. -/
def Site.start {γ : Type} (server : ParkManagerServer) : Site γ where
  gates := fun _ => ⟨0, [], none, 0⟩
  requests := []
  queue := []
  server := server
  replies := []
  calls := 0

abbrev SiteStep (γ : Type) := Step (Site γ) (Event γ) (Option (ℕ × ℕ))

abbrev SiteRun {γ : Type} [DecidableEq γ] (w : Setup γ) (s₀ : Site γ) (h : List (SiteStep γ))
    (s : Site γ) : Prop :=
  Run (Graph w.step) s₀ h s

/-! ## The message managers

The queues of the site are those of a manager at the server and one at each gate,
and the steps move them as the manager does. -/

/-- The queue of requests at the server. -/
def Site.callManager {γ : Type} (s : Site γ) : MessageManager := ⟨s.queue.map (·.item), []⟩

/-- The queue of responses at a gate. -/
def GateProcess.resultManager (p : GateProcess) : MessageManager := ⟨[], p.results.map (·.item)⟩

section
variable {γ : Type} [DecidableEq γ] {w : Setup γ}

omit [DecidableEq γ] in
/-- The server waits for a request, and serves what `GetCALLMessage` returns. -/
theorem serve_getCALLMessage {s s' : Site γ} {a : Ambient} {connection : ℕ}
    (h : w.serve s a connection = .ok s') :
    0 < s.callManager.getCALLMessageSize ∧
    ∃ m, s.callManager.getCALLMessage = .ok (m, s'.callManager) ∧
      s'.server = (gateHanlder w.env a s.server m).1 := by
  unfold Setup.serve at h
  split at h
  · cases h
  · rename_i m queue hq
    have hget : s.callManager.getCALLMessage = .ok (m.item, ⟨queue.map (·.item), []⟩) := by
      unfold Site.callManager
      rw [hq]
      rfl
    have hsize : 0 < s.callManager.getCALLMessageSize := by
      simp [Site.callManager, MessageManager.getCALLMessageSize, hq]
    refine ⟨hsize, m.item, ?_⟩
    split at h
    · cases h
    · rename_i hg
      obtain rfl := Except.ok.inj h
      exact ⟨hget, by rw [hg]⟩
    · rename_i hg
      obtain rfl := Except.ok.inj h
      exact ⟨hget, by rw [hg]⟩

/-- A gate scans as `GetResponseMessage` does. -/
theorem scan_getResponse {s s' : Site γ} {g : γ} {o : Option (ℕ × ℕ)}
    (h : Setup.scan s g = .ok (o, s')) :
    ∃ t m, (s.gates g).waiting = some t ∧
      (s.gates g).resultManager.getResponse t.item = .ok (m, (s'.gates g).resultManager) ∧
      (o.isSome ↔ m.isSome) := by
  unfold Setup.scan at h
  simp only at h
  split at h
  · cases h
  · rename_i t hw
    split at h
    · cases h
    · rename_i hfind
      obtain ⟨rfl, rfl⟩ := Prod.mk.inj (Except.ok.inj h)
      refine ⟨t, none, hw, ?_, Iff.rfl⟩
      simp only [GateProcess.resultManager, MessageManager.getResponse, hfind]
      rfl
    · rename_i i hfind
      split at h
      · cases h
      · rename_i m hm
        obtain ⟨rfl, rfl⟩ := Prod.mk.inj (Except.ok.inj h)
        have hv : vectorAt ((s.gates g).results.map (·.item)) i = .ok m.item := by
          rw [vectorAt_ok_iff, List.getElem?_map, hm, Option.map_some]
        refine ⟨t, some m.item, hw, ?_, iff_of_true rfl rfl⟩
        simp only [GateProcess.resultManager, MessageManager.getResponse, hfind, Setup.setGate,
          Function.update_self, List.eraseIdx_map]
        exact bind_ok_iff.mpr ⟨_, rfl, bind_ok_iff.mpr ⟨_, hv, rfl⟩⟩

end

/-! ## The id on a message -/

/-- A request with the id. -/
def CarriesRequest (id : ℕ) (text : Str) : Prop := Framed (str "0") (quoted (decimal id)) text

/-- A response with the id, in its second pair of quotes. -/
def CarriesReply (id : ℕ) (text : Str) : Prop :=
  Framed (str "1") (quoted (quoted (decimal id))) text

theorem quoted_injective : Function.Injective quoted := by
  intro a b h
  exact List.append_cancel_left (List.append_cancel_right h)

theorem CarriesRequest.unique {id id' : ℕ} {text : Str} (h : CarriesRequest id text)
    (h' : CarriesRequest id' text) : id = id' := by
  have e := (h.id_field (by decide) (comma_notMem_id id)).symm.trans
    (h'.id_field (by decide) (comma_notMem_id id'))
  exact decimal_injective (quoted_injective (Except.ok.inj e))

theorem CarriesReply.unique {id id' : ℕ} {text : Str} (h : CarriesReply id text)
    (h' : CarriesReply id' text) : id = id' := by
  have e := (h.id_field (by decide) (comma_notMem_quoted (comma_notMem_id id))).symm.trans
    (h'.id_field (by decide) (comma_notMem_quoted (comma_notMem_id id')))
  exact decimal_injective (quoted_injective (quoted_injective (Except.ok.inj e)))

/-- A quoted id is made of digits and quotes. -/
theorem mem_id {id : ℕ} {b : UInt8} (hb : b ∈ quoted (decimal id)) :
    b = ch '"' ∨ 48 ≤ b.toNat ∧ b.toNat ≤ 57 := by
  rcases mem_quoted.mp hb with rfl | hb
  · exact Or.inl rfl
  · exact Or.inr (digit_of_mem_decimal hb)

/-- Cutting a text off at a byte that is neither a digit, nor a quote, a comma or
a bracket leaves its id. -/
theorem carries_takeWhile {id : ℕ} {text : Str} (stop : UInt8)
    (hstop : stop.toNat < 48 ∨ 57 < stop.toNat)
    (hne : stop ≠ ch '"' ∧ stop ≠ ch ',' ∧ stop ≠ ch '[') :
    (CarriesRequest id text → CarriesRequest id (text.takeWhile fun b => decide (b ≠ stop))) ∧
    (CarriesReply id text → CarriesReply id (text.takeWhile fun b => decide (b ≠ stop))) := by
  obtain ⟨hq, hc, hb⟩ := hne
  have hframe : decide (ch '[' ≠ stop) = true ∧ decide (ch ',' ≠ stop) = true :=
    ⟨decide_eq_true (Ne.symm hb), decide_eq_true (Ne.symm hc)⟩
  have hkind : ∀ {kind : Str}, kind.all (fun b => decide (48 ≤ b.toNat ∧ b.toNat ≤ 57)) = true →
      ∀ b ∈ kind, decide (b ≠ stop) = true := by
    intro kind hk b hmem
    have := of_decide_eq_true (List.all_eq_true.mp hk b hmem)
    exact decide_eq_true fun e => by rw [e] at this; omega
  have hid : ∀ b ∈ quoted (decimal id), decide (b ≠ stop) = true := by
    intro b hmem
    refine decide_eq_true fun e => ?_
    rcases mem_id hmem with rfl | hd
    · exact hq e.symm
    · rw [e] at hd
      omega
  refine ⟨fun h => h.takeWhile _ hframe (hkind (by decide)) hid,
    fun h => h.takeWhile _ hframe (hkind (by decide)) ?_⟩
  intro b hmem
  rcases mem_quoted.mp hmem with rfl | hmem
  · exact decide_eq_true (Ne.symm hq)
  · exact hid b hmem

theorem carriesRequest_requestText {γ : Type} (w : Setup γ) (action : Action) (body : Str)
    (drawn : ℕ) : CarriesRequest (w.random drawn) (w.requestText action body drawn) :=
  (carries_takeWhile 0 (by decide) (by decide)).1
    (framed_request body action.name [] (w.random drawn))

theorem CarriesRequest.filed {id : ℕ} {text : Str} (h : CarriesRequest id text) :
    CarriesRequest id (uptoHash text) :=
  (carries_takeWhile (ch '#') (by decide) (by decide)).1 h

theorem CarriesReply.filed {id : ℕ} {text : Str} (h : CarriesReply id text) :
    CarriesReply id (uptoHash text) :=
  (carries_takeWhile (ch '#') (by decide) (by decide)).2 h

/-- A request that arrives is queued under its uri. -/
theorem filed_request {id : ℕ} {uri text : Str} (queue : List WSMessage) (hu : ch '#' ∉ uri)
    (h : CarriesRequest id text) :
    (⟨queue, []⟩ : MessageManager).addMessage (envelope (str "Server") uri text) =
      .ok (⟨queue ++ [⟨uri, str "Server", uptoHash text⟩], []⟩, true) :=
  MessageManager.addMessage_framed _ (by decide) hu h.filed (by decide)

/-- A response that arrives is queued. -/
theorem filed_reply {id : ℕ} {uri text : Str} (queue : List WSMessage) (hu : ch '#' ∉ uri)
    (h : CarriesReply id text) :
    (⟨[], queue⟩ : MessageManager).addMessage (envelope (str "LC") uri text) =
      .ok (⟨[], queue ++ [⟨uri, str "LC", uptoHash text⟩]⟩, true) :=
  MessageManager.addMessage_framed _ (by decide) hu h.filed (by decide)

/-- An answer goes to the uri of its request, with its id. -/
theorem answer_carries {env : Env} {a : Ambient} {s s' : ParkManagerServer} {m : WSMessage}
    {id : ℕ} {uri text : Str} (hm : CarriesRequest id m.payload)
    (h : gateHanlder env a s m = (s', .ok (some (uri, text)))) :
    uri = m.uri ∧ CarriesReply id text := by
  have hid := hm.id_field (by decide) (comma_notMem_id id)
  have hreq : ∀ action, onRequest action env a s m.uri m.payload = (s', .ok (some (uri, text))) →
      uri = m.uri ∧ CarriesReply id text := by
    intro action h
    unfold onRequest at h
    split at h
    · cases h
    · rename_i messageId request hd
      split at h
      · cases h
      · rename_i resp t hh
        obtain ⟨-, h⟩ := Prod.mk.inj h
        obtain ⟨body, -, e⟩ := map_ok_iff.mp h
        obtain ⟨rfl, rfl⟩ := Prod.mk.inj (Option.some.inj e)
        -- the id the handler read is the second field of the request
        obtain ⟨⟨id', json⟩, hmsg, hd⟩ := bind_ok_iff.mp hd
        obtain ⟨id'', hfield, hmsg⟩ := bind_ok_iff.mp hmsg
        obtain ⟨items, -, hmsg⟩ := bind_ok_iff.mp hmsg
        obtain ⟨joined, -, hmsg⟩ := bind_ok_iff.mp hmsg
        obtain ⟨rfl, -⟩ := Prod.mk.inj (Except.ok.inj hmsg)
        obtain ⟨j, -, hd⟩ := bind_ok_iff.mp hd
        obtain ⟨req, -, hd⟩ := bind_ok_iff.mp hd
        obtain ⟨rfl, -⟩ := Prod.mk.inj (Except.ok.inj hd)
        rw [hid] at hfield
        cases hfield
        exact ⟨rfl, (carries_takeWhile 0 (by decide) (by decide)).2
          (framed_response body [] (quoted (decimal id)) 0)⟩
  unfold gateHanlder at h
  split at h
  · cases h
  · split_ifs at h
    · split at h
      · exact hreq _ h
      · exact hreq _ h
      · exact hreq _ h
      · cases h
    · cases h

/-- The scan takes a response for an id exactly when it carries that id. -/
theorem matches_reply {id id' : ℕ} {m : WSMessage} (h : CarriesReply id m.payload) :
    MessageManager.matchesId (quoted (decimal id')) m = .ok true ↔ id = id' := by
  rw [MessageManager.matchesId_framed h (by decide) (comma_notMem_id id), Except.ok.injEq,
    decide_eq_true_iff]
  exact ⟨fun e => decimal_injective (quoted_injective e), fun e => by rw [e]⟩

end ParkManager
