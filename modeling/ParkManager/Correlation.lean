import ParkManager.Site

/-!
# Response correlation

Proved here, for any number of gates and any order of steps:

* `step_traffic`: where the messages after a step come from;
* `step_faithful`: every message that is under way or queued carries an id, and
  goes back to an earlier message of its gate with that id, or to the call that
  drew the id just now;
* `step_gate`, `step_waiting`: a gate waits for the id its last call drew;
* `correlation_of_fresh`: as long as no call draws an id that is still on a
  message of its gate, every response a gate takes was produced for the call that
  takes it;
* `fresh_of_noRestart`: until a gate is restarted, no call does;
* `mixed_up`: the first call of a restarted gate takes the response to the first
  call of the process before.
-/

namespace ParkManager

open History

variable {γ : Type} [DecidableEq γ] {w : Setup γ}

/-! ## Messages and their ids -/

/-- Every message on its way or in a queue carries an id. -/
structure Sent (w : Setup γ) (s : Site γ) : Prop where
  requests : ∀ r ∈ s.requests, ∃ id, CarriesRequest id r.item.text
  queue : ∀ m ∈ s.queue, ∃ id, CarriesRequest id m.item.payload
  replies : ∀ r ∈ s.replies, ∃ id, CarriesReply id r.item.text
  results : ∀ g, ∀ m ∈ (s.gates g).results, ∃ id, CarriesReply id m.item.payload

/-- A message of the gate, on its way or in a queue, has the id on it and goes
back to the call. -/
inductive Trace (w : Setup γ) (s : Site γ) (g : γ) (id : ℕ) : ℕ → Prop
  | request {r : Tagged (Letter γ)} : r ∈ s.requests → r.item.gate = g →
      CarriesRequest id r.item.text → Trace w s g id r.call
  | queued {m : Tagged WSMessage} : m ∈ s.queue → m.item.uri = w.uri g →
      CarriesRequest id m.item.payload → Trace w s g id m.call
  | reply {r : Tagged Reply} : r ∈ s.replies → r.item.uri = w.uri g →
      CarriesReply id r.item.text → Trace w s g id r.call
  | result {m : Tagged WSMessage} : m ∈ (s.gates g).results →
      CarriesReply id m.item.payload → Trace w s g id m.call

omit [DecidableEq γ] in
theorem uri_injective (w : Setup γ) : Function.Injective w.uri := fun _ _ h =>
  w.clientURI_injective (List.append_cancel_left h)

omit [DecidableEq γ] in
theorem hash_notMem_uri (w : Setup γ) (g : γ) : ch '#' ∉ w.uri g := by
  have h := w.hash_notMem_clientURI g
  have hs : ch '#' ∉ str "/" := by decide
  simp [Setup.uri, h, hs]

/-! ## What each event does -/

/-- A gate that calls was not waiting; now it waits for the id it drew. -/
theorem call_inv {s s' : Site γ} {g : γ} {action : Action} {body : Str}
    (h : w.call s g action body = .ok s') :
    (s.gates g).waiting = none ∧
    s' = { Setup.setGate s g { s.gates g with
          drawn := (s.gates g).drawn + 1
          waiting := some ⟨quoted (decimal (w.random (s.gates g).drawn)), s.calls⟩ } with
        requests := ⟨⟨g, w.requestText action body (s.gates g).drawn⟩, s.calls⟩ :: s.requests
        calls := s.calls + 1 } := by
  have hid := (carriesRequest_requestText w action body (s.gates g).drawn).id_field (by decide)
    (comma_notMem_id _)
  unfold Setup.call at h
  simp only [hid] at h
  split_ifs at h with hw
  rw [Bool.not_eq_true, Option.isSome_eq_false_iff, Option.isNone_iff_eq_none] at hw
  exact ⟨hw, (Except.ok.inj h).symm⟩

omit [DecidableEq γ] in
/-- A request that arrives is filed at the end of the queue. -/
theorem deliverRequest_inv {s s' : Site γ} {i : ℕ} (hs : Sent w s)
    (h : w.deliverRequest s i = .ok s') :
    ∃ r, s.requests[i]? = some r ∧ s' = { s with
      requests := s.requests.eraseIdx i
      queue := s.queue ++
        [⟨⟨w.uri r.item.gate, str "Server", uptoHash r.item.text⟩, r.call⟩] } := by
  unfold Setup.deliverRequest at h
  split at h
  · cases h
  · rename_i r hget
    obtain ⟨id, hid⟩ := hs.requests r (List.mem_of_getElem? hget)
    have hadd := filed_request (s.queue.map (·.item)) (hash_notMem_uri w r.item.gate) hid
    simp only [hadd, ← List.length_map (f := fun m : Tagged WSMessage => m.item),
      List.drop_left] at h
    exact ⟨r, hget, (Except.ok.inj h).symm⟩

omit [DecidableEq γ] in
/-- The request at the head of the queue is handled, and its answer goes out. -/
theorem serve_inv {s s' : Site γ} {a : Ambient} {connection : ℕ}
    (h : w.serve s a connection = .ok s') :
    ∃ m queue server answer, s.queue = m :: queue ∧
      gateHanlder w.env a s.server m.item = (server, .ok answer) ∧
      s' = { s with
        server, queue
        replies :=
          answer.toList.map (fun r => ⟨⟨r.1, connection, r.2⟩, m.call⟩) ++ s.replies } := by
  unfold Setup.serve at h
  split at h
  · cases h
  · rename_i m queue hq
    split at h
    · cases h
    · rename_i server hg
      exact ⟨m, queue, server, none, hq, hg, (Except.ok.inj h).symm⟩
    · rename_i server uri text hg
      exact ⟨m, queue, server, some (uri, text), hq, hg, (Except.ok.inj h).symm⟩

/-- A response that arrives on the connection of its gate is filed at the end of
its results. -/
theorem deliverReply_inv {s s' : Site γ} {i : ℕ} {g : γ} (hs : Sent w s)
    (h : w.deliverReply s i g = .ok s') :
    ∃ r, s.replies[i]? = some r ∧ r.item.uri = w.uri g ∧
      s' = { Setup.setGate s g { s.gates g with results := (s.gates g).results ++
          [⟨⟨w.clientURI g, str "LC", uptoHash r.item.text⟩, r.call⟩] } with
        replies := s.replies.eraseIdx i } := by
  unfold Setup.deliverReply at h
  simp only at h
  split at h
  · cases h
  · rename_i r hget
    split_ifs at h with hto
    obtain ⟨id, hid⟩ := hs.replies r (List.mem_of_getElem? hget)
    have hadd := filed_reply ((s.gates g).results.map (·.item))
      (w.hash_notMem_clientURI g) hid
    simp only [hadd, ← List.length_map (f := fun m : Tagged WSMessage => m.item),
      List.drop_left] at h
    exact ⟨r, hget, hto.1, (Except.ok.inj h).symm⟩

/-- A scan takes the response of some call, and the gate stops waiting, or
nothing happens. -/
theorem scan_inv {s s' : Site γ} {g : γ} {o : Option (ℕ × ℕ)} (h : Setup.scan s g = .ok (o, s')) :
    (o = none ∧ s' = s) ∨
    ∃ t i m, (s.gates g).waiting = some t ∧ (s.gates g).results[i]? = some m ∧
      MessageManager.matchesId t.item m.item = .ok true ∧ o = some (t.call, m.call) ∧
      s' = Setup.setGate s g { s.gates g with
        results := (s.gates g).results.eraseIdx i, waiting := none } := by
  unfold Setup.scan at h
  simp only at h
  split at h
  · cases h
  · rename_i t hw
    split at h
    · cases h
    · obtain ⟨rfl, rfl⟩ := Prod.mk.inj (Except.ok.inj h)
      exact Or.inl ⟨rfl, rfl⟩
    · rename_i i hfind
      obtain ⟨m', hm', hmatch⟩ := MessageManager.findResponse_some hfind
      split at h
      · cases h
      · rename_i m hm
        obtain ⟨rfl, rfl⟩ := Prod.mk.inj (Except.ok.inj h)
        rw [List.getElem?_map, hm, Option.map_some, Option.some.injEq] at hm'
        subst hm'
        exact Or.inr ⟨t, i, m, hw, hm, hmatch, rfl, rfl⟩

/-! ## The messages after a step -/

/-- Every message of the second site was in the first, comes from a message there,
or is the request of the call that is made. -/
structure Traffic (w : Setup γ) (s s' : Site γ) (e : Event γ) : Prop where
  requests : ∀ r ∈ s'.requests, r ∈ s.requests ∨
    s.calls < s'.calls ∧ ∃ g action body, e = .call g action body ∧
      r = ⟨⟨g, w.requestText action body (s.gates g).drawn⟩, s.calls⟩
  queue : ∀ m ∈ s'.queue, m ∈ s.queue ∨ ∃ r ∈ s.requests,
    m = ⟨⟨w.uri r.item.gate, str "Server", uptoHash r.item.text⟩, r.call⟩
  replies : ∀ r ∈ s'.replies, r ∈ s.replies ∨ ∃ m ∈ s.queue, ∃ a, r.call = m.call ∧
    gateHanlder w.env a s.server m.item = (s'.server, .ok (some (r.item.uri, r.item.text)))
  results : ∀ g, ∀ m ∈ (s'.gates g).results, m ∈ (s.gates g).results ∨
    ∃ r ∈ s.replies, r.item.uri = w.uri g ∧
      m = ⟨⟨w.clientURI g, str "LC", uptoHash r.item.text⟩, r.call⟩
  server : s'.server = s.server ∨ ∃ m ∈ s.queue, ∃ a answer,
    gateHanlder w.env a s.server m.item = (s'.server, .ok answer)
  calls : s.calls ≤ s'.calls

/-- The second site has no message the first has not. -/
structure Fewer (s s' : Site γ) : Prop where
  requests : s'.requests ⊆ s.requests
  queue : s'.queue ⊆ s.queue
  replies : s'.replies ⊆ s.replies
  results : ∀ g, (s'.gates g).results ⊆ (s.gates g).results

omit [DecidableEq γ] in
theorem Fewer.traffic {s s' : Site γ} {e : Event γ} (h : Fewer s s') (hs : s'.server = s.server)
    (hc : s'.calls = s.calls) : Traffic w s s' e where
  requests _ hr := Or.inl (h.requests hr)
  queue _ hm := Or.inl (h.queue hm)
  replies _ hr := Or.inl (h.replies hr)
  results g _ hm := Or.inl (h.results g hm)
  server := Or.inl hs
  calls := hc.ge

/-- A gate that has no new results. -/
theorem fewer_setGate {s : Site γ} {g : γ} {p : GateProcess}
    (hp : p.results ⊆ (s.gates g).results) : Fewer s (Setup.setGate s g p) where
  requests := List.Subset.refl _
  queue := List.Subset.refl _
  replies := List.Subset.refl _
  results g' := by
    simp only [Setup.setGate]
    by_cases hg : g' = g
    · subst hg
      rw [Function.update_self]
      exact hp
    · rw [Function.update_of_ne hg]
      exact List.Subset.refl _

theorem call_traffic {s s' : Site γ} {g : γ} {action : Action} {body : Str}
    (h : w.call s g action body = .ok s') : Traffic w s s' (.call g action body) := by
  obtain ⟨-, rfl⟩ := call_inv h
  have hfew := fewer_setGate (s := s) (g := g) (p := { s.gates g with
    drawn := (s.gates g).drawn + 1
    waiting := some ⟨quoted (decimal (w.random (s.gates g).drawn)), s.calls⟩ })
    (List.Subset.refl _)
  refine ⟨fun r hr => ?_, fun _ hm => Or.inl hm, fun _ hr => Or.inl hr,
    fun g' _ hm => Or.inl (hfew.results g' hm), Or.inl rfl, Nat.le_succ _⟩
  rcases List.mem_cons.mp hr with rfl | hr
  · exact Or.inr ⟨Nat.lt_succ_self _, g, action, body, rfl, rfl⟩
  · exact Or.inl hr

omit [DecidableEq γ] in
theorem deliverRequest_traffic {s s' : Site γ} {i : ℕ} (hs : Sent w s)
    (h : w.deliverRequest s i = .ok s') : Traffic w s s' (.deliverRequest i) := by
  obtain ⟨r, hget, rfl⟩ := deliverRequest_inv hs h
  refine ⟨fun r' hr => Or.inl (List.mem_of_mem_eraseIdx hr), fun m hm => ?_,
    fun _ hr => Or.inl hr, fun _ _ hm => Or.inl hm, Or.inl rfl, le_rfl⟩
  rcases List.mem_append.mp hm with hm | hm
  · exact Or.inl hm
  · exact Or.inr ⟨r, List.mem_of_getElem? hget, List.mem_singleton.mp hm⟩

omit [DecidableEq γ] in
theorem serve_traffic {s s' : Site γ} {a : Ambient} {connection : ℕ}
    (h : w.serve s a connection = .ok s') : Traffic w s s' (.serve a connection) := by
  obtain ⟨m, queue, server, answer, hq, hg, rfl⟩ := serve_inv h
  have hm : m ∈ s.queue := by rw [hq]; exact List.mem_cons_self
  refine ⟨fun _ hr => Or.inl hr, fun m' hm' => Or.inl ?_, fun r hr => ?_,
    fun _ _ hm => Or.inl hm, Or.inr ⟨m, hm, a, answer, hg⟩, le_rfl⟩
  · rw [hq]
    exact List.mem_cons_of_mem m hm'
  · rcases List.mem_append.mp hr with hr | hr
    · obtain ⟨x, hx, rfl⟩ := List.mem_map.mp hr
      rw [Option.mem_toList] at hx
      subst hx
      exact Or.inr ⟨m, hm, a, rfl, hg⟩
    · exact Or.inl hr

theorem deliverReply_traffic {s s' : Site γ} {i : ℕ} {g : γ} (hs : Sent w s)
    (h : w.deliverReply s i g = .ok s') : Traffic w s s' (.deliverReply i g) := by
  obtain ⟨r, hget, hto, rfl⟩ := deliverReply_inv hs h
  refine ⟨fun _ hr => Or.inl hr, fun _ hm => Or.inl hm,
    fun r' hr => Or.inl (List.mem_of_mem_eraseIdx hr), fun g' m hm => ?_, Or.inl rfl, le_rfl⟩
  simp only [Setup.setGate] at hm
  by_cases hg : g' = g
  · subst hg
    rw [Function.update_self] at hm
    rcases List.mem_append.mp hm with hm | hm
    · exact Or.inl hm
    · exact Or.inr ⟨r, List.mem_of_getElem? hget, hto, List.mem_singleton.mp hm⟩
  · rw [Function.update_of_ne hg] at hm
    exact Or.inl hm

/-- **Step lemma** for the messages. -/
theorem step_traffic {s s' : Site γ} {e : Event γ} {o : Option (ℕ × ℕ)} (hs : Sent w s)
    (h : w.step s e = .ok (o, s')) : Traffic w s s' e := by
  have hgate : ∀ (g : γ) (p : GateProcess), p.results ⊆ (s.gates g).results →
      Traffic w s (Setup.setGate s g p) e := fun g p hp => (fewer_setGate hp).traffic rfl rfl
  cases e with
  | call g action body =>
    obtain ⟨t, ht, e⟩ := map_ok_iff.mp h
    obtain ⟨-, rfl⟩ := Prod.mk.inj e
    exact call_traffic ht
  | callFails g =>
    simp only [Setup.step] at h
    split_ifs at h
    obtain ⟨-, rfl⟩ := Prod.mk.inj (Except.ok.inj h)
    exact hgate g _ (List.Subset.refl _)
  | deliverRequest i =>
    obtain ⟨t, ht, e⟩ := map_ok_iff.mp h
    obtain ⟨-, rfl⟩ := Prod.mk.inj e
    exact deliverRequest_traffic hs ht
  | loseRequest i =>
    obtain ⟨-, rfl⟩ := Prod.mk.inj (Except.ok.inj h)
    exact Fewer.traffic ⟨List.eraseIdx_subset, List.Subset.refl _, List.Subset.refl _,
      fun _ => List.Subset.refl _⟩ rfl rfl
  | serve a connection =>
    obtain ⟨t, ht, e⟩ := map_ok_iff.mp h
    obtain ⟨-, rfl⟩ := Prod.mk.inj e
    exact serve_traffic ht
  | deliverReply i g =>
    obtain ⟨t, ht, e⟩ := map_ok_iff.mp h
    obtain ⟨-, rfl⟩ := Prod.mk.inj e
    exact deliverReply_traffic hs ht
  | loseReply i =>
    obtain ⟨-, rfl⟩ := Prod.mk.inj (Except.ok.inj h)
    exact Fewer.traffic ⟨List.Subset.refl _, List.Subset.refl _, List.eraseIdx_subset,
      fun _ => List.Subset.refl _⟩ rfl rfl
  | scan g =>
    rcases scan_inv h with ⟨-, rfl⟩ | ⟨t, i, m, -, -, -, -, rfl⟩
    · exact Fewer.traffic ⟨List.Subset.refl _, List.Subset.refl _, List.Subset.refl _,
        fun _ => List.Subset.refl _⟩ rfl rfl
    · exact hgate g _ List.eraseIdx_subset
  | timeout g =>
    obtain ⟨-, rfl⟩ := Prod.mk.inj (Except.ok.inj h)
    exact hgate g _ (List.Subset.refl _)
  | restart g =>
    obtain ⟨-, rfl⟩ := Prod.mk.inj (Except.ok.inj h)
    exact hgate g _ (List.nil_subset _)
  | reconnect g =>
    simp only [Setup.step] at h
    split_ifs at h
    obtain ⟨-, rfl⟩ := Prod.mk.inj (Except.ok.inj h)
    exact hgate g _ (List.Subset.refl _)

/-! ## The ids after a step -/

/-- What a step may do: keep the messages identified, and put an id only on
messages that go back to a message with that id, apart from the new call `c₀` of
the gate `g₀` with the id `id₀`. -/
structure Faithful (w : Setup γ) (s s' : Site γ) (new : γ → ℕ → ℕ → Prop) : Prop where
  sent : Sent w s'
  trace : ∀ g id c, Trace w s' g id c → Trace w s g id c ∨ new g id c

/-- The id a call puts on its request. -/
def newId (w : Setup γ) (s : Site γ) (e : Event γ) : γ → ℕ → ℕ → Prop := fun g id c =>
  (∃ action body, e = .call g action body) ∧ id = w.random (s.gates g).drawn ∧ c = s.calls

omit [DecidableEq γ] in
theorem Traffic.sent {s s' : Site γ} {e : Event γ} (h : Traffic w s s' e) (hs : Sent w s) :
    Sent w s' where
  requests r hr := by
    rcases h.requests r hr with hr | ⟨-, g, action, body, -, rfl⟩
    · exact hs.requests r hr
    · exact ⟨_, carriesRequest_requestText w action body _⟩
  queue m hm := by
    rcases h.queue m hm with hm | ⟨r, hr, rfl⟩
    · exact hs.queue m hm
    · exact (hs.requests r hr).imp fun _ => CarriesRequest.filed
  replies r hr := by
    rcases h.replies r hr with hr | ⟨m, hm, a, -, hg⟩
    · exact hs.replies r hr
    · obtain ⟨id, hid⟩ := hs.queue m hm
      exact ⟨id, (answer_carries hid hg).2⟩
  results g m hm := by
    rcases h.results g m hm with hm | ⟨r, hr, -, rfl⟩
    · exact hs.results g m hm
    · exact (hs.replies r hr).imp fun _ => CarriesReply.filed

omit [DecidableEq γ] in
theorem Traffic.faithful {s s' : Site γ} {e : Event γ} (h : Traffic w s s' e) (hs : Sent w s) :
    Faithful w s s' (newId w s e) := by
  refine ⟨h.sent hs, fun g id c ht => ?_⟩
  cases ht with
  | request hr hg hc =>
    rcases h.requests _ hr with hr | ⟨-, g', action, body, he, rfl⟩
    · exact Or.inl (.request hr hg hc)
    · obtain rfl := hg
      exact Or.inr ⟨⟨action, body, he⟩,
        hc.unique (carriesRequest_requestText w action body _), rfl⟩
  | queued hm hu hc =>
    rcases h.queue _ hm with hm | ⟨r, hr, rfl⟩
    · exact Or.inl (.queued hm hu hc)
    · obtain ⟨id', hid⟩ := hs.requests r hr
      obtain rfl := hc.unique hid.filed
      exact Or.inl (.request hr (uri_injective w hu) hid)
  | reply hr hu hc =>
    rcases h.replies _ hr with hr | ⟨m, hm, a, hcall, hg⟩
    · exact Or.inl (.reply hr hu hc)
    · obtain ⟨id', hid⟩ := hs.queue m hm
      obtain ⟨huri, hcarry⟩ := answer_carries hid hg
      obtain rfl := hc.unique hcarry
      rw [hcall]
      exact Or.inl (.queued hm (huri.symm.trans hu) hid)
  | result hm hc =>
    rcases h.results g _ hm with hm | ⟨r, hr, hto, rfl⟩
    · exact Or.inl (.result hm hc)
    · obtain ⟨id', hid⟩ := hs.replies r hr
      obtain rfl := hc.unique hid.filed
      exact Or.inl (.reply hr hto hid)

theorem step_faithful {s s' : Site γ} {e : Event γ} {o : Option (ℕ × ℕ)} (hs : Sent w s)
    (h : w.step s e = .ok (o, s')) : Faithful w s s' (newId w s e) :=
  (step_traffic hs h).faithful hs

/-! ## What a step does to a gate -/

/-- The process draws on, and does not start to wait. -/
structure Continues (p p' : GateProcess) : Prop where
  drawn : p.drawn ≤ p'.drawn
  waiting : p'.waiting = none ∨ p'.waiting = p.waiting

theorem Continues.refl (p : GateProcess) : Continues p p := ⟨le_rfl, Or.inr rfl⟩

/-- A step that touches one gate. -/
theorem continues_update (gates : γ → GateProcess) (g g' : γ) (p : GateProcess)
    (hp : Continues (gates g) p) : Continues (gates g') (Function.update gates g p g') := by
  by_cases hg : g' = g
  · subst hg
    rwa [Function.update_self]
  · rw [Function.update_of_ne hg]
    exact Continues.refl _

/-- What a step does to the process of a gate. -/
inductive GateStep (w : Setup γ) (s : Site γ) (g : γ) (e : Event γ) (p : GateProcess) : Prop
  | restarted : e = .restart g → p.waiting = none → GateStep w s g e p
  /-- It waits for the id it drew. -/
  | called (action : Action) (body : Str) : e = .call g action body →
      p = { s.gates g with
        drawn := (s.gates g).drawn + 1
        waiting := some ⟨quoted (decimal (w.random (s.gates g).drawn)), s.calls⟩ } →
      GateStep w s g e p
  | continued : (∀ action body, e ≠ .call g action body) → Continues (s.gates g) p →
      GateStep w s g e p

/-- **Step lemma** for a gate. -/
theorem step_gate {s s' : Site γ} {e : Event γ} {o : Option (ℕ × ℕ)} (hs : Sent w s)
    (h : w.step s e = .ok (o, s')) (g : γ) : GateStep w s g e (s'.gates g) := by
  cases e with
  | call g' action body =>
    obtain ⟨s'', hcall, e⟩ := map_ok_iff.mp h
    obtain ⟨-, rfl⟩ := Prod.mk.inj e
    obtain ⟨-, rfl⟩ := call_inv hcall
    simp only [Setup.setGate]
    by_cases hg : g = g'
    · subst hg
      rw [Function.update_self]
      exact .called action body rfl rfl
    · rw [Function.update_of_ne hg]
      exact .continued (fun _ _ e => hg (by cases e; rfl)) (Continues.refl _)
  | callFails g' =>
    simp only [Setup.step] at h
    split_ifs at h
    obtain ⟨-, rfl⟩ := Prod.mk.inj (Except.ok.inj h)
    refine .continued (fun _ _ e => by cases e) ?_
    exact continues_update s.gates g' g _ ⟨Nat.le_succ _, Or.inr rfl⟩
  | deliverRequest i =>
    obtain ⟨s'', hd, e⟩ := map_ok_iff.mp h
    obtain ⟨-, rfl⟩ := Prod.mk.inj e
    obtain ⟨r, -, rfl⟩ := deliverRequest_inv hs hd
    exact .continued (fun _ _ e => by cases e) (Continues.refl _)
  | loseRequest i =>
    obtain ⟨-, rfl⟩ := Prod.mk.inj (Except.ok.inj h)
    exact .continued (fun _ _ e => by cases e) (Continues.refl _)
  | serve a connection =>
    obtain ⟨s'', hd, e⟩ := map_ok_iff.mp h
    obtain ⟨-, rfl⟩ := Prod.mk.inj e
    obtain ⟨m, queue, server, answer, -, -, rfl⟩ := serve_inv hd
    exact .continued (fun _ _ e => by cases e) (Continues.refl _)
  | deliverReply i g' =>
    obtain ⟨s'', hd, e⟩ := map_ok_iff.mp h
    obtain ⟨-, rfl⟩ := Prod.mk.inj e
    obtain ⟨r, -, -, rfl⟩ := deliverReply_inv hs hd
    refine .continued (fun _ _ e => by cases e) ?_
    exact continues_update s.gates g' g _ ⟨le_rfl, Or.inr rfl⟩
  | loseReply i =>
    obtain ⟨-, rfl⟩ := Prod.mk.inj (Except.ok.inj h)
    exact .continued (fun _ _ e => by cases e) (Continues.refl _)
  | scan g' =>
    rcases scan_inv h with ⟨-, rfl⟩ | ⟨t', i, m, -, -, -, -, rfl⟩
    · exact .continued (fun _ _ e => by cases e) (Continues.refl _)
    · refine .continued (fun _ _ e => by cases e) ?_
      exact continues_update s.gates g' g _ ⟨le_rfl, Or.inl rfl⟩
  | timeout g' =>
    obtain ⟨-, rfl⟩ := Prod.mk.inj (Except.ok.inj h)
    refine .continued (fun _ _ e => by cases e) ?_
    exact continues_update s.gates g' g _ ⟨le_rfl, Or.inl rfl⟩
  | restart g' =>
    obtain ⟨-, rfl⟩ := Prod.mk.inj (Except.ok.inj h)
    simp only [Setup.setGate]
    by_cases hg : g = g'
    · subst hg
      rw [Function.update_self]
      exact .restarted rfl rfl
    · rw [Function.update_of_ne hg]
      exact .continued (fun _ _ e => by cases e) (Continues.refl _)
  | reconnect g' =>
    simp only [Setup.step] at h
    split_ifs at h
    obtain ⟨-, rfl⟩ := Prod.mk.inj (Except.ok.inj h)
    refine .continued (fun _ _ e => by cases e) ?_
    exact continues_update s.gates g' g _ ⟨le_rfl, Or.inr rfl⟩

/-- A gate waits for the id its last call drew. -/
theorem step_waiting {s s' : Site γ} {e : Event γ} {o : Option (ℕ × ℕ)} (hs : Sent w s)
    (h : w.step s e = .ok (o, s')) {g : γ} {t : Tagged Str} (ht : (s'.gates g).waiting = some t) :
    ((s.gates g).waiting = some t ∧ ∀ action body, e ≠ .call g action body) ∨
    ∃ action body, e = .call g action body ∧
      t = ⟨quoted (decimal (w.random (s.gates g).drawn)), s.calls⟩ := by
  cases step_gate hs h g with
  | restarted _ hw =>
    rw [hw] at ht
    cases ht
  | called action body he hp =>
    rw [hp] at ht
    exact Or.inr ⟨action, body, he, (Option.some.inj ht).symm⟩
  | continued hno hc =>
    rcases hc.waiting with hw | hw
    · rw [hw] at ht
      cases ht
    · exact Or.inl ⟨hw ▸ ht, hno⟩

/-! ## Runs -/

/-- A call draws an id that is on no message of its gate, under way or queued. -/
def FreshCall (w : Setup γ) (_past : List (SiteStep γ)) (st : SiteStep γ) : Prop :=
  ∀ g action body, st.input = .call g action body →
    ∀ c, ¬ Trace w st.pre g (w.random (st.pre.gates g).drawn) c

/-- The response that is taken was produced for the request of the call that takes
it. -/
def Correlated (_past : List (SiteStep γ)) (st : SiteStep γ) : Prop :=
  ∀ calls ∈ st.output, calls.2 = calls.1

instance (past : List (SiteStep γ)) (st : SiteStep γ) : Decidable (Correlated past st) :=
  inferInstanceAs (Decidable (∀ calls ∈ st.output, calls.2 = calls.1))

/-- All messages with the id a gate waits for go back to the call that waits. -/
def Awaited (w : Setup γ) (s : Site γ) : Prop :=
  ∀ g t, (s.gates g).waiting = some t →
    ∃ id, t.item = quoted (decimal id) ∧ ∀ c, Trace w s g id c → c = t.call

theorem awaited_step {s s' : Site γ} {e : Event γ} {o : Option (ℕ × ℕ)} {past : List (SiteStep γ)}
    (hs : Sent w s) (ha : Awaited w s) (hf : FreshCall w past ⟨s, e, o, s'⟩)
    (h : w.step s e = .ok (o, s')) : Awaited w s' := by
  have htrace := (step_faithful hs h).trace
  intro g t ht
  rcases step_waiting hs h ht with ⟨hw, hno⟩ | ⟨action, body, rfl, rfl⟩
  · obtain ⟨id, hid, hown⟩ := ha g t hw
    refine ⟨id, hid, fun c hc => ?_⟩
    rcases htrace g id c hc with hc | ⟨⟨action, body, he⟩, -, -⟩
    · exact hown c hc
    · exact absurd he (hno action body)
  · refine ⟨_, rfl, fun c hc => ?_⟩
    rcases htrace g _ c hc with hc | ⟨-, -, hc⟩
    · exact absurd hc (hf g action body rfl c)
    · exact hc

/-- Only a scan has an output. -/
theorem step_output {s s' : Site γ} {e : Event γ} {o : Option (ℕ × ℕ)}
    (h : w.step s e = .ok (o, s')) : o = none ∨ ∃ g, e = .scan g := by
  have hmap : ∀ {x : Except (Option Fault) (Site γ)},
      x.map ((none : Option (ℕ × ℕ)), ·) = .ok (o, s') → o = none := by
    intro x hx
    obtain ⟨t, -, e⟩ := map_ok_iff.mp hx
    exact (Prod.mk.inj e).1.symm
  cases e with
  | scan g => exact Or.inr ⟨g, rfl⟩
  | call g action body => exact Or.inl (hmap h)
  | deliverRequest i => exact Or.inl (hmap h)
  | serve a connection => exact Or.inl (hmap h)
  | deliverReply i g => exact Or.inl (hmap h)
  | loseRequest i => exact Or.inl (Prod.mk.inj (Except.ok.inj h)).1.symm
  | loseReply i => exact Or.inl (Prod.mk.inj (Except.ok.inj h)).1.symm
  | timeout g => exact Or.inl (Prod.mk.inj (Except.ok.inj h)).1.symm
  | restart g => exact Or.inl (Prod.mk.inj (Except.ok.inj h)).1.symm
  | callFails g =>
    simp only [Setup.step] at h
    split_ifs at h
    exact Or.inl (Prod.mk.inj (Except.ok.inj h)).1.symm
  | reconnect g =>
    simp only [Setup.step] at h
    split_ifs at h
    exact Or.inl (Prod.mk.inj (Except.ok.inj h)).1.symm

/-- A gate that waits takes only responses to the call that waits. -/
theorem correlated_step {s s' : Site γ} {e : Event γ} {o : Option (ℕ × ℕ)}
    (hs : Sent w s) (ha : Awaited w s) (h : w.step s e = .ok (o, s')) (past : List (SiteStep γ)) :
    Correlated past ⟨s, e, o, s'⟩ := by
  rcases step_output h with rfl | ⟨g, rfl⟩
  · intro calls hc
    cases hc
  rcases scan_inv h with ⟨rfl, -⟩ | ⟨t, i, m, hw, hm, hmatch, rfl, -⟩
  · intro calls hc
    cases hc
  · have hmem := List.mem_of_getElem? hm
    obtain ⟨id, hid, hown⟩ := ha g t hw
    obtain ⟨id', hcarry⟩ := hs.results g m hmem
    rw [hid, matches_reply hcarry] at hmatch
    subst hmatch
    intro calls hc
    obtain rfl := Option.some.inj hc
    exact hown _ (.result hmem hcarry)

omit [DecidableEq γ] in
theorem sent_start (server : ParkManagerServer) : Sent w (Site.start server : Site γ) where
  requests r hr := by cases hr
  queue m hm := by cases hm
  replies r hr := by cases hr
  results g m hm := by cases hm

theorem sent_run {server : ParkManagerServer} {h : List (SiteStep γ)} {s : Site γ}
    (hr : SiteRun w (Site.start server) h s) : Sent w s :=
  hr.invariant (sent_start server) fun hs hst => (step_faithful hs hst).sent

theorem correlated_run {server : ParkManagerServer} {h : List (SiteStep γ)} {s : Site γ}
    (hr : SiteRun w (Site.start server) h s) (hf : Each (FreshCall w) h) :
    Each Correlated h ∧ Awaited w s := by
  induction hr with
  | start => exact ⟨trivial, fun g t ht => by cases ht⟩
  | next hr hs ih =>
    obtain ⟨hcorr, hawait⟩ := ih hf.2
    have hsent := sent_run hr
    exact ⟨⟨correlated_step hsent hawait hs _, hcorr⟩, awaited_step hsent hawait hf.1 hs⟩

/-- **Response correlation.**  In a run in which every call draws a fresh id, every
response that a gate takes was produced for the request of that very call. -/
theorem correlation_of_fresh {server : ParkManagerServer} {h : List (SiteStep γ)} {s : Site γ}
    (hr : SiteRun w (Site.start server) h s) (hf : Each (FreshCall w) h) : Each Correlated h :=
  (correlated_run hr hf).1

/-! ## Runs without restarts -/

/-- The ids on the messages of a gate are ids its process has drawn. -/
def Drawn (w : Setup γ) (s : Site γ) : Prop :=
  ∀ g id c, Trace w s g id c → ∃ k < (s.gates g).drawn, id = w.random k

def NoRestart (_past : List (SiteStep γ)) (st : SiteStep γ) : Prop :=
  ∀ g, st.input ≠ .restart g

instance [Fintype γ] (past : List (SiteStep γ)) (st : SiteStep γ) : Decidable (NoRestart past st) :=
  inferInstanceAs (Decidable (∀ g, st.input ≠ .restart g))

theorem drawn_step {s s' : Site γ} {e : Event γ} {o : Option (ℕ × ℕ)} (hs : Sent w s)
    (hd : Drawn w s) (hno : ∀ g, e ≠ .restart g) (h : w.step s e = .ok (o, s')) : Drawn w s' := by
  intro g id c hc
  have hmono : (s.gates g).drawn ≤ (s'.gates g).drawn ∧
      ((∃ action body, e = .call g action body) → (s.gates g).drawn < (s'.gates g).drawn) := by
    cases step_gate hs h g with
    | restarted he _ => exact absurd he (hno g)
    | called _ _ _ hp =>
      rw [hp]
      exact ⟨Nat.le_succ _, fun _ => Nat.lt_succ_self _⟩
    | continued hcall hcont =>
      exact ⟨hcont.drawn, fun ⟨action, body, he⟩ => absurd he (hcall action body)⟩
  rcases (step_faithful hs h).trace g id c hc with hc | ⟨hcall, rfl, -⟩
  · obtain ⟨k, hk, rfl⟩ := hd g id c hc
    exact ⟨k, hk.trans_le hmono.1, rfl⟩
  · exact ⟨_, hmono.2 hcall, rfl⟩

/-- A process whose draws are pairwise distinct draws fresh ids until one of the
gates is restarted. -/
theorem fresh_of_noRestart (hrandom : Function.Injective w.random) {server : ParkManagerServer}
    {h : List (SiteStep γ)} {s : Site γ} (hr : SiteRun w (Site.start server) h s)
    (hno : Each NoRestart h) : Each (FreshCall w) h := by
  have hboth : Each (FreshCall w) h ∧ Drawn w s := by
    induction hr with
    | start =>
      refine ⟨trivial, fun g id c hc => ?_⟩
      cases hc with
      | request hr => cases hr
      | queued hm => cases hm
      | reply hr => cases hr
      | result hm => cases hm
    | next hr hs ih =>
      obtain ⟨hfresh, hdrawn⟩ := ih hno.2
      refine ⟨⟨fun g _ _ _ c hc => ?_, hfresh⟩, drawn_step (sent_run hr) hdrawn hno.1 hs⟩
      obtain ⟨k, hk, e⟩ := hdrawn g _ c hc
      exact hk.ne (hrandom e).symm
  exact hboth.1

/-- Responses are mixed up only in runs with a restart. -/
theorem correlated_of_noRestart (hrandom : Function.Injective w.random)
    {server : ParkManagerServer} {h : List (SiteStep γ)} {s : Site γ}
    (hr : SiteRun w (Site.start server) h s) (hno : Each NoRestart h) : Each Correlated h :=
  (correlated_run hr (fresh_of_noRestart hrandom hr hno)).1

/-! ## One exiting gate -/

/-- The body of an exit, as the gate writes it. -/
def exitBody (plate : Str) : Str :=
  str "\x7b\"CarPlate\":\"" ++ plate ++ str "\",\"exitingGate\":\"EntGate2\"\x7d"

def exitJson (plate : Str) : Json :=
  .object [(str "CarPlate", .string plate), (str "exitingGate", .string (str "EntGate2"))]

/-- The packaged server, with a parser that knows the exits of two cars, and one
gate. -/
def gate2 : Setup Unit where
  env := { packaged with
    parse := fun text =>
      if text = exitBody (str "A") then some (exitJson (str "A"))
      else if text = exitBody (str "B") then some (exitJson (str "B"))
      else none }
  random := fun n => 1804289383 + n
  clientURI := fun _ => str "Gate2"
  clientURI_injective := fun _ _ _ => rfl
  hash_notMem_clientURI := by decide

theorem gate2_random_injective : Function.Injective gate2.random := fun _ _ h =>
  Nat.add_left_cancel h

def checkOutCar (plate : Str) : Event Unit := .call () .carStatusUpdate (exitBody plate)

/-- The gate asks for car `A` and is restarted before the server gets to it; the
response comes on the new connection, and the gate takes it for car `B`. -/
def restartedGate : List (Event Unit) :=
  [checkOutCar (str "A"), .deliverRequest 0, .restart (), .serve morning 1, .deliverReply 0 (),
    checkOutCar (str "B"), .scan ()]

theorem mixed_up :
    Function.Injective gate2.random ∧
    ∃ h s, SiteRun gate2 (Site.start packagedStart) h s ∧
      h.reverse.map (·.input) = restartedGate ∧ ¬ Each Correlated h := by
  refine ⟨gate2_random_injective, ?_⟩
  refine exists_run_of_execute restartedGate
    (fun h _ => h.reverse.map (·.input) = restartedGate ∧ ¬ Each Correlated h) ?_
  decide +kernel

theorem correlation_two_exits :
    ∃ h s, SiteRun gate2 (Site.start packagedStart) h s ∧
      h.map (·.output) =
        [some (1, 1), none, none, none, none, some (0, 0), none, none, none, none] ∧
      Each Correlated h := by
  obtain ⟨h, s, hr, hout, hno⟩ : ∃ h s, SiteRun gate2 (Site.start packagedStart) h s ∧
      (h.map (·.output) =
          [some (1, 1), none, none, none, none, some (0, 0), none, none, none, none] ∧
        Each NoRestart h) := by
    refine exists_run_of_execute [checkOutCar (str "A"), .deliverRequest 0,
      .serve morning 0, .deliverReply 0 (), .scan (), checkOutCar (str "B"), .deliverRequest 0,
      .serve morning 0, .deliverReply 0 (), .scan ()] _ ?_
    decide +kernel
  exact ⟨h, s, hr, hout, correlation_of_fresh hr (fresh_of_noRestart gate2_random_injective hr hno)⟩

end ParkManager
