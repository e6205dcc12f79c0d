import ParkManager.GateHandler

/-!
# From gate to server and back

Proved here, for every body, whatever bytes it consists of:

* `framing_round_trip`: a request is dispatched to the handler of its action with
  its body intact, and a response is filed as one, matched to its request and
  read back with its body intact;
* `envelope_transparent_iff`: what `AddMessage` queues is the message that was
  sent exactly when neither the uri nor the message holds a `#`;
* `request_arrives`, `response_arrives`: the whole way of a body that `dump` wrote;
* `cut_off`: a plate with a `#` in it.
-/

namespace ParkManager

/-! ## Framing -/

theorem comma_notMem_name (action : Action) : ch ',' ∉ action.name := by
  cases action <;> decide

/-- The name of an action is found in its own field and in no other. -/
theorem contains_name_iff (action other : Action) :
    contains (quoted action.name) (quoted other.name) = true ↔ other = action := by
  cases action <;> cases other <;> decide

theorem dispatch_name (action : Action) : dispatch (quoted action.name) = some action := by
  cases action <;> decide

theorem requestFields_request (JM messageId : Str) (action : Action) (random : ℕ) :
    requestFields (addBase JM .call action.name messageId random) =
      .ok (quoted (decimal random), quoted action.name) := by
  have hf := request_fields JM action.name messageId random (comma_notMem_name action)
  have h1 : vectorAt ((addBase JM .call action.name messageId random).splitOn (ch ',')) 1 =
      .ok (quoted (decimal random)) := by
    rw [hf]
    rfl
  have h2 : vectorAt ((addBase JM .call action.name messageId random).splitOn (ch ',')) 2 =
      .ok (quoted action.name) := by
    rw [hf]
    rfl
  exact bind_ok_iff.mpr ⟨_, h1, bind_ok_iff.mpr ⟨_, h2, rfl⟩⟩

/-- The handler of an action. -/
theorem gateHanlder_request (env : Env) (a : Ambient) (s : ParkManagerServer)
    (uri JM messageId : Str) (action : Action) (random : ℕ) :
    gateHanlder env a s ⟨uri, str "Server", addBase JM .call action.name messageId random⟩ =
      onRequest action env a s uri (addBase JM .call action.name messageId random) := by
  simp only [gateHanlder, requestFields_request, ↓reduceIte, dispatch_name]
  cases action <;> rfl

theorem messageTypeOf_response (JM messageId : Str) (random : ℕ) :
    MessageManager.messageTypeOf (addBase JM .respond [] messageId random) = .ok (str "1") := by
  obtain ⟨incoming, hs, hi⟩ := (framed_response JM [] messageId random).kind_field (by decide)
  exact bind_ok_iff.mpr ⟨incoming, hs, hi⟩

theorem comma_notMem_id (random : ℕ) : ch ',' ∉ quoted (decimal random) :=
  comma_notMem_quoted (comma_notMem_decimal random)

theorem matchesId_response (uri type JM : Str) (random r : ℕ) :
    MessageManager.matchesId (quoted (decimal random))
      ⟨uri, type, addBase JM .respond [] (quoted (decimal random)) r⟩ = .ok true := by
  rw [MessageManager.matchesId_framed (framed_response JM [] (quoted (decimal random)) r)
    (by decide) (comma_notMem_id random), decide_eq_true rfl]

/-- **Framing round trip.**  `random` is the id drawn for the request, `r` whatever
`random()` would give the server, which does not draw. -/
theorem framing_round_trip (action : Action) (JM JM' uri type : Str) (random r : ℕ) :
    let req := addBase JM .call action.name [] random
    let id := quoted (decimal random)
    let resp := addBase JM' .respond [] id r
    vectorAt (req.splitOn (ch ',')) 1 = .ok id ∧
    requestFields req = .ok (id, quoted action.name) ∧
    dispatch (quoted action.name) = some action ∧
    (∀ other, contains (quoted action.name) (quoted other.name) = true ↔ other = action) ∧
    (∀ env a s, gateHanlder env a s ⟨uri, str "Server", req⟩ = onRequest action env a s uri req) ∧
    handleIncomingMsg req .call = .ok (id, JM) ∧
    MessageManager.messageTypeOf resp = .ok (str "1") ∧
    MessageManager.matchesId id ⟨uri, type, resp⟩ = .ok true ∧
    ∃ messageId, handleIncomingMsg resp .respond = .ok (messageId, JM') := by
  intro req id resp
  have hid : vectorAt (req.splitOn (ch ',')) 1 = .ok id :=
    (framed_request JM action.name [] random).id_field (by decide) (comma_notMem_id random)
  exact ⟨hid, requestFields_request JM [] action random, dispatch_name action,
    contains_name_iff action, fun env a s => gateHanlder_request env a s uri JM [] action random,
    handleIncomingMsg_request JM action.name [] random (comma_notMem_name action),
    messageTypeOf_response JM' id r, matchesId_response uri type JM' random r,
    quoted id, handleIncomingMsg_response JM' [] id r (comma_notMem_id random)⟩

/-! ## The envelope -/

/-- `AddMessage` returns true, and has put the message, and nothing else, at the
end of one of the two queues. -/
def Queues (mm : MessageManager) (rawMessage : Str) (message : WSMessage) : Prop :=
  mm.addMessage rawMessage =
      .ok ({ mm with ocppCALLMessageQueue := mm.ocppCALLMessageQueue ++ [message] }, true) ∨
    mm.addMessage rawMessage =
      .ok ({ mm with ocppCALLRESULTMessageQueue := mm.ocppCALLRESULTMessageQueue ++ [message] },
        true)

/-- The types the three `on_message` callbacks put in front. -/
def messageTypes : List Str := [str "Server", str "LC", str "Client"]

theorem hash_notMem_type {type : Str} (h : type ∈ messageTypes) : ch '#' ∉ type := by
  have hall : ∀ type ∈ messageTypes, ch '#' ∉ type := by decide
  exact hall type h

/-- Filing a message puts that message at the end of a queue. -/
theorem put_inj {mm : MessageManager} {messageType : Str} {filed message : WSMessage}
    (h : mm.put messageType filed =
        ({ mm with ocppCALLMessageQueue := mm.ocppCALLMessageQueue ++ [message] }, true) ∨
      mm.put messageType filed =
        ({ mm with ocppCALLRESULTMessageQueue := mm.ocppCALLRESULTMessageQueue ++ [message] },
          true)) : filed = message := by
  have hcall : ∀ {x y : WSMessage} {l : List WSMessage}, l ++ [x] = l ++ [y] → x = y :=
    fun e => (List.cons.inj (List.append_cancel_left e)).1
  have hgrow : ∀ {y : WSMessage} {l : List WSMessage}, l ≠ l ++ [y] := fun e => by simp at e
  unfold MessageManager.put at h
  split_ifs at h
  · rcases h with h | h
    · exact hcall (congrArg (fun r => r.1.ocppCALLMessageQueue) h)
    · exact absurd (congrArg (fun r => r.1.ocppCALLRESULTMessageQueue) h) hgrow
  · rcases h with h | h
    · exact absurd (congrArg (fun r => r.1.ocppCALLMessageQueue) h) hgrow
    · exact hcall (congrArg (fun r => r.1.ocppCALLRESULTMessageQueue) h)
  · rcases h with h | h <;> cases (Prod.mk.inj h).2

/-- What is queued was read off the second and the third field. -/
theorem queues_fields {mm : MessageManager} {rawMessage : Str} {message : WSMessage}
    (h : Queues mm rawMessage message) :
    (rawMessage.splitOn (ch '#'))[1]? = some message.uri ∧
    (rawMessage.splitOn (ch '#'))[2]? = some message.payload := by
  obtain ⟨r, hadd, hr⟩ : ∃ r, mm.addMessage rawMessage = .ok r ∧
      (r = ({ mm with ocppCALLMessageQueue := mm.ocppCALLMessageQueue ++ [message] }, true) ∨
        r = ({ mm with
          ocppCALLRESULTMessageQueue := mm.ocppCALLRESULTMessageQueue ++ [message] }, true)) := by
    rcases h with h | h
    · exact ⟨_, h, Or.inl rfl⟩
    · exact ⟨_, h, Or.inr rfl⟩
  obtain ⟨type, -, hadd⟩ := bind_ok_iff.mp hadd
  obtain ⟨uri, huri, hadd⟩ := bind_ok_iff.mp hadd
  obtain ⟨payload, hpay, hadd⟩ := bind_ok_iff.mp hadd
  rw [vectorAt_ok_iff] at huri hpay
  split_ifs at hadd with hlen
  · obtain ⟨messageType, -, hadd⟩ := bind_ok_iff.mp hadd
    have hm : (⟨uri, type, payload⟩ : WSMessage) = message := put_inj (by rwa [Except.ok.inj hadd])
    rw [← hm]
    exact ⟨huri, hpay⟩
  · cases hadd
    rcases hr with hr | hr <;> cases (Prod.mk.inj hr).2

/-- **The `#` envelope.** -/
theorem envelope_transparent_iff (mm : MessageManager) {type : Str} (ht : type ∈ messageTypes)
    (uri JM action messageId : Str) (mT : MessageType) (random : ℕ) :
    Queues mm (envelope type uri (addBase JM mT action messageId random))
        ⟨uri, type, addBase JM mT action messageId random⟩ ↔
      ch '#' ∉ uri ∧ ch '#' ∉ addBase JM mT action messageId random := by
  have hty := hash_notMem_type ht
  constructor
  · intro h
    obtain ⟨h1, h2⟩ := queues_fields h
    rw [MessageManager.envelope_fields _ _ _ hty, List.getElem?_cons_succ] at h1 h2
    have hu : ch '#' ∉ uri := by
      have hhead := Split.splitOn_head (ch '#') uri
      rw [List.getElem?_append_left (by
        have := List.getElem?_eq_some_iff.mp hhead
        exact this.1), hhead] at h1
      exact uptoHash_eq_self_iff.mp (Option.some.inj h1)
    rw [List.splitOn_eq_singleton hu, List.singleton_append, List.getElem?_cons_succ,
      Split.splitOn_head] at h2
    exact ⟨hu, uptoHash_eq_self_iff.mp (Option.some.inj h2)⟩
  · rintro ⟨hu, hm⟩
    have hself := uptoHash_eq_self hm
    cases mT with
    | call =>
      have hadd := mm.addMessage_framed hty hu
        (hself.symm ▸ framed_request JM action messageId random) (by decide)
      rw [hself] at hadd
      exact Or.inl hadd
    | respond =>
      have hadd := mm.addMessage_framed hty hu
        (hself.symm ▸ framed_response JM action messageId random) (by decide)
      rw [hself] at hadd
      exact Or.inr hadd

/-! ## Messages that are written and read -/

/-- A byte below the digits that is neither a quote nor a comma comes into a
message only with the texts it is made of. -/
theorem notMem_addBase {b : UInt8} (hb : b.toNat < 48) (hne : b ≠ ch '"' ∧ b ≠ ch ',')
    {JM action messageId : Str} (hJM : b ∉ JM) (ha : b ∉ action) (hid : b ∉ messageId)
    (mT : MessageType) (random : ℕ) : b ∉ addBase JM mT action messageId random := by
  have hmark : ∀ c : UInt8, 48 ≤ c.toNat → b ≠ c := by
    rintro c hc rfl
    omega
  have hframe : b ≠ ch '[' ∧ b ≠ ch ']' := ⟨hmark _ (by decide), hmark _ (by decide)⟩
  have hkind : b ∉ str "0" ∧ b ∉ str "1" := by
    rw [show str "0" = [ch '0'] by decide, show str "1" = [ch '1'] by decide, List.mem_singleton,
      List.mem_singleton]
    exact ⟨hmark _ (by decide), hmark _ (by decide)⟩
  have hdec : b ∉ decimal random := notMem_decimal (Or.inl hb)
  cases mT with
  | call =>
    rw [addBase_call]
    simp [mem_quoted, hframe, hkind, hdec, hJM, ha, hne]
  | respond =>
    rw [addBase_respond]
    simp [mem_quoted, hframe, hkind, hJM, hid, hne]

/-- A message with a body that `dump` wrote is sent whole: `c_str()` does not
shorten it. -/
theorem cstr_addBase {members : List (Str × Str)} {body : Str}
    (hbody : dumpObject members = .ok body) (mT : MessageType) {action messageId : Str}
    (ha : 0 ∉ action) (hid : 0 ∉ messageId) (random : ℕ) :
    cstr (addBase body mT action messageId random) = addBase body mT action messageId random :=
  cstr_eq_self
    (notMem_addBase (by decide) (by decide) (zero_notMem_dumpObject hbody) ha hid mT random)

theorem notMem_name {b : UInt8} (hb : b.toNat < 48) (action : Action) : b ∉ action.name := by
  have hname : action.name.all (fun c => decide (48 ≤ c.toNat)) = true := by
    cases action <;> decide
  intro hm
  have := of_decide_eq_true (List.all_eq_true.mp hname b hm)
  omega

/-- **A request arrives.**  If no text in it holds a `#`, a request with a body
that `dump` wrote is queued whole and read back with that body. -/
theorem request_arrives {members : List (Str × Str)} {body uri : Str}
    (hbody : dumpObject members = .ok body) (hb : ch '#' ∉ body) (hu : ch '#' ∉ uri)
    (mm : MessageManager) (action : Action) (random : ℕ) :
    let text := cstr (addBase body .call action.name [] random)
    mm.addMessage (envelope (str "Server") uri text) =
        .ok ({ mm with ocppCALLMessageQueue :=
          mm.ocppCALLMessageQueue ++ [⟨uri, str "Server", text⟩] }, true) ∧
      handleIncomingMsg text .call = .ok (quoted (decimal random), body) := by
  intro text
  have htext : text = addBase body .call action.name [] random :=
    cstr_addBase hbody .call (notMem_name (by decide) action) (by simp) random
  have hself : uptoHash text = text := uptoHash_eq_self (htext ▸ notMem_addBase (by decide)
    (by decide) hb (notMem_name (by decide) action) (by simp) .call random)
  have hframed : Framed (str "0") (quoted (decimal random)) (uptoHash text) := by
    rw [hself, htext]
    exact framed_request body action.name [] random
  have hadd : mm.addMessage (envelope (str "Server") uri text) =
      .ok (mm.put (str "0") ⟨uri, str "Server", uptoHash text⟩) :=
    mm.addMessage_framed (by decide) hu hframed (by decide)
  rw [hself] at hadd
  exact ⟨hadd,
    htext ▸ handleIncomingMsg_request body action.name [] random (comma_notMem_name action)⟩

/-- **A response arrives.** -/
theorem response_arrives {members : List (Str × Str)} {body uri : Str}
    (hbody : dumpObject members = .ok body) (hb : ch '#' ∉ body) (hu : ch '#' ∉ uri)
    (mm : MessageManager) (random r : ℕ) :
    let text := cstr (addBase body .respond [] (quoted (decimal random)) r)
    mm.addMessage (envelope (str "LC") uri text) =
        .ok ({ mm with ocppCALLRESULTMessageQueue :=
          mm.ocppCALLRESULTMessageQueue ++ [⟨uri, str "LC", text⟩] }, true) ∧
      MessageManager.matchesId (quoted (decimal random)) ⟨uri, str "LC", text⟩ = .ok true ∧
      ∃ messageId, handleIncomingMsg text .respond = .ok (messageId, body) := by
  intro text
  have hid : ∀ {b : UInt8}, b.toNat < 48 → b ≠ ch '"' → b ∉ quoted (decimal random) := by
    intro b hlt hq
    rw [mem_quoted, not_or]
    exact ⟨hq, notMem_decimal (Or.inl hlt)⟩
  have htext : text = addBase body .respond [] (quoted (decimal random)) r :=
    cstr_addBase hbody .respond (by simp) (hid (by decide) (by decide)) r
  have hself : uptoHash text = text := uptoHash_eq_self (htext ▸ notMem_addBase (by decide)
    (by decide) hb (by simp) (hid (by decide) (by decide)) .respond r)
  have hframed : Framed (str "1") (quoted (quoted (decimal random))) (uptoHash text) := by
    rw [hself, htext]
    exact framed_response body [] (quoted (decimal random)) r
  have hadd : mm.addMessage (envelope (str "LC") uri text) =
      .ok (mm.put (str "1") ⟨uri, str "LC", uptoHash text⟩) :=
    mm.addMessage_framed (by decide) hu hframed (by decide)
  rw [hself] at hadd
  refine ⟨hadd, ?_, _, htext ▸ handleIncomingMsg_response body [] _ r (comma_notMem_id random)⟩
  rw [htext]
  exact matchesId_response uri (str "LC") body random r

/-- The exit of a car whose plate holds a `#`. -/
def hashPlate : Str :=
  addBase (str "\x7b\"CarPlate\":\"A#1\",\"exitingGate\":\"EntGate2\"\x7d") .call
    Action.carStatusUpdate.name [] 1804289383

/-- The request is queued without the rest of its body. -/
theorem cut_off :
    MessageManager.empty.addMessage (envelope (str "Server") (str "/Gate2") hashPlate) =
      .ok (⟨[⟨str "/Gate2", str "Server",
        str "[0,\"1804289383\",\"CarStatusUpdate\",\x7b\"CarPlate\":\"A"⟩], []⟩, true) ∧
    ¬ Queues MessageManager.empty (envelope (str "Server") (str "/Gate2") hashPlate)
      ⟨str "/Gate2", str "Server", hashPlate⟩ := by
  have hadd : MessageManager.empty.addMessage (envelope (str "Server") (str "/Gate2") hashPlate) =
      .ok (⟨[⟨str "/Gate2", str "Server",
        str "[0,\"1804289383\",\"CarStatusUpdate\",\x7b\"CarPlate\":\"A"⟩], []⟩, true) := by
    decide +kernel
  have hfield : ((envelope (str "Server") (str "/Gate2") hashPlate).splitOn (ch '#'))[2]? ≠
      some hashPlate := by
    decide +kernel
  exact ⟨hadd, fun h => hfield (queues_fields h).2⟩

theorem envelope_transparent_response :
    Queues MessageManager.empty (envelope (str "LC") (str "Gate1")
        (addBase (str "\x7b\"Result\":\"Accept\"\x7d") .respond [] (str "\"7\"") 0))
      ⟨str "Gate1", str "LC",
        addBase (str "\x7b\"Result\":\"Accept\"\x7d") .respond [] (str "\"7\"") 0⟩ :=
  (envelope_transparent_iff MessageManager.empty (by decide) (str "Gate1")
    (str "\x7b\"Result\":\"Accept\"\x7d") [] (str "\"7\"") .respond 0).mpr (by decide)

end ParkManager
