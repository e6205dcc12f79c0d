import ParkManager.RoundTrip
import ParkManager.JsonText

/-!
# What the two ends read

Proved here, for a parser that keeps to `ParsesText`:

* `decodeRequest_written`: a handler reads the request that was written;
* `decodeRequest_cut`: it reads nothing from a request that is cut off in its body;
* `readResponse_written`, `readResponse_arrived`: a gate reads the response that was
  written, and no other body.
-/

namespace ParkManager

/-! ## Requests -/

def Request.action : Request → Action
  | gateRegistration _ => .gateRegistration
  | carEnterence _ => .carEnterence
  | carStatusUpdate _ => .carStatusUpdate

/-- `to_json` of a request. -/
def Request.toJson : Request → List (Str × Str)
  | gateRegistration r => r.toJson
  | carEnterence r => r.toJson
  | carStatusUpdate r => r.toJson

theorem nodup_keys_request (req : Request) : (req.toJson.map Prod.fst).Nodup := by
  cases req with
  | gateRegistration r => exact (by decide : [str "GateName", str "GateType"].Nodup)
  | carEnterence r =>
    exact (by decide : [str "CarPlate", str "enteranceTime", str "enterenceGate",
      str "handicap"].Nodup)
  | carStatusUpdate r => exact (by decide : [str "CarPlate", str "exitingGate"].Nodup)

/-- The members of a request are those its handler reads. -/
theorem decodes_of_members {j : Json} {req : Request}
    (h : ∀ m ∈ req.toJson, j.HasString m.1 m.2) : Decodes j req.action req := by
  cases req with
  | gateRegistration r =>
    simp only [Request.toJson, GateRegistration.toJson, List.forall_mem_cons] at h
    exact ⟨h.1, h.2.1⟩
  | carEnterence r =>
    simp only [Request.toJson, CarEnterence.toJson, List.forall_mem_cons] at h
    exact ⟨h.1, h.2.2.2.1, h.2.1, h.2.2.1⟩
  | carStatusUpdate r =>
    simp only [Request.toJson, CarStatusUpdate.toJson, List.forall_mem_cons] at h
    exact ⟨h.2.1, h.1⟩

/-- A handler reads the request that was written. -/
theorem decodeRequest_written (env : Env) (hp : ParsesText env.parse) (req : Request) {body : Str}
    (hbody : dumpObject req.toJson = .ok body) (random : ℕ) :
    decodeRequest req.action env (addBase body .call req.action.name [] random) =
      .ok (quoted (decimal random), req) := by
  obtain ⟨j, hj, hm⟩ := hp.readsBack _ _ (nodup_keys_request req) hbody
  exact bind_ok_iff.mpr ⟨_,
    handleIncomingMsg_request body req.action.name [] random (comma_notMem_name req.action),
    bind_ok_iff.mpr ⟨j, parseJson_ok_iff.mpr hj,
      bind_ok_iff.mpr ⟨req, requestFromJson_iff.mpr (decodes_of_members hm), rfl⟩⟩⟩

/-- A request without a `#` that can be answered is answered. -/
theorem served_of_answerable (env : Env) (hp : ParsesText env.parse) (a : Ambient)
    (s : ParkManagerServer) (uri : Str) (req : Request) {body : Str}
    (hbody : dumpObject req.toJson = .ok body) (hhash : ch '#' ∉ body)
    (hans : Answerable env s req) (random : ℕ) :
    ∃ s' resp, gateHanlder env a s
        ⟨uri, str "Server", uptoHash (cstr (addBase body .call req.action.name [] random))⟩ =
      (s', .ok (some (uri, resp))) := by
  have htext : uptoHash (cstr (addBase body .call req.action.name [] random)) =
      addBase body .call req.action.name [] random := by
    rw [cstr_addBase hbody .call (notMem_name (by decide) req.action) (by simp) random]
    exact uptoHash_eq_self (notMem_addBase (by decide) (by decide) hhash
      (notMem_name (by decide) req.action) (by simp) .call random)
  obtain ⟨resp, s', text, hh, hdump⟩ := (answers_iff env a s req).mpr hans
  have hd := decodeRequest_written env hp req hbody random
  refine ⟨s', cstr (addBase text .respond [] (quoted (decimal random)) 0), ?_⟩
  rw [htext, gateHanlder_request]
  simp only [onRequest, hd, hh, hdump, Except.map]

/-- The packaged server, with the reader as its parser. -/
def packagedReader : Env := { packaged with parse := readObject }

theorem startUp_packagedReader : StartUp packagedReader packagedStart :=
  ⟨startUp_packaged.started, startUp_packaged.handicap_nonneg, startUp_packaged.normal_nonneg⟩

/-! ## Requests that were cut off

The envelope ends a request at its first `#`, which can only stand in the body. -/

/-- A request up to its body, and what follows. -/
def requestHead (action : Action) (random : ℕ) (t : Str) : Str :=
  ch '[' :: str "0" ++ ch ',' :: (quoted (decimal random) ++ ch ',' ::
    (quoted action.name ++ ch ',' :: t))

theorem addBase_eq_requestHead (action : Action) (random : ℕ) (body : Str) :
    addBase body .call action.name [] random = requestHead action random (body ++ [ch ']']) :=
  addBase_call body action.name [] random

theorem uptoHash_append {head : Str} (h : ch '#' ∉ head) (t : Str) :
    uptoHash (head ++ t) = head ++ uptoHash t := by
  refine List.takeWhile_append_of_pos fun b hb => decide_eq_true ?_
  rintro rfl
  exact h hb

theorem hash_notMem_id (random : ℕ) : ch '#' ∉ quoted (decimal random) := by
  rw [mem_quoted, not_or]
  exact ⟨by decide, notMem_decimal (by decide)⟩

theorem uptoHash_requestHead (action : Action) (random : ℕ) (t : Str) :
    uptoHash (requestHead action random t) = requestHead action random (uptoHash t) := by
  have hid := hash_notMem_id random
  have hname : ch '#' ∉ quoted action.name := by
    rw [mem_quoted, not_or]
    exact ⟨by decide, notMem_name (by decide) action⟩
  have hhead : ch '#' ∉ ch '[' :: str "0" ++ ch ',' :: (quoted (decimal random) ++ ch ',' ::
      (quoted action.name ++ [ch ','])) := by
    have hlit : ch '#' ≠ ch '[' ∧ ch '#' ∉ str "0" ∧ ch '#' ≠ ch ',' := by decide
    simp [hlit, hid, hname]
  have happ := uptoHash_append hhead t
  simpa only [requestHead, List.cons_append, List.append_assoc, List.nil_append] using happ

theorem split_requestHead (action : Action) (random : ℕ) (t : Str) :
    (requestHead action random t).splitOn (ch ',') =
      (ch '[' :: str "0") :: quoted (decimal random) :: quoted action.name ::
        t.splitOn (ch ',') := by
  rw [requestHead, Split.splitOn_two (by decide) (comma_notMem_id random),
    List.splitOn_append_cons_self_of_not_mem (comma_notMem_quoted (comma_notMem_name action))]

/-- The body of a message, from all that follows its head. -/
theorem substr_rejoined (t : Str) :
    let joined := (t.splitOn (ch ',')).flatMap (· ++ str ",")
    substr joined 0 (sizeSub joined.length 2) =
      .ok ((t ++ [ch ',']).take (sizeSub (t.length + 1) 2)) := by
  have hjoin : (t.splitOn (ch ',')).flatMap (· ++ str ",") = t ++ [ch ','] := by
    rw [show str "," = [ch ','] by decide]
    exact Split.flatMap_splitOn (ch ',') t
  simp only [hjoin, substr, Nat.zero_le, ↓reduceIte, List.drop_zero, List.length_append,
    List.length_singleton]

theorem handleIncomingMsg_requestHead (action : Action) (random : ℕ) (t : Str) :
    handleIncomingMsg (requestHead action random t) .call =
      .ok (quoted (decimal random), (t ++ [ch ',']).take (sizeSub (t.length + 1) 2)) := by
  have hbody := substr_rejoined t
  simp only at hbody
  unfold handleIncomingMsg
  rw [split_requestHead]
  simp only [vectorAt, List.getElem?_cons_succ, List.getElem?_cons_zero, vectorFrom, ↓reduceIte,
    List.length_cons, List.drop_succ_cons, List.drop_zero, Nat.le_add_left]
  simp only [bind, Except.bind, hbody, pure, Except.pure]

/-- A request goes to the handler of its action, cut off or not. -/
theorem gateHanlder_requestHead (env : Env) (a : Ambient) (s : ParkManagerServer) (uri t : Str)
    (action : Action) (random : ℕ) :
    gateHanlder env a s ⟨uri, str "Server", requestHead action random t⟩ =
      onRequest action env a s uri (requestHead action random t) := by
  have hfields : requestFields (requestHead action random t) =
      .ok (quoted (decimal random), quoted action.name) := by
    unfold requestFields
    rw [split_requestHead]
    rfl
  simp only [gateHanlder, hfields, ↓reduceIte, dispatch_name]
  cases action <;> rfl

/-- What was written comes in as it was, or without the end of its body. -/
theorem uptoHash_body {members : List (Str × Str)} {body : Str}
    (hbody : dumpObject members = .ok body) (h : ch '#' ∈ body) :
    ∃ k, k + 1 < body.length ∧ uptoHash (body ++ [ch ']']) = body.take (k + 1) := by
  obtain ⟨pre, post, rfl, hpre⟩ := List.eq_append_cons_of_mem h
  have hcut : uptoHash (pre ++ ch '#' :: post ++ [ch ']']) = pre := by
    rw [List.append_assoc, List.cons_append]
    exact Split.takeWhile_ne_append hpre _
  have hne : pre ≠ [] := by
    rintro rfl
    unfold dumpObject at hbody
    split at hbody
    · have := congrArg List.head? (Except.ok.inj hbody)
      simp [show str "\x7b" = [ch '\x7b'] by decide] at this
      exact absurd this (by decide)
    · cases hbody
  obtain ⟨k, hk⟩ : ∃ k, pre.length = k + 1 := Nat.exists_eq_succ_of_ne_zero (by simpa using hne)
  refine ⟨k, ?_, ?_⟩
  · rw [List.length_append, List.length_cons]
    omega
  · rw [hcut, ← hk, List.take_left]

/-- The end of a message that was cut off is no JSON text. -/
theorem parse_cut {parse : Str → Option Json} (hp : ParsesText parse)
    {members : List (Str × Str)} {body : Str} (hbody : dumpObject members = .ok body)
    (h : ch '#' ∈ body) :
    parse ((uptoHash (body ++ [ch ']']) ++ [ch ',']).take
      (sizeSub ((uptoHash (body ++ [ch ']'])).length + 1) 2)) = none := by
  obtain ⟨k, hk, hcut⟩ := uptoHash_body hbody h
  have htail : (body.take (k + 1) ++ [ch ',']).take
      (sizeSub ((body.take (k + 1)).length + 1) 2) = body.take k := by
    rw [List.length_take, Nat.min_eq_left (by omega), sizeSub, if_pos (by omega),
      List.take_append_of_le_length (by rw [List.length_take]; omega), List.take_take]
    congr 1
    omega
  rw [hcut, htail]
  exact hp.rejectsCut members body k hbody (by omega)

/-- A handler reads nothing from a request that was cut off. -/
theorem decodeRequest_cut (env : Env) (hp : ParsesText env.parse) (action : Action)
    {members : List (Str × Str)} {body : Str} (hbody : dumpObject members = .ok body)
    (h : ch '#' ∈ body) (random : ℕ) :
    decodeRequest action env (uptoHash (addBase body .call action.name [] random)) =
      .error .parseError := by
  rw [addBase_eq_requestHead, uptoHash_requestHead]
  unfold decodeRequest
  rw [handleIncomingMsg_requestHead]
  simp only [bind, Except.bind, parseJson, parse_cut hp hbody h]

/-- A handler that reads a request which has come in reads the one that was sent. -/
theorem decodeRequest_arrived (env : Env) (hp : ParsesText env.parse) (req : Request) {body : Str}
    (hbody : dumpObject req.toJson = .ok body) (random : ℕ) {id : Str} {req' : Request}
    (h : decodeRequest req.action env
      (uptoHash (cstr (addBase body .call req.action.name [] random))) = .ok (id, req')) :
    id = quoted (decimal random) ∧ req' = req := by
  have hcstr : cstr (addBase body .call req.action.name [] random) =
      addBase body .call req.action.name [] random :=
    cstr_addBase hbody .call (notMem_name (by decide) req.action) (by simp) random
  rw [hcstr] at h
  by_cases hb : ch '#' ∈ body
  · rw [decodeRequest_cut env hp req.action hbody hb random] at h
    cases h
  · have hself : uptoHash (addBase body .call req.action.name [] random) =
        addBase body .call req.action.name [] random :=
      uptoHash_eq_self (notMem_addBase (by decide) (by decide) hb
        (notMem_name (by decide) req.action) (by simp) .call random)
    rw [hself, decodeRequest_written env hp req hbody random] at h
    obtain ⟨rfl, rfl⟩ := Prod.mk.inj (Except.ok.inj h)
    exact ⟨rfl, rfl⟩

/-! ## Responses -/

/-- What a gate does with a response that is not empty. -/
def readResponse {α : Type} (env : Env) (fromJson : Json → Except Fault α) (Respond : Str) :
    Except Fault α := do
  let (_, jsonString) ← handleIncomingMsg Respond .respond
  let j ← parseJson env jsonString
  fromJson j

theorem readResponse_written {α : Type} {env : Env} (hp : ParsesText env.parse)
    {fromJson : Json → Except Fault α} {members : List (Str × Str)} {x : α}
    (hn : (members.map Prod.fst).Nodup)
    (hx : ∀ j : Json, (∀ m ∈ members, j.HasString m.1 m.2) → fromJson j = .ok x) {body : Str}
    (hbody : dumpObject members = .ok body) {messageId : Str} (hi : ch ',' ∉ messageId) (r : ℕ) :
    readResponse env fromJson (addBase body .respond [] messageId r) = .ok x := by
  obtain ⟨j, hj, hm⟩ := hp.readsBack _ _ hn hbody
  exact bind_ok_iff.mpr ⟨_, handleIncomingMsg_response body [] messageId r hi,
    bind_ok_iff.mpr ⟨j, parseJson_ok_iff.mpr hj, hx j hm⟩⟩

theorem handleIncomingMsg_respond_tail {messageId : Str} (hi : ch ',' ∉ messageId) (t : Str) :
    handleIncomingMsg (ch '[' :: str "1" ++ ch ',' :: (quoted messageId ++ ch ',' :: t)) .respond =
      .ok (quoted messageId, (t ++ [ch ',']).take (sizeSub (t.length + 1) 2)) := by
  have hbody := substr_rejoined t
  simp only at hbody
  unfold handleIncomingMsg
  rw [Split.splitOn_two (by decide) (comma_notMem_quoted hi)]
  simp only [vectorAt, List.getElem?_cons_succ, List.getElem?_cons_zero, vectorFrom, reduceCtorEq,
    ↓reduceIte, List.length_cons, List.drop_succ_cons, List.drop_zero, Nat.le_add_left]
  simp only [bind, Except.bind, hbody, pure, Except.pure]

theorem cstr_response {members : List (Str × Str)} {body : Str}
    (hbody : dumpObject members = .ok body) (random r : ℕ) :
    cstr (addBase body .respond [] (quoted (decimal random)) r) =
      addBase body .respond [] (quoted (decimal random)) r := by
  refine cstr_addBase hbody .respond (by simp) ?_ r
  rw [mem_quoted, not_or]
  exact ⟨by decide, notMem_decimal (by decide)⟩

/-- A gate that reads a response which has come in reads the body that was sent. -/
theorem readResponse_arrived {α : Type} {env : Env} (hp : ParsesText env.parse)
    {fromJson : Json → Except Fault α} {members : List (Str × Str)} {body : Str}
    (hbody : dumpObject members = .ok body) (random r : ℕ) {x : α}
    (h : readResponse env fromJson
      (uptoHash (cstr (addBase body .respond [] (quoted (decimal random)) r))) = .ok x) :
    ∃ j, env.parse body = some j ∧ fromJson j = .ok x := by
  have hi := comma_notMem_id random
  rw [cstr_response hbody] at h
  by_cases hb : ch '#' ∈ body
  · have hid : ch '#' ∉ quoted (quoted (decimal random)) := by
      rw [mem_quoted, not_or]
      exact ⟨by decide, hash_notMem_id random⟩
    have hhead : ch '#' ∉ ch '[' :: str "1" ++ ch ',' ::
        (quoted (quoted (decimal random)) ++ [ch ',']) := by
      have hlit : ch '#' ≠ ch '[' ∧ ch '#' ∉ str "1" ∧ ch '#' ≠ ch ',' := by decide
      simp [hlit, hid]
    have happ := uptoHash_append hhead (body ++ [ch ']'])
    simp only [List.cons_append, List.append_assoc, List.nil_append] at happ
    rw [addBase_respond] at h
    simp only [List.cons_append] at h
    rw [happ] at h
    unfold readResponse at h
    have htail := handleIncomingMsg_respond_tail hi (uptoHash (body ++ [ch ']']))
    simp only [List.cons_append] at htail
    rw [htail] at h
    simp only [bind, Except.bind, parseJson, parse_cut hp hbody hb] at h
    cases h
  · have hself := uptoHash_eq_self (notMem_addBase (by decide) (by decide) hb
      (by simp : ch '#' ∉ ([] : Str)) (hash_notMem_id random) .respond r)
    rw [hself] at h
    obtain ⟨_, hmsg, h⟩ := bind_ok_iff.mp h
    rw [handleIncomingMsg_response body [] _ r hi] at hmsg
    cases hmsg
    obtain ⟨j, hj, h⟩ := bind_ok_iff.mp h
    exact ⟨j, parseJson_ok_iff.mp hj, h⟩

end ParkManager
