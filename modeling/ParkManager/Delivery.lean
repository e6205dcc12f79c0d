import ParkManager.MessageManager
import ParkManager.Lib.History
import ParkManager.Lib.Inbox

/-!
# Delivery

The two queues of the message manager against one inbox: a `CALL` or a
`CALLRESULT` that is accepted arrives in the inbox, `getCALLMessage` takes the
oldest `CALL` that waits and a scan the oldest `CALLRESULT` with its id.

Proved here, for every order of operations on well-formed messages:

* `addMessage_wellFormed`, `findResponse_split`: the operations on such messages;
* `refines_step`, `refines_run`: the queues hold what waits in the inbox;
* `getResponse_run`: which response a scan returns after a run;
* `delivery`: each accepted message is delivered once and in order, to the operation
  of its kind, or still waits.
-/

namespace ParkManager

open History

/-! ## Kinds and ids -/

def isCall (m : WSMessage) : Bool := decide (MessageManager.messageTypeOf m.payload = .ok (str "0"))

def isResponse (m : WSMessage) : Bool :=
  decide (MessageManager.messageTypeOf m.payload = .ok (str "1"))

/-- The second comma field. -/
def idField (m : WSMessage) : Option Str := (m.payload.splitOn (ch ','))[1]?

/-- The second comma field without its first and last character is the id. -/
def hasId (messageId : Str) (m : WSMessage) : Bool :=
  decide ((idField m).map (fun f => (f.drop 1).dropLast) = some messageId)

/-- The payload has a second comma field with a first character to drop. -/
def Scannable (payload : Str) : Prop := ∃ f, (payload.splitOn (ch ','))[1]? = some f ∧ f ≠ []

/-- A response with the id. -/
def respondsTo (messageId : Str) (m : WSMessage) : Bool := isResponse m && hasId messageId m

/-- No `#` in its parts, and an id field of two characters in a response. -/
structure WSMessage.WellFormed (m : WSMessage) : Prop where
  type : ch '#' ∉ m.type
  uri : ch '#' ∉ m.uri
  payload : ch '#' ∉ m.payload
  id : isResponse m = true → ∃ f, idField m = some f ∧ 2 ≤ f.length

theorem not_isResponse_of_isCall {m : WSMessage} (h : isCall m = true) : isResponse m = false := by
  have hne : str "0" ≠ str "1" := by decide
  refine decide_eq_false fun hr => hne ?_
  exact Except.ok.inj ((of_decide_eq_true h).symm.trans hr)

theorem not_isCall_of_isResponse {m : WSMessage} (h : isResponse m = true) : isCall m = false := by
  rw [← Bool.not_eq_true]
  exact fun hc => by rw [not_isResponse_of_isCall hc] at h; cases h

/-! ## The operations -/

inductive ManagerCall
  | addMessage (m : WSMessage)
  | getCALLMessage
  /-- One scan of `GetResponseMessage`. -/
  | getResponse (messageId : Str)
  deriving DecidableEq

def ManagerCall.WellFormed : ManagerCall → Prop
  | addMessage m => m.WellFormed
  | getCALLMessage => True
  | getResponse _ => True

/-- What a call returns: whether `AddMessage` accepted, or the message. -/
abbrev Returned := Bool × Option WSMessage

namespace MessageManager

/-- One call; `on_message` hands a message over in an envelope. -/
def step (mm : MessageManager) : ManagerCall → Except Fault (Returned × MessageManager)
  | .addMessage m => do
    let (mm', rc) ← mm.addMessage (envelope m.type m.uri m.payload)
    return ((rc, none), mm')
  | .getCALLMessage => do
    let (m, mm') ← mm.getCALLMessage
    return ((true, some m), mm')
  | .getResponse messageId => do
    let (m, mm') ← mm.getResponse messageId
    return ((m.isSome, m), mm')

theorem messageTypeOf_nil : messageTypeOf [] = .error .outOfRange := rfl

/-- A well-formed message is filed by its kind, or not at all. -/
theorem addMessage_wellFormed (mm : MessageManager) {m : WSMessage} (hm : m.WellFormed) :
    mm.addMessage (envelope m.type m.uri m.payload) =
      if isCall m = true then
        .ok ({ mm with ocppCALLMessageQueue := mm.ocppCALLMessageQueue ++ [m] }, true)
      else if isResponse m = true then
        .ok ({ mm with ocppCALLRESULTMessageQueue := mm.ocppCALLRESULTMessageQueue ++ [m] }, true)
      else .ok (mm, false) := by
  rw [addMessage_envelope mm _ _ _ hm.type hm.uri, uptoHash_eq_self hm.payload]
  by_cases hnil : m.payload = []
  · have hne : ∀ t, messageTypeOf m.payload ≠ .ok t := by
      intro t e
      rw [hnil, messageTypeOf_nil] at e
      cases e
    have hc : isCall m = false := decide_eq_false (hne _)
    have hr : isResponse m = false := decide_eq_false (hne _)
    rw [hnil, hc, hr]
    rfl
  · obtain ⟨t, ht⟩ := messageTypeOf_isOk hnil
    rw [if_pos (List.length_pos_of_ne_nil hnil)]
    simp only [ht, isCall, isResponse, Except.ok.injEq, decide_eq_true_eq]
    simp only [bind, Except.bind, pure, Except.pure, put]
    split_ifs <;> rfl

theorem stripEnds_of_ne_nil {f : Str} (h : f ≠ []) : stripEnds f = .ok (f.drop 1).dropLast := by
  have hpos := List.length_pos_of_ne_nil h
  unfold stripEnds substr
  rw [if_pos (by omega), List.dropLast_eq_take, List.length_drop]
  by_cases hlen : 2 ≤ f.length
  · rw [sizeSub, if_pos hlen]
    congr 2
  · -- of one character nothing is left, whatever the length wraps around to
    have hone : (f.drop 1).length = 0 := by rw [List.length_drop]; omega
    rw [List.eq_nil_of_length_eq_zero hone]
    simp

/-- The test of a scan on a response with an id field. -/
theorem matchesId_scannable {m : WSMessage} (messageId : Str) (hm : Scannable m.payload) :
    matchesId messageId m = .ok (hasId messageId m) := by
  obtain ⟨f, hf, hne⟩ := hm
  unfold matchesId hasId idField
  simp only [vectorAt_ok_iff.mpr hf, hf, bind, Except.bind, stripEnds_of_ne_nil hne, pure,
    Except.pure, Option.map_some, Option.some.injEq]

theorem findResponse_none {messageId : Str} {queue : List WSMessage}
    (hw : ∀ m ∈ queue, Scannable m.payload)
    (h : ∀ m ∈ queue, hasId messageId m = false) : findResponse messageId queue = .ok none := by
  induction queue with
  | nil => rfl
  | cons m queue ih =>
    obtain ⟨hm, hw⟩ := List.forall_mem_cons.mp hw
    obtain ⟨hid, h⟩ := List.forall_mem_cons.mp h
    simp only [findResponse, matchesId_scannable messageId hm, hid, bind, Except.bind, ih hw h,
      pure, Except.pure, Bool.false_eq_true, ↓reduceIte, Option.map_none]

/-- The scan stops at the first response with the id. -/
theorem findResponse_split {messageId : Str} {l₁ l₂ : List WSMessage} {m : WSMessage}
    (hw : ∀ n ∈ l₁ ++ m :: l₂, Scannable n.payload)
    (h₁ : ∀ n ∈ l₁, hasId messageId n = false) (hm : hasId messageId m = true) :
    findResponse messageId (l₁ ++ m :: l₂) = .ok (some l₁.length) := by
  induction l₁ with
  | nil =>
    have hwm := hw m List.mem_cons_self
    simp only [List.nil_append, findResponse, matchesId_scannable messageId hwm, hm, bind,
      Except.bind, pure, Except.pure, ↓reduceIte, List.length_nil]
  | cons n l₁ ih =>
    obtain ⟨hn, hw⟩ := List.forall_mem_cons.mp hw
    obtain ⟨hid, h₁⟩ := List.forall_mem_cons.mp h₁
    simp only [List.cons_append, findResponse, matchesId_scannable messageId hn, hid, bind,
      Except.bind, ih hw h₁, pure, Except.pure, Bool.false_eq_true, ↓reduceIte, Option.map_some,
      List.length_cons]

end MessageManager

/-! ## The queues and the inbox -/

abbrev ManagerStep := Step MessageManager ManagerCall Returned

abbrev ManagerRun (mm₀ : MessageManager) (h : List ManagerStep) (mm : MessageManager) : Prop :=
  Run (Graph MessageManager.step) mm₀ h mm

/-- The message the call accepted. -/
def arrivals (st : ManagerStep) : List WSMessage :=
  match st.input with
  | .addMessage m => if st.output.1 then [m] else []
  | _ => []

/-- The message `GetCALLMessage` returned. -/
def departures (st : ManagerStep) : List WSMessage :=
  match st.input with
  | .getCALLMessage => st.output.2.toList
  | _ => []

/-- The messages accepted, in the order of their arrival. -/
def accepted : List ManagerStep → List WSMessage
  | [] => []
  | st :: past => accepted past ++ arrivals st

/-- The messages `GetCALLMessage` returned, in order. -/
def returnedCalls : List ManagerStep → List WSMessage
  | [] => []
  | st :: past => returnedCalls past ++ departures st

/-- What was accepted, less what was returned. -/
def inbox : List ManagerStep → Inbox WSMessage
  | [] => .empty
  | st :: past =>
    match st.input with
    | .addMessage m => if st.output.1 then (inbox past).arrive m else inbox past
    | .getCALLMessage => ((inbox past).take isCall).2
    | .getResponse messageId => ((inbox past).take (respondsTo messageId)).2

/-- The queues hold what waits in the inbox. -/
structure Refines (mm : MessageManager) (b : Inbox WSMessage) : Prop where
  calls : mm.ocppCALLMessageQueue = b.queue isCall
  responses : mm.ocppCALLRESULTMessageQueue = b.queue isResponse
  ids : ∀ m ∈ mm.ocppCALLRESULTMessageQueue, ∃ f, idField m = some f ∧ 2 ≤ f.length

theorem Refines.scannable {mm : MessageManager} {b : Inbox WSMessage} (h : Refines mm b) :
    ∀ m ∈ mm.ocppCALLRESULTMessageQueue, Scannable m.payload := by
  intro m hm
  obtain ⟨f, hf, hlen⟩ := h.ids m hm
  exact ⟨f, hf, List.ne_nil_of_length_pos (by omega)⟩

theorem queue_arrive (b : Inbox WSMessage) (m : WSMessage) (p : WSMessage → Bool) :
    (b.arrive m).queue p = b.queue p ++ if p m = true then [m] else [] := by
  unfold Inbox.queue
  rw [Inbox.pending_arrive, List.map_append]
  split_ifs <;> rfl

/-- An accepted message arrives in the queue of its kind, and another one nowhere. -/
theorem refines_addMessage {mm : MessageManager} {b : Inbox WSMessage} (h : Refines mm b)
    {m : WSMessage} (hm : m.WellFormed) :
    ∃ mm', mm.addMessage (envelope m.type m.uri m.payload) = .ok (mm', isCall m || isResponse m) ∧
      Refines mm' (if (isCall m || isResponse m) = true then b.arrive m else b) := by
  have hadd := mm.addMessage_wellFormed hm
  by_cases hc : isCall m = true
  · rw [if_pos hc] at hadd
    have hr := not_isResponse_of_isCall hc
    refine ⟨_, by rw [hadd, hc, Bool.true_or], ?_⟩
    rw [hc, Bool.true_or, if_pos rfl]
    refine ⟨?_, ?_, h.ids⟩
    · rw [queue_arrive, if_pos hc, h.calls]
    · rw [queue_arrive, hr, if_neg Bool.false_ne_true, List.append_nil]
      exact h.responses
  · rw [if_neg hc] at hadd
    rw [Bool.not_eq_true] at hc
    rw [hc, Bool.false_or]
    by_cases hr : isResponse m = true
    · rw [if_pos hr] at hadd
      refine ⟨_, by rw [hadd, hr], ?_⟩
      rw [if_pos hr]
      refine ⟨?_, ?_, ?_⟩
      · rw [queue_arrive, hc, if_neg Bool.false_ne_true, List.append_nil]
        exact h.calls
      · rw [queue_arrive, if_pos hr, h.responses]
      · intro n hn
        rcases List.mem_append.mp hn with hn | hn
        · exact h.ids n hn
        · rw [List.mem_singleton.mp hn]
          exact hm.id hr
    · rw [if_neg hr] at hadd
      rw [Bool.not_eq_true] at hr
      exact ⟨mm, by rw [hadd, hr], by rw [hr, if_neg Bool.false_ne_true]; exact h⟩

/-- `GetCALLMessage` takes the oldest `CALL` that waits. -/
theorem refines_getCALLMessage {mm : MessageManager} {b : Inbox WSMessage} (h : Refines mm b) :
    (b.oldest isCall = none ∧ mm.ocppCALLMessageQueue = []) ∨
    ∃ i m mm', b.oldest isCall = some i ∧ b.arrived[i]? = some m ∧
      mm.getCALLMessage = .ok (m, mm') ∧ mm.ocppCALLMessageQueue = m :: mm'.ocppCALLMessageQueue ∧
      (b.take isCall).2 = b.mark i ∧ Refines mm' (b.mark i) := by
  have htrue : (fun m => isCall m && true) = isCall := funext fun m => Bool.and_true _
  rcases b.take_cases isCall (fun _ => true) with ⟨hnone, hold, -⟩ |
    ⟨l₁, m, i, l₂, hsplit, hl₁, -, hold, htake, hrest⟩
  · rw [htrue] at hold
    refine Or.inl ⟨hold, ?_⟩
    rw [h.calls, Inbox.queue, List.map_eq_nil_iff, List.eq_nil_iff_forall_not_mem]
    exact fun x hx => by cases hnone x hx
  · rw [htrue] at hold htake
    have hnil : l₁ = [] := List.eq_nil_iff_forall_not_mem.mpr fun x hx => by cases hl₁ x hx
    subst hnil
    have hq : mm.ocppCALLMessageQueue = m :: l₂.map Prod.fst := by
      rw [h.calls, Inbox.queue, hsplit]
      rfl
    have hmem : (m, i) ∈ b.pending isCall := by
      rw [hsplit]
      exact List.mem_cons_self
    have hother : (b.mark i).pending isResponse = b.pending isResponse := by
      have := b.pending_take_of_disjoint (p := isCall) (r := isResponse)
        fun n => not_isResponse_of_isCall
      rwa [htake] at this
    refine Or.inr ⟨i, m, { mm with ocppCALLMessageQueue := l₂.map Prod.fst }, hold,
      (Inbox.mem_pending.mp hmem).1, ?_, hq, congrArg Prod.snd htake, ?_, ?_, h.ids⟩
    · unfold MessageManager.getCALLMessage
      rw [hq]
      rfl
    · rw [Inbox.queue, hrest]
      rfl
    · rw [Inbox.queue, hother]
      exact h.responses

/-- A scan takes the oldest response with its id that waits, from among the others. -/
theorem refines_getResponse {mm : MessageManager} {b : Inbox WSMessage} (h : Refines mm b)
    (messageId : Str) :
    (b.oldest (respondsTo messageId) = none ∧ (b.take (respondsTo messageId)).2 = b ∧
      mm.getResponse messageId = .ok (none, mm)) ∨
    ∃ i m mm', b.oldest (respondsTo messageId) = some i ∧ b.arrived[i]? = some m ∧
      (b.take (respondsTo messageId)).2 = b.mark i ∧
      mm.getResponse messageId = .ok (some m, mm') ∧
      mm'.ocppCALLMessageQueue = mm.ocppCALLMessageQueue ∧ Refines mm' (b.mark i) := by
  have hids := h.scannable
  rcases b.take_cases isResponse (hasId messageId) with ⟨hnone, hold, htake⟩ |
    ⟨l₁, m, i, l₂, hsplit, hl₁, hm, hold, htake, hrest⟩
  · refine Or.inl ⟨hold, congrArg Prod.snd htake, ?_⟩
    have hfind : MessageManager.findResponse messageId mm.ocppCALLRESULTMessageQueue =
        .ok none := by
      refine MessageManager.findResponse_none hids fun n hn => ?_
      rw [h.responses] at hn
      obtain ⟨x, hx, rfl⟩ := List.mem_map.mp hn
      exact hnone x hx
    unfold MessageManager.getResponse
    rw [hfind]
    rfl
  · have hq : mm.ocppCALLRESULTMessageQueue = l₁.map Prod.fst ++ m :: l₂.map Prod.fst := by
      rw [h.responses, Inbox.queue, hsplit, List.map_append]
      rfl
    have hmem : (m, i) ∈ b.pending isResponse := by
      rw [hsplit]
      simp
    have hother : (b.mark i).pending isCall = b.pending isCall := by
      have := b.pending_take_of_disjoint (p := respondsTo messageId) (r := isCall)
        fun n hn => not_isCall_of_isResponse (Bool.and_eq_true_iff.mp hn).1
      have ht : b.take (respondsTo messageId) = (some m, b.mark i) := htake
      rwa [ht] at this
    rw [hq] at hids
    have hfind : MessageManager.findResponse messageId mm.ocppCALLRESULTMessageQueue =
        .ok (some (l₁.map Prod.fst).length) := by
      rw [hq]
      refine MessageManager.findResponse_split hids (fun n hn => ?_) hm
      obtain ⟨x, hx, rfl⟩ := List.mem_map.mp hn
      exact hl₁ x hx
    have hat : vectorAt mm.ocppCALLRESULTMessageQueue (l₁.map Prod.fst).length = .ok m := by
      rw [vectorAt_ok_iff, hq, List.getElem?_append_right le_rfl, Nat.sub_self,
        List.getElem?_cons_zero]
    have herase : mm.ocppCALLRESULTMessageQueue.eraseIdx (l₁.map Prod.fst).length =
        (b.mark i).queue isResponse := by
      rw [hq, List.eraseIdx_append_of_length_le le_rfl, Nat.sub_self, List.eraseIdx_cons_zero,
        Inbox.queue, hrest, List.map_append]
    refine Or.inr ⟨i, m, _, hold, (Inbox.mem_pending.mp hmem).1, congrArg Prod.snd htake,
      bind_ok_iff.mpr ⟨_, hfind, bind_ok_iff.mpr ⟨m, hat, rfl⟩⟩, rfl, ?_, herase, ?_⟩
    · rw [Inbox.queue, hother]
      exact h.calls
    · exact fun n hn => h.ids n (List.mem_of_mem_eraseIdx hn)

/-! ## Runs -/

/-- **Step lemma.** -/
theorem refines_step {past : List ManagerStep} {st : ManagerStep} (h : Refines st.pre (inbox past))
    (hw : st.input.WellFormed) (hs : st.pre.step st.input = .ok (st.output, st.post)) :
    Refines st.post (inbox (st :: past)) ∧
    (inbox (st :: past)).arrived = (inbox past).arrived ++ arrivals st ∧
    departures st ++ st.post.ocppCALLMessageQueue =
      st.pre.ocppCALLMessageQueue ++ (arrivals st).filter isCall := by
  obtain ⟨mm, c, o, mm'⟩ := st
  dsimp only at h hw hs ⊢
  cases c with
  | addMessage m =>
    obtain ⟨mm'', hadd, href⟩ := refines_addMessage h hw
    obtain ⟨⟨mm₁, rc⟩, hadd', hs⟩ := bind_ok_iff.mp hs
    rw [hadd] at hadd'
    obtain ⟨rfl, rfl⟩ := Prod.mk.inj (Except.ok.inj hadd')
    obtain ⟨rfl, rfl⟩ := Prod.mk.inj (Except.ok.inj hs)
    refine ⟨href, ?_, ?_⟩
    · simp only [inbox, arrivals]
      split_ifs
      · rfl
      · exact (List.append_nil _).symm
    · simp only [departures, arrivals, List.nil_append]
      rw [href.calls, h.calls]
      by_cases hk : (isCall m || isResponse m) = true
      · rw [if_pos hk, if_pos hk, queue_arrive, List.filter_singleton]
        cases isCall m <;> rfl
      · rw [if_neg hk, if_neg hk]
        exact (List.append_nil _).symm
  | getCALLMessage =>
    obtain ⟨⟨m₁, mm₁⟩, hget', hs⟩ := bind_ok_iff.mp hs
    obtain ⟨rfl, rfl⟩ := Prod.mk.inj (Except.ok.inj hs)
    rcases refines_getCALLMessage h with ⟨-, hnil⟩ | ⟨i, m, mm'', -, -, hget, hq, htake, href⟩
    · obtain ⟨_, hat, -⟩ := bind_ok_iff.mp hget'
      rw [hnil] at hat
      cases hat
    · rw [hget] at hget'
      obtain ⟨rfl, rfl⟩ := Prod.mk.inj (Except.ok.inj hget')
      simp only [inbox, htake, Inbox.arrived_mark, arrivals, departures, List.append_nil,
        List.filter_nil]
      exact ⟨href, trivial, hq.symm⟩
  | getResponse messageId =>
    obtain ⟨⟨m₁, mm₁⟩, hget', hs⟩ := bind_ok_iff.mp hs
    obtain ⟨rfl, rfl⟩ := Prod.mk.inj (Except.ok.inj hs)
    simp only [inbox, arrivals, departures, List.append_nil, List.filter_nil, List.nil_append]
    rcases refines_getResponse h messageId with ⟨-, htake, hget⟩ |
      ⟨i, m, mm'', -, -, htake, hget, hcalls, href⟩
    · rw [hget] at hget'
      obtain ⟨rfl, rfl⟩ := Prod.mk.inj (Except.ok.inj hget')
      rw [htake]
      exact ⟨h, rfl, rfl⟩
    · rw [hget] at hget'
      obtain ⟨rfl, rfl⟩ := Prod.mk.inj (Except.ok.inj hget')
      rw [htake]
      exact ⟨href, Inbox.arrived_mark .., hcalls⟩

theorem refines_empty : Refines .empty .empty := ⟨rfl, rfl, fun _ hm => by cases hm⟩

/-- **Run lemma.** -/
theorem refines_run {h : List ManagerStep} {mm : MessageManager} (hr : ManagerRun .empty h mm)
    (hw : ∀ st ∈ h, st.input.WellFormed) :
    Refines mm (inbox h) ∧ (inbox h).arrived = accepted h ∧
      returnedCalls h ++ mm.ocppCALLMessageQueue = (accepted h).filter isCall := by
  induction hr with
  | start => exact ⟨refines_empty, rfl, rfl⟩
  | next hr hs ih =>
    rename_i past mm c o mm'
    obtain ⟨hc, hpast⟩ := List.forall_mem_cons.mp hw
    obtain ⟨href, harr, hcalls⟩ := ih hpast
    obtain ⟨href', harr', hq⟩ := refines_step href hc hs
    refine ⟨href', ?_, ?_⟩
    · rw [harr', harr]
      rfl
    · simp only [returnedCalls, accepted]
      rw [List.append_assoc, hq, ← List.append_assoc, hcalls, List.filter_append]

/-- What a scan returns after a run, in the words of the arrivals: the first
response with its id that no scan has taken, and nothing only if there is none. -/
theorem getResponse_run {h : List ManagerStep} {mm mm' : MessageManager}
    (hr : ManagerRun .empty h mm) (hw : ∀ st ∈ h, st.input.WellFormed) {messageId : Str}
    {o : Option WSMessage} (hget : mm.getResponse messageId = .ok (o, mm')) :
    match o with
    | none => ∀ i m, (accepted h)[i]? = some m → i ∉ (inbox h).taken →
        respondsTo messageId m = false
    | some m => ∃ i, (accepted h)[i]? = some m ∧ i ∉ (inbox h).taken ∧
        respondsTo messageId m = true ∧
        ∀ j n, (accepted h)[j]? = some n → j ∉ (inbox h).taken →
          respondsTo messageId n = true → i ≤ j := by
  obtain ⟨href, harr, -⟩ := refines_run hr hw
  rw [← harr]
  rcases refines_getResponse href messageId with ⟨hold, -, e⟩ | ⟨i, m, _, hold, hat, -, e, -⟩ <;>
    (rw [e] at hget; obtain ⟨rfl, -⟩ := Prod.mk.inj (Except.ok.inj hget))
  · exact Inbox.oldest_eq_none_iff.mp hold
  · obtain ⟨n, hn, hfree, hresp, hfirst⟩ := Inbox.oldest_spec hold
    rw [hat] at hn
    cases hn
    exact ⟨i, hat, hfree, hresp, hfirst⟩

/-- **Exactly once and in order.**  After any sequence of calls on well-formed
messages: the `CALL`s returned are the first of those accepted and all the others wait
in the queue, a `CALL` is there to be taken whenever the size says so, a scan finds the
oldest response with its id that was accepted and not returned, and takes that one out
only. -/
theorem delivery {h : List ManagerStep} {mm : MessageManager} (hr : ManagerRun .empty h mm)
    (hw : ∀ st ∈ h, st.input.WellFormed) :
    returnedCalls h <+: (accepted h).filter isCall ∧
    returnedCalls h ++ mm.ocppCALLMessageQueue = (accepted h).filter isCall ∧
    (0 < mm.getCALLMessageSize → ∃ m mm', mm.getCALLMessage = .ok (m, mm') ∧
      returnedCalls h ++ [m] <+: (accepted h).filter isCall ∧
      mm'.ocppCALLRESULTMessageQueue = mm.ocppCALLRESULTMessageQueue) ∧
    mm.ocppCALLRESULTMessageQueue = (inbox h).queue isResponse ∧
    (inbox h).arrived = accepted h ∧
    (∀ messageId,
      ((inbox h).oldest (respondsTo messageId) = none ∧
        mm.getResponse messageId = .ok (none, mm)) ∨
      ∃ i m mm', (inbox h).oldest (respondsTo messageId) = some i ∧ (accepted h)[i]? = some m ∧
        mm.getResponse messageId = .ok (some m, mm') ∧
        mm'.ocppCALLMessageQueue = mm.ocppCALLMessageQueue ∧
        mm'.ocppCALLRESULTMessageQueue = ((inbox h).mark i).queue isResponse) ∧
    (∀ m : WSMessage, m.WellFormed → ∃ mm',
      mm.addMessage (envelope m.type m.uri m.payload) = .ok (mm', isCall m || isResponse m)) ∧
    (∀ m ∈ mm.ocppCALLMessageQueue, isCall m = true) ∧
    ∀ m ∈ mm.ocppCALLRESULTMessageQueue, isResponse m = true := by
  obtain ⟨href, harr, hcalls⟩ := refines_run hr hw
  have hkind : ∀ (p : WSMessage → Bool), ∀ m ∈ (inbox h).queue p, p m = true := by
    intro p m hm
    obtain ⟨⟨n, i⟩, hx, rfl⟩ := List.mem_map.mp hm
    exact (Inbox.mem_pending.mp hx).2.2
  refine ⟨⟨_, hcalls⟩, hcalls, fun hsize => ?_, href.responses, harr, fun messageId => ?_,
    fun m hm => ?_, fun m hm => hkind _ m (href.calls ▸ hm),
    fun m hm => hkind _ m (href.responses ▸ hm)⟩
  · obtain ⟨m, rest, hq⟩ := List.exists_cons_of_length_pos hsize
    refine ⟨m, { mm with ocppCALLMessageQueue := rest }, ?_, ⟨rest, ?_⟩, rfl⟩
    · unfold MessageManager.getCALLMessage
      rw [hq]
      rfl
    · rw [List.append_assoc, List.singleton_append, ← hq, hcalls]
  · rcases refines_getResponse href messageId with ⟨hold, -, hget⟩ |
      ⟨i, m, mm', hold, hat, -, hget, hsame, href'⟩
    · exact Or.inl ⟨hold, hget⟩
    · exact Or.inr ⟨i, m, mm', hold, harr ▸ hat, hget, hsame, href'.responses⟩
  · obtain ⟨mm', hadd, -⟩ := refines_addMessage href hm
    exact ⟨mm', hadd⟩

/-- A response as the server frames it. -/
def replyTo (id : Str) : WSMessage :=
  ⟨str "Gate1", str "LC", addBase (str "{}") .respond [] (quoted id) 0⟩

/-- The second of two responses is taken first. -/
theorem delivery_second_response :
    ∃ h mm mm', ManagerRun .empty h mm ∧ accepted h = [replyTo (str "7"), replyTo (str "8")] ∧
      mm.getResponse (quoted (str "8")) = .ok (some (replyTo (str "8")), mm') ∧
      mm'.ocppCALLRESULTMessageQueue = [replyTo (str "7")] := by
  have hw : ∀ id, id = str "7" ∨ id = str "8" → (replyTo id).WellFormed := by
    rintro id (rfl | rfl) <;>
      exact ⟨by decide, by decide, by decide, fun _ => ⟨_, rfl, by decide⟩⟩
  have h₁ : MessageManager.empty.step (.addMessage (replyTo (str "7"))) =
      .ok ((true, none), ⟨[], [replyTo (str "7")]⟩) := rfl
  have h₂ : (⟨[], [replyTo (str "7")]⟩ : MessageManager).step (.addMessage (replyTo (str "8"))) =
      .ok ((true, none), ⟨[], [replyTo (str "7"), replyTo (str "8")]⟩) := rfl
  have hr : ManagerRun .empty _ _ := .next (.next .start h₁) h₂
  obtain ⟨-, -, -, -, -, hscan, -⟩ := delivery hr (List.forall_mem_cons.mpr ⟨hw _ (Or.inr rfl),
    List.forall_mem_cons.mpr ⟨hw _ (Or.inl rfl), fun _ hst => by cases hst⟩⟩)
  rcases hscan (quoted (str "8")) with ⟨-, hnone⟩ | ⟨i, m, mm', hold, hat, hget, -, hq⟩
  · exact absurd (congrArg (fun r => r.toOption.map (·.1.isSome)) hnone) (by decide)
  · obtain rfl : 1 = i := Option.some.inj hold
    obtain rfl : replyTo (str "8") = m := Option.some.inj hat
    exact ⟨_, _, mm', hr, rfl, hget, hq.trans rfl⟩

end ParkManager
