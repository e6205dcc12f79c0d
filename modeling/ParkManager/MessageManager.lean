import ParkManager.Framing

/-!
# The message manager

The two queues of received messages: `addMessage` takes a raw envelope apart and
files the message by its first comma field, `getCALLMessage` takes the oldest
request, `getResponse` is one scan of `GetResponseMessage` over the responses.

Proved here:

* `addMessage_envelope`: on `type#uri#text` with no `#` in the type and the uri,
  what is filed is the text up to its first `#`;
* `addMessage_framed`: a framed message is filed by its kind;
* `matchesId_framed`, `findResponse_some`: what a scan picks.
-/

namespace ParkManager

structure WSMessage where
  uri : Str
  type : Str
  payload : Str
  deriving DecidableEq, Repr

structure MessageManager where
  ocppCALLMessageQueue : List WSMessage
  ocppCALLRESULTMessageQueue : List WSMessage
  deriving DecidableEq, Repr

namespace MessageManager

/-- A manager just constructed. -/
def empty : MessageManager := ⟨[], []⟩

def getCALLMessageSize (mm : MessageManager) : ℕ := mm.ocppCALLMessageQueue.length

/-- The first comma field of a payload without its first and last character. -/
def messageTypeOf (payload : Str) : Except Fault Str := do
  let incoming ← stripEnds payload
  vectorAt (incoming.splitOn (ch ',')) 0

/-- Filing a message: `CALL` is `"0"`, `CALLRESULT` is `"1"`. -/
def put (mm : MessageManager) (messageType : Str) (message : WSMessage) : MessageManager × Bool :=
  if messageType = str "0" then
    ({ mm with ocppCALLMessageQueue := mm.ocppCALLMessageQueue ++ [message] }, true)
  else if messageType = str "1" then
    ({ mm with ocppCALLRESULTMessageQueue := mm.ocppCALLRESULTMessageQueue ++ [message] }, true)
  else (mm, false)

/-- `AddMessage`. -/
def addMessage (mm : MessageManager) (rawMessage : Str) : Except Fault (MessageManager × Bool) := do
  let rawMessageItems := rawMessage.splitOn (ch '#')
  let type ← vectorAt rawMessageItems 0
  let uri ← vectorAt rawMessageItems 1
  let payload ← vectorAt rawMessageItems 2
  if payload.length > 0 then
    let messageType ← messageTypeOf payload
    return put mm messageType ⟨uri, type, payload⟩
  else
    return (mm, false)

/-- `GetCALLMessage`. -/
def getCALLMessage (mm : MessageManager) : Except Fault (WSMessage × MessageManager) := do
  let ocppMessage ← vectorAt mm.ocppCALLMessageQueue 0
  return (ocppMessage, { mm with ocppCALLMessageQueue := mm.ocppCALLMessageQueue.drop 1 })

/-- The test of `GetResponseMessage` on one queued response. -/
def matchesId (messageId : Str) (message : WSMessage) : Except Fault Bool := do
  let requestItems := message.payload.splitOn (ch ',')
  let tmp ← vectorAt requestItems 1
  let id ← stripEnds tmp
  return decide (id = messageId)

/-- The position at which the scan of `GetResponseMessage` stops. -/
def findResponse (messageId : Str) : List WSMessage → Except Fault (Option ℕ)
  | [] => .ok none
  | m :: queue => do
    if ← matchesId messageId m then return some 0
    let found ← findResponse messageId queue
    return found.map (· + 1)

/-- One scan of `GetResponseMessage`: the response found, and the queue without it. -/
def getResponse (mm : MessageManager) (messageId : Str) :
    Except Fault (Option WSMessage × MessageManager) := do
  match ← findResponse messageId mm.ocppCALLRESULTMessageQueue with
  | none => return (none, mm)
  | some i =>
    let message ← vectorAt mm.ocppCALLRESULTMessageQueue i
    return (some message,
      { mm with ocppCALLRESULTMessageQueue := mm.ocppCALLRESULTMessageQueue.eraseIdx i })

end MessageManager

/-- The raw message `on_message` hands to `AddMessage`. -/
def envelope (type uri text : Str) : Str := type ++ str "#" ++ uri ++ str "#" ++ text

/-- What `AddMessage` keeps of a text: the part before the first `#`. -/
def uptoHash (text : Str) : Str := text.takeWhile fun b => decide (b ≠ ch '#')

theorem envelope_eq (type uri text : Str) :
    envelope type uri text = type ++ ch '#' :: (uri ++ ch '#' :: text) := by
  simp [envelope, show str "#" = [ch '#'] by decide]

theorem uptoHash_eq_self {text : Str} (h : ch '#' ∉ text) : uptoHash text = text :=
  Split.takeWhile_ne_eq_self h

theorem uptoHash_eq_self_iff {text : Str} : uptoHash text = text ↔ ch '#' ∉ text := by
  constructor
  · intro h
    rw [← h]
    exact Split.notMem_takeWhile_ne _ _
  · exact uptoHash_eq_self

namespace MessageManager

theorem messageTypeOf_isOk {payload : Str} (h : payload ≠ []) :
    ∃ t, messageTypeOf payload = .ok t := by
  have hlen : 1 ≤ payload.length := List.length_pos_of_ne_nil h
  have hstrip : stripEnds payload = .ok ((payload.drop 1).take (sizeSub payload.length 2)) :=
    if_pos hlen
  obtain ⟨t, ht⟩ := vectorAt_isOk_iff.mpr (List.length_pos_of_ne_nil
    (List.splitOn_ne_nil (ch ',') ((payload.drop 1).take (sizeSub payload.length 2))))
  exact ⟨t, bind_ok_iff.mpr ⟨_, hstrip, ht⟩⟩

/-- The fields `AddMessage` reads off an envelope whose type has no `#`. -/
theorem envelope_fields (type uri text : Str) (ht : ch '#' ∉ type) :
    (envelope type uri text).splitOn (ch '#') =
      type :: (uri.splitOn (ch '#') ++ text.splitOn (ch '#')) := by
  rw [envelope_eq, List.splitOn_append_cons_self_of_not_mem ht, List.splitOn_append_cons_self]

theorem addMessage_envelope (mm : MessageManager) (type uri text : Str) (ht : ch '#' ∉ type)
    (hu : ch '#' ∉ uri) :
    mm.addMessage (envelope type uri text) =
      if (uptoHash text).length > 0 then do
        let messageType ← messageTypeOf (uptoHash text)
        return mm.put messageType ⟨uri, type, uptoHash text⟩
      else .ok (mm, false) := by
  have hpay : vectorAt (text.splitOn (ch '#')) 0 = .ok (uptoHash text) :=
    vectorAt_ok_iff.mpr (Split.splitOn_head _ _)
  have hf := envelope_fields type uri text ht
  rw [List.splitOn_eq_singleton hu] at hf
  unfold addMessage
  simp only [hf, List.cons_append, List.nil_append]
  have h0 : vectorAt (type :: uri :: text.splitOn (ch '#')) 0 = .ok type := rfl
  have h1 : vectorAt (type :: uri :: text.splitOn (ch '#')) 1 = .ok uri := rfl
  have h2 : vectorAt (type :: uri :: text.splitOn (ch '#')) 2 = .ok (uptoHash text) := hpay
  rw [h0, h1, h2]
  rfl

/-- A framed text is filed by its kind. -/
theorem addMessage_framed (mm : MessageManager) {type uri kind id text : Str}
    (ht : ch '#' ∉ type) (hu : ch '#' ∉ uri) (hf : Framed kind id (uptoHash text))
    (hk : ch ',' ∉ kind) :
    mm.addMessage (envelope type uri text) = .ok (mm.put kind ⟨uri, type, uptoHash text⟩) := by
  obtain ⟨incoming, hs, hi⟩ := hf.kind_field hk
  have hlen : (uptoHash text).length > 0 := by
    obtain ⟨rest, hr⟩ := hf
    rw [hr]
    simp
  have hm : messageTypeOf (uptoHash text) = .ok kind := by
    unfold messageTypeOf
    rw [hs]
    exact hi
  rw [addMessage_envelope mm type uri text ht hu, if_pos hlen, hm]
  rfl

/-! ## Scanning the responses -/

theorem matchesId_framed {kind id messageId : Str} {m : WSMessage}
    (hf : Framed kind (quoted id) m.payload) (hk : ch ',' ∉ kind) (hi : ch ',' ∉ id) :
    matchesId messageId m = .ok (decide (id = messageId)) := by
  have hid := hf.id_field hk (comma_notMem_quoted hi)
  have hs : stripEnds (quoted id) = .ok id := by
    have h := stripEnds_append (ch '"') (ch '"') id
    simpa [quoted, show str "\"" = [ch '"'] by decide] using h
  unfold matchesId
  simp only [hid, bind, Except.bind, hs, pure, Except.pure]

/-- The scan stops at a response that passes the test. -/
theorem findResponse_some {messageId : Str} {queue : List WSMessage} {i : ℕ}
    (h : findResponse messageId queue = .ok (some i)) :
    ∃ m, queue[i]? = some m ∧ matchesId messageId m = .ok true := by
  induction queue generalizing i with
  | nil => cases h
  | cons m queue ih =>
    obtain ⟨b, hb, h⟩ := bind_ok_iff.mp h
    cases b with
    | true =>
      have hi : some 0 = some i := Except.ok.inj h
      cases hi
      exact ⟨m, rfl, hb⟩
    | false =>
      obtain ⟨found, hfound, h⟩ := bind_ok_iff.mp h
      cases found with
      | none => cases h
      | some j =>
        have hi : some (j + 1) = some i := Except.ok.inj h
        cases hi
        exact ih hfound

end MessageManager

end ParkManager
