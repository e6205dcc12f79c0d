import ParkManager.Delivery
import Mathlib.Data.Fintype.EquivFin

/-!
# Scanning the responses

A response is accepted on its first comma field, and every later scan looks at the
second one.  `AddMessage` is called with whatever texts arrive, under any type and uri.

Proved here, for every sequence of calls:

* `addMessage_returns`, `addMessage_results`: each text is taken, and what it adds to
  the responses;
* `getResponse_finds`, `scansWell_iff`: scans of a queue work exactly if every
  response in it is one that a scan can look at;
* `response_scan_iff`: that they work in every state exactly if each text that is
  accepted as a response has a second field; `poisoned_queue` is a text that has none.
-/

namespace ParkManager

open History

namespace MessageManager

/-! ## One response -/

theorem matchesId_isOk_iff {messageId : Str} {m : WSMessage} :
    (∃ b, matchesId messageId m = .ok b) ↔ Scannable m.payload := by
  constructor
  · rintro ⟨b, h⟩
    obtain ⟨f, hf, h⟩ := bind_ok_iff.mp h
    refine ⟨f, vectorAt_ok_iff.mp hf, ?_⟩
    rintro rfl
    cases h
  · exact fun h => ⟨_, matchesId_scannable messageId h⟩

/-! ## A queue -/

/-- There is an id that no response of a queue has. -/
theorem exists_fresh_id (queue : List WSMessage) :
    ∃ messageId, ∀ m ∈ queue, hasId messageId m = false := by
  let ids := queue.filterMap fun m => (idField m).map fun f => (f.drop 1).dropLast
  obtain ⟨messageId, hfresh⟩ := Infinite.exists_notMem_finset ids.toFinset
  refine ⟨messageId, fun m hm => decide_eq_false fun hid => hfresh ?_⟩
  exact List.mem_toFinset.mpr (List.mem_filterMap.mpr ⟨m, hm, hid⟩)

/-- A scan that finds nothing has looked at all responses. -/
theorem scannable_of_findResponse {messageId : Str} {queue : List WSMessage} {found : Option ℕ}
    (hno : ∀ m ∈ queue, hasId messageId m = false)
    (h : findResponse messageId queue = .ok found) : ∀ m ∈ queue, Scannable m.payload := by
  induction queue generalizing found with
  | nil => exact fun _ hm => by cases hm
  | cons m queue ih =>
    obtain ⟨hid, hno⟩ := List.forall_mem_cons.mp hno
    obtain ⟨b, hb, h⟩ := bind_ok_iff.mp h
    have hm : Scannable m.payload := matchesId_isOk_iff.mp ⟨b, hb⟩
    rw [matchesId_scannable messageId hm, hid] at hb
    cases hb
    obtain ⟨found', hrest, -⟩ := bind_ok_iff.mp h
    exact List.forall_mem_cons.mpr ⟨hm, ih hno hrest⟩

/-- On responses that it can look at, a scan returns the first one with the id. -/
theorem getResponse_finds {mm : MessageManager}
    (hs : ∀ m ∈ mm.ocppCALLRESULTMessageQueue, Scannable m.payload) (messageId : Str) :
    ((∀ m ∈ mm.ocppCALLRESULTMessageQueue, hasId messageId m = false) ∧
      mm.getResponse messageId = .ok (none, mm)) ∨
    ∃ l₁ m l₂, mm.ocppCALLRESULTMessageQueue = l₁ ++ m :: l₂ ∧
      (∀ n ∈ l₁, hasId messageId n = false) ∧ hasId messageId m = true ∧
      mm.getResponse messageId = .ok (some m, ⟨mm.ocppCALLMessageQueue, l₁ ++ l₂⟩) := by
  cases hfind : mm.ocppCALLRESULTMessageQueue.find? (hasId messageId) with
  | none =>
    have hno : ∀ m ∈ mm.ocppCALLRESULTMessageQueue, hasId messageId m = false := by
      intro m hm
      simpa using List.find?_eq_none.mp hfind m hm
    refine Or.inl ⟨hno, ?_⟩
    unfold getResponse
    rw [findResponse_none hs hno]
    rfl
  | some m =>
    obtain ⟨hm, l₁, l₂, hsplit, hl₁⟩ := List.find?_eq_some_iff_append.mp hfind
    have hno : ∀ n ∈ l₁, hasId messageId n = false := fun n hn => by simpa using hl₁ n hn
    refine Or.inr ⟨l₁, m, l₂, hsplit, hno, hm, ?_⟩
    have hat : vectorAt (l₁ ++ m :: l₂) l₁.length = .ok m :=
      vectorAt_ok_iff.mpr (by simp)
    unfold getResponse
    rw [hsplit] at hs ⊢
    rw [findResponse_split hs hno hm]
    simp only [bind, Except.bind, hat, pure, Except.pure]
    rw [List.eraseIdx_append_of_length_le le_rfl, Nat.sub_self, List.eraseIdx_cons_zero]

end MessageManager

/-- Scans return for every id, and find a response with the id wherever it stands in
the queue. -/
structure ScansWell (mm : MessageManager) : Prop where
  returns : ∀ messageId, ∃ r, mm.getResponse messageId = .ok r
  finds : ∀ messageId, ∀ m ∈ mm.ocppCALLRESULTMessageQueue, hasId messageId m = true →
    ∃ m' mm', mm.getResponse messageId = .ok (some m', mm') ∧ hasId messageId m' = true

theorem scansWell_iff {mm : MessageManager} :
    ScansWell mm ↔ ∀ m ∈ mm.ocppCALLRESULTMessageQueue, Scannable m.payload := by
  constructor
  · intro h
    obtain ⟨messageId, hfresh⟩ :=
      MessageManager.exists_fresh_id mm.ocppCALLRESULTMessageQueue
    obtain ⟨r, hr⟩ := h.returns messageId
    obtain ⟨found, hfound, -⟩ := bind_ok_iff.mp hr
    exact MessageManager.scannable_of_findResponse hfresh hfound
  · intro hs
    constructor
    · intro messageId
      rcases MessageManager.getResponse_finds hs messageId with ⟨-, h⟩ | ⟨_, _, _, -, -, -, h⟩
      · exact ⟨_, h⟩
      · exact ⟨_, h⟩
    · intro messageId m hm hid
      rcases MessageManager.getResponse_finds hs messageId with ⟨hno, -⟩ |
        ⟨_, m', _, -, -, hid', h⟩
      · rw [hno m hm] at hid
        cases hid
      · exact ⟨m', _, h, hid'⟩

/-! ## What is accepted -/

/-- The payload `AddMessage` reads off an envelope. -/
def filedPayload (m : WSMessage) : Option Str :=
  ((envelope m.type m.uri m.payload).splitOn (ch '#'))[2]?

/-- Under a type and a uri without a `#` it is the text up to its first `#`. -/
theorem filedPayload_eq {m : WSMessage} (ht : ch '#' ∉ m.type) (hu : ch '#' ∉ m.uri) :
    filedPayload m = some (uptoHash m.payload) := by
  have hf := MessageManager.envelope_fields m.type m.uri m.payload ht
  rw [List.splitOn_eq_singleton hu] at hf
  rw [filedPayload, hf]
  exact Split.splitOn_head _ _

theorem exists_fields (m : WSMessage) : ∃ type uri payload,
    vectorAt ((envelope m.type m.uri m.payload).splitOn (ch '#')) 0 = .ok type ∧
    vectorAt ((envelope m.type m.uri m.payload).splitOn (ch '#')) 1 = .ok uri ∧
    vectorAt ((envelope m.type m.uri m.payload).splitOn (ch '#')) 2 = .ok payload := by
  have hlen : 3 ≤ ((envelope m.type m.uri m.payload).splitOn (ch '#')).length := by
    have h : ∀ s : Str, 1 ≤ (s.splitOn (ch '#')).length := fun s =>
      List.length_pos_of_ne_nil (List.splitOn_ne_nil _ s)
    have := h m.type
    have := h m.uri
    have := h m.payload
    rw [envelope_eq, List.splitOn_append_cons_self, List.splitOn_append_cons_self,
      List.length_append, List.length_append]
    omega
  obtain ⟨type, ht⟩ := vectorAt_isOk_iff.mpr (lt_of_lt_of_le (by decide : 0 < 3) hlen)
  obtain ⟨uri, hu⟩ := vectorAt_isOk_iff.mpr (lt_of_lt_of_le (by decide : 1 < 3) hlen)
  obtain ⟨payload, hp⟩ := vectorAt_isOk_iff.mpr (lt_of_lt_of_le (by decide : 2 < 3) hlen)
  exact ⟨type, uri, payload, ht, hu, hp⟩

/-- `AddMessage` takes every text, and queues it at the end of the responses if its
first field says so. -/
theorem addMessage_results (mm : MessageManager) (m : WSMessage) :
    ∃ payload mm' rc, filedPayload m = some payload ∧
      mm.addMessage (envelope m.type m.uri m.payload) = .ok (mm', rc) ∧
      ((MessageManager.messageTypeOf payload = .ok (str "1") ∧
          ∃ type uri, mm'.ocppCALLRESULTMessageQueue =
            mm.ocppCALLRESULTMessageQueue ++ [⟨uri, type, payload⟩]) ∨
        (MessageManager.messageTypeOf payload ≠ .ok (str "1") ∧
          mm'.ocppCALLRESULTMessageQueue = mm.ocppCALLRESULTMessageQueue)) := by
  obtain ⟨type, uri, payload, ht, hu, hp⟩ := exists_fields m
  have hadd : mm.addMessage (envelope m.type m.uri m.payload) =
      if payload.length > 0 then do
        let messageType ← MessageManager.messageTypeOf payload
        return mm.put messageType ⟨uri, type, payload⟩
      else .ok (mm, false) := by
    unfold MessageManager.addMessage
    simp only [ht, hu, hp]
    rfl
  refine ⟨payload, ?_⟩
  by_cases hnil : payload = []
  · subst hnil
    have hne : MessageManager.messageTypeOf [] ≠ .ok (str "1") := by
      rw [MessageManager.messageTypeOf_nil]
      exact fun h => by cases h
    exact ⟨mm, false, vectorAt_ok_iff.mp hp, hadd, Or.inr ⟨hne, rfl⟩⟩
  · obtain ⟨messageType, hty⟩ := MessageManager.messageTypeOf_isOk hnil
    rw [if_pos (List.length_pos_of_ne_nil hnil), hty] at hadd
    refine ⟨(mm.put messageType ⟨uri, type, payload⟩).1, _, vectorAt_ok_iff.mp hp, hadd, ?_⟩
    simp only [hty, ne_eq, Except.ok.injEq]
    have h01 : str "0" ≠ str "1" := by decide
    unfold MessageManager.put
    split_ifs with h0 h1
    · exact Or.inr ⟨h0 ▸ h01, rfl⟩
    · exact Or.inl ⟨h1, type, uri, rfl⟩
    · exact Or.inr ⟨h1, rfl⟩

theorem addMessage_returns (mm : MessageManager) (m : WSMessage) :
    ∃ r, mm.addMessage (envelope m.type m.uri m.payload) = .ok r := by
  obtain ⟨_, mm', rc, -, h, -⟩ := addMessage_results mm m
  exact ⟨(mm', rc), h⟩

/-! ## Runs -/

/-- A text that is accepted as a response has a second comma field that is not empty. -/
def FilesScannable (st : ManagerStep) : Prop :=
  match st.input with
  | .addMessage m => ∀ payload, filedPayload m = some payload →
    MessageManager.messageTypeOf payload = .ok (str "1") → Scannable payload
  | .getCALLMessage => True
  | .getResponse _ => True

/-- **Step lemma.** -/
theorem scansWell_step_iff {mm mm' : MessageManager} {c : ManagerCall} {o : Returned}
    (hs : ScansWell mm) (h : mm.step c = .ok (o, mm')) :
    ScansWell mm' ↔ FilesScannable ⟨mm, c, o, mm'⟩ := by
  have hall := scansWell_iff.mp hs
  cases c with
  | addMessage m =>
    obtain ⟨⟨mm'', rc'⟩, hadd', h⟩ := bind_ok_iff.mp h
    obtain ⟨-, rfl⟩ := Prod.mk.inj (Except.ok.inj h)
    obtain ⟨payload, mm₁, rc, hp, hadd, hq⟩ := addMessage_results mm m
    rw [hadd] at hadd'
    obtain ⟨rfl, rfl⟩ := Prod.mk.inj (Except.ok.inj hadd')
    have hfiles : FilesScannable ⟨mm, .addMessage m, o, mm₁⟩ ↔
        (MessageManager.messageTypeOf payload = .ok (str "1") → Scannable payload) := by
      simp only [FilesScannable, hp, Option.some.injEq, forall_eq']
    rw [scansWell_iff, hfiles]
    rcases hq with ⟨hone, type, uri, hq⟩ | ⟨hne, hq⟩
    · rw [hq, List.forall_mem_append, List.forall_mem_singleton, and_iff_right hall,
        forall_prop_of_true hone]
    · rw [hq]
      exact iff_of_true hall fun hone => absurd hone hne
  | getCALLMessage =>
    obtain ⟨⟨m, mm''⟩, hget, h⟩ := bind_ok_iff.mp h
    obtain ⟨-, rfl⟩ := Prod.mk.inj (Except.ok.inj h)
    obtain ⟨m', -, hget⟩ := bind_ok_iff.mp hget
    obtain ⟨-, rfl⟩ := Prod.mk.inj (Except.ok.inj hget)
    exact iff_of_true (scansWell_iff.mpr hall) trivial
  | getResponse messageId =>
    obtain ⟨⟨m, mm''⟩, hget, h⟩ := bind_ok_iff.mp h
    obtain ⟨-, rfl⟩ := Prod.mk.inj (Except.ok.inj h)
    refine iff_of_true ?_ trivial
    rcases MessageManager.getResponse_finds hall messageId with ⟨-, e⟩ |
      ⟨l₁, m', l₂, hsplit, -, -, e⟩ <;>
      (rw [e] at hget; obtain ⟨-, rfl⟩ := Prod.mk.inj (Except.ok.inj hget))
    · exact hs
    · refine scansWell_iff.mpr fun n hn => hall n ?_
      rw [hsplit]
      rcases List.mem_append.mp hn with hn | hn
      · exact List.mem_append_left _ hn
      · exact List.mem_append_right _ (List.mem_cons_of_mem _ hn)

/-- **Scans work** in every state of a run exactly if every text that is accepted as a
response has a second field that is not empty. -/
theorem response_scan_iff {h : List ManagerStep} {mm : MessageManager}
    (hr : ManagerRun .empty h mm) :
    (∀ t, Reached .empty h t → ScansWell t) ↔ ∀ st ∈ h, FilesScannable st := by
  have h₀ : ScansWell .empty := scansWell_iff.mpr fun _ hm => by cases hm
  have hiff := hr.each_iff_each (P := fun _ st => ScansWell st.post)
    (C := fun _ st => FilesScannable st) (J := fun _ t => ScansWell t) h₀
    (fun _ hj hst => scansWell_step_iff hj hst)
    (fun _ hj hst hc => (scansWell_step_iff hj hst).mpr hc)
  rw [each_const_iff, each_const_iff] at hiff
  rw [forall_reached_iff, hiff]
  exact and_iff_right h₀

/-- A response without an id. -/
def noId : WSMessage := ⟨str "Gate1", str "LC", str "[1]"⟩

/-- The response without an id is accepted, and the scan for the id of the one behind it
runs out of range. -/
theorem poisoned_queue :
    ∃ h mm, ManagerRun .empty h mm ∧
      h.reverse.map (·.input) = [.addMessage noId, .addMessage (replyTo (str "7"))] ∧
      replyTo (str "7") ∈ mm.ocppCALLRESULTMessageQueue ∧
      hasId (quoted (str "7")) (replyTo (str "7")) = true ∧
      mm.getResponse (quoted (str "7")) = .error .vectorRange ∧ ¬ ScansWell mm := by
  have h₁ : MessageManager.empty.step (.addMessage noId) =
      .ok ((true, none), ⟨[], [noId]⟩) := rfl
  have h₂ : (⟨[], [noId]⟩ : MessageManager).step (.addMessage (replyTo (str "7"))) =
      .ok ((true, none), ⟨[], [noId, replyTo (str "7")]⟩) := rfl
  have hget : (⟨[], [noId, replyTo (str "7")]⟩ : MessageManager).getResponse
      (quoted (str "7")) = .error .vectorRange := rfl
  refine ⟨_, _, .next (.next .start h₁) h₂, rfl, by simp, by decide, hget, fun hs => ?_⟩
  obtain ⟨r, hr⟩ := hs.returns (quoted (str "7"))
  rw [hget] at hr
  cases hr

/-- A response with an id does no harm. -/
theorem response_scan_iff_reply :
    ∃ h, ManagerRun .empty h ⟨[], [replyTo (str "7")]⟩ ∧
      ∀ t, Reached .empty h t → ScansWell t := by
  have h₁ : MessageManager.empty.step (.addMessage (replyTo (str "7"))) =
      .ok ((true, none), ⟨[], [replyTo (str "7")]⟩) := rfl
  have hr : ManagerRun .empty _ _ := .next .start h₁
  refine ⟨_, hr, (response_scan_iff hr).mpr (List.forall_mem_singleton.mpr ?_)⟩
  intro payload hp _
  have hfield : (((filedPayload (replyTo (str "7"))).getD []).splitOn (ch ','))[1]? =
      some (quoted (quoted (str "7"))) := by decide
  rw [hp] at hfield
  exact ⟨_, hfield, by decide⟩

end ParkManager
