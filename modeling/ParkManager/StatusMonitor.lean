import ParkManager.WebSocketServer

/-!
# The status monitor

`RunServer` reads the status word from the shared memory and, in a later step,
acts on what it has read; the callbacks of the web-socket server come in between.

Proved here, for every interleaving of callbacks, reads and acts:

* `follows_callback`, `follows_step`: as long as no open connection was closed, the
  table has an entry for a uri exactly if the last callback of the uri was an opening
  one;
* `safe_iff`: the step lemma for an act, and from it `monitor_iff`: no open
  connection is ever closed exactly as long as no act names a uri that was opened
  last;
* `reconnected_gate_dropped`: a gate that reconnects between the read and the act.
-/

namespace ParkManager

open History WebSocketServer

/-- The web-socket server with the thread of `RunServer`: the last value it has
dealt with, and the value it has read and not yet acted on. -/
structure StatusMonitor (η : Type) where
  server : WebSocketServer η
  currentServerStatus : Str
  serverStatusRaw : Option Str

inductive MonitorEvent (η : Type)
  | callback (cb : Callback η)
  /-- `GetValue`, and the comparison with the last value. -/
  | read
  /-- What `RunServer` does with a value that is new. -/
  | act
  deriving DecidableEq, Repr

/-- The uri and the status in a value; `none` where `RunServer` skips it. -/
def readStatus (serverStatusRaw : Str) : Except Fault (Option (Str × ℤ)) := do
  let serverStatusRawItems := serverStatusRaw.splitOn (ch '#')
  if serverStatusRawItems.length ≠ 2 then return none
  else
    let uri ← vectorAt serverStatusRawItems 0
    let item ← vectorAt serverStatusRawItems 1
    let serverStatus ← stoi (cstr item)
    return some (uri, serverStatus)

/-- What `RunServer` does with the uri and the status. -/
def connectionToClose (uri : Str) (serverStatus : ℤ) : Option Str :=
  if uri ≠ [] ∧ (serverStatus = WebSocketStatus.closed.toNat ∨
      serverStatus = WebSocketStatus.failed.toNat) then some uri
  else none

namespace StatusMonitor

variable {η : Type}

/-- Just started. -/
def start : StatusMonitor η := ⟨.start, [], none⟩

/-- The uri `RunServer` closes on a value. -/
def closes (serverStatusRaw : Str) : Except Fault (Option Str) := do
  let found ← readStatus serverStatusRaw
  return found.bind fun r => connectionToClose r.1 r.2

/-- `WebSocketServer::Close`: the connection closed, and the table without it. -/
def close (s : WebSocketServer η) (uri : Str) : Option (Str × η) × WebSocketServer η :=
  match s.connections.lookup uri with
  | some hdl => (some (uri, hdl), { s with connections := s.connections.erase uri })
  | none => (none, s)

/-- One step; the output is the connection that `RunServer` closes. -/
def step (s : StatusMonitor η) :
    MonitorEvent η → Except (Option Fault) (Option (Str × η) × StatusMonitor η)
  | .callback cb => .ok (none, { s with server := s.server.callback cb })
  | .read =>
    match s.serverStatusRaw with
    | some _ => .error none
    | none =>
      let raw := (s.server.shmObj.getValue (str "WebsocketServerStatus")).1
      if raw = s.currentServerStatus then .ok (none, s)
      else .ok (none, { s with serverStatusRaw := some raw })
  | .act =>
    match s.serverStatusRaw with
    | none => .error none
    | some raw =>
      match closes raw with
      | .error e => .error (some e)
      | .ok none => .ok (none, ⟨s.server, raw, none⟩)
      | .ok (some uri) => .ok ((close s.server uri).1, ⟨(close s.server uri).2, raw, none⟩)

end StatusMonitor

abbrev MonitorStep (η : Type) := Step (StatusMonitor η) (MonitorEvent η) (Option (Str × η))

abbrev MonitorRun {η : Type} (s₀ : StatusMonitor η) (h : List (MonitorStep η))
    (s : StatusMonitor η) : Prop :=
  Run (Graph StatusMonitor.step) s₀ h s

variable {η : Type}

/-- The callbacks of a history. -/
def callbacks : List (MonitorStep η) → List (Callback η)
  | [] => []
  | st :: past =>
    match st.input with
    | .callback cb => cb :: callbacks past
    | .read => callbacks past
    | .act => callbacks past

/-- The last callback of the uri was an opening one. -/
def OpenedLast (u : Str) : List (Callback η) → Prop
  | [] => False
  | .opened uri _ :: past => uri = u ∨ OpenedLast u past
  | .closed uri _ :: past => uri ≠ u ∧ OpenedLast u past

instance decidableOpenedLast (u : Str) : ∀ cbs : List (Callback η), Decidable (OpenedLast u cbs)
  | [] => .isFalse id
  | .opened _ _ :: past => @instDecidableOr _ _ _ (decidableOpenedLast u past)
  | .closed _ _ :: past => @instDecidableAnd _ _ _ (decidableOpenedLast u past)

/-- The uri of which the value that the step acts on says `CLOSE` or `FAILED`. -/
def actsOn (st : MonitorStep η) : Option Str :=
  match st.input, st.pre.serverStatusRaw with
  | .act, some raw => (StatusMonitor.closes raw).toOption.join
  | _, _ => none

/-- An act names no uri that was opened last. -/
def NotReopened (past : List (MonitorStep η)) (st : MonitorStep η) : Prop :=
  ∀ uri ∈ actsOn st, ¬ OpenedLast uri (callbacks past)

instance (past : List (MonitorStep η)) (st : MonitorStep η) : Decidable (NotReopened past st) :=
  inferInstanceAs (Decidable (∀ uri ∈ actsOn st, ¬ OpenedLast uri (callbacks past)))

variable [DecidableEq η]

/-- The step closes no connection that is open. -/
def ClosesNoneOpen (past : List (MonitorStep η)) (st : MonitorStep η) : Prop :=
  ∀ uri hdl, st.output = some (uri, hdl) → ∀ u, hdl ∉ openHandles u (callbacks past)

/-! ## The table -/

/-- The table has an entry for the uris that were opened last, of a connection
that is open. -/
structure Follows (cbs : List (Callback η)) (s : WebSocketServer η) : Prop where
  isSome : ∀ u, (s.connections.lookup u).isSome ↔ OpenedLast u cbs
  isOpen : ∀ u hdl, s.connections.lookup u = some hdl → hdl ∈ openHandles u cbs

theorem follows_start : Follows ([] : List (Callback η)) WebSocketServer.start :=
  ⟨fun _ => iff_of_false (by simp [WebSocketServer.start]) id, fun _ _ h => by cases h⟩

/-- **Step lemma** for a callback, whatever came before. -/
theorem follows_callback {cbs : List (Callback η)} {s : WebSocketServer η} (h : Follows cbs s)
    (cb : Callback η) : Follows (cb :: cbs) (s.callback cb) := by
  cases cb with
  | opened uri hdl =>
    have hlookup : ∀ u, (s.callback (.opened uri hdl)).connections.lookup u =
        if u = uri then some ((s.connections.lookup uri).getD hdl) else s.connections.lookup u :=
      fun u => lookup_mapInsert ..
    constructor
    · intro u
      rw [hlookup, OpenedLast]
      by_cases hu : u = uri
      · rw [if_pos hu]
        exact iff_of_true rfl (Or.inl hu.symm)
      · rw [if_neg hu, h.isSome]
        exact (or_iff_right (Ne.symm hu)).symm
    · intro u hdl' hl
      rw [hlookup] at hl
      unfold openHandles
      by_cases hu : u = uri
      · rw [if_pos hu] at hl
        rw [if_pos hu.symm, ← Option.some.inj hl]
        cases hold : s.connections.lookup uri with
        | none => exact List.mem_cons_self
        | some hdl'' => exact List.mem_cons_of_mem _ (h.isOpen u hdl'' (hu ▸ hold))
      · rw [if_neg hu] at hl
        rw [if_neg (Ne.symm hu)]
        exact h.isOpen u hdl' hl
  | closed uri hdl =>
    have hlookup : ∀ u, (s.callback (.closed uri hdl)).connections.lookup u =
        if u = uri then none else s.connections.lookup u := fun u => lookup_erase ..
    constructor
    · intro u
      rw [hlookup, OpenedLast]
      by_cases hu : u = uri
      · rw [if_pos hu]
        exact iff_of_false (fun hn => by cases hn) fun hn => hn.1 hu.symm
      · rw [if_neg hu, h.isSome]
        exact (and_iff_right (Ne.symm hu)).symm
    · intro u hdl' hl
      rw [hlookup] at hl
      by_cases hu : u = uri
      · rw [if_pos hu] at hl
        cases hl
      · rw [if_neg hu] at hl
        unfold openHandles
        rw [if_neg (Ne.symm hu)]
        exact h.isOpen u hdl' hl

/-! ## The acts -/

omit [DecidableEq η] in
/-- All that a step can do. -/
theorem StatusMonitor.step_cases {s s' : StatusMonitor η} {e : MonitorEvent η}
    {o : Option (Str × η)} (h : s.step e = .ok (o, s')) :
    (∃ cb, e = .callback cb ∧ o = none ∧ s'.server = s.server.callback cb) ∨
    (∀ cb, e ≠ .callback cb) ∧ ((o = none ∧ s'.server = s.server ∧
        actsOn ⟨s, e, o, s'⟩ = none) ∨
      ∃ uri, actsOn ⟨s, e, o, s'⟩ = some uri ∧ o = (StatusMonitor.close s.server uri).1 ∧
        s'.server = (StatusMonitor.close s.server uri).2) := by
  cases e with
  | callback cb =>
    obtain ⟨rfl, rfl⟩ := Prod.mk.inj (Except.ok.inj h)
    exact Or.inl ⟨cb, rfl, rfl, rfl⟩
  | read =>
    refine Or.inr ⟨(fun _ hn => by cases hn), Or.inl ?_⟩
    simp only [step] at h
    split at h
    · cases h
    · split_ifs at h
      · obtain ⟨rfl, rfl⟩ := Prod.mk.inj (Except.ok.inj h)
        exact ⟨rfl, rfl, rfl⟩
      · obtain ⟨rfl, rfl⟩ := Prod.mk.inj (Except.ok.inj h)
        exact ⟨rfl, rfl, rfl⟩
  | act =>
    refine Or.inr ⟨(fun _ hn => by cases hn), ?_⟩
    simp only [step] at h
    split at h
    · cases h
    · rename_i raw hraw
      split at h
      · cases h
      · rename_i hc
        obtain ⟨rfl, rfl⟩ := Prod.mk.inj (Except.ok.inj h)
        exact Or.inl ⟨rfl, rfl, by simp only [actsOn, hraw, hc]; rfl⟩
      · rename_i uri hc
        obtain ⟨rfl, rfl⟩ := Prod.mk.inj (Except.ok.inj h)
        exact Or.inr ⟨uri, by simp only [actsOn, hraw, hc]; rfl, rfl, rfl⟩

/-- **Step lemma.**  Where the table follows the callbacks, an act closes an open
connection exactly if it names a uri that was opened last. -/
theorem safe_iff {past : List (MonitorStep η)} {s s' : StatusMonitor η} {e : MonitorEvent η}
    {o : Option (Str × η)} (hf : Follows (callbacks past) s.server)
    (h : s.step e = .ok (o, s')) :
    ClosesNoneOpen past ⟨s, e, o, s'⟩ ↔ NotReopened past ⟨s, e, o, s'⟩ := by
  rcases StatusMonitor.step_cases h with ⟨cb, rfl, rfl, -⟩ | ⟨-, ⟨rfl, -, hno⟩ | ⟨uri, hact, ho, -⟩⟩
  · exact iff_of_true (fun _ _ hn => by cases hn) fun _ hn => by cases hn
  · refine iff_of_true (fun _ _ hn => by cases hn) fun uri hn => ?_
    rw [hno] at hn
    cases hn
  · constructor
    · intro hsafe u hu hopen
      obtain rfl := Option.some.inj (hact.symm.trans hu)
      obtain ⟨hdl, hl⟩ := Option.isSome_iff_exists.mp ((hf.isSome uri).mpr hopen)
      have hout : o = some (uri, hdl) := by
        rw [ho, StatusMonitor.close, hl]
      exact hsafe uri hdl hout uri (hf.isOpen uri hdl hl)
    · intro hno u hdl hout
      have hnone : s.server.connections.lookup uri = none := by
        rw [← Option.not_isSome_iff_eq_none, hf.isSome]
        exact hno uri hact
      have hnil : o = none := by rw [ho, StatusMonitor.close, hnone]
      rw [hnil] at hout
      cases hout

/-- A step that names no uri opened last keeps the table following. -/
theorem follows_step {past : List (MonitorStep η)} {s s' : StatusMonitor η} {e : MonitorEvent η}
    {o : Option (Str × η)} (hf : Follows (callbacks past) s.server) (h : s.step e = .ok (o, s'))
    (hno : NotReopened past ⟨s, e, o, s'⟩) :
    Follows (callbacks (⟨s, e, o, s'⟩ :: past)) s'.server := by
  have hsame : (∀ cb, e ≠ .callback cb) → callbacks (⟨s, e, o, s'⟩ :: past) = callbacks past := by
    intro hn
    cases e with
    | callback cb => exact absurd rfl (hn cb)
    | read => rfl
    | act => rfl
  rcases StatusMonitor.step_cases h with ⟨cb, rfl, rfl, hs⟩ |
    ⟨hn, ⟨rfl, hs, -⟩ | ⟨uri, hact, ho, hs⟩⟩
  · rw [hs]
    exact follows_callback hf cb
  · rw [hsame hn, hs]
    exact hf
  · have hnone : s.server.connections.lookup uri = none := by
      rw [← Option.not_isSome_iff_eq_none, hf.isSome]
      exact hno uri hact
    rw [hsame hn, hs, StatusMonitor.close, hnone]
    exact hf

/-- **The monitor closes no open connection** exactly as long as no act names a uri
whose last callback is an opening one. -/
theorem monitor_iff {h : List (MonitorStep η)} {s : StatusMonitor η}
    (hr : MonitorRun .start h s) : Each ClosesNoneOpen h ↔ Each NotReopened h :=
  hr.each_iff_each (J := fun past s => Follows (callbacks past) s.server) follows_start
    (fun _ hf hst => safe_iff hf hst) (fun _ hf hst hno => follows_step hf hst hno)

/-- The gate reconnects when its first connection closes, before the monitor acts. -/
def reconnectsInBetween : List (MonitorEvent ℕ) :=
  [.callback (.opened (str "/Gate1") 1), .callback (.closed (str "/Gate1") 1), .read,
    .callback (.opened (str "/Gate1") 2), .act]

/-- The new connection is open, and the monitor closes it. -/
theorem reconnected_gate_dropped :
    ∃ h s, MonitorRun .start h s ∧ Each Legal (callbacks h) ∧
      openHandles (str "/Gate1") (callbacks h.tail) = [2] ∧
      s.server.connections.lookup (str "/Gate1") = none ∧ ¬ Each ClosesNoneOpen h := by
  obtain ⟨h, s, hr, hlegal, hopen, hlook, st, hst, hout⟩ : ∃ h s, MonitorRun .start h s ∧
      (Each Legal (callbacks h) ∧ openHandles (str "/Gate1") (callbacks h.tail) = [2] ∧
        s.server.connections.lookup (str "/Gate1") = none ∧
        ∃ st ∈ h.head?, st.output = some (str "/Gate1", 2)) :=
    exists_run_of_execute reconnectsInBetween _ rfl
  refine ⟨h, s, hr, hlegal, hopen, hlook, fun hsafe => ?_⟩
  obtain ⟨past, rfl⟩ := List.head?_eq_some_iff.mp hst
  refine hsafe.1 _ _ hout (str "/Gate1") ?_
  rw [List.tail_cons] at hopen
  rw [hopen]
  exact List.mem_singleton_self 2

/-- A gate that closes its connection and does not come back. -/
theorem monitor_iff_gate_gone :
    ∃ h s, MonitorRun (η := ℕ) .start h s ∧ callbacks h ≠ [] ∧ s.serverStatusRaw = none ∧
      Each ClosesNoneOpen h := by
  obtain ⟨h, s, hr, hne, hraw, hno⟩ : ∃ h s, MonitorRun (η := ℕ) .start h s ∧
      (callbacks h ≠ [] ∧ s.serverStatusRaw = none ∧ Each NotReopened h) :=
    exists_run_of_execute
      [.callback (.opened (str "/Gate1") 1), .callback (.closed (str "/Gate1") 1), .read, .act]
      _ rfl
  exact ⟨h, s, hr, hne, hraw, (monitor_iff hr).mpr hno⟩

end ParkManager
