import ParkManager.BoostShmObj
import ParkManager.Lib.History
import ParkManager.Lib.MapCount

/-!
# The web-socket server

The connection table by uri, the one status word for all connections, and what
the open and close callbacks do with them.  `η` is the type of the connection
handles.

Proved here, for every history of callbacks in which a handle is opened once and
closed at most once after that:

* `tracks_iff`: the table follows the open connections exactly as long as no
  connection of a uri opens while another of that uri is still open;
* `lookup_of_one`, `status_after`: the table and the status word after a history
  in which every uri has at most one open connection;
* `send_iff`: a message to an open connection goes out exactly when the last
  callback, of whatever uri, was an opening one;
* `silenced`, `stale_handle`: a gate that goes away silences another one, and a
  gate that reconnects is left with the handle of its old connection.
-/

namespace ParkManager

open History

/-- `enum WebSocketStatus`. -/
inductive WebSocketStatus
  | init
  | connecting
  | opened
  | failed
  | closed
  deriving DecidableEq, Repr

def WebSocketStatus.toNat : WebSocketStatus → ℕ
  | init => 0
  | connecting => 1
  | opened => 2
  | failed => 3
  | closed => 4

structure WebSocketServer (η : Type) where
  status : WebSocketStatus
  connections : AList fun _ : Str => η
  shmObj : BoostShmObj

/-- A call of `on_open` or `on_close`, with the uri of the connection. -/
inductive Callback (η : Type)
  | opened (uri : Str) (hdl : η)
  | closed (uri : Str) (hdl : η)
  deriving DecidableEq, Repr

def Callback.uri {η : Type} : Callback η → Str
  | opened uri _ => uri
  | closed uri _ => uri

namespace WebSocketServer

variable {η : Type}

/-- Publishing the status of a uri in the shared memory. -/
def publish (o : BoostShmObj) (uri : Str) (status : WebSocketStatus) : BoostShmObj :=
  (o.setValue (str "WebsocketServerStatus") (uri ++ str "#" ++ decimal status.toNat)).1

/-- The constructor. -/
def start : WebSocketServer η where
  status := .init
  connections := ∅
  shmObj := publish .zeroed [] .init

/-- `std::map::insert`: an entry that exists stays. -/
def mapInsert (m : AList fun _ : Str => η) (uri : Str) (hdl : η) : AList fun _ : Str => η :=
  if (m.lookup uri).isSome then m else m.insert uri hdl

/-- `on_open`. -/
def onOpen (s : WebSocketServer η) (uri : Str) (hdl : η) : WebSocketServer η where
  status := .opened
  connections := mapInsert s.connections uri hdl
  shmObj := publish s.shmObj uri .opened

/-- `on_close`: the entry of the uri goes, whatever handle it holds. -/
def onClose (s : WebSocketServer η) (uri : Str) (_hdl : η) : WebSocketServer η where
  status := .closed
  connections := s.connections.erase uri
  shmObj := publish s.shmObj uri .closed

def callback (s : WebSocketServer η) : Callback η → WebSocketServer η
  | .opened uri hdl => s.onOpen uri hdl
  | .closed uri hdl => s.onClose uri hdl

/-- The server after a history of callbacks, newest first. -/
def after : List (Callback η) → WebSocketServer η
  | [] => start
  | cb :: past => (after past).callback cb

/-- The loop of `SendMessage` with `n` attempts left: whether `m_server.send` was
reached and reported no error before they ran out. -/
def trySend (s : WebSocketServer η) (send : ℕ → η → Str → Bool) (hdl : η) (message : Str) :
    ℕ → Bool
  | 0 => false
  | n + 1 => (decide (s.status = .opened) && send n hdl message) || trySend s send hdl message n

/-- `SendMessage` with no callback during the call: the connection the message
went out on, or `none` where it returned `false`.  `send` says for each attempt
whether `m_server.send` reports no error. -/
def sendMessage (s : WebSocketServer η) (send : ℕ → η → Str → Bool) (uri message : Str) :
    Option η :=
  match s.connections.lookup uri with
  | some hdl => if s.trySend send hdl message 6 then some hdl else none
  | none => none

end WebSocketServer

open WebSocketServer

variable {η : Type} [DecidableEq η]

/-! ## The connections that are open -/

/-- The open connections of a uri, the most recently opened one first. -/
def openHandles (u : Str) : List (Callback η) → List η
  | [] => []
  | .opened uri hdl :: past =>
    if uri = u then hdl :: openHandles u past else openHandles u past
  | .closed uri hdl :: past =>
    if uri = u then (openHandles u past).erase hdl else openHandles u past

/-- A handle is opened once, and closed at most once after that. -/
def Legal (past : List (Callback η)) : Callback η → Prop
  | .opened _ hdl => ∀ cb ∈ past, cb ≠ .opened cb.uri hdl
  | .closed uri hdl => hdl ∈ openHandles uri past

/-- The uri of a connection that opens has no other open connection. -/
def NoOverlap (past : List (Callback η)) : Callback η → Prop
  | .opened uri _ => openHandles uri past = []
  | .closed _ _ => True

/-- After the callback the table has, for every uri, the most recently opened of
its open connections, and no entry where there is none. -/
def Tracks (past : List (Callback η)) (cb : Callback η) : Prop :=
  ∀ u, (after (cb :: past)).connections.lookup u = (openHandles u (cb :: past)).head?

instance (past : List (Callback η)) : ∀ cb, Decidable (Legal past cb)
  | .opened _ hdl => inferInstanceAs (Decidable (∀ cb ∈ past, cb ≠ .opened cb.uri hdl))
  | .closed uri hdl => inferInstanceAs (Decidable (hdl ∈ openHandles uri past))

instance (past : List (Callback η)) : ∀ cb, Decidable (NoOverlap past cb)
  | .opened uri _ => inferInstanceAs (Decidable (openHandles uri past = []))
  | .closed _ _ => .isTrue trivial

theorem opened_of_mem_openHandles {u : Str} {hdl : η} {h : List (Callback η)}
    (hm : hdl ∈ openHandles u h) : .opened u hdl ∈ h := by
  induction h with
  | nil => cases hm
  | cons cb past ih =>
    cases cb with
    | opened uri hdl' =>
      unfold openHandles at hm
      split_ifs at hm with hu
      · subst hu
        rcases List.mem_cons.mp hm with rfl | hm
        · exact List.mem_cons_self
        · exact List.mem_cons_of_mem _ (ih hm)
      · exact List.mem_cons_of_mem _ (ih hm)
    | closed uri hdl' =>
      unfold openHandles at hm
      split_ifs at hm
      · exact List.mem_cons_of_mem _ (ih (List.mem_of_mem_erase hm))
      · exact List.mem_cons_of_mem _ (ih hm)

/-! ## The connection table -/

omit [DecidableEq η] in
theorem lookup_mapInsert (m : AList fun _ : Str => η) (uri u : Str) (hdl : η) :
    (mapInsert m uri hdl).lookup u =
      if u = uri then some ((m.lookup uri).getD hdl) else m.lookup u := by
  unfold mapInsert
  cases hl : m.lookup uri with
  | none =>
    rw [if_neg (by simp), MapCount.lookup_insert_eq_if]
    rfl
  | some hdl' =>
    rw [if_pos Option.isSome_some]
    by_cases hu : u = uri
    · rw [if_pos hu, hu, hl]
      rfl
    · rw [if_neg hu]

omit [DecidableEq η] in
theorem lookup_erase (m : AList fun _ : Str => η) (uri u : Str) :
    (m.erase uri).lookup u = if u = uri then none else m.lookup u := by
  by_cases hu : u = uri
  · rw [if_pos hu, hu, AList.lookup_erase]
  · rw [if_neg hu, AList.lookup_erase_ne hu]

/-- The table holds the open connections, of which no uri has two. -/
def OneEach (h : List (Callback η)) : Prop :=
  ∀ u, (after h).connections.lookup u = (openHandles u h).head? ∧ (openHandles u h).length ≤ 1

/-- **Step lemma** for a callback that opens no second connection of a uri. -/
theorem oneEach_step {past : List (Callback η)} {cb : Callback η} (hl : Legal past cb)
    (hp : OneEach past) (hno : NoOverlap past cb) : OneEach (cb :: past) := by
  intro u
  obtain ⟨hlook, hlen⟩ := hp u
  cases cb with
  | opened uri hdl =>
    have hlookup : (after (.opened uri hdl :: past)).connections.lookup u =
        if u = uri then some (((after past).connections.lookup uri).getD hdl)
        else (after past).connections.lookup u := lookup_mapInsert ..
    have hnil : openHandles uri past = [] := hno
    rw [hlookup, (hp uri).1, hnil, openHandles]
    by_cases hu : u = uri
    · subst hu
      rw [if_pos rfl, if_pos rfl, hnil]
      exact ⟨rfl, le_rfl⟩
    · rw [if_neg hu, if_neg (Ne.symm hu)]
      exact ⟨hlook, hlen⟩
  | closed uri hdl =>
    have hlookup : (after (.closed uri hdl :: past)).connections.lookup u =
        if u = uri then none else (after past).connections.lookup u := lookup_erase ..
    rw [hlookup, openHandles]
    by_cases hu : u = uri
    · subst hu
      have hmem : hdl ∈ openHandles u past := hl
      obtain ⟨hdl', hone⟩ : ∃ hdl', openHandles u past = [hdl'] :=
        List.length_eq_one_iff.mp (le_antisymm hlen (List.length_pos_of_mem hmem))
      rw [hone, List.mem_singleton] at hmem
      subst hmem
      rw [if_pos rfl, if_pos rfl, hone]
      simp
    · rw [if_neg hu, if_neg (Ne.symm hu)]
      exact ⟨hlook, hlen⟩

theorem oneEach_nil : OneEach ([] : List (Callback η)) := fun _ => ⟨rfl, Nat.zero_le 1⟩

/-- **The connection table tracks the open connections** exactly as long as no
connection opens while another one of its uri is open. -/
theorem tracks_iff {h : List (Callback η)} (hl : Each Legal h) :
    Each Tracks h ↔ Each NoOverlap h := by
  refine hl.iff_each (J := OneEach) oneEach_nil ?_ fun past cb => oneEach_step
  intro past cb hcb hp
  constructor
  · intro ht
    cases cb with
    | closed uri hdl => trivial
    | opened uri hdl =>
      have hlookup : (after (.opened uri hdl :: past)).connections.lookup uri =
          some (((after past).connections.lookup uri).getD hdl) :=
        (lookup_mapInsert ..).trans (if_pos rfl)
      have huri := ht uri
      rw [hlookup, openHandles, if_pos rfl, List.head?_cons, Option.some.injEq, (hp uri).1] at huri
      cases ho : openHandles uri past with
      | nil => exact ho
      | cons hdl' rest =>
        rw [ho, List.head?_cons, Option.getD_some] at huri
        -- the old handle stayed in the table, although a new one was opened
        have hmem : hdl' ∈ openHandles uri past := by rw [ho]; exact List.mem_cons_self
        exact absurd (by rw [huri]; rfl) (hcb _ (opened_of_mem_openHandles hmem))
  · intro hno u
    exact (oneEach_step hcb hp hno u).1

/-! ## Sending -/

/-- With at most one open connection per uri the table has that connection. -/
theorem lookup_of_one {h : List (Callback η)} (hl : Each Legal h) (hone : Each NoOverlap h)
    {uri : Str} {hdl : η} (ho : hdl ∈ openHandles uri h) :
    (after h).connections.lookup uri = some hdl := by
  have hj : OneEach h := (hl.and hone).invariant (J := OneEach) oneEach_nil
    fun past cb hcb hp => oneEach_step hcb.1 hp hcb.2
  obtain ⟨hlook, hlen⟩ := hj uri
  obtain ⟨hdl', h1⟩ : ∃ hdl', openHandles uri h = [hdl'] :=
    List.length_eq_one_iff.mp (le_antisymm hlen (List.length_pos_of_mem ho))
  rw [h1, List.mem_singleton] at ho
  rw [hlook, h1, ho]
  rfl

/-- The last callback, of whatever uri, was an opening one. -/
def LastOpened : List (Callback η) → Prop
  | .opened _ _ :: _ => True
  | _ => False

omit [DecidableEq η] in
theorem status_after (h : List (Callback η)) : (after h).status = .opened ↔ LastOpened h := by
  match h with
  | [] => exact iff_of_false (fun e => by cases e) id
  | .opened _ _ :: _ => exact iff_of_true rfl trivial
  | .closed _ _ :: _ => exact iff_of_false (fun e => by cases e) id

omit [DecidableEq η] in
theorem trySend_iff {s : WebSocketServer η} {send : ℕ → η → Str → Bool} {hdl : η} {message : Str}
    (hsend : ∀ n, send n hdl message = true) (n : ℕ) :
    s.trySend send hdl message (n + 1) = true ↔ s.status = .opened := by
  induction n with
  | zero => simp [trySend, hsend]
  | succ n ih =>
    rw [trySend, Bool.or_eq_true, ih]
    simp [hsend]

/-- **A send to an open connection** goes out exactly when the last callback was an
opening one. -/
theorem send_iff {h : List (Callback η)} (hl : Each Legal h) (hone : Each NoOverlap h)
    {send : ℕ → η → Str → Bool}
    (hsend : ∀ n uri hdl message, hdl ∈ openHandles uri h → send n hdl message = true)
    {uri : Str} {hdl : η} (ho : hdl ∈ openHandles uri h) (message : Str) :
    (after h).sendMessage send uri message = some hdl ↔ LastOpened h := by
  have ht : (after h).trySend send hdl message 6 = true ↔ (after h).status = .opened :=
    trySend_iff (fun n => hsend n uri hdl message ho) 5
  rw [← status_after, ← ht]
  simp only [sendMessage, lookup_of_one hl hone ho]
  cases (after h).trySend send hdl message 6 <;> simp

/-- Gate 1 stays connected, gate 2 comes and goes. -/
def cameAndWent : List (Callback ℕ) :=
  [.closed (str "/Gate2") 2, .opened (str "/Gate2") 2, .opened (str "/Gate1") 1]

/-- A gate that goes away silences another one. -/
theorem silenced :
    Each Legal cameAndWent ∧ Each NoOverlap cameAndWent ∧
    1 ∈ openHandles (str "/Gate1") cameAndWent ∧
    ∀ send message, (after cameAndWent).sendMessage send (str "/Gate1") message = none := by
  refine ⟨by decide, by decide, by decide, fun send message => ?_⟩
  have hstatus : (after cameAndWent).status ≠ .opened := by decide
  have htry : ∀ n, (after cameAndWent).trySend send 1 message n = false := by
    intro n
    induction n with
    | zero => rfl
    | succ n ih => rw [trySend, ih, decide_eq_false hstatus]; rfl
  have hlook : (after cameAndWent).connections.lookup (str "/Gate1") = some 1 := rfl
  simp only [sendMessage, hlook, htry, Bool.false_eq_true, ↓reduceIte]

theorem send_iff_two_gates :
    (after [Callback.opened (str "/Gate2") 2, .opened (str "/Gate1") 1]).sendMessage
      (fun _ _ _ => true) (str "/Gate1") (str "[1]") = some 1 :=
  (send_iff (h := [Callback.opened (str "/Gate2") 2, .opened (str "/Gate1") 1]) (by decide)
    (by decide) (fun _ _ _ _ _ => rfl) (by decide) (str "[1]")).mpr trivial

/-- Gate 1 reconnects before its old connection is seen to close. -/
def reconnected : List (Callback ℕ) :=
  [.closed (str "/Gate1") 1, .opened (str "/Gate1") 2, .opened (str "/Gate1") 1]

/-- The new connection is open, but the table has no entry for it. -/
theorem stale_handle :
    Each Legal reconnected ∧ openHandles (str "/Gate1") reconnected = [2] ∧
    (after reconnected).connections.lookup (str "/Gate1") = none ∧ ¬ Each Tracks reconnected := by
  have hopen : openHandles (str "/Gate1") reconnected = [2] := by decide
  have hlook : (after reconnected).connections.lookup (str "/Gate1") = none := rfl
  refine ⟨by decide, hopen, hlook, fun ht => ?_⟩
  have h := ht.1 (str "/Gate1")
  change (after reconnected).connections.lookup (str "/Gate1") =
    (openHandles (str "/Gate1") reconnected).head? at h
  rw [hlook, hopen] at h
  cases h

theorem tracks_two_gates :
    Each Tracks cameAndWent :=
  (tracks_iff (h := cameAndWent) (by decide)).mpr (by decide)

end ParkManager
