import ParkManager.StatusMonitor
import ParkManager.SharedMap
import ParkManager.Lib.Split

/-!
# Status records

What `on_open` and `on_close` store for `RunServer`, and what `RunServer` makes of it.
A record is the uri, a `#` and the status; it goes through a field of 5000 bytes.

Proved here:

* `read_published`: what is read back is the record up to its first NUL, and of this
  the first 5000 bytes;
* `status_record_iff`: a record survives exactly if its uri fits; `long_uri_ends_monitor`
  is one that does not;
* `monitor_alive`: as long as all uris fit, the monitor acts on records only, and never
  throws.
-/

namespace ParkManager

open History WebSocketServer

/-! ## Writing and reading a record -/

/-- The status a callback publishes. -/
def Callback.status {η : Type} : Callback η → WebSocketStatus
  | opened _ _ => .opened
  | closed _ _ => .closed

/-- The value that is stored for a uri. -/
def record (uri : Str) (status : WebSocketStatus) : Str := uri ++ str "#" ++ decimal status.toNat

/-- A value that is read as a uri and a status consists of the two. -/
theorem readStatus_some_iff {raw uri : Str} {n : ℤ} :
    readStatus raw = .ok (some (uri, n)) ↔
      ∃ item, raw = uri ++ ch '#' :: item ∧ ch '#' ∉ uri ∧ ch '#' ∉ item ∧
        stoi (cstr item) = .ok n := by
  unfold readStatus
  constructor
  · intro h
    by_cases hlen : (raw.splitOn (ch '#')).length = 2
    · obtain ⟨a, b, hab⟩ := List.length_eq_two.mp hlen
      have h0 : vectorAt [a, b] 0 = .ok a := rfl
      have h1 : vectorAt [a, b] 1 = .ok b := rfl
      simp only [hab, List.length_cons, List.length_nil, Nat.zero_add, Nat.reduceAdd, ne_eq,
        not_true_eq_false, ↓reduceIte, h0, h1, bind, Except.bind, pure, Except.pure] at h
      obtain ⟨hraw, ha, hb⟩ := Split.splitOn_eq_pair_iff.mp hab
      cases hn : stoi (cstr b) with
      | error e =>
        rw [hn] at h
        cases h
      | ok m =>
        rw [hn] at h
        cases h
        exact ⟨b, hraw, ha, hb, hn⟩
    · simp only [hlen, ne_eq, not_false_eq_true, ↓reduceIte] at h
      cases h
  · rintro ⟨item, hraw, hu, hi, hn⟩
    have hab := Split.splitOn_eq_pair_iff.mpr ⟨hraw, hu, hi⟩
    have h0 : vectorAt [uri, item] 0 = .ok uri := rfl
    have h1 : vectorAt [uri, item] 1 = .ok item := rfl
    simp only [hab, List.length_cons, List.length_nil, Nat.zero_add, Nat.reduceAdd, ne_eq,
      not_true_eq_false, ↓reduceIte, h0, h1, bind, Except.bind, hn, pure, Except.pure]

/-! ## The store -/

/-- No element but the first has been written, and that one for the status only. -/
def StatusOnly (o : BoostShmObj) : Prop :=
  ∃ e, o.element = e :: List.replicate 49 zeroElement ∧
    (e = zeroElement ∨ e.name = strncpy (str "WebsocketServerStatus") maxlenName)

theorem statusOnly_zeroed : StatusOnly .zeroed := ⟨zeroElement, rfl, Or.inl rfl⟩

theorem publish_element {o : BoostShmObj} (h : StatusOnly o) (uri : Str)
    (status : WebSocketStatus) :
    (publish o uri status).element =
      encode (str "WebsocketServerStatus", record uri status) ::
        List.replicate 49 zeroElement := by
  obtain ⟨e, he, hname⟩ := h
  have hkey : cstr (str "WebsocketServerStatus") = str "WebsocketServerStatus" :=
    cstr_eq_self (by decide)
  have hset : setElement (str "WebsocketServerStatus") (record uri status) o.element =
      some (encode (str "WebsocketServerStatus", record uri status) ::
        List.replicate 49 zeroElement) := by
    rw [he, setElement, if_pos, encode]
    rcases hname with rfl | hname
    · exact Or.inl rfl
    · refine Or.inr ?_
      rw [SharedObjectElement.readName, hname, List.append_assoc, hkey]
      exact cstr_strncpy (by decide) (by decide) _
  change (o.setValue (str "WebsocketServerStatus") (record uri status)).1.element = _
  unfold BoostShmObj.setValue
  split
  · rename_i es hes
    rw [hset] at hes
    exact (Option.some.inj hes).symm
  · rename_i hes
    rw [hset] at hes
    cases hes

theorem statusOnly_publish {o : BoostShmObj} (h : StatusOnly o) (uri : Str)
    (status : WebSocketStatus) : StatusOnly (publish o uri status) :=
  ⟨_, publish_element h uri status, Or.inr rfl⟩

/-- In front of a NUL a field is read as far as it was filled, even without a
terminator of its own. -/
theorem cstr_strncpy_zero (source : Str) (n : ℕ) (rest : Str) :
    cstr (strncpy source n ++ 0 :: rest) = (cstr source).take n := by
  have hpad : ∀ k, List.replicate k (0 : UInt8) ++ 0 :: rest =
      0 :: (List.replicate k 0 ++ rest) := by
    intro k
    rw [← List.singleton_append, ← List.append_assoc, ← List.replicate_succ',
      List.replicate_succ, List.cons_append]
  have h0 : 0 ∉ (cstr source).take n := fun h => zero_notMem_cstr source (List.mem_of_mem_take h)
  rw [strncpy, List.append_assoc, hpad, cstr_append_zero h0]

/-- What is read back after a record was stored. -/
theorem read_published {o : BoostShmObj} (h : StatusOnly o) (uri : Str)
    (status : WebSocketStatus) :
    (publish o uri status).getValue (str "WebsocketServerStatus") =
      ((cstr (record uri status)).take maxlenValue, true) := by
  have hkey : GoodKey (str "WebsocketServerStatus") := ⟨by decide, by decide, by decide⟩
  have hzero : elementBytes (List.replicate 49 zeroElement) =
      0 :: (elementBytes (List.replicate 49 zeroElement)).tail := rfl
  have hvalue : (encode (str "WebsocketServerStatus", record uri status)).readValue
      (List.replicate 49 zeroElement) = (cstr (record uri status)).take maxlenValue := by
    rw [SharedObjectElement.readValue, hzero]
    exact cstr_strncpy_zero ..
  unfold BoostShmObj.getValue
  rw [publish_element h, getElement, readName_encode hkey, if_pos (cstr_eq_self hkey.2.1).symm,
    hvalue]

theorem statusOnly_after {η : Type} (h : List (Callback η)) : StatusOnly (after h).shmObj := by
  induction h with
  | nil => exact statusOnly_publish statusOnly_zeroed [] .init
  | cons cb past ih =>
    cases cb with
    | opened uri hdl => exact statusOnly_publish ih uri .opened
    | closed uri hdl => exact statusOnly_publish ih uri .closed

theorem shmObj_callback {η : Type} (s : WebSocketServer η) (cb : Callback η) :
    (s.callback cb).shmObj = publish s.shmObj cb.uri cb.status := by
  cases cb <;> rfl

/-! ## Records that survive -/

/-- The uri has no NUL and no `#`, and leaves room for a `#` and a digit. -/
structure FitsMailbox (uri : Str) : Prop where
  nul : 0 ∉ uri
  hash : ch '#' ∉ uri
  length : uri.length + 2 ≤ maxlenValue

theorem status_text (status : WebSocketStatus) :
    stoi (cstr (decimal status.toNat)) = .ok (status.toNat : ℤ) ∧
      (decimal status.toNat).length = 1 ∧ 0 ∉ decimal status.toNat ∧
      ch '#' ∉ decimal status.toNat := by
  cases status <;> decide

theorem record_eq (uri : Str) (status : WebSocketStatus) :
    record uri status = uri ++ ch '#' :: decimal status.toNat := by
  simp [record, show str "#" = [ch '#'] by decide]

/-- A record whose uri fits is read back as it was stored. -/
theorem take_record {uri : Str} (h : FitsMailbox uri) (status : WebSocketStatus) :
    (cstr (record uri status)).take maxlenValue = record uri status := by
  obtain ⟨-, hlen, h0, -⟩ := status_text status
  have hnul : 0 ∉ record uri status := by
    rw [record_eq, List.mem_append, List.mem_cons, not_or, not_or]
    exact ⟨h.nul, by decide, h0⟩
  rw [cstr_eq_self hnul, List.take_of_length_le]
  rw [record_eq, List.length_append, List.length_cons, hlen]
  exact h.length

theorem readStatus_record {uri : Str} (h : FitsMailbox uri) (status : WebSocketStatus) :
    readStatus (record uri status) = .ok (some (uri, (status.toNat : ℤ))) := by
  obtain ⟨hnum, -, -, hhash⟩ := status_text status
  exact readStatus_some_iff.mpr ⟨_, record_eq uri status, h.hash, hhash, hnum⟩

theorem readStatus_take_iff (uri : Str) (status : WebSocketStatus) :
    readStatus ((cstr (record uri status)).take maxlenValue) =
      .ok (some (uri, (status.toNat : ℤ))) ↔ FitsMailbox uri := by
  constructor
  · intro h
    obtain ⟨item, hraw, hhash, -, hnum⟩ := readStatus_some_iff.mp h
    have hnul : 0 ∉ (cstr (record uri status)).take maxlenValue := fun h0 =>
      zero_notMem_cstr _ (List.mem_of_mem_take h0)
    have hlen : ((cstr (record uri status)).take maxlenValue).length ≤ maxlenValue :=
      List.length_take_le _ _
    have hitem : item ≠ [] := by
      rintro rfl
      cases hnum
    have hpos := List.length_pos_of_ne_nil hitem
    rw [hraw] at hnul hlen
    rw [List.length_append, List.length_cons] at hlen
    exact ⟨fun h0 => hnul (List.mem_append_left _ h0), hhash, by omega⟩
  · intro h
    rw [take_record h]
    exact readStatus_record h status

/-- **Status records survive the mailbox** exactly if the uri has no NUL and no `#`
and at most 4998 bytes. -/
theorem status_record_iff {η : Type} (past : List (Callback η)) (cb : Callback η) :
    (readStatus ((after (cb :: past)).shmObj.getValue (str "WebsocketServerStatus")).1 =
        .ok (some (cb.uri, (cb.status.toNat : ℤ))) ∧
      ∃ found, StatusMonitor.closes
        ((after (cb :: past)).shmObj.getValue (str "WebsocketServerStatus")).1 = .ok found) ↔
    FitsMailbox cb.uri := by
  have hread : ((after (cb :: past)).shmObj.getValue (str "WebsocketServerStatus")).1 =
      (cstr (record cb.uri cb.status)).take maxlenValue := by
    rw [after, shmObj_callback, read_published (statusOnly_after past)]
  rw [hread, ← readStatus_take_iff cb.uri cb.status]
  refine and_iff_left_of_imp fun h => ⟨connectionToClose cb.uri cb.status.toNat, ?_⟩
  rw [StatusMonitor.closes, h]
  rfl

/-- One character too many for the status. -/
def longUri : Str := List.replicate 4999 (ch 'a')

theorem mem_longUri {b : UInt8} (h : b ∈ longUri) : b = ch 'a' := (List.mem_replicate.mp h).2

/-- The status of the long uri is cut off. -/
theorem read_longUri :
    (after [Callback.opened longUri 1]).shmObj.getValue (str "WebsocketServerStatus") =
      (longUri ++ [ch '#'], true) := by
  have hrecord : record longUri .opened = longUri ++ ch '#' :: decimal 2 := record_eq ..
  have hnul : 0 ∉ record longUri .opened := by
    rw [hrecord, List.mem_append]
    rintro (h | h)
    · exact absurd (mem_longUri h) (by decide)
    · exact absurd h (by decide)
  have hlen : longUri.length = 4999 := List.length_replicate
  have htake : (cstr (record longUri .opened)).take maxlenValue = longUri ++ [ch '#'] := by
    rw [cstr_eq_self hnul, hrecord, List.take_append, hlen,
      List.take_of_length_le (by rw [hlen]; decide)]
    rfl
  have hread := read_published (statusOnly_after ([] : List (Callback ℕ))) longUri .opened
  rw [htake] at hread
  exact hread

/-- A connection under the long uri opens, and the monitor ends with an exception. -/
theorem long_uri_ends_monitor :
    readStatus ((after [Callback.opened longUri 1]).shmObj.getValue
      (str "WebsocketServerStatus")).1 = .error .invalidArgument ∧
    ∃ h s, MonitorRun (.start : StatusMonitor ℕ) h s ∧ callbacks h = [.opened longUri 1] ∧
      s.step .act = .error (some .invalidArgument) := by
  have hsplit : (longUri ++ [ch '#']).splitOn (ch '#') = [longUri, []] := by
    refine Split.splitOn_eq_pair_iff.mpr ⟨rfl, fun h => ?_, List.not_mem_nil⟩
    exact absurd (mem_longUri h) (by decide)
  have hstatus : readStatus (longUri ++ [ch '#']) = .error .invalidArgument := by
    rw [readStatus, hsplit]
    rfl
  let opened : StatusMonitor ℕ := ⟨after [.opened longUri 1], [], none⟩
  have hcall : History.Graph StatusMonitor.step .start (.callback (.opened longUri 1)) none
      opened := rfl
  have hget : History.Graph StatusMonitor.step opened .read none
      ⟨after [.opened longUri 1], [], some (longUri ++ [ch '#'])⟩ := by
    have hne : longUri ++ [ch '#'] ≠ [] := List.append_ne_nil_of_right_ne_nil _ (by simp)
    unfold History.Graph StatusMonitor.step
    simp only [opened, read_longUri, hne, ↓reduceIte]
  refine ⟨?_, _, _, .next (.next .start hcall) hget, rfl, ?_⟩
  · rw [read_longUri]
    exact hstatus
  · simp only [StatusMonitor.step, StatusMonitor.closes, hstatus]
    rfl

/-! ## A monitor that stays alive -/

/-- The value is the record of one of the callbacks, or that of the constructor. -/
def IsRecord {η : Type} (cbs : List (Callback η)) (raw : Str) : Prop :=
  raw = record [] .init ∨ ∃ cb ∈ cbs, raw = record cb.uri cb.status

theorem IsRecord.mono {η : Type} {cbs : List (Callback η)} {raw : Str} (h : IsRecord cbs raw)
    (cb : Callback η) : IsRecord (cb :: cbs) raw := by
  rcases h with h | ⟨cb', hmem, h⟩
  · exact Or.inl h
  · exact Or.inr ⟨cb', List.mem_cons_of_mem _ hmem, h⟩

/-- What is stored, and what the monitor has read, are records. -/
structure ReadsRecords {η : Type} (cbs : List (Callback η)) (s : StatusMonitor η) : Prop where
  statusOnly : StatusOnly s.server.shmObj
  stored : IsRecord cbs (s.server.shmObj.getValue (str "WebsocketServerStatus")).1
  read : ∀ raw ∈ s.serverStatusRaw, IsRecord cbs raw

theorem fitsMailbox_nil : FitsMailbox [] := ⟨List.not_mem_nil, List.not_mem_nil, by decide⟩

theorem readsRecords_start {η : Type} : ReadsRecords ([] : List (Callback η)) .start where
  statusOnly := statusOnly_after ([] : List (Callback η))
  stored := by
    have hread := read_published statusOnly_zeroed [] .init
    rw [take_record fitsMailbox_nil] at hread
    exact Or.inl (congrArg Prod.fst hread)
  read := fun _ h => by cases h

/-- **Step lemma.** -/
theorem readsRecords_step {η : Type} {past : List (MonitorStep η)} {s s' : StatusMonitor η}
    {e : MonitorEvent η} {o : Option (Str × η)} (hs : ReadsRecords (callbacks past) s)
    (h : s.step e = .ok (o, s')) (hfit : ∀ cb, e = .callback cb → FitsMailbox cb.uri) :
    ReadsRecords (callbacks (⟨s, e, o, s'⟩ :: past)) s' := by
  cases e with
  | callback cb =>
    obtain ⟨-, rfl⟩ := Prod.mk.inj (Except.ok.inj h)
    have hread := read_published hs.statusOnly cb.uri cb.status
    rw [take_record (hfit cb rfl), ← shmObj_callback] at hread
    refine ⟨?_, Or.inr ⟨cb, List.mem_cons_self, congrArg Prod.fst hread⟩, fun raw hraw => ?_⟩
    · rw [shmObj_callback]
      exact statusOnly_publish hs.statusOnly cb.uri cb.status
    · exact (hs.read raw hraw).mono cb
  | read =>
    simp only [StatusMonitor.step] at h
    split at h
    · cases h
    · rename_i hnone
      split_ifs at h
      · obtain ⟨-, rfl⟩ := Prod.mk.inj (Except.ok.inj h)
        exact ⟨hs.statusOnly, hs.stored, hs.read⟩
      · obtain ⟨-, rfl⟩ := Prod.mk.inj (Except.ok.inj h)
        refine ⟨hs.statusOnly, hs.stored, fun raw hraw => ?_⟩
        rw [← Option.some.inj hraw]
        exact hs.stored
  | act =>
    have hclose : ∀ uri, (StatusMonitor.close s.server uri).2.shmObj = s.server.shmObj := by
      intro uri
      unfold StatusMonitor.close
      cases s.server.connections.lookup uri <;> rfl
    simp only [StatusMonitor.step] at h
    split at h
    · cases h
    · split at h
      · cases h
      · obtain ⟨-, rfl⟩ := Prod.mk.inj (Except.ok.inj h)
        exact ⟨hs.statusOnly, hs.stored, fun raw hraw => by cases hraw⟩
      · obtain ⟨-, rfl⟩ := Prod.mk.inj (Except.ok.inj h)
        refine ⟨?_, ?_, fun raw hraw => by cases hraw⟩
        · rw [hclose]
          exact hs.statusOnly
        · rw [hclose]
          exact hs.stored

/-- **The monitor stays alive** as long as all uris fit: whatever it has read is the
record of a callback or of the constructor, and acting on it returns. -/
theorem monitor_alive {η : Type} {h : List (MonitorStep η)} {s : StatusMonitor η}
    (hr : MonitorRun .start h s) (hfit : ∀ cb ∈ callbacks h, FitsMailbox cb.uri) {raw : Str}
    (hraw : s.serverStatusRaw = some raw) :
    IsRecord (callbacks h) raw ∧ ∃ o s', s.step .act = .ok (o, s') := by
  have hall : ReadsRecords (callbacks h) s := by
    clear hraw
    induction hr with
    | start => exact readsRecords_start
    | next hr hst ih =>
      rename_i past s e o s'
      cases e with
      | callback cb =>
        obtain ⟨hcb, hpast⟩ := List.forall_mem_cons.mp hfit
        exact readsRecords_step (ih hpast) hst fun _ he => MonitorEvent.callback.inj he ▸ hcb
      | read => exact readsRecords_step (ih hfit) hst fun _ he => by cases he
      | act => exact readsRecords_step (ih hfit) hst fun _ he => by cases he
  have hrec := hall.read raw hraw
  obtain ⟨uri, status, hraw', hfits⟩ : ∃ uri status, raw = record uri status ∧ FitsMailbox uri := by
    rcases hrec with h | ⟨cb, hmem, h⟩
    · exact ⟨[], .init, h, fitsMailbox_nil⟩
    · exact ⟨cb.uri, cb.status, h, hfit cb hmem⟩
  refine ⟨hrec, ?_⟩
  have hcloses : StatusMonitor.closes raw = .ok (connectionToClose uri status.toNat) := by
    rw [StatusMonitor.closes, hraw', readStatus_record hfits]
    rfl
  simp only [StatusMonitor.step, hraw, hcloses]
  cases connectionToClose uri status.toNat with
  | none => exact ⟨_, _, rfl⟩
  | some uri' => exact ⟨_, _, rfl⟩

end ParkManager
