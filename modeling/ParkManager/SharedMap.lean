import ParkManager.BoostShmObj
import ParkManager.Lib.BoundedMap
import ParkManager.Lib.History

/-!
# The shared-memory store as a bounded map

The elements of the store in use form a prefix, one for each key; the rest is
zero.  A write changes the bytes as `BoundedMap.set` changes the map.

Proved here:

* `setElement_encoded`, `getElement_encoded`: the two loops on such bytes;
* `setValue_refines`, `getValue_refines`: the two operations;
* `represents_run`: every sequence of calls on a zeroed store leaves the bytes of
  a map, whose keys are those that were set with success;
* `store_refines_map`: what each call does, in terms of these keys.
-/

namespace ParkManager

open History BoundedMap

/-! ## Keys, values and their bytes -/

/-- A name that fits its field. -/
def GoodKey (k : Str) : Prop := k ≠ [] ∧ 0 ∉ k ∧ k.length < maxlenName

/-- A value that fits its field. -/
def GoodValue (v : Str) : Prop := 0 ∉ v ∧ v.length < maxlenValue

/-- The element that stores a pair. -/
def encode (p : Str × Str) : SharedObjectElement :=
  ⟨strncpy p.1 maxlenName, strncpy p.2 maxlenValue, strncpy_length .., strncpy_length ..⟩

theorem length_zeroName : (List.replicate maxlenName (0 : UInt8)).length = maxlenName :=
  List.length_replicate

theorem length_zeroValue : (List.replicate maxlenValue (0 : UInt8)).length = maxlenValue :=
  List.length_replicate

/-- An element that was never written. -/
def zeroElement : SharedObjectElement :=
  ⟨List.replicate maxlenName 0, List.replicate maxlenValue 0, length_zeroName, length_zeroValue⟩

theorem cstr_zeros (n : ℕ) (rest : Str) : cstr (List.replicate (n + 1) 0 ++ rest) = [] := by
  rw [List.replicate_succ, List.cons_append]
  rfl

theorem readName_encode {p : Str × Str} (hk : GoodKey p.1) (rest : List SharedObjectElement) :
    (encode p).readName rest = p.1 := by
  unfold SharedObjectElement.readName encode
  rw [List.append_assoc]
  exact cstr_strncpy hk.2.1 hk.2.2 _

theorem readValue_encode {p : Str × Str} (hv : GoodValue p.2) (rest : List SharedObjectElement) :
    (encode p).readValue rest = p.2 :=
  cstr_strncpy hv.1 hv.2 _

/-- An element in use does not look free. -/
theorem head_encode {p : Str × Str} (hk : GoodKey p.1) : (encode p).name.head? ≠ some 0 := by
  obtain ⟨hne, h0, hlen⟩ := hk
  obtain ⟨key, value⟩ := p
  cases key with
  | nil => exact absurd rfl hne
  | cons b key =>
    have hb : b ≠ 0 := fun e => h0 (e ▸ List.mem_cons_self)
    have hname : (encode (b :: key, value)).name = strncpy (b :: key) maxlenName := rfl
    rw [hname, strncpy, cstr_eq_self h0, List.take_of_length_le hlen.le]
    simpa using hb

theorem readName_zeroElement (rest : List SharedObjectElement) :
    zeroElement.readName rest = [] := by
  unfold SharedObjectElement.readName zeroElement
  rw [List.append_assoc]
  exact cstr_zeros 49 _

/-! ## The two loops -/

theorem setElement_encoded {k v : Str} (hk : GoodKey k) {entries : List (Str × Str)}
    (hg : ∀ p ∈ entries, GoodKey p.1) (free : ℕ) :
    setElement k v (entries.map encode ++ List.replicate free zeroElement) =
      if k ∈ keys entries ∨ 0 < free then
        some ((assign k v entries).map encode ++
          List.replicate (entries.length + free - (assign k v entries).length) zeroElement)
      else none := by
  have hcstr : cstr k = k := cstr_eq_self hk.2.1
  induction entries with
  | nil =>
    cases free with
    | zero => simp [setElement, keys]
    | succ free =>
      have hfree : zeroElement.name.head? = some 0 := rfl
      simp only [List.map_nil, List.nil_append, List.replicate_succ, setElement, hfree, true_or,
        ↓reduceIte, Nat.zero_lt_succ, or_true, assign, List.map_cons, List.length_cons,
        List.length_nil, Option.some.injEq, List.cons_append, List.cons.injEq]
      refine ⟨rfl, ?_⟩
      congr 1
      omega
  | cons p rest ih =>
    obtain ⟨hp, hrest⟩ := List.forall_mem_cons.mp hg
    rw [List.map_cons, List.cons_append, setElement, readName_encode hp, hcstr]
    by_cases hkey : p.1 = k
    · have hlen : rest.length + 1 + free - (rest.length + 1) = free := by omega
      simp only [hkey, or_true, ↓reduceIte, keys_cons, List.mem_cons, true_or, assign,
        List.map_cons, List.length_cons, hlen]
      rfl
    · rw [if_neg (not_or.mpr ⟨head_encode hp, hkey⟩), ih hrest]
      have hmem : k ∈ keys (p :: rest) ↔ k ∈ keys rest := by
        rw [keys_cons, List.mem_cons]
        exact or_iff_right (Ne.symm hkey)
      simp only [hmem, assign, if_neg hkey]
      split_ifs
      · have hlen : rest.length + 1 + free - ((assign k v rest).length + 1) =
            rest.length + free - (assign k v rest).length := by omega
        simp [hlen]
      · rfl

theorem getElement_encoded {k : Str} (hk : GoodKey k) {entries : List (Str × Str)}
    (hg : ∀ p ∈ entries, GoodKey p.1 ∧ GoodValue p.2) (free : ℕ) :
    getElement k (entries.map encode ++ List.replicate free zeroElement) = find k entries := by
  have hcstr : cstr k = k := cstr_eq_self hk.2.1
  induction entries with
  | nil =>
    rw [List.map_nil, List.nil_append]
    induction free with
    | zero => rfl
    | succ free ih =>
      rw [List.replicate_succ, getElement, readName_zeroElement, hcstr, if_neg hk.1.symm, ih]
  | cons p rest ih =>
    obtain ⟨⟨hp, hv⟩, hrest⟩ := List.forall_mem_cons.mp hg
    rw [List.map_cons, List.cons_append, getElement, readName_encode hp, readValue_encode hv, hcstr,
      ih hrest, find_cons]
    by_cases hkey : p.1 = k
    · rw [if_pos hkey, if_pos hkey.symm]
    · rw [if_neg hkey, if_neg (Ne.symm hkey)]

/-! ## The operations -/

/-- The bytes of the store are those of the map. -/
structure Represents (o : BoostShmObj) (m : BoundedMap Str Str maxnumberObjects) : Prop where
  bytes : o.element =
    m.entries.map encode ++ List.replicate (maxnumberObjects - m.entries.length) zeroElement
  good : ∀ p ∈ m.entries, GoodKey p.1 ∧ GoodValue p.2

theorem mem_assign {k v : Str} {p : Str × Str} {entries : List (Str × Str)}
    (h : p ∈ assign k v entries) : p = (k, v) ∨ p ∈ entries := by
  induction entries with
  | nil => exact Or.inl (List.mem_singleton.mp h)
  | cons q rest ih =>
    unfold assign at h
    split_ifs at h
    · rcases List.mem_cons.mp h with h | h
      · exact Or.inl h
      · exact Or.inr (List.mem_cons_of_mem _ h)
    · rcases List.mem_cons.mp h with h | h
      · exact Or.inr (h ▸ List.mem_cons_self)
      · rcases ih h with h | h
        · exact Or.inl h
        · exact Or.inr (List.mem_cons_of_mem _ h)

/-- `SetValue` refines `set`: it fails where `set` has no room, and leaves the
bytes as they are. -/
theorem setValue_refines {o : BoostShmObj} {m : BoundedMap Str Str maxnumberObjects}
    (h : Represents o m) {k v : Str} (hk : GoodKey k) (hv : GoodValue v) :
    match m.set k v with
    | some m' => ∃ o', o.setValue k v = (o', true) ∧ Represents o' m'
    | none => o.setValue k v = (o, false) := by
  have hb := m.bounded
  have hloop := setElement_encoded (v := v) hk (fun p hp => (h.good p hp).1)
    (maxnumberObjects - m.entries.length)
  rw [← h.bytes, Nat.add_sub_cancel' hb] at hloop
  have hroom : (k ∈ keys m.entries ∨ 0 < maxnumberObjects - m.entries.length) ↔
      (k ∈ m.stored ∨ m.stored.card < maxnumberObjects) := by
    rw [mem_stored, card_stored]
    exact or_congr_right (by omega)
  rw [if_congr hroom rfl rfl] at hloop
  cases hm : m.set k v with
  | none =>
    obtain ⟨hnew, hfull⟩ := set_eq_none_iff.mp hm
    rw [if_neg (by rw [hfull]; exact not_or.mpr ⟨hnew, lt_irrefl _⟩)] at hloop
    simp only [BoostShmObj.setValue]
    split
    · rename_i es he
      rw [hloop] at he
      cases he
    · rfl
  | some m' =>
    have hsome : k ∈ m.stored ∨ m.stored.card < maxnumberObjects := by
      by_contra hn
      obtain ⟨hnew, hfull⟩ := not_or.mp hn
      have hcard : m.stored.card = maxnumberObjects := by
        rw [card_stored] at hfull ⊢
        omega
      rw [set_eq_none_iff.mpr ⟨hnew, hcard⟩] at hm
      cases hm
    rw [if_pos hsome] at hloop
    refine ⟨⟨_, (setElement_length hloop).trans o.element_length⟩, ?_, ?_, ?_⟩
    · simp only [BoostShmObj.setValue]
      split
      · rename_i es he
        rw [hloop] at he
        cases he
        rfl
      · rename_i he
        rw [hloop] at he
        cases he
    · rw [entries_set hm]
    · intro p hp
      rw [entries_set hm] at hp
      rcases mem_assign hp with rfl | hp
      · exact ⟨hk, hv⟩
      · exact h.good p hp

/-- `GetValue` refines `get`. -/
theorem getValue_refines {o : BoostShmObj} {m : BoundedMap Str Str maxnumberObjects}
    (h : Represents o m) {k : Str} (hk : GoodKey k) :
    o.getValue k = match m.get k with
      | some v => (v, true)
      | none => ([], false) := by
  have hloop := getElement_encoded hk h.good (maxnumberObjects - m.entries.length)
  rw [← h.bytes] at hloop
  unfold BoostShmObj.getValue BoundedMap.get
  cases hf : find k m.entries with
  | none =>
    rw [hf] at hloop
    simp only [hloop]
  | some v =>
    rw [hf] at hloop
    simp only [hloop]

/-! ## Sequences of calls -/

inductive ShmCall
  | setValue (valueName newValue : Str)
  | getValue (valueName : Str)
  deriving DecidableEq

def ShmCall.Good : ShmCall → Prop
  | setValue valueName newValue => GoodKey valueName ∧ GoodValue newValue
  | getValue valueName => GoodKey valueName

/-- A call: the value and whether it returned `SETVALUE_OK`, and the store after it. -/
def BoostShmObj.call (o : BoostShmObj) : ShmCall → (Str × Bool) × BoostShmObj
  | .setValue valueName newValue =>
    (([], (o.setValue valueName newValue).2), (o.setValue valueName newValue).1)
  | .getValue valueName => (o.getValue valueName, o)

abbrev ShmStep := Step BoostShmObj ShmCall (Str × Bool)

abbrev ShmRun (o₀ : BoostShmObj) (h : List ShmStep) (o : BoostShmObj) : Prop :=
  Run (fun o c out o' => o.call c = (out, o')) o₀ h o

/-- The keys set with success. -/
def written : List ShmStep → Finset Str
  | [] => ∅
  | st :: past =>
    match st.input with
    | .setValue valueName _ => if st.output.2 then insert valueName (written past) else written past
    | .getValue _ => written past

theorem represents_zeroed : Represents .zeroed .empty where
  bytes := rfl
  good := fun _ hp => by cases hp

/-- **Run lemma.** -/
theorem represents_run {h : List ShmStep} {o : BoostShmObj} (hr : ShmRun .zeroed h o)
    (hgood : ∀ st ∈ h, st.input.Good) :
    ∃ m : BoundedMap Str Str maxnumberObjects, Represents o m ∧ m.stored = written h := by
  induction hr with
  | start => exact ⟨.empty, represents_zeroed, rfl⟩
  | next hr hs ih =>
    rename_i past o c out o'
    obtain ⟨hc, hpast⟩ := List.forall_mem_cons.mp hgood
    obtain ⟨m, hm, hst⟩ := ih hpast
    cases c with
    | setValue k v =>
      have hset := setValue_refines hm hc.1 hc.2
      cases hms : m.set k v with
      | some m' =>
        simp only [hms] at hset
        obtain ⟨o'', he, hm'⟩ := hset
        simp only [BoostShmObj.call, he] at hs
        obtain ⟨rfl, rfl⟩ := Prod.mk.inj hs
        exact ⟨m', hm', by rw [stored_set hms, hst]; rfl⟩
      | none =>
        simp only [hms] at hset
        simp only [BoostShmObj.call, hset] at hs
        obtain ⟨rfl, rfl⟩ := Prod.mk.inj hs
        exact ⟨m, hm, hst⟩
    | getValue k =>
      obtain ⟨-, rfl⟩ := Prod.mk.inj hs
      exact ⟨m, hm, hst⟩

/-- **The store is a bounded map.**  After any sequence of calls, a write of a new
key fails and changes no byte exactly when 50 keys are stored; any other write is
read back and leaves the other keys alone; a key never set is not found. -/
theorem store_refines_map {h : List ShmStep} {o : BoostShmObj} (hr : ShmRun .zeroed h o)
    (hgood : ∀ st ∈ h, st.input.Good) {k v : Str} (hk : GoodKey k) (hv : GoodValue v) :
    (k ∉ written h ∧ (written h).card = maxnumberObjects → o.setValue k v = (o, false)) ∧
    (¬ (k ∉ written h ∧ (written h).card = maxnumberObjects) →
      ∃ o', o.setValue k v = (o', true) ∧ o'.getValue k = (v, true) ∧
        ∀ k', GoodKey k' → k' ≠ k → o'.getValue k' = o.getValue k') ∧
    (k ∉ written h → o.getValue k = ([], false)) := by
  obtain ⟨m, hm, hst⟩ := represents_run hr hgood
  have hset := setValue_refines hm hk hv
  rw [← hst]
  refine ⟨fun hfull => ?_, fun hroom => ?_, fun hnew => ?_⟩
  · simp only [set_eq_none_iff.mpr hfull] at hset
    exact hset
  · cases hms : m.set k v with
    | none => exact absurd (set_eq_none_iff.mp hms) hroom
    | some m' =>
      simp only [hms] at hset
      obtain ⟨o', he, hm'⟩ := hset
      refine ⟨o', he, ?_, fun k' hk' hne => ?_⟩
      · rw [getValue_refines hm' hk, get_set hms, if_pos rfl]
      · rw [getValue_refines hm' hk', getValue_refines hm hk', get_set hms, if_neg hne]
  · rw [getValue_refines hm hk, get_eq_none_iff.mpr hnew]

/-- A key that is set is overwritten by a shorter value. -/
theorem store_refines_map_overwrite :
    ∃ o o', (BoostShmObj.zeroed.setValue (str "uri") (str "value")).1 = o ∧
      o.setValue (str "uri") (str "v") = (o', true) ∧
      o'.getValue (str "uri") = (str "v", true) := by
  have hk : GoodKey (str "uri") := ⟨by decide, by decide, by decide⟩
  have hv : GoodValue (str "value") ∧ GoodValue (str "v") :=
    ⟨⟨by decide, by decide⟩, ⟨by decide, by decide⟩⟩
  have hcall : BoostShmObj.zeroed.call (.setValue (str "uri") (str "value")) =
      (([], true), (BoostShmObj.zeroed.setValue (str "uri") (str "value")).1) := rfl
  have hr : ShmRun .zeroed _ _ := .next .start hcall
  obtain ⟨-, hok, -⟩ := store_refines_map hr
    (List.forall_mem_cons.mpr ⟨⟨hk, hv.1⟩, fun _ hst => by cases hst⟩) hk hv.2
  have hroom : ¬ (str "uri" ∉ ({str "uri"} : Finset Str) ∧
      ({str "uri"} : Finset Str).card = maxnumberObjects) := by decide
  obtain ⟨o', he, hget, -⟩ := hok hroom
  exact ⟨_, o', rfl, he, hget⟩

end ParkManager
