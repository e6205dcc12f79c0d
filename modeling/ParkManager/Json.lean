import ParkManager.Cpp
import Mathlib.Data.List.Basic

/-!
# The part of `nlohmann::json` the program uses

Reading: values as `parse` returns them, `at(key)` and `get<std::string>()`.
Writing: `dump()` of an object whose values are strings, with the strict UTF-8
check of `dump_escaped`.

Proved here:

* `field_ok_iff`: a read succeeds exactly on an object that has the key with a
  string under it;
* `dumpObject_isOk_iff`: `dump()` throws exactly on text that is not UTF-8;
* `zero_notMem_dumpObject`: the text written holds no NUL, so that `c_str()` does
  not shorten it;
* `utf8Accepts_ascii`: ASCII text passes the check.
-/

namespace ParkManager

/-! ## Reading -/

inductive Json
  | null
  | boolean (b : Bool)
  | number (text : Str)
  | string (s : Str)
  | array (elements : List Json)
  | object (members : List (Str × Json))

namespace Json

/-- `j.at(key)`. -/
def atKey : Json → Str → Except Fault Json
  | object members, key =>
    match members.lookup key with
    | some j => .ok j
    | none => .error .jsonOutOfRange
  | _, _ => .error (.typeError 304)

/-- `j.get<std::string>()`. -/
def getString : Json → Except Fault Str
  | string s => .ok s
  | _ => .error (.typeError 302)

/-- `j.at(key).get<std::string>()`. -/
def field (j : Json) (key : Str) : Except Fault Str :=
  match j.atKey key with
  | .ok v => v.getString
  | .error e => .error e

/-- The object has the key, with a string under it. -/
def HasString (j : Json) (key : Str) (s : Str) : Prop :=
  ∃ members, j = object members ∧ members.lookup key = some (string s)

theorem field_ok_iff {j : Json} {key s : Str} : j.field key = .ok s ↔ j.HasString key s := by
  unfold field HasString
  cases j with
  | object members =>
    simp only [atKey, object.injEq, exists_eq_left']
    cases members.lookup key with
    | none => simp
    | some v => cases v <;> simp [getString]
  | null => simp [atKey]
  | boolean b => simp [atKey]
  | number t => simp [atKey]
  | string t => simp [atKey]
  | array l => simp [atKey]

end Json

/-! ## The UTF-8 check of `dump_escaped`

`decode` is the byte-wise automaton of the library: state 0 accepts, state 1
rejects. -/

/-- The class of a byte: the first 256 entries of `utf8d`. -/
def utf8Type (b : UInt8) : ℕ :=
  if b < 0x80 then 0
  else if b < 0x90 then 1
  else if b < 0xA0 then 9
  else if b < 0xC0 then 7
  else if b < 0xC2 then 8
  else if b < 0xE0 then 2
  else if b = 0xE0 then 10
  else if b = 0xED then 4
  else if b < 0xF0 then 3
  else if b = 0xF0 then 11
  else if b < 0xF4 then 6
  else if b = 0xF4 then 5
  else 8

/-- The rows `s0` to `s8` of `utf8d`. -/
def utf8Rows : List (List ℕ) :=
  [[0, 1, 2, 3, 5, 8, 7, 1, 1, 1, 4, 6, 1, 1, 1, 1],
   [1, 1, 1, 1, 1, 1, 1, 1, 1, 1, 1, 1, 1, 1, 1, 1],
   [1, 0, 1, 1, 1, 1, 1, 0, 1, 0, 1, 1, 1, 1, 1, 1],
   [1, 2, 1, 1, 1, 1, 1, 2, 1, 2, 1, 1, 1, 1, 1, 1],
   [1, 1, 1, 1, 1, 1, 1, 2, 1, 1, 1, 1, 1, 1, 1, 1],
   [1, 2, 1, 1, 1, 1, 1, 1, 1, 2, 1, 1, 1, 1, 1, 1],
   [1, 1, 1, 1, 1, 1, 1, 3, 1, 3, 1, 1, 1, 1, 1, 1],
   [1, 3, 1, 1, 1, 1, 1, 3, 1, 3, 1, 1, 1, 1, 1, 1],
   [1, 3, 1, 1, 1, 1, 1, 1, 1, 1, 1, 1, 1, 1, 1, 1]]

def decode (state : ℕ) (b : UInt8) : ℕ := (utf8Rows.getD state []).getD (utf8Type b) 1

/-- The automaton ends in the accepting state; the rejecting state is never left. -/
def utf8Accepts (s : Str) : Bool := s.foldl decode 0 == 0

theorem utf8Accepts_ascii {s : Str} (h : ∀ b ∈ s, b < 0x80) : utf8Accepts s = true := by
  have hs : s.foldl decode 0 = 0 := by
    induction s with
    | nil => rfl
    | cons b s ih =>
      have hb : decode 0 b = 0 := by simp [decode, utf8Type, utf8Rows, h b (by simp)]
      rw [List.foldl_cons, hb]
      exact ih fun c hc => h c (by simp [hc])
  simp [utf8Accepts, hs]

/-! ## Writing -/

/-- One hexadecimal digit, lower case. -/
def hexDigit (n : ℕ) : UInt8 := ch (Nat.digitChar n)

/-- What `dump_escaped` writes for one byte of accepted text. -/
def escape (b : UInt8) : Str :=
  if b = 0x08 then str "\\b"
  else if b = 0x09 then str "\\t"
  else if b = 0x0A then str "\\n"
  else if b = 0x0C then str "\\f"
  else if b = 0x0D then str "\\r"
  else if b = 0x22 then str "\\\""
  else if b = 0x5C then str "\\\\"
  else if b ≤ 0x1F then str "\\u00" ++ [hexDigit (b.toNat / 16), hexDigit (b.toNat % 16)]
  else [b]

/-- `dump_escaped`, with the strict error handler. -/
def dumpEscaped (s : Str) : Except Fault Str :=
  if utf8Accepts s then .ok (s.flatMap escape) else .error (.typeError 316)

/-- `"key":"value"` -/
def dumpMember (key value : Str) : Except Fault Str :=
  match dumpEscaped key, dumpEscaped value with
  | .ok k, .ok v => .ok (str "\"" ++ k ++ str "\":\"" ++ v ++ str "\"")
  | .error e, _ => .error e
  | _, .error e => .error e

def dumpMembers : List (Str × Str) → Except Fault (List Str)
  | [] => .ok []
  | (key, value) :: rest =>
    match dumpMember key value, dumpMembers rest with
    | .ok m, .ok ms => .ok (m :: ms)
    | .error e, _ => .error e
    | _, .error e => .error e

/-- `j.dump()` of an object of strings, the members in the order of the keys. -/
def dumpObject (members : List (Str × Str)) : Except Fault Str :=
  match dumpMembers members with
  | .ok ms => .ok (str "\x7b" ++ List.intercalate (str ",") ms ++ str "\x7d")
  | .error e => .error e

theorem dumpMember_isOk_iff (key value : Str) :
    (∃ t, dumpMember key value = .ok t) ↔
      utf8Accepts key = true ∧ utf8Accepts value = true := by
  unfold dumpMember dumpEscaped
  cases utf8Accepts key <;> cases utf8Accepts value <;> simp

theorem dumpMembers_isOk_iff (members : List (Str × Str)) :
    (∃ t, dumpMembers members = .ok t) ↔
      ∀ m ∈ members, utf8Accepts m.1 = true ∧ utf8Accepts m.2 = true := by
  induction members with
  | nil => simp [dumpMembers]
  | cons m rest ih =>
    obtain ⟨key, value⟩ := m
    rw [List.forall_mem_cons, ← ih, ← dumpMember_isOk_iff]
    cases hm : dumpMember key value <;> cases hr : dumpMembers rest <;>
      simp [dumpMembers, hm, hr]

theorem dumpObject_isOk_iff (members : List (Str × Str)) :
    (∃ t, dumpObject members = .ok t) ↔
      ∀ m ∈ members, utf8Accepts m.1 = true ∧ utf8Accepts m.2 = true := by
  rw [← dumpMembers_isOk_iff]
  unfold dumpObject
  cases dumpMembers members <;> simp

theorem zero_notMem_escape (b : UInt8) : 0 ∉ escape b := by
  have hd : ∀ n, n < 16 → hexDigit n ≠ 0 := by decide
  have hlt : b.toNat < 256 := b.toNat_lt
  have h₁ := hd (b.toNat / 16) (by omega)
  have h₂ := hd (b.toNat % 16) (by omega)
  have hlit : (0 : UInt8) ∉ str "\\b" ∧ (0 : UInt8) ∉ str "\\t" ∧ (0 : UInt8) ∉ str "\\n" ∧
      (0 : UInt8) ∉ str "\\f" ∧ (0 : UInt8) ∉ str "\\r" ∧ (0 : UInt8) ∉ str "\\\"" ∧
      (0 : UInt8) ∉ str "\\\\" ∧ (0 : UInt8) ∉ str "\\u00" := by decide
  obtain ⟨l₁, l₂, l₃, l₄, l₅, l₆, l₇, l₈⟩ := hlit
  unfold escape
  split_ifs with _ _ _ _ _ _ _ hb
  · exact l₁
  · exact l₂
  · exact l₃
  · exact l₄
  · exact l₅
  · exact l₆
  · exact l₇
  · simp [l₈, h₁.symm, h₂.symm]
  · have h0 : b ≠ 0 := fun e => hb (e ▸ by decide)
    simpa using h0.symm

theorem zero_notMem_dumpEscaped {s t : Str} (h : dumpEscaped s = .ok t) : 0 ∉ t := by
  unfold dumpEscaped at h
  split_ifs at h
  have ht := Except.ok.inj h
  subst ht
  intro h0
  obtain ⟨b, -, hb⟩ := List.mem_flatMap.mp h0
  exact zero_notMem_escape b hb

theorem zero_notMem_dumpMember {key value t : Str} (h : dumpMember key value = .ok t) :
    0 ∉ t := by
  unfold dumpMember at h
  split at h
  · rename_i k v hk hv
    have hlit : (0 : UInt8) ∉ str "\"" ∧ (0 : UInt8) ∉ str "\":\"" := by decide
    have ht := Except.ok.inj h
    subst ht
    simp [hlit.1, hlit.2, zero_notMem_dumpEscaped hk, zero_notMem_dumpEscaped hv]
  · cases h
  · cases h

theorem zero_notMem_dumpMembers {members : List (Str × Str)} {ts : List Str}
    (h : dumpMembers members = .ok ts) : ∀ t ∈ ts, 0 ∉ t := by
  induction members generalizing ts with
  | nil =>
    have ht := Except.ok.inj h
    subst ht
    simp
  | cons m rest ih =>
    obtain ⟨key, value⟩ := m
    unfold dumpMembers at h
    split at h
    · rename_i t us ht hus
      have hts := Except.ok.inj h
      subst hts
      exact List.forall_mem_cons.mpr ⟨zero_notMem_dumpMember ht, ih hus⟩
    · cases h
    · cases h

theorem notMem_intercalate {α : Type} {a : α} {sep : List α} {ls : List (List α)}
    (hsep : a ∉ sep) (hls : ∀ l ∈ ls, a ∉ l) : a ∉ List.intercalate sep ls := by
  unfold List.intercalate
  intro ha
  obtain ⟨l, hl, hal⟩ := List.mem_flatten.mp ha
  induction ls with
  | nil => simp at hl
  | cons x rest ih =>
    cases rest with
    | nil => simp at hl; exact hls x (by simp) (hl ▸ hal)
    | cons y rest =>
      rw [List.intersperse_cons_cons, List.mem_cons, List.mem_cons] at hl
      rcases hl with rfl | rfl | hl
      · exact hls l (by simp) hal
      · exact hsep hal
      · exact ih (fun m hm => hls m (by simp [hm])) (List.mem_flatten.mpr ⟨l, hl, hal⟩) hl

theorem zero_notMem_dumpObject {members : List (Str × Str)} {t : Str}
    (h : dumpObject members = .ok t) : 0 ∉ t := by
  unfold dumpObject at h
  split at h
  · rename_i ms hms
    have hlit : (0 : UInt8) ∉ str "\x7b" ∧ (0 : UInt8) ∉ str "," ∧ (0 : UInt8) ∉ str "\x7d" := by
      decide
    have hmem := notMem_intercalate hlit.2.1 (zero_notMem_dumpMembers hms)
    have ht := Except.ok.inj h
    subst ht
    simp [hlit.1, hlit.2.2, hmem]
  · cases h

end ParkManager
