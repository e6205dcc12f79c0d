import Mathlib.Data.List.Nodup
import Mathlib.Tactic.SplitIfs

/-!
# Keyed lists

Records that are known by a key, in the order in which they came in; no two of them
have the same key.

Proved here, for any records and keys:

* `get_eq_some_iff`: a search finds the one record with the key;
* `get_upsert`, `mem_upsert`: a record is changed in place or added at the end.
-/

variable {α κ : Type*}

namespace Keyed

variable [DecidableEq κ]

/-- Change the record with the key of `new` in place, else add the changed `new`. -/
def upsertList (key : α → κ) (f : α → α) (new : α) : List α → List α
  | [] => [f new]
  | a :: rest => if key a = key new then f a :: rest else a :: upsertList key f new rest

theorem map_upsertList {key : α → κ} {f : α → α} (hf : ∀ a, key (f a) = key a) (new : α)
    (l : List α) : (upsertList key f new l).map key =
      if key new ∈ l.map key then l.map key else l.map key ++ [key new] := by
  induction l with
  | nil => simp [upsertList, hf]
  | cons a l ih =>
    by_cases ha : key a = key new
    · simp [upsertList, ha, hf]
    · have hne : ¬ key new = key a := fun e => ha e.symm
      simp only [upsertList, if_neg ha, List.map_cons, ih, List.mem_cons, hne, false_or]
      split_ifs <;> rfl

theorem mem_upsertList {key : α → κ} {f : α → α} {new b : α} {l : List α}
    (hb : b ∈ upsertList key f new l) : b ∈ l ∨ b = f new ∨ ∃ a ∈ l, b = f a := by
  induction l with
  | nil => exact .inr (.inl (List.mem_singleton.mp hb))
  | cons a l ih =>
    unfold upsertList at hb
    split_ifs at hb
    · rcases List.mem_cons.mp hb with rfl | hb
      · exact .inr (.inr ⟨a, List.mem_cons_self, rfl⟩)
      · exact .inl (List.mem_cons_of_mem a hb)
    · rcases List.mem_cons.mp hb with rfl | hb
      · exact .inl List.mem_cons_self
      · rcases ih hb with h | h | ⟨c, hc, h⟩
        · exact .inl (List.mem_cons_of_mem a h)
        · exact .inr (.inl h)
        · exact .inr (.inr ⟨c, List.mem_cons_of_mem a hc, h⟩)

theorem find_upsertList {key : α → κ} {f : α → α} (hf : ∀ a, key (f a) = key a) (new : α)
    (k : κ) (l : List α) :
    (upsertList key f new l).find? (fun a => decide (key a = k)) =
      if key new = k then some (f ((l.find? fun a => decide (key a = k)).getD new))
      else l.find? fun a => decide (key a = k) := by
  induction l with
  | nil => by_cases hk : key new = k <;> simp [upsertList, hf, hk]
  | cons a l ih =>
    by_cases ha : key a = key new
    · by_cases hk : key new = k <;> simp [upsertList, ha, hf, hk]
    · rw [upsertList, if_neg ha]
      by_cases hk : key a = k
      · have hne : key new ≠ k := fun e => ha (hk.trans e.symm)
        simp [hk, hne]
      · simp [hk, ih]

end Keyed

/-- Records with distinct keys. -/
structure Keyed (α : Type*) {κ : Type*} (key : α → κ) where
  toList : List α
  nodup : (toList.map key).Nodup

namespace Keyed

variable {key : α → κ}

def empty : Keyed α key := ⟨[], List.nodup_nil⟩

variable [DecidableEq κ]

def get (m : Keyed α key) (k : κ) : Option α := m.toList.find? fun a => decide (key a = k)

/-- A change that keeps the key, of the record with the key of `new` or of `new` itself. -/
def upsert (f : α → α) (hf : ∀ a, key (f a) = key a) (new : α) (m : Keyed α key) :
    Keyed α key where
  toList := upsertList key f new m.toList
  nodup := by
    rw [map_upsertList hf]
    split_ifs with h
    · exact m.nodup
    · exact List.nodup_append.mpr ⟨m.nodup, List.nodup_singleton _, by
        intro a ha b hb
        rw [List.mem_singleton.mp hb]
        exact fun e => h (e ▸ ha)⟩

theorem get_upsert (f : α → α) (hf : ∀ a, key (f a) = key a) (new : α) (m : Keyed α key)
    (k : κ) : (m.upsert f hf new).get k =
      if key new = k then some (f ((m.get k).getD new)) else m.get k :=
  find_upsertList hf new k m.toList

theorem mem_upsert {f : α → α} (hf : ∀ a, key (f a) = key a) {new b : α} {m : Keyed α key}
    (hb : b ∈ (m.upsert f hf new).toList) :
    b ∈ m.toList ∨ b = f new ∨ ∃ a ∈ m.toList, b = f a := mem_upsertList hb

/-- **There is one record with a key.** -/
theorem get_eq_some_iff {m : Keyed α key} {k : κ} {a : α} :
    m.get k = some a ↔ a ∈ m.toList ∧ key a = k := by
  constructor
  · intro h
    have hkey := List.find?_some (p := fun a => decide (key a = k)) h
    exact ⟨List.mem_of_find?_eq_some h, of_decide_eq_true hkey⟩
  · rintro ⟨ha, rfl⟩
    cases hfind : m.get (key a) with
    | none =>
      have hno := List.find?_eq_none.mp hfind a ha
      simp at hno
    | some b =>
      have hb := List.mem_of_find?_eq_some hfind
      have hkey := List.find?_some (p := fun b => decide (key b = key a)) hfind
      rw [List.inj_on_of_nodup_map m.nodup hb ha (of_decide_eq_true hkey)]

end Keyed
