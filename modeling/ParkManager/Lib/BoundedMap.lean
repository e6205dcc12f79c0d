import Mathlib.Data.Finset.Card
import Mathlib.Data.List.Nodup

/-!
# Bounded maps

A map with room for `n` keys, as the list of its pairs in the order in which the
keys came in.

Proved here, for any types of keys and values:

* `find_assign`, `length_assign`: setting a key in place or at the end;
* `BoundedMap.get_set`, `BoundedMap.set_eq_none_iff`: what a write does, and when
  there is no room for it.
-/

variable {κ ν : Type*} [DecidableEq κ]

namespace BoundedMap

/-- Replace the value of the key where it stands, else add the pair at the end. -/
def assign (k : κ) (v : ν) : List (κ × ν) → List (κ × ν)
  | [] => [(k, v)]
  | p :: rest => if p.1 = k then (k, v) :: rest else p :: assign k v rest

def keys (entries : List (κ × ν)) : List κ := entries.map Prod.fst

def find (k : κ) (entries : List (κ × ν)) : Option ν := entries.lookup k

omit [DecidableEq κ] in
@[simp] theorem keys_cons (p : κ × ν) (rest : List (κ × ν)) : keys (p :: rest) = p.1 :: keys rest :=
  rfl

theorem mem_keys_assign {k x : κ} {v : ν} {entries : List (κ × ν)} :
    x ∈ keys (assign k v entries) ↔ x = k ∨ x ∈ keys entries := by
  induction entries with
  | nil => simp [assign, keys]
  | cons p rest ih =>
    unfold assign
    split_ifs with hp
    · simp [hp]
    · rw [keys_cons, keys_cons, List.mem_cons, List.mem_cons, ih]
      tauto

theorem nodup_keys_assign (k : κ) (v : ν) {entries : List (κ × ν)} (h : (keys entries).Nodup) :
    (keys (assign k v entries)).Nodup := by
  induction entries with
  | nil => simp [assign, keys]
  | cons p rest ih =>
    obtain ⟨hp, hrest⟩ := List.nodup_cons.mp h
    unfold assign
    split_ifs with hk
    · rw [keys_cons]
      exact List.nodup_cons.mpr ⟨hk ▸ hp, hrest⟩
    · rw [keys_cons]
      refine List.nodup_cons.mpr ⟨?_, ih hrest⟩
      rw [mem_keys_assign, not_or]
      exact ⟨hk, hp⟩

theorem length_assign (k : κ) (v : ν) (entries : List (κ × ν)) :
    (assign k v entries).length =
      if k ∈ keys entries then entries.length else entries.length + 1 := by
  induction entries with
  | nil => simp [assign, keys]
  | cons p rest ih =>
    unfold assign
    by_cases hk : p.1 = k
    · simp [hk]
    · rw [if_neg hk, List.length_cons, ih, keys_cons]
      simp only [List.mem_cons, Ne.symm hk, false_or, List.length_cons]
      split_ifs <;> rfl

@[simp] theorem find_nil (x : κ) : find x ([] : List (κ × ν)) = none := rfl

theorem find_cons (x : κ) (p : κ × ν) (rest : List (κ × ν)) :
    find x (p :: rest) = if x = p.1 then some p.2 else find x rest := by
  obtain ⟨k, v⟩ := p
  unfold find
  by_cases hx : x = k
  · rw [if_pos hx, hx, List.lookup_cons_self]
  · have hb : (x == k) = false := beq_eq_false_iff_ne.mpr hx
    rw [if_neg hx, List.lookup_cons, hb]

theorem find_assign (k x : κ) (v : ν) (entries : List (κ × ν)) :
    find x (assign k v entries) = if x = k then some v else find x entries := by
  induction entries with
  | nil => exact find_cons x (k, v) []
  | cons p rest ih =>
    unfold assign
    by_cases hk : p.1 = k
    · rw [if_pos hk, find_cons, find_cons, hk]
      split_ifs <;> rfl
    · rw [if_neg hk, find_cons, find_cons, ih]
      by_cases hx : x = p.1
      · have hne : x ≠ k := fun e => hk (hx ▸ e)
        rw [if_pos hx, if_neg hne, if_pos hx]
      · rw [if_neg hx, if_neg hx]

theorem find_eq_none_iff {k : κ} {entries : List (κ × ν)} :
    find k entries = none ↔ k ∉ keys entries := by
  induction entries with
  | nil => simp [keys]
  | cons p rest ih =>
    rw [find_cons, keys_cons, List.mem_cons, not_or, ← ih]
    by_cases hk : k = p.1
    · simp [hk]
    · simp [hk]

end BoundedMap

/-- A map with room for `n` keys. -/
structure BoundedMap (κ ν : Type*) [DecidableEq κ] (n : ℕ) where
  entries : List (κ × ν)
  nodup : (BoundedMap.keys entries).Nodup
  bounded : entries.length ≤ n

namespace BoundedMap

variable {n : ℕ}

def empty : BoundedMap κ ν n := ⟨[], List.nodup_nil, Nat.zero_le n⟩

def get (m : BoundedMap κ ν n) (k : κ) : Option ν := find k m.entries

/-- The keys that are stored. -/
def stored (m : BoundedMap κ ν n) : Finset κ := ⟨↑(keys m.entries), m.nodup⟩

theorem mem_stored {m : BoundedMap κ ν n} {k : κ} : k ∈ m.stored ↔ k ∈ keys m.entries := Iff.rfl

theorem card_stored (m : BoundedMap κ ν n) : m.stored.card = m.entries.length := by
  change (keys m.entries).length = _
  rw [keys, List.length_map]

/-- Write a key, if there is room for it. -/
def set (m : BoundedMap κ ν n) (k : κ) (v : ν) : Option (BoundedMap κ ν n) :=
  if h : k ∈ m.stored ∨ m.stored.card < n then
    some ⟨assign k v m.entries, nodup_keys_assign k v m.nodup, by
      rw [card_stored, mem_stored] at h
      rw [length_assign]
      have hb := m.bounded
      split_ifs with hk
      · exact hb
      · exact Nat.succ_le_of_lt (h.resolve_left hk)⟩
  else none

/-- A write fails exactly on a new key when all room is taken. -/
theorem set_eq_none_iff {m : BoundedMap κ ν n} {k : κ} {v : ν} :
    m.set k v = none ↔ k ∉ m.stored ∧ m.stored.card = n := by
  have hb : m.stored.card ≤ n := by
    rw [card_stored]
    exact m.bounded
  unfold set
  by_cases h : k ∈ m.stored ∨ m.stored.card < n
  · rw [dif_pos h]
    refine iff_of_false (Option.some_ne_none _) fun hn => ?_
    rcases h with h | h
    · exact hn.1 h
    · omega
  · rw [dif_neg h]
    rw [not_or] at h
    exact iff_of_true rfl ⟨h.1, by omega⟩

theorem entries_set {m m' : BoundedMap κ ν n} {k : κ} {v : ν} (h : m.set k v = some m') :
    m'.entries = assign k v m.entries := by
  unfold set at h
  split_ifs at h
  exact congrArg BoundedMap.entries (Option.some.inj h).symm

theorem get_set {m m' : BoundedMap κ ν n} {k : κ} {v : ν} (h : m.set k v = some m') (x : κ) :
    m'.get x = if x = k then some v else m.get x := by
  unfold get
  rw [entries_set h]
  exact find_assign k x v m.entries

theorem stored_set {m m' : BoundedMap κ ν n} {k : κ} {v : ν} (h : m.set k v = some m') :
    m'.stored = insert k m.stored := by
  ext x
  rw [mem_stored, entries_set h, mem_keys_assign, Finset.mem_insert, mem_stored]

theorem get_eq_none_iff {m : BoundedMap κ ν n} {k : κ} : m.get k = none ↔ k ∉ m.stored :=
  find_eq_none_iff

end BoundedMap
