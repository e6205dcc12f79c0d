import Mathlib.Data.List.AList

/-!
# Counting the values of a finite map

Proved here, for every finite map `m : AList fun _ => ν` and every test `p` on
its values:

* `countVal_insert`: writing a value under a key changes the number of values
  passing the test by the new value's contribution less the old value's;
* `lookup_insert_eq_if`: what a read finds after a write.
-/

namespace MapCount

variable {κ ν : Type*} [DecidableEq κ]

/-- Number of keys whose value passes the test. -/
def countVal (p : ν → Bool) (m : AList fun _ : κ => ν) : ℕ := m.entries.countP fun e => p e.2

omit [DecidableEq κ] in
@[simp] theorem countVal_empty (p : ν → Bool) : countVal p (∅ : AList fun _ : κ => ν) = 0 := rfl

theorem countP_kerase (p : ν → Bool) (k : κ) (l : List (Σ _ : κ, ν)) :
    (l.kerase k).countP (fun e => p e.2) + ((l.dlookup k).any p).toNat =
      l.countP fun e => p e.2 := by
  induction l with
  | nil => simp
  | cons e l ih =>
    obtain ⟨k', v⟩ := e
    by_cases hk : k = k'
    · subst hk
      have he : List.kerase k (⟨k, v⟩ :: l) = l := List.kerase_cons_eq rfl
      rw [he, List.dlookup_cons_eq, Option.any_some, List.countP_cons]
      cases p v <;> simp
    · have he : List.kerase k (⟨k', v⟩ :: l) = ⟨k', v⟩ :: List.kerase k l :=
        List.kerase_cons_ne hk
      have hd : List.dlookup k (⟨k', v⟩ :: l) = List.dlookup k l := List.dlookup_cons_ne l _ hk
      rw [he, hd, List.countP_cons, List.countP_cons, ← ih]
      omega

/-- **Counting rule for a write.** -/
theorem countVal_insert (p : ν → Bool) (k : κ) (v : ν) (m : AList fun _ : κ => ν) :
    countVal p (m.insert k v) + ((m.lookup k).any p).toNat = countVal p m + (p v).toNat := by
  have he : countVal p (m.insert k v) =
      (m.entries.kerase k).countP (fun e => p e.2) + (p v).toNat := by
    rw [countVal, AList.entries_insert, List.countP_cons]
    cases p v <;> simp
  have hc := countP_kerase p k m.entries
  change (m.entries.kerase k).countP _ + ((m.lookup k).any p).toNat = countVal p m at hc
  omega

theorem countVal_insert_of_lookup (p : ν → Bool) {k : κ} {v w : ν} {m : AList fun _ : κ => ν}
    (hk : m.lookup k = some w) :
    countVal p (m.insert k v) + (p w).toNat = countVal p m + (p v).toNat := by
  have h := countVal_insert p k v m
  rwa [hk] at h

theorem lookup_insert_eq_if (k k' : κ) (v : ν) (m : AList fun _ : κ => ν) :
    (m.insert k v).lookup k' = if k' = k then some v else m.lookup k' := by
  by_cases h : k' = k
  · subst h; simp
  · rw [if_neg h, AList.lookup_insert_ne h]

end MapCount
