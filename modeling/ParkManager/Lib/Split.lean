import Mathlib.Data.List.TakeWhile
import Mathlib.Data.List.Basic

/-!
# Splitting at a separator and joining back

`List.splitOn c s` is `s` cut at every `c`.  Proved here, for every list:

* `flatMap_splitOn`: writing `c` after every part gives back `s` followed by `c`;
* `splitOn_two`: the parts before the first two separators;
* `splitOn_head`: the first part is what stands before the first separator;
* `splitOn_eq_pair_iff`: when there are exactly two parts.
-/

namespace Split

variable {α : Type*}

section
variable [BEq α] [LawfulBEq α]

/-- **Join after split.** -/
theorem flatMap_splitOn (c : α) (s : List α) :
    (s.splitOn c).flatMap (· ++ [c]) = s ++ [c] := by
  induction s with
  | nil => simp
  | cons a s ih =>
    rw [List.splitOn_cons_eq_if_modifyHead]
    by_cases h : a == c
    · rw [if_pos h, List.flatMap_cons, ih, eq_of_beq h]
      simp
    · rw [if_neg h]
      obtain ⟨f, fs, hf⟩ := List.exists_cons_of_ne_nil (List.splitOn_ne_nil c s)
      rw [hf, List.flatMap_cons] at ih
      rw [hf, List.modifyHead_cons, List.flatMap_cons, List.cons_append, List.cons_append,
        List.cons_append, ih]

theorem splitOn_two {c : α} {a b : List α} (ha : c ∉ a) (hb : c ∉ b) (s : List α) :
    (a ++ c :: (b ++ c :: s)).splitOn c = a :: b :: s.splitOn c := by
  rw [List.splitOn_append_cons_self_of_not_mem ha, List.splitOn_append_cons_self_of_not_mem hb]

end

section
variable [DecidableEq α]

theorem takeWhile_ne_eq_self {c : α} {s : List α} (h : c ∉ s) :
    s.takeWhile (fun x => decide (x ≠ c)) = s := by
  rw [List.takeWhile_eq_self_iff]
  intro x hx
  have hne : x ≠ c := fun e => h (e ▸ hx)
  simpa using hne

theorem takeWhile_ne_append {c : α} {a : List α} (h : c ∉ a) (b : List α) :
    (a ++ c :: b).takeWhile (fun x => decide (x ≠ c)) = a := by
  rw [List.takeWhile_append, takeWhile_ne_eq_self h]
  simp

/-- The first part is what stands before the first separator. -/
theorem splitOn_head (c : α) (s : List α) :
    (s.splitOn c)[0]? = some (s.takeWhile fun x => decide (x ≠ c)) := by
  by_cases h : c ∈ s
  · obtain ⟨a, b, rfl, ha⟩ := List.eq_append_cons_of_mem h
    rw [List.splitOn_append_cons_self_of_not_mem ha, takeWhile_ne_append ha]
    rfl
  · rw [List.splitOn_eq_singleton h, takeWhile_ne_eq_self h]
    rfl

theorem notMem_takeWhile_ne (c : α) (s : List α) : c ∉ s.takeWhile fun x => decide (x ≠ c) := by
  intro h
  have := List.mem_takeWhile_imp h
  simp at this

/-- Two parts are what stands around the only separator. -/
theorem splitOn_eq_pair_iff {c : α} {s a b : List α} :
    s.splitOn c = [a, b] ↔ s = a ++ c :: b ∧ c ∉ a ∧ c ∉ b := by
  constructor
  · intro h
    have hs : s = a ++ c :: b := by
      have hjoin : List.intercalate [c] (s.splitOn c) = s := List.intercalate_splitOn c
      rw [h] at hjoin
      simpa [List.intercalate, List.intersperse] using hjoin.symm
    have ha : a = s.takeWhile fun x => decide (x ≠ c) := by
      have := splitOn_head c s
      rw [h] at this
      exact Option.some.inj this
    have hca : c ∉ a := ha ▸ notMem_takeWhile_ne c s
    refine ⟨hs, hca, ?_⟩
    rw [hs, List.splitOn_append_cons_self_of_not_mem hca, List.cons.injEq] at h
    have hb : b = b.takeWhile fun x => decide (x ≠ c) := by
      have := splitOn_head c b
      rw [h.2] at this
      exact Option.some.inj this
    rw [hb]
    exact notMem_takeWhile_ne c b
  · rintro ⟨rfl, ha, hb⟩
    rw [List.splitOn_append_cons_self_of_not_mem ha, List.splitOn_eq_singleton hb]

end

end Split
