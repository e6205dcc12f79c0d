import Mathlib.Data.List.Basic
import Mathlib.Order.Basic

/-!
# Common prefixes

The number of items two lists share at their front.  Proved here, for every type:

* `take_eq_take_iff`: how much of two different lists can be told apart;
* `agree_append_cons`: a separator behind two different lists adds nothing to what they
  share.
-/

namespace CommonPrefix

variable {α : Type*} [DecidableEq α]

/-- The length of the longest common prefix. -/
def agree : List α → List α → ℕ
  | a :: s, b :: t => if a = b then agree s t + 1 else 0
  | [], _ => 0
  | _ :: _, [] => 0

theorem agree_cons_self (a : α) (s t : List α) : agree (a :: s) (a :: t) = agree s t + 1 :=
  if_pos rfl

theorem agree_cons_of_ne {a b : α} (h : a ≠ b) (s t : List α) : agree (a :: s) (b :: t) = 0 :=
  if_neg h

/-- The beginnings of two different lists are the same up to what they share. -/
theorem take_eq_take_iff {s t : List α} (h : s ≠ t) (n : ℕ) :
    s.take n = t.take n ↔ n ≤ agree s t := by
  induction s generalizing t n with
  | nil =>
    cases t with
    | nil => exact absurd rfl h
    | cons b t => cases n <;> simp [agree]
  | cons a s ih =>
    cases t with
    | nil => cases n <;> simp [agree]
    | cons b t =>
      cases n with
      | zero => simp
      | succ n =>
        rw [List.take_succ_cons, List.take_succ_cons, List.cons.injEq]
        by_cases hab : a = b
        · subst hab
          have hst : s ≠ t := fun e => h (by rw [e])
          rw [agree_cons_self, ih hst]
          simp
        · rw [agree_cons_of_ne hab]
          simp [hab]

/-- What two lists share ends before a separator that neither of them has. -/
theorem agree_append_cons {c : α} {s t : List α} (hs : c ∉ s) (ht : c ∉ t) (h : s ≠ t)
    (u v : List α) : agree (s ++ c :: u) (t ++ c :: v) = agree s t := by
  induction s generalizing t with
  | nil =>
    cases t with
    | nil => exact absurd rfl h
    | cons b t =>
      have hcb : c ≠ b := fun e => ht (e ▸ List.mem_cons_self)
      exact agree_cons_of_ne hcb _ _
  | cons a s ih =>
    obtain ⟨hca, hs⟩ := not_or.mp (List.mem_cons.not.mp hs)
    cases t with
    | nil => exact agree_cons_of_ne (Ne.symm hca) _ _
    | cons b t =>
      rw [List.cons_append, List.cons_append]
      by_cases hab : a = b
      · subst hab
        have hst : s ≠ t := fun e => h (by rw [e])
        rw [agree_cons_self, agree_cons_self,
          ih hs (fun hm => ht (List.mem_cons_of_mem _ hm)) hst]
      · rw [agree_cons_of_ne hab, agree_cons_of_ne hab]

end CommonPrefix
