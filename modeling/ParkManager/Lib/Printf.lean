import Mathlib.Algebra.BigOperators.Group.List.Basic
import Mathlib.Algebra.Ring.Nat
import Mathlib.Tactic.SplitIfs

/-!
# Formats

A format is a text in which a mark and a letter stand for the next argument.  An argument
has the letter that it may be asked for with, and the text that is then written.  Arguments
that the format leaves over are handed on.

Proved here:

* `expand_append`: what a format writes in front of another;
* `expand_literal`: a text without the mark is written as it is;
* `length_expand`: every argument taken is written for two characters of the format, so
  that no format bounds what is written.
-/

namespace Printf

variable {α β : Type*} [DecidableEq α] {mark : α} {letter : β → α} {written : β → List α}

/-- What a format writes, and the arguments left; `none` if an argument is missing or
is not of the kind that the format asks for. -/
def expand (mark : α) (letter : β → α) (written : β → List α) :
    List α → List β → Option (List α × List β)
  | [], args => some ([], args)
  | [c], args => if c = mark then none else some ([c], args)
  | c :: d :: text, args =>
    if c = mark then
      match args with
      | [] => none
      | arg :: args =>
        if letter arg = d then
          (expand mark letter written text args).map fun r => (written arg ++ r.1, r.2)
        else none
    else (expand mark letter written (d :: text) args).map fun r => (c :: r.1, r.2)

/-- One letter that is no mark. -/
theorem expand_cons {c : α} (h : c ≠ mark) (text : List α) (args : List β) :
    expand mark letter written (c :: text) args =
      (expand mark letter written text args).map fun r => (c :: r.1, r.2) := by
  cases text with
  | nil => simp [expand, h]
  | cons d text => rw [expand.eq_def]; exact if_neg h

/-- One argument. -/
theorem expand_arg (arg : β) (text : List α) (args : List β) :
    expand mark letter written (mark :: letter arg :: text) (arg :: args) =
      (expand mark letter written text args).map fun r => (written arg ++ r.1, r.2) := by
  rw [expand, if_pos rfl, if_pos rfl]

/-- A format that writes is written in front of what follows it. -/
theorem expand_append {s : List α} (t : List α) {args rest : List β} {line : List α}
    (h : expand mark letter written s args = some (line, rest)) :
    expand mark letter written (s ++ t) args =
      (expand mark letter written t rest).map fun r => (line ++ r.1, r.2) := by
  fun_induction expand mark letter written s args generalizing line with
  | case1 args =>
    obtain ⟨rfl, rfl⟩ := Prod.mk.inj (Option.some.inj h)
    simp
  | case3 c args hc =>
    obtain ⟨rfl, rfl⟩ := Prod.mk.inj (Option.some.inj h)
    exact expand_cons hc t args
  | case5 text arg args ih =>
    obtain ⟨⟨line', rest'⟩, htext, e⟩ := Option.map_eq_some_iff.mp h
    obtain ⟨rfl, rfl⟩ := Prod.mk.inj e
    rw [List.cons_append, List.cons_append, expand_arg, ih htext, Option.map_map]
    simp only [Function.comp_def, List.append_assoc]
  | case7 c d text args hc ih =>
    obtain ⟨⟨line', rest'⟩, htext, e⟩ := Option.map_eq_some_iff.mp h
    obtain ⟨rfl, rfl⟩ := Prod.mk.inj e
    rw [List.cons_append, expand_cons hc, ih htext, Option.map_map]
    rfl
  | case2 args => cases h
  | case4 d text => cases h
  | case6 d text arg args hd => cases h

/-- A text without the mark asks for nothing. -/
theorem expand_literal {s : List α} (h : mark ∉ s) (args : List β) :
    expand mark letter written s args = some (s, args) := by
  induction s with
  | nil => rfl
  | cons c s ih =>
    rw [List.mem_cons, not_or] at h
    rw [expand_cons (Ne.symm h.1), ih h.2, Option.map_some]

/-- The length of what is written: that of the format and of the arguments taken, less two
for each of them. -/
theorem length_expand {s : List α} {args rest : List β} {line : List α}
    (h : expand mark letter written s args = some (line, rest)) :
    ∃ taken, args = taken ++ rest ∧ line.length + 2 * taken.length =
      s.length + (taken.map fun arg => (written arg).length).sum := by
  fun_induction expand mark letter written s args generalizing line with
  | case1 args =>
    obtain ⟨rfl, rfl⟩ := Prod.mk.inj (Option.some.inj h)
    exact ⟨[], rfl, rfl⟩
  | case3 c args hc =>
    obtain ⟨rfl, rfl⟩ := Prod.mk.inj (Option.some.inj h)
    exact ⟨[], rfl, rfl⟩
  | case5 text arg args ih =>
    obtain ⟨⟨line', rest'⟩, htext, e⟩ := Option.map_eq_some_iff.mp h
    obtain ⟨rfl, rfl⟩ := Prod.mk.inj e
    obtain ⟨taken, rfl, hlen⟩ := ih htext
    refine ⟨arg :: taken, rfl, ?_⟩
    simp only [List.length_cons, List.length_append, List.map_cons, List.sum_cons]
    omega
  | case7 c d text args hc ih =>
    obtain ⟨⟨line', rest'⟩, htext, e⟩ := Option.map_eq_some_iff.mp h
    obtain ⟨rfl, rfl⟩ := Prod.mk.inj e
    obtain ⟨taken, hargs, hlen⟩ := ih htext
    refine ⟨taken, hargs, ?_⟩
    simp only [List.length_cons] at hlen ⊢
    omega
  | case2 args => cases h
  | case4 d text => cases h
  | case6 d text arg args hd => cases h

end Printf
