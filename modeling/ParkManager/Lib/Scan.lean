import Mathlib.Data.List.Basic

/-!
# Scanning

A scanner takes items off the front of an input until it stops.  `step s` is `none`
where it fails, `some (none, rest)` where it stops and `some (some b, rest)` where it
takes the item `b`.

Proved here, for a step that takes something with every item:

* `all_eq_some_iff`: `all`, which counts down from the length of the input, finds what
  the steps read one after the other;
* `Total.reads`, `Total.stop`, `Total.item`: the same for a scanner that never fails, as
  functions;
* `Reads.suffix`, `Reads.forall_mem`: what holds of what is left and of all that is read;
* `Reads.append`, `Reads.exists_pieces`: what is read of an input behind which more input
  stands, if this changes no item, and the pieces of the input the items stand in.
-/

namespace Scan

variable {α β : Type*}

/-- Items are taken until the scanner stops, at most `n` of them. -/
def loop (step : List α → Option (Option β × List α)) : ℕ → List α → Option (List β × List α)
  | 0, _ => none
  | n + 1, s =>
    match step s with
    | none => none
    | some (none, rest) => some ([], rest)
    | some (some b, rest) => (loop step n rest).map fun r => (b :: r.1, r.2)

/-- All items of the input, and what is left of it. -/
def all (step : List α → Option (Option β × List α)) (s : List α) : Option (List β × List α) :=
  loop step (s.length + 1) s

/-- The steps read the items one after the other. -/
inductive Reads (step : List α → Option (Option β × List α)) : List α → List β → List α → Prop
  | stop {s rest : List α} (h : step s = some (none, rest)) : Reads step s [] rest
  | item {s t rest : List α} {b : β} {bs : List β} (h : step s = some (some b, t))
      (more : Reads step t bs rest) : Reads step s (b :: bs) rest

/-- Every item takes something off the input. -/
def Consumes (step : List α → Option (Option β × List α)) : Prop :=
  ∀ s b rest, step s = some (some b, rest) → rest.length < s.length

variable {step : List α → Option (Option β × List α)}

theorem reads_of_loop {n : ℕ} {s rest : List α} {bs : List β}
    (h : loop step n s = some (bs, rest)) : Reads step s bs rest := by
  induction n generalizing s bs with
  | zero => cases h
  | succ n ih =>
    unfold loop at h
    split at h
    · cases h
    · rename_i hstep
      obtain ⟨rfl, rfl⟩ := Prod.mk.inj (Option.some.inj h)
      exact .stop hstep
    · rename_i hstep
      obtain ⟨r, hr, hbs⟩ := Option.map_eq_some_iff.mp h
      obtain ⟨rfl, rfl⟩ := Prod.mk.inj hbs
      exact .item hstep (ih hr)

theorem loop_of_reads (hc : Consumes step) {s rest : List α} {bs : List β}
    (h : Reads step s bs rest) {n : ℕ} (hn : s.length < n) : loop step n s = some (bs, rest) := by
  induction h generalizing n with
  | stop hstep =>
    obtain ⟨m, rfl⟩ := Nat.exists_eq_succ_of_ne_zero (Nat.ne_of_gt (Nat.zero_lt_of_lt hn))
    simp only [loop, hstep]
  | item hstep _ ih =>
    obtain ⟨m, rfl⟩ := Nat.exists_eq_succ_of_ne_zero (Nat.ne_of_gt (Nat.zero_lt_of_lt hn))
    have hlt := hc _ _ _ hstep
    simp only [loop, hstep, ih (Nat.lt_of_lt_of_le hlt (Nat.le_of_lt_succ hn)), Option.map_some]

/-- **What is found is what is read.** -/
theorem all_eq_some_iff (hc : Consumes step) {s rest : List α} {bs : List β} :
    all step s = some (bs, rest) ↔ Reads step s bs rest :=
  ⟨reads_of_loop, fun h => loop_of_reads hc h (Nat.lt_succ_self _)⟩

/-- A scanner that takes something with every item and never fails. -/
structure Total (step : List α → Option (Option β × List α)) : Prop where
  consumes : Consumes step
  succeeds : ∀ s, step s ≠ none

/-- What a scanner that never fails takes. -/
def items (step : List α → Option (Option β × List α)) (s : List α) : List β :=
  ((all step s).map Prod.fst).getD []

/-- What it leaves. -/
def remains (step : List α → Option (Option β × List α)) (s : List α) : List α :=
  ((all step s).map Prod.snd).getD s

theorem items_of_reads (hc : Consumes step) {s rest : List α} {bs : List β}
    (h : Reads step s bs rest) : items step s = bs ∧ remains step s = rest := by
  simp [items, remains, (all_eq_some_iff hc).mpr h]

theorem Total.exists_reads (ht : Total step) (s : List α) : ∃ bs rest, Reads step s bs rest := by
  induction hn : s.length using Nat.strongRecOn generalizing s with
  | ind n ih =>
    cases hs : step s with
    | none => exact absurd hs (ht.succeeds s)
    | some r =>
      obtain ⟨b, t⟩ := r
      cases b with
      | none => exact ⟨[], t, .stop hs⟩
      | some b =>
        have hlt := ht.consumes s b t hs
        obtain ⟨bs, rest, h⟩ := ih t.length (hn ▸ hlt) t rfl
        exact ⟨b :: bs, rest, .item hs h⟩

theorem Total.reads (ht : Total step) (s : List α) :
    Reads step s (items step s) (remains step s) := by
  obtain ⟨bs, rest, h⟩ := ht.exists_reads s
  obtain ⟨hi, hr⟩ := items_of_reads ht.consumes h
  rw [hi, hr]
  exact h

theorem Total.stop (ht : Total step) {s rest : List α} (h : step s = some (none, rest)) :
    items step s = [] ∧ remains step s = rest := items_of_reads ht.consumes (.stop h)

theorem Total.item (ht : Total step) {s t : List α} {b : β} (h : step s = some (some b, t)) :
    items step s = b :: items step t ∧ remains step s = remains step t :=
  items_of_reads ht.consumes (.item h (ht.reads t))

/-- A scanner that only goes forward leaves an end of the input. -/
theorem Reads.suffix (hstep : ∀ s o t, step s = some (o, t) → t <:+ s) {s rest : List α}
    {bs : List β} (h : Reads step s bs rest) : rest <:+ s := by
  induction h with
  | stop h => exact hstep _ _ _ h
  | item h _ ih => exact ih.trans (hstep _ _ _ h)

/-- What holds of every item that can be read from an input with `Q`, if no step loses `Q`. -/
theorem Reads.forall_mem {Q : List α → Prop} {P : β → Prop} {s rest : List α} {bs : List β}
    (h : Reads step s bs rest) (hs : Q s) (hQ : ∀ s o t, step s = some (o, t) → Q s → Q t)
    (hP : ∀ s b t, step s = some (some b, t) → Q s → P b) : ∀ b ∈ bs, P b := by
  induction h with
  | stop _ => exact fun _ hb => absurd hb List.not_mem_nil
  | item hstep _ ih => exact List.forall_mem_cons.mpr ⟨hP _ _ _ hstep hs, ih (hQ _ _ _ hstep hs)⟩

variable {γ : Type*} {f : γ → β}

/-- What is written piece by piece is read, if each piece is read whatever comes behind it. -/
theorem Reads.append {pieces : List (List α × γ)} {s rest : List α} {bs : List β}
    (hpieces : ∀ p ∈ pieces, ∀ t, step (p.1 ++ t) = some (some (f p.2), t))
    (h : Reads step s bs rest) :
    Reads step (pieces.flatMap Prod.fst ++ s) (pieces.map (fun p => f p.2) ++ bs) rest := by
  induction pieces with
  | nil => exact h
  | cons p pieces ih =>
    obtain ⟨hp, hpieces⟩ := List.forall_mem_cons.mp hpieces
    rw [List.flatMap_cons, List.append_assoc]
    exact .item (hp _) (ih hpieces)

/-- If every item is read off a piece of the input, the input is made up of such pieces. -/
theorem Reads.exists_pieces {P : List α → γ → Prop} {s rest : List α} {bs : List β}
    (hP : ∀ s b t, step s = some (some b, t) → ∃ piece c, s = piece ++ t ∧ P piece c ∧ b = f c)
    (h : Reads step s bs rest) :
    ∃ pieces : List (List α × γ), ∃ last, s = pieces.flatMap Prod.fst ++ last ∧
      bs = pieces.map (fun p => f p.2) ∧ (∀ p ∈ pieces, P p.1 p.2) ∧
      step last = some (none, rest) := by
  induction h with
  | stop hstep => exact ⟨[], _, rfl, rfl, fun _ h => (List.not_mem_nil h).elim, hstep⟩
  | item hstep _ ih =>
    obtain ⟨piece, c, hs, hpiece, rfl⟩ := hP _ _ _ hstep
    obtain ⟨pieces, last, ht, rfl, hpieces, hlast⟩ := ih
    refine ⟨(piece, c) :: pieces, last, ?_, rfl, List.forall_mem_cons.mpr ⟨hpiece, hpieces⟩, hlast⟩
    rw [hs, ht, List.flatMap_cons, List.append_assoc]

end Scan
