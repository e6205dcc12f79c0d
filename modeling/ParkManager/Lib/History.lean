import Mathlib.Algebra.BigOperators.Group.List.Basic

/-!
# Histories and runs

Proved here, for every transition relation `R : σ → ι → ο → σ → Prop`:

* `Each P h`: a history `h` (newest item first) in which `P past item` holds of
  every item, given the items before it; `AllSplits Q h` also gives the items
  after it;
* `Each.iff_each`: the exactness rule, which turns "the item goes right iff the
  condition holds" into "all items go right iff all meet it";
* `Run R s₀ h s`: `h` is the list of transitions of a run from `s₀` to `s`;
  `Run.split` cuts a run at any of its transitions;
* `Run.invariant`: the induction rule for reachable states;
* `Run.each_iff_each`: the exactness rule for runs;
* `Run.telescope`: a counter moved by each transition by a known amount;
* `Run.simulation`: what matches step by step matches run by run.
-/

namespace History

variable {α : Type*}

/-! ## Histories -/

/-- `P past item` holds of every item of the history, newest item first. -/
def Each (P : List α → α → Prop) : List α → Prop
  | [] => True
  | a :: past => P past a ∧ Each P past

@[simp] theorem each_nil (P : List α → α → Prop) : Each P [] := trivial

@[simp] theorem each_cons (P : List α → α → Prop) (a : α) (past : List α) :
    Each P (a :: past) ↔ P past a ∧ Each P past := Iff.rfl

/-- `Q later item past` holds of every item, `later` being what came after it. -/
def AllSplits (Q : List α → α → List α → Prop) (h : List α) : Prop :=
  ∀ later a past, h = later ++ a :: past → Q later a past

instance decidableAllSplits (Q : List α → α → List α → Prop)
    [∀ later a past, Decidable (Q later a past)] (h : List α) : Decidable (AllSplits Q h) :=
  decidable_of_iff (∀ n : Fin h.length, Q (h.take n) (h.get n) (h.drop (n + 1))) (by
    constructor
    · rintro hq later a past rfl
      have hn : later.length < (later ++ a :: past).length := by simp
      simpa using hq ⟨later.length, hn⟩
    · intro hq n
      refine hq _ _ _ ?_
      rw [List.get_eq_getElem, List.getElem_cons_drop, List.take_append_drop])

theorem Each.imp {P Q : List α → α → Prop} {h : List α}
    (hpq : ∀ past a, P past a → Q past a) (hp : Each P h) : Each Q h := by
  induction h with
  | nil => trivial
  | cons a past ih => exact ⟨hpq past a hp.1, ih hp.2⟩

/-- **Exactness rule.**  Let `J` hold of the empty history and be kept by every
item that meets `C`.  If, behind a history where `J` holds, an item does `P`
exactly when it meets `C`, then all items do `P` exactly when all meet `C`. -/
theorem Each.iff_each {J : List α → Prop} {L P C : List α → α → Prop} {h : List α}
    (hl : Each L h) (h₀ : J [])
    (hiff : ∀ past a, L past a → J past → (P past a ↔ C past a))
    (hkeep : ∀ past a, L past a → J past → C past a → J (a :: past)) :
    Each P h ↔ Each C h := by
  have both : (Each P h ↔ Each C h) ∧ (Each C h → J h) := by
    induction h with
    | nil => exact ⟨Iff.rfl, fun _ => h₀⟩
    | cons a past ih =>
      obtain ⟨ih₁, ih₂⟩ := ih hl.2
      refine ⟨?_, fun hc => hkeep past a hl.1 (ih₂ hc.2) hc.1⟩
      rw [each_cons, each_cons, ih₁]
      exact and_congr_left fun hc => hiff past a hl.1 (ih₂ hc)
  exact both.1

/-- What every item keeps up holds of the whole history. -/
theorem Each.invariant {J : List α → Prop} {L : List α → α → Prop} {h : List α} (hl : Each L h)
    (h₀ : J []) (hstep : ∀ past a, L past a → J past → J (a :: past)) : J h := by
  induction h with
  | nil => exact h₀
  | cons a past ih => exact hstep past a hl.1 (ih hl.2)

theorem Each.and {P Q : List α → α → Prop} {h : List α} (hp : Each P h) (hq : Each Q h) :
    Each (fun past a => P past a ∧ Q past a) h := by
  induction h with
  | nil => trivial
  | cons a past ih => exact ⟨⟨hp.1, hq.1⟩, ih hp.2 hq.2⟩

/-- A property of the items alone does not look at the past. -/
theorem each_const_iff (P : α → Prop) (h : List α) :
    Each (fun _ a => P a) h ↔ ∀ a ∈ h, P a := by
  induction h with
  | nil => simp
  | cons a past ih => simp [ih]

instance decidableEach (P : List α → α → Prop) [∀ past a, Decidable (P past a)] :
    ∀ h, Decidable (Each P h)
  | [] => .isTrue trivial
  | _ :: past => @instDecidableAnd _ _ _ (decidableEach P past)

/-! ## Runs -/

variable {σ ι ο : Type*}

/-- One transition of a run: the states around it, what came in, what went out. -/
structure Step (σ ι ο : Type*) where
  pre : σ
  input : ι
  output : ο
  post : σ

/-- `Run R s₀ h s`: the transitions of `h`, newest first, lead from `s₀` to `s`. -/
inductive Run (R : σ → ι → ο → σ → Prop) (s₀ : σ) : List (Step σ ι ο) → σ → Prop
  | start : Run R s₀ [] s₀
  | next {h : List (Step σ ι ο)} {s : σ} {i : ι} {o : ο} {s' : σ} :
      Run R s₀ h s → R s i o s' → Run R s₀ (⟨s, i, o, s'⟩ :: h) s'

/-- The states a run has gone through. -/
def Reached (s₀ : σ) (h : List (Step σ ι ο)) (t : σ) : Prop := t = s₀ ∨ ∃ st ∈ h, st.post = t

theorem forall_reached_iff (I : σ → Prop) (s₀ : σ) (h : List (Step σ ι ο)) :
    (∀ t, Reached s₀ h t → I t) ↔ I s₀ ∧ ∀ st ∈ h, I st.post := by
  constructor
  · intro hi
    exact ⟨hi s₀ (Or.inl rfl), fun st hst => hi st.post (Or.inr ⟨st, hst, rfl⟩)⟩
  · rintro ⟨h₀, hh⟩ t (rfl | ⟨st, hst, rfl⟩)
    · exact h₀
    · exact hh st hst

section
variable {R : σ → ι → ο → σ → Prop} {s₀ s : σ} {h : List (Step σ ι ο)}

theorem Run.cons_inv {st : Step σ ι ο} (hr : Run R s₀ (st :: h) s) :
    Run R s₀ h st.pre ∧ R st.pre st.input st.output st.post ∧ st.post = s := by
  cases hr with
  | next hr hs => exact ⟨hr, hs, rfl⟩

/-- Cut a run at one of its transitions. -/
theorem Run.split {later : List (Step σ ι ο)} {st : Step σ ι ο}
    (hr : Run R s₀ (later ++ st :: h) s) :
    Run R s₀ h st.pre ∧ R st.pre st.input st.output st.post ∧ Run R st.post later s := by
  induction later generalizing s with
  | nil =>
    obtain ⟨hh, hs, e⟩ := hr.cons_inv
    exact ⟨hh, hs, e ▸ .start⟩
  | cons b later ih =>
    obtain ⟨hh, hs, e⟩ := hr.cons_inv
    obtain ⟨h₁, h₂, h₃⟩ := ih hh
    exact ⟨h₁, h₂, e ▸ .next h₃ hs⟩

/-- **Invariant rule.** -/
theorem Run.invariant {I : σ → Prop} (hr : Run R s₀ h s) (h₀ : I s₀)
    (hstep : ∀ {s i o s'}, I s → R s i o s' → I s') : I s := by
  induction hr with
  | start => exact h₀
  | next _ hs ih => exact hstep ih hs

/-- Invariant rule for a property of the state and the history that led to it. -/
theorem Run.invariant_hist {I : List (Step σ ι ο) → σ → Prop} (hr : Run R s₀ h s)
    (h₀ : I [] s₀)
    (hstep : ∀ {past s i o s'}, Run R s₀ past s → I past s → R s i o s' →
      I (⟨s, i, o, s'⟩ :: past) s') : I h s := by
  induction hr with
  | start => exact h₀
  | next hr hs ih => exact hstep hr ih hs

/-- Every transition of a run starts where the run before it ends. -/
theorem Run.each (hr : Run R s₀ h s) :
    Each (fun past st => Run R s₀ past st.pre ∧ R st.pre st.input st.output st.post) h := by
  induction hr with
  | start => trivial
  | next hr hs ih => exact ⟨⟨hr, hs⟩, ih⟩

/-- The exactness rule for a run, with an invariant that also sees the state. -/
theorem Run.each_iff_each {J : List (Step σ ι ο) → σ → Prop}
    {P C : List (Step σ ι ο) → Step σ ι ο → Prop} (hr : Run R s₀ h s) (h₀ : J [] s₀)
    (hiff : ∀ {past s i o s'}, Run R s₀ past s → J past s → R s i o s' →
      (P past ⟨s, i, o, s'⟩ ↔ C past ⟨s, i, o, s'⟩))
    (hkeep : ∀ {past s i o s'}, Run R s₀ past s → J past s → R s i o s' →
      C past ⟨s, i, o, s'⟩ → J (⟨s, i, o, s'⟩ :: past) s') :
    Each P h ↔ Each C h := by
  refine hr.each.iff_each (J := fun past => ∀ s, Run R s₀ past s → J past s) ?_ ?_ ?_
  · intro s hs
    cases hs
    exact h₀
  · rintro past st ⟨hpast, hst⟩ hj
    exact hiff hpast (hj _ hpast) hst
  · rintro past st ⟨hpast, hst⟩ hj hc t ht
    obtain ⟨-, -, rfl⟩ := ht.cons_inv
    exact hkeep hpast (hj _ hpast) hst hc

/-- In a group, a counter that every transition moves by `w` has moved by the
sum of the `w`s. -/
theorem Run.telescope {G : Type*} [AddCommMonoid G] (f : σ → G) (w : Step σ ι ο → G)
    (hr : Run R s₀ h s)
    (hw : ∀ {s i o s'}, R s i o s' → f s' = f s + w ⟨s, i, o, s'⟩) :
    f s = f s₀ + (h.map w).sum := by
  induction hr with
  | start => simp
  | next _ hs ih =>
    rw [hw hs, ih, List.map_cons, List.sum_cons, add_assoc, add_comm (List.sum _)]

end

/-! ## Simulation -/

/-- What a run shows from outside. -/
def trace (h : List (Step σ ι ο)) : List (ι × ο) := h.map fun st => (st.input, st.output)

/-- **Simulation rule.**  If every transition is matched from related states by one with the
same input and output, so is every run. -/
theorem Run.simulation {τ : Type*} {R : σ → ι → ο → σ → Prop} {S : τ → ι → ο → τ → Prop}
    {Q : σ → τ → Prop} {s₀ s : σ} {t₀ : τ} {h : List (Step σ ι ο)} (hr : Run R s₀ h s)
    (h₀ : Q s₀ t₀)
    (hstep : ∀ {s i o s' t}, Q s t → R s i o s' → ∃ t', S t i o t' ∧ Q s' t') :
    ∃ h' t, Run S t₀ h' t ∧ Q s t ∧ trace h' = trace h := by
  induction hr with
  | start => exact ⟨[], t₀, .start, h₀, rfl⟩
  | next _ hs ih =>
    obtain ⟨h', t, hr', hrel, htrace⟩ := ih
    obtain ⟨t', ht, hrel'⟩ := hstep hrel hs
    exact ⟨_, t', hr'.next ht, hrel', by rw [trace, List.map_cons, ← trace, htrace]; rfl⟩

/-! ## Runs of a function

A partial transition function is executed on a list of inputs; the result is a
run of its graph. -/

/-- The graph of a transition function that may fail. -/
def Graph {ε : Type*} (step : σ → ι → Except ε (ο × σ)) : σ → ι → ο → σ → Prop :=
  fun s i o s' => step s i = .ok (o, s')

/-- Execute the inputs, oldest first, on top of the history `h`. -/
def execute {ε : Type*} (step : σ → ι → Except ε (ο × σ)) :
    List (Step σ ι ο) → σ → List ι → Except ε (List (Step σ ι ο) × σ)
  | h, s, [] => .ok (h, s)
  | h, s, i :: is =>
    match step s i with
    | .ok (o, s') => execute step (⟨s, i, o, s'⟩ :: h) s' is
    | .error e => .error e

theorem run_of_execute {ε : Type*} {step : σ → ι → Except ε (ο × σ)} {is : List ι} {s₀ s s' : σ}
    {h h' : List (Step σ ι ο)} (hr : Run (Graph step) s₀ h s)
    (he : execute step h s is = .ok (h', s')) : Run (Graph step) s₀ h' s' := by
  induction is generalizing h s with
  | nil =>
    obtain ⟨rfl, rfl⟩ := Prod.mk.inj (Except.ok.inj he)
    exact hr
  | cons i is ih =>
    unfold execute at he
    split at he
    · rename_i o t hs
      exact ih (.next hr hs) he
    · cases he

/-- A run with a property that can be checked on the execution. -/
theorem exists_run_of_execute {ε : Type*} {step : σ → ι → Except ε (ο × σ)} {s₀ : σ} (is : List ι)
    (Q : List (Step σ ι ο) → σ → Prop) [∀ h s, Decidable (Q h s)]
    (he : (execute step [] s₀ is).toOption.any (fun r => decide (Q r.1 r.2)) = true) :
    ∃ h s, Run (Graph step) s₀ h s ∧ Q h s := by
  cases hx : execute step [] s₀ is with
  | error e =>
    rw [hx] at he
    cases he
  | ok r =>
    rw [hx] at he
    exact ⟨r.1, r.2, run_of_execute .start hx, of_decide_eq_true he⟩

end History
