import ParkManager.Pools

/-!
# What a transition did

Entrances and exits as they show in the history of a run.

Proved here:

* `admitted_iff`: which entrances are let in; `LetsIn.announced_eq`,
  `LetsIn.post_eq`: the slot number they are told, and the state they leave;
* `step_residue`: a transition moves a counter up or down by the slot it gives
  back or takes;
* `slotMax_run`: the sizes of the pools never change.
-/

namespace ParkManager

open ParkManagerServer Wrap

/-- The entrance the transition let in. -/
def admitted (st : ServerStep) : Option CarEnterence :=
  match st.input.1, st.output with
  | .carEnterence r, .carEnterence resp =>
    if resp.result = RegistrationStatus.accept then some r else none
  | _, _ => none

/-- The slot number the transition allocated. -/
def announced (st : ServerStep) : Int32 :=
  match st.input.1 with
  | .carEnterence r => (allocateSlot st.pre r.handicap).2.1
  | _ => 0

/-- The pool the transition took a slot from. -/
def taken (st : ServerStep) : Option Pool :=
  match st.input.1 with
  | .carEnterence r => st.pre.takesFrom r
  | _ => none

/-- The pool the transition gave a slot back to. -/
def givenBack (st : ServerStep) : Option Pool :=
  match st.input.1 with
  | .carStatusUpdate r =>
    match st.pre.registeredCars.lookup r.carPlate with
    | some (some car) => some car.pool
    | _ => none
  | _ => none

/-- The entrance finds a slot of `p` with a number that is not 0. -/
def LetsIn (st : ServerStep) (r : CarEnterence) (p : Pool) : Prop :=
  st.input.1 = .carEnterence r ∧ st.pre.takesFrom r = some p ∧ st.pre.slotNumber p ≠ 0

instance decidableLetsIn (st : ServerStep) (Q : CarEnterence → Pool → Prop)
    [∀ r p, Decidable (Q r p)] : Decidable (∀ r p, LetsIn st r p → Q r p) :=
  match h : st.input.1 with
  | .carEnterence r =>
    decidable_of_iff (∀ p ∈ st.pre.takesFrom r, st.pre.slotNumber p ≠ 0 → Q r p) (by
      constructor
      · rintro hq r' p ⟨hr, hp, h0⟩
        rw [h] at hr
        cases hr
        exact hq p hp h0
      · exact fun hq p hp h0 => hq r p ⟨h, hp, h0⟩)
  | .gateRegistration _ => .isTrue fun _ _ ⟨hr, _⟩ => by rw [h] at hr; cases hr
  | .carStatusUpdate _ => .isTrue fun _ _ ⟨hr, _⟩ => by rw [h] at hr; cases hr

/-- The transition reports an exit of the plate. -/
def IsExitOf (plate : Str) (st : ServerStep) : Prop :=
  match st.input.1 with
  | .carStatusUpdate r => r.carPlate = plate
  | _ => False

/-- The transition let the plate in. -/
def IsEntranceOf (plate : Str) (st : ServerStep) : Prop :=
  ∃ r, admitted st = some r ∧ r.carPlate = plate

instance (plate : Str) : ∀ st, Decidable (IsExitOf plate st)
  | ⟨_, (.gateRegistration _, _), _, _⟩ => .isFalse id
  | ⟨_, (.carEnterence _, _), _, _⟩ => .isFalse id
  | ⟨_, (.carStatusUpdate r, _), _, _⟩ => inferInstanceAs (Decidable (r.carPlate = plate))

instance (plate : Str) (st : ServerStep) : Decidable (IsEntranceOf plate st) :=
  decidable_of_iff ((admitted st).any (fun r => r.carPlate = plate) = true) (by
    simp only [Option.any_eq_true, decide_eq_true_eq, IsEntranceOf])

/-- The same slot counters and the same car maps. -/
structure SameCars (s s' : ParkManagerServer) : Prop where
  slotCount : ∀ p, s'.slotCount p = s.slotCount p
  registeredCars : s'.registeredCars = s.registeredCars
  unRegisteredCars : s'.unRegisteredCars = s.unRegisteredCars

theorem SameCars.refl (s : ParkManagerServer) : SameCars s s := ⟨fun _ => rfl, rfl, rfl⟩

/-! ## Entrances -/

/-- An entrance is let in exactly when it takes a slot whose number is not 0. -/
theorem admitted_iff {env : Env} {st : ServerStep} {r : CarEnterence}
    (h : handle env st.pre st.input = .ok (st.output, st.post)) :
    admitted st = some r ↔ ∃ p, LetsIn st r p := by
  obtain ⟨s, i, o, s'⟩ := st
  dsimp only at h
  cases handled h with
  | gate => simp [admitted, LetsIn]
  | turnedAway hp hres =>
    refine iff_of_false (by simp [admitted, hres]) ?_
    rintro ⟨q, e, hq, -⟩
    cases e
    rw [hp] at hq
    cases hq
  | lostSlot hp h0 =>
    have hres : parkingFull.result ≠ RegistrationStatus.accept := by decide
    refine iff_of_false (by simp [admitted, hres]) ?_
    rintro ⟨q, e, hq, hq0⟩
    cases e
    rw [hp] at hq
    cases hq
    exact hq0 h0
  | @letIn r' _ p hp h0 =>
    constructor
    · intro hadm
      simp only [admitted, ↓reduceIte, Option.some.injEq] at hadm
      subst hadm
      exact ⟨p, rfl, hp, h0⟩
    · rintro ⟨q, e, -⟩
      cases e
      simp only [admitted, ↓reduceIte]
  | unknown => simp [admitted, LetsIn]
  | released => simp [admitted, LetsIn]

theorem LetsIn.announced_eq {st : ServerStep} {r : CarEnterence} {p : Pool} (h : LetsIn st r p) :
    announced st = st.pre.slotNumber p := by
  obtain ⟨hi, hp, -⟩ := h
  have ha := allocateSlot_eq st.pre r.handicap
  rw [(takesFrom_eq_some hp).2] at ha
  simp only [announced, hi, ha]

theorem LetsIn.taken_eq {st : ServerStep} {r : CarEnterence} {p : Pool} (h : LetsIn st r p) :
    taken st = some p := by
  simp only [taken, h.1, h.2.1]

/-- What letting a car in does to the state. -/
theorem LetsIn.post_eq {env : Env} {st : ServerStep} {r : CarEnterence} {p : Pool}
    (h : LetsIn st r p) (hst : handle env st.pre st.input = .ok (st.output, st.post)) :
    st.post = (st.pre.setCount p (st.pre.slotCount p - 1)).setCar r.carPlate
      (some (newCar st.input.2 r p)) := by
  obtain ⟨s, i, o, s'⟩ := st
  obtain ⟨hi, hp, h0⟩ := h
  dsimp only at hst hi hp h0 ⊢
  cases handled hst with
  | gate => cases hi
  | turnedAway hnone =>
    cases hi
    rw [hnone] at hp
    cases hp
  | lostSlot hq hq0 =>
    cases hi
    rw [hq] at hp
    cases hp
    exact absurd hq0 h0
  | letIn hq =>
    cases hi
    rw [hq] at hp
    cases hp
    rfl
  | unknown => cases hi
  | released => cases hi

/-! ## Exits -/

/-- Every exit of a car changes a counter. -/
theorem not_sameCars_release (s : ParkManagerServer) (plate : Str) (car : Car) :
    ¬ SameCars s (release s plate car) := by
  intro h
  have hc := h.slotCount car.pool
  rw [release_slotCount, if_pos rfl] at hc
  exact succ_ne _ hc

/-! ## The counters along a run -/

/-- **Step lemma** for a counter. -/
theorem step_residue {env : Env} {s s' : ParkManagerServer} {i : Request × Ambient} {o : Response}
    (h : handle env s i = .ok (o, s')) (p : Pool) :
    residue (s'.slotCount p) = residue (s.slotCount p) +
      ((if givenBack ⟨s, i, o, s'⟩ = some p then 1 else 0) -
        if taken ⟨s, i, o, s'⟩ = some p then 1 else 0) := by
  have hdown : ∀ q, residue ((s.setCount q (s.slotCount q - 1)).slotCount p) =
      residue (s.slotCount p) + ((if (none : Option Pool) = some p then 1 else 0) -
        if some q = some p then 1 else 0) := by
    intro q
    rw [slotCount_setCount]
    by_cases hq : p = q
    · subst hq
      rw [if_pos rfl, residue_pred]
      simp only [reduceCtorEq, ↓reduceIte, zero_add, sub_eq_add_neg]
    · simp [hq, Ne.symm hq]
  cases handled h with
  | gate hg => simp [(registerGate_cars hg).1, givenBack, taken]
  | turnedAway hp => simp [givenBack, taken, hp]
  | lostSlot hp =>
    simp only [givenBack, taken, hp]
    exact hdown _
  | letIn hp =>
    simp only [givenBack, taken, hp, slotCount_setCar]
    exact hdown _
  | unknown hl => simp [givenBack, taken, hl]
  | @released r _ car _ _ hl =>
    rw [release_slotCount]
    by_cases hq : p = car.pool
    · subst hq
      simp [givenBack, taken, hl, residue_succ]
    · simp [givenBack, taken, hl, hq, Ne.symm hq]

theorem slotMax_run {env : Env} {s₀ s : ParkManagerServer} {h : List ServerStep}
    (hr : ServerRun env s₀ h s) (p : Pool) : s.slotMax p = s₀.slotMax p :=
  hr.invariant (I := fun s => s.slotMax p = s₀.slotMax p) rfl
    fun hs hst => (handle_slotMax hst p).trans hs

end ParkManager
