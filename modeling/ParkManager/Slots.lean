import ParkManager.Visits

/-!
# Slot conservation

The free slots of each pool and the cars stored for it add up to the size of
the pool.

Proved here, for every run from start-up:

* `admit_balance`, `release_balance`: what one entrance and one exit do to the
  sum of a pool;
* `conserved_step_iff`: a step keeps the sums exactly when it neither lets in a
  plate that is already parked nor checks out a car of the handicap pool;
* `slot_conservation_iff`: the same for whole runs;
* `normal_le_run`: the bound on the normal pool that no request breaks;
* `slot_leak`: a plate that enters twice costs a slot for good.
-/

namespace ParkManager

open ParkManagerServer Wrap

/-- Free slots and stored cars of each pool add up to its size. -/
def Conserved (s : ParkManagerServer) : Prop :=
  ∀ p, (s.slotCount p).toNat + s.parked p = (s.slotMax p).toNat

instance (s : ParkManagerServer) : Decidable (Conserved s) :=
  decidable_of_iff
    (((s.slotCount .normal).toNat + s.parked .normal = (s.slotMax .normal).toNat) ∧
      ((s.slotCount .handicap).toNat + s.parked .handicap = (s.slotMax .handicap).toNat))
    ⟨fun h p => by cases p; exacts [h.1, h.2], fun h => ⟨h .normal, h .handicap⟩⟩

/-- The step lets in no plate that is parked already, and checks out no car of
the handicap pool. -/
def KeepsSlots (st : ServerStep) : Prop :=
  match st.input.1 with
  | .gateRegistration _ => True
  | .carEnterence r => st.pre.takesFrom r ≠ none → ¬ st.pre.IsParked r.carPlate
  | .carStatusUpdate r =>
    ∀ car, st.pre.registeredCars.lookup r.carPlate = some (some car) → car.pool ≠ .handicap

instance : ∀ st, Decidable (KeepsSlots st)
  | ⟨_, (.gateRegistration _, _), _, _⟩ => .isTrue trivial
  | ⟨s, (.carEnterence r, _), _, _⟩ =>
    inferInstanceAs (Decidable (s.takesFrom r ≠ none → ¬ s.IsParked r.carPlate))
  | ⟨s, (.carStatusUpdate r, _), _, _⟩ =>
    decidable_of_iff (¬ (s.registeredCars.lookup r.carPlate).any (holds .handicap) = true)
      (by simp only [any_holds_iff, not_exists, not_and, KeepsSlots, ne_eq])

/-! ## One step -/

theorem startUp_conserved {env : Env} {s₀ : ParkManagerServer} (h : StartUp env s₀) :
    Conserved s₀ ∧ ∀ p, (s₀.slotMax p).toNat < 2 ^ 31 := by
  obtain ⟨hh, hn, bh, bn, -, -, hm, -⟩ := startUp_spec h
  have h0 : ∀ p, s₀.parked p = 0 := fun p => by rw [parked, hm, MapCount.countVal_empty]
  constructor
  · intro p
    rw [h0]
    cases p
    · simp only [slotCount, slotMax, hn, Nat.add_zero]
    · simp only [slotCount, slotMax, hh, Nat.add_zero]
  · intro p
    cases p
    · exact bn
    · exact bh

/-- An entrance takes a slot of `p` and stores a car of `p`, in place of what
was stored under the plate. -/
theorem admit_balance {s : ParkManagerServer} {p : Pool} (hp : s.slotCount p ≠ 0) (plate : Str)
    {car : Car} (hc : car.pool = p) (q : Pool) :
    let s' := (s.setCount p (s.slotCount p - 1)).setCar plate (some car)
    (s'.slotCount q).toNat + s'.parked q +
        ((s.registeredCars.lookup plate).any (holds q)).toNat =
      (s.slotCount q).toNat + s.parked q := by
  intro s'
  have hcount := MapCount.countVal_insert (holds q) plate (some car) s.registeredCars
  have hparked : s'.parked q =
      MapCount.countVal (holds q) (s.registeredCars.insert plate (some car)) := by
    simp only [s', parked, setCar, registeredCars_setCount]
  have hholds : holds q (some car) = decide (q = p) := by
    simp only [holds, hc, eq_comm]
  have hslot : s'.slotCount q = if q = p then s.slotCount p - 1 else s.slotCount q := by
    simp only [s', slotCount_setCar, slotCount_setCount]
  rw [hholds] at hcount
  rw [hparked, hslot, parked]
  by_cases hq : q = p
  · subst hq
    have := toNat_pred hp
    simp only [↓reduceIte, decide_true, Bool.toNat_true] at hcount ⊢
    omega
  · simp only [hq, ↓reduceIte, decide_false, Bool.toNat_false] at hcount ⊢
    omega

theorem isParked_iff (s : ParkManagerServer) (plate : Str) :
    s.IsParked plate ↔ ∃ q, (s.registeredCars.lookup plate).any (holds q) = true := by
  simp only [any_holds_iff]
  constructor
  · rintro ⟨car, h⟩
    exact ⟨car.pool, car, h, rfl⟩
  · rintro ⟨q, car, h, -⟩
    exact ⟨car, h⟩

/-- An accepted entrance keeps the sums exactly when the plate was not parked. -/
theorem conserved_admit_iff {s : ParkManagerServer} (hs : Conserved s) {p : Pool}
    (hp : s.slotCount p ≠ 0) (plate : Str) {car : Car} (hc : car.pool = p) :
    Conserved ((s.setCount p (s.slotCount p - 1)).setCar plate (some car)) ↔
      ¬ s.IsParked plate := by
  rw [isParked_iff, not_exists]
  apply forall_congr'
  intro q
  have hb := admit_balance hp plate hc q
  have hq := hs q
  rw [slotMax_setCar, slotMax_setCount]
  cases ho : (s.registeredCars.lookup plate).any (holds q) with
  | false =>
    rw [ho, Bool.toNat_false] at hb
    exact iff_of_true (by omega) Bool.false_ne_true
  | true =>
    rw [ho, Bool.toNat_true] at hb
    exact iff_of_false (by omega) (not_not.mpr rfl)

/-- An exit gives a slot back to the pool of the car, but takes only a normal
car out of the count. -/
theorem release_balance {s : ParkManagerServer} {plate : Str} {car : Car}
    (hl : s.registeredCars.lookup plate = some (some car)) {q : Pool}
    (hb : (s.slotCount q).toNat + 1 < 2 ^ 32) :
    ((release s plate car).slotCount q).toNat + (release s plate car).parked q =
      (s.slotCount q).toNat + s.parked q +
        if car.pool = .handicap ∧ q = .handicap then 1 else 0 := by
  rw [release_slotCount, parked, release_registeredCars]
  have hsucc := toNat_succ hb
  cases hc : car.pool with
  | normal =>
    have hcount := MapCount.countVal_insert_of_lookup (holds q) (v := none) hl
    have hholds : holds q (some car) = decide (q = .normal) := by simp only [holds, hc, eq_comm]
    have hnone : holds q none = false := rfl
    rw [hholds, hnone] at hcount
    simp only [reduceCtorEq, false_and, ↓reduceIte, parked]
    by_cases hq : q = .normal
    · simp only [hq, ↓reduceIte, decide_true, Bool.toNat_true, Bool.toNat_false] at hcount hsucc ⊢
      omega
    · simp only [hq, ↓reduceIte, decide_false, Bool.toNat_false] at hcount ⊢
      omega
  | handicap =>
    cases q with
    | normal => simp only [reduceCtorEq, and_false, ↓reduceIte, parked, Nat.add_zero]
    | handicap =>
      simp only [and_self, ↓reduceIte, parked]
      omega

theorem conserved_release_iff {s : ParkManagerServer} (hs : Conserved s) {plate : Str} {car : Car}
    (hl : s.registeredCars.lookup plate = some (some car))
    (hb : ∀ q, (s.slotMax q).toNat < 2 ^ 31) :
    Conserved (release s plate car) ↔ car.pool ≠ .handicap := by
  have hbal : ∀ q, ((release s plate car).slotCount q).toNat + (release s plate car).parked q =
      (s.slotCount q).toNat + s.parked q +
        if car.pool = .handicap ∧ q = .handicap then 1 else 0 := fun q => by
    have h₁ := hs q
    have h₂ := hb q
    exact release_balance hl (by omega)
  constructor
  · intro h hc
    have h₁ := h .handicap
    have h₂ := hs .handicap
    have h₃ := hbal .handicap
    rw [release_slotMax] at h₁
    simp only [hc, and_self, ↓reduceIte] at h₃
    omega
  · intro hc q
    have h₂ := hs q
    have h₃ := hbal q
    rw [release_slotMax]
    simp only [hc, false_and, ↓reduceIte] at h₃
    omega

/-- With the pools conserved, the slot number of a slot that is taken is not 0. -/
theorem slotNumber_ne_zero {s : ParkManagerServer} (hs : Conserved s)
    (hb : ∀ p, (s.slotMax p).toNat < 2 ^ 31) {p : Pool} (hp : s.slotCount p ≠ 0) :
    s.slotNumber p ≠ 0 := by
  have hc := hs p
  have hbp := hb p
  exact slotNumber_ne_zero_of_lt (hb .normal) (by omega) hp

/-- **Step lemma.** -/
theorem conserved_step_iff {env : Env} {s s' : ParkManagerServer} {i : Request × Ambient}
    {o : Response} (hs : Conserved s) (hb : ∀ p, (s.slotMax p).toNat < 2 ^ 31)
    (h : handle env s i = .ok (o, s')) : Conserved s' ↔ KeepsSlots ⟨s, i, o, s'⟩ := by
  have htaken : ∀ {r p}, s.takesFrom r = some p → s.slotCount p ≠ 0 ∧ s.slotNumber p ≠ 0 := by
    intro r p hp
    have hne := choosePool_count (takesFrom_eq_some hp).2
    exact ⟨hne, slotNumber_ne_zero hs hb hne⟩
  cases handled h with
  | gate hg =>
    obtain ⟨hc, hm, hr, -⟩ := registerGate_cars hg
    have hs' : Conserved s' := by
      intro p
      rw [hc, hm, parked, hr]
      exact hs p
    exact iff_of_true hs' trivial
  | turnedAway hp => exact iff_of_true hs fun hn => absurd hp hn
  | lostSlot hp h0 => exact absurd h0 (htaken hp).2
  | @letIn r a p hp =>
    rw [conserved_admit_iff hs (htaken hp).1 r.carPlate (newCar_pool a r p)]
    simp only [KeepsSlots, hp, ne_eq, reduceCtorEq, not_false_eq_true, forall_const]
  | unknown hl =>
    refine iff_of_true hs ?_
    simp only [KeepsSlots, hl, reduceCtorEq, IsEmpty.forall_iff, implies_true]
  | released hl =>
    rw [conserved_release_iff hs hl hb]
    simp only [KeepsSlots, hl, Option.some.injEq, forall_eq']

/-! ## Runs -/

/-- Whatever is asked, the free and the parked normal slots never exceed the
size of the pool. -/
theorem normal_le_run {env : Env} {s₀ s : ParkManagerServer} {h : List ServerStep}
    (hs : StartUp env s₀) (hr : ServerRun env s₀ h s) :
    (s.slotCount .normal).toNat + s.parked .normal ≤ (s.slotMax .normal).toNat := by
  obtain ⟨h₀, hb₀⟩ := startUp_conserved hs
  rw [slotMax_run hr]
  refine hr.invariant (I := fun s => (s.slotCount .normal).toNat + s.parked .normal ≤
    (s₀.slotMax .normal).toNat) (h₀ .normal).le ?_
  intro s i o s' hi hst
  cases handled hst with
  | gate hg =>
    obtain ⟨hc, -, hm, -⟩ := registerGate_cars hg
    rwa [hc, parked, hm]
  | turnedAway => exact hi
  | @lostSlot _ _ p hp =>
    have hne := toNat_pred (choosePool_count (takesFrom_eq_some hp).2)
    rw [parked, registeredCars_setCount, slotCount_setCount, ← parked]
    by_cases hq : Pool.normal = p
    · subst hq
      rw [if_pos rfl]
      omega
    · rwa [if_neg hq]
  | @letIn r a p hp =>
    have hbal := admit_balance (choosePool_count (takesFrom_eq_some hp).2) r.carPlate
      (newCar_pool a r p) .normal
    omega
  | unknown => exact hi
  | released hl =>
    have hb := hb₀ .normal
    have hbal := release_balance hl (q := .normal) (by omega)
    simp only [reduceCtorEq, and_false, ↓reduceIte, Nat.add_zero] at hbal
    rwa [hbal]

/-- **Slot conservation.**  The pools add up in every state of a run exactly when
every step keeps the slots. -/
theorem slot_conservation_iff {env : Env} {s₀ s : ParkManagerServer} {h : List ServerStep}
    (hs : StartUp env s₀) (hr : ServerRun env s₀ h s) :
    (∀ t, History.Reached s₀ h t → Conserved t) ↔ ∀ st ∈ h, KeepsSlots st := by
  obtain ⟨h₀, hb₀⟩ := startUp_conserved hs
  have hiff := hr.each_iff_each (P := fun _ st => Conserved st.post)
    (C := fun _ st => KeepsSlots st)
    (J := fun _ t => Conserved t ∧ ∀ p, (t.slotMax p).toNat < 2 ^ 31) ⟨h₀, hb₀⟩
    (fun _ hj hst => conserved_step_iff hj.1 hj.2 hst)
    (fun _ hj hst hc => ⟨(conserved_step_iff hj.1 hj.2 hst).mpr hc,
      fun p => by rw [handle_slotMax hst]; exact hj.2 p⟩)
  rw [History.each_const_iff, History.each_const_iff] at hiff
  rw [History.forall_reached_iff, hiff]
  exact and_iff_right h₀

/-- A plate that enters twice and leaves once costs a slot for good. -/
theorem slot_leak :
    StartUp packaged packagedStart ∧
    ∃ h s, ServerRun packaged packagedStart h s ∧
      h.reverse.map (·.input) = onMorning [entranceGate, exitGate, enter (str "A") (str "No"),
        enter (str "A") (str "No"), leave (str "A")] ∧
      s.parked .normal = 0 ∧ s.slotCount .normal = 19 ∧ ¬ Conserved s := by
  refine ⟨startUp_packaged, History.exists_run_of_execute (onMorning [entranceGate, exitGate,
    enter (str "A") (str "No"), enter (str "A") (str "No"), leave (str "A")]) _ ?_⟩
  decide +kernel

/-- One car in and the same car out, then another one in: the pools add up all along. -/
theorem slot_conservation_one_stay :
    ∃ h s, ServerRun packaged packagedStart h s ∧
      h.reverse.map (·.input) = onMorning [entranceGate, exitGate, enter (str "B") (str "No"),
        leave (str "B"), enter (str "A") (str "Yes")] ∧
      ∀ t, History.Reached packagedStart h t → Conserved t := by
  obtain ⟨h, s, hr, hin, hk⟩ : ∃ h s, ServerRun packaged packagedStart h s ∧
      (h.reverse.map (·.input) = onMorning [entranceGate, exitGate, enter (str "B") (str "No"),
        leave (str "B"), enter (str "A") (str "Yes")] ∧
        ∀ st ∈ h, KeepsSlots st) := by
    refine History.exists_run_of_execute
      (onMorning [entranceGate, exitGate, enter (str "B") (str "No"), leave (str "B"),
        enter (str "A") (str "Yes")]) _ ?_
    decide +kernel
  exact ⟨h, s, hr, hin, (slot_conservation_iff startUp_packaged hr).mpr hk⟩

end ParkManager
