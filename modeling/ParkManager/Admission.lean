import ParkManager.Visits

/-!
# Admission

What one entrance does, from any state whose counters and sizes fit a positive
`int`, and the exit that answers it.

Proved here:

* `answer_of_gate`: the three answers and the state each of them leaves;
* `gives_back`: the exit of a stored car raises the counter its slot came from,
  whatever has happened in between;
* `admission`: the two together, for every flag a gate may send.
-/

namespace ParkManager

open ParkManagerServer Wrap

/-- Both counters and both sizes are what `stoi` of a non-negative value yields. -/
structure FitsInt (s : ParkManagerServer) : Prop where
  slotCount : ∀ p, (s.slotCount p).toNat < 2 ^ 31
  slotMax : ∀ p, (s.slotMax p).toNat < 2 ^ 31

/-- Exactly one slot of `p` and of no other pool was handed out, without a wrap. -/
def TookOne (s s' : ParkManagerServer) (p : Pool) : Prop :=
  (s'.slotCount p).toNat + 1 = (s.slotCount p).toNat ∧ ∀ q, q ≠ p → s'.slotCount q = s.slotCount q

/-- In every state that holds the car, its exit returns and raises the counter of
`p` and no other, provided the free duration is configured. -/
def GivesBack (env : Env) (car : Car) (p : Pool) : Prop :=
  ∀ (t : ParkManagerServer) (a : Ambient) (r : CarStatusUpdate) (free : ℤ),
    t.registeredCars.lookup r.carPlate = some (some car) →
    stoi (env.getValueFromConfigFile (str "FreeDurationinMin")) = .ok free →
    ∃ t' resp, checkOut env a t r = .ok (t', resp) ∧
      t'.slotCount p = t.slotCount p + 1 ∧ ∀ q, q ≠ p → t'.slotCount q = t.slotCount q

/-- The answer of a registered gate with a free slot, and the car it stores. -/
theorem answer_of_gate (env : Env) (a : Ambient) {s : ParkManagerServer} {r : CarEnterence}
    (hs : FitsInt s) (hg : r.enterenceGate ∈ s.enternceGates) :
    (s.choosePool r.handicap = none ∧ admitCar env a s r = (s, parkingFull)) ∨
    ∃ p, s.choosePool r.handicap = some p ∧ s.slotCount p ≠ 0 ∧
      admitCar env a s r =
        ((s.setCount p (s.slotCount p - 1)).setCar r.carPlate (some (newCar a r p)),
          ⟨RegistrationStatus.accept, welcome env r (s.slotNumber p)⟩) := by
  rcases admitCar_cases env a s r with ⟨hgate, -⟩ | ⟨-, hp, e⟩ | ⟨p, hp, h0, -⟩ | ⟨p, hp, -, e⟩
  · exact absurd hg hgate
  · exact Or.inl ⟨hp, e⟩
  · have hne := choosePool_count (takesFrom_eq_some hp).2
    exact absurd h0 (slotNumber_ne_zero_of_lt (hs.slotMax .normal) (hs.slotCount p) hne)
  · have hp' := (takesFrom_eq_some hp).2
    exact Or.inr ⟨p, hp', choosePool_count hp', e⟩

theorem choosePool_eq_none_iff {s : ParkManagerServer} {handicap : Str} :
    s.choosePool handicap = none ↔
      s.normalSlotCount = 0 ∧ (handicap ≠ HandicapStatus.yes ∨ s.handicapSlotCount = 0) := by
  unfold choosePool
  split_ifs with h₁ h₂
  · exact iff_of_false (by simp) fun h => h.2.elim (fun hne => hne h₁.1) h₁.2
  · exact iff_of_false (by simp) fun h => h₂ h.1
  · refine iff_of_true rfl ⟨not_not.mp h₂, ?_⟩
    by_cases hy : handicap = HandicapStatus.yes
    · exact Or.inr (not_not.mp fun h0 => h₁ ⟨hy, h0⟩)
    · exact Or.inl hy

theorem handicap_of_choosePool {s : ParkManagerServer} {handicap : Str}
    (h : s.choosePool handicap = some .handicap) : handicap = HandicapStatus.yes := by
  unfold choosePool at h
  split_ifs at h with h₁ h₂
  · exact h₁.1
  · cases h

theorem gives_back (env : Env) (car : Car) : GivesBack env car car.pool := by
  intro t a r free hl hf
  let duration := env.getTimeinSeconds a.timeUTC - env.getTimeinSeconds car.enterenceTime
  refine ⟨release t r.carPlate car, byeBye env duration free, ?_, ?_, ?_⟩
  · simp only [checkOut, hl, hf]
    rfl
  · rw [release_slotCount, if_pos rfl]
  · intro q hq
    rw [release_slotCount, if_neg hq]

theorem tookOne_setCount {s : ParkManagerServer} {p : Pool} (hp : s.slotCount p ≠ 0) (plate : Str)
    (car : Option Car) : TookOne s ((s.setCount p (s.slotCount p - 1)).setCar plate car) p := by
  constructor
  · rw [slotCount_setCar, slotCount_setCount, if_pos rfl]
    exact toNat_pred hp
  · intro q hq
    rw [slotCount_setCar, slotCount_setCount, if_neg hq]

/-- **Admission takes from the pool the exit gives back to.** -/
theorem admission (env : Env) (a : Ambient) (s s' : ParkManagerServer) (r : CarEnterence)
    (resp : CarEnterenceResponse) (hs : FitsInt s) (h : admitCar env a s r = (s', resp)) :
    (r.enterenceGate ∈ s.enternceGates →
      (resp.result = RegistrationStatus.full ↔ s.normalSlotCount = 0 ∧
        (r.handicap ≠ HandicapStatus.yes ∨ s.handicapSlotCount = 0)) ∧
      (resp.result = RegistrationStatus.full ∨ resp.result = RegistrationStatus.accept)) ∧
    (r.enterenceGate ∉ s.enternceGates → resp.result = RegistrationStatus.reject) ∧
    (resp.result = RegistrationStatus.accept → ∃ p car,
      TookOne s s' p ∧ (p = .handicap → r.handicap = HandicapStatus.yes) ∧
      (∀ plate, plate ≠ r.carPlate →
        s'.registeredCars.lookup plate = s.registeredCars.lookup plate) ∧
      s'.unRegisteredCars = s.unRegisteredCars ∧
      s'.registeredCars.lookup r.carPlate = some (some car) ∧ GivesBack env car p) ∧
    (resp.result ≠ RegistrationStatus.accept → SameCars s s') := by
  by_cases hg : r.enterenceGate ∈ s.enternceGates
  · rcases answer_of_gate env a hs hg with ⟨hp, e⟩ | ⟨p, hp, hne, e⟩ <;>
      (rw [e] at h; obtain ⟨rfl, rfl⟩ := Prod.mk.inj h)
    · have hfull := choosePool_eq_none_iff.mp hp
      exact ⟨fun _ => ⟨iff_of_true rfl hfull, Or.inl rfl⟩, fun hn => absurd hg hn,
        fun ha => absurd ha (by decide), fun _ => SameCars.refl s⟩
    · have hfree : ¬ (s.normalSlotCount = 0 ∧
          (r.handicap ≠ HandicapStatus.yes ∨ s.handicapSlotCount = 0)) := by
        rw [← choosePool_eq_none_iff, hp]
        exact Option.some_ne_none p
      have hback : GivesBack env (newCar a r p) p := by
        have h := gives_back env (newCar a r p)
        rwa [newCar_pool] at h
      have hacc : RegistrationStatus.accept ≠ RegistrationStatus.full := by decide
      refine ⟨fun _ => ⟨iff_of_false hacc hfree, Or.inr rfl⟩, fun hn => absurd hg hn,
        fun _ => ⟨p, newCar a r p, tookOne_setCount hne _ _, ?_, ?_, ?_, ?_, hback⟩,
        fun hn => absurd rfl hn⟩
      · rintro rfl
        exact handicap_of_choosePool hp
      · intro plate hplate
        exact (AList.lookup_insert_ne hplate).trans (by rw [registeredCars_setCount])
      · exact unRegisteredCars_setCount s p _
      · exact AList.lookup_insert _
  · have e : admitCar env a s r = (s, notRegisteredGate) := if_pos hg
    rw [e] at h
    obtain ⟨rfl, rfl⟩ := Prod.mk.inj h
    exact ⟨fun hgate => absurd hgate hg, fun _ => rfl, fun ha => absurd ha (by decide),
      fun _ => SameCars.refl s⟩

/-- The packaged server with its handicap slots given out and the entrance gate
registered. -/
def noHandicapSlots : ParkManagerServer :=
  { packagedStart with handicapSlotCount := 0, enternceGates := {str "EntGate1"} }

theorem fitsInt_noHandicapSlots : FitsInt noHandicapSlots where
  slotCount p := by cases p <;> decide
  slotMax p := by cases p <;> decide

/-- A handicap car that falls back to a normal slot gives a normal slot back. -/
theorem admission_falls_back :
    ∃ s' car, (admitCar packaged morning noHandicapSlots
        ⟨str "A", str "Yes", str "2022-07-01T08:00:00Z", str "EntGate1"⟩).1 = s' ∧
      TookOne noHandicapSlots s' .normal ∧
      s'.registeredCars.lookup (str "A") = some (some car) ∧ GivesBack packaged car .normal := by
  obtain ⟨-, -, hacc, -⟩ := admission packaged morning noHandicapSlots _
    ⟨str "A", str "Yes", str "2022-07-01T08:00:00Z", str "EntGate1"⟩ _ fitsInt_noHandicapSlots rfl
  obtain ⟨p, car, htook, -, -, -, hl, hback⟩ := hacc rfl
  cases p with
  | normal => exact ⟨_, car, rfl, htook, hl, hback⟩
  | handicap => exact absurd htook.1 (by decide)

end ParkManager
