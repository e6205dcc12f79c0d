import ParkManager.Server
import ParkManager.Lib.Wrap

/-!
# The two pools of slots

The normal and the handicap slots, the choice the entrance makes between them,
and the pool a stored car counts in.

Proved here:

* `allocateSlot_eq`, `admitCar_cases`: an entrance in terms of the pool it takes
  its slot from;
* `release_slotCount`, `release_registeredCars`: what an exit does to the counters
  and to the map;
* `handled`: the branches a step of a run can take.
-/

namespace ParkManager

inductive Pool
  | normal
  | handicap
  deriving DecidableEq, Repr

/-- The flag stored in a car that got a slot of the pool. -/
def Pool.flag : Pool → Str
  | normal => HandicapStatus.no
  | handicap => HandicapStatus.yes

/-- The pool an exit of the car gives a slot back to. -/
def Car.pool (car : Car) : Pool := if car.handicap = HandicapStatus.yes then .handicap else .normal

/-- The entry holds a car of the pool. -/
def holds (p : Pool) : Option Car → Bool
  | none => false
  | some car => car.pool = p

namespace ParkManagerServer

def slotCount (s : ParkManagerServer) : Pool → UInt32
  | .normal => s.normalSlotCount
  | .handicap => s.handicapSlotCount

def slotMax (s : ParkManagerServer) : Pool → UInt32
  | .normal => s.normalSlotMax
  | .handicap => s.handicapSlotMax

def setCount (s : ParkManagerServer) (p : Pool) (n : UInt32) : ParkManagerServer :=
  match p with
  | .normal => { s with normalSlotCount := n }
  | .handicap => { s with handicapSlotCount := n }

/-- `m_RegisteredCars[plate] = ...` -/
def setCar (s : ParkManagerServer) (plate : Str) (car : Option Car) : ParkManagerServer :=
  { s with registeredCars := s.registeredCars.insert plate car }

theorem any_holds_iff {entry : Option (Option Car)} {p : Pool} :
    entry.any (holds p) = true ↔ ∃ car, entry = some (some car) ∧ car.pool = p := by
  rcases entry with _ | _ | car <;> simp [holds]

/-- Number of entries of `m_RegisteredCars` that hold a car of the pool. -/
def parked (s : ParkManagerServer) (p : Pool) : ℕ := MapCount.countVal (holds p) s.registeredCars

/-- A car is stored under the plate. -/
def IsParked (s : ParkManagerServer) (plate : Str) : Prop :=
  ∃ car, s.registeredCars.lookup plate = some (some car)

instance (s : ParkManagerServer) (plate : Str) : Decidable (s.IsParked plate) :=
  match h : s.registeredCars.lookup plate with
  | some (some car) => .isTrue ⟨car, h⟩
  | some none => .isFalse fun ⟨_, e⟩ => by rw [h] at e; cases e
  | none => .isFalse fun ⟨_, e⟩ => by rw [h] at e; cases e

@[simp] theorem slotCount_setCount (s : ParkManagerServer) (p q : Pool) (n : UInt32) :
    (s.setCount p n).slotCount q = if q = p then n else s.slotCount q := by
  cases p <;> cases q <;> rfl

@[simp] theorem slotMax_setCount (s : ParkManagerServer) (p q : Pool) (n : UInt32) :
    (s.setCount p n).slotMax q = s.slotMax q := by
  cases p <;> cases q <;> rfl

@[simp] theorem registeredCars_setCount (s : ParkManagerServer) (p : Pool) (n : UInt32) :
    (s.setCount p n).registeredCars = s.registeredCars := by
  cases p <;> rfl

@[simp] theorem unRegisteredCars_setCount (s : ParkManagerServer) (p : Pool) (n : UInt32) :
    (s.setCount p n).unRegisteredCars = s.unRegisteredCars := by
  cases p <;> rfl

@[simp] theorem enternceGates_setCount (s : ParkManagerServer) (p : Pool) (n : UInt32) :
    (s.setCount p n).enternceGates = s.enternceGates := by
  cases p <;> rfl

@[simp] theorem exitingGates_setCount (s : ParkManagerServer) (p : Pool) (n : UInt32) :
    (s.setCount p n).exitingGates = s.exitingGates := by
  cases p <;> rfl

@[simp] theorem slotCount_setCar (s : ParkManagerServer) (plate : Str) (car : Option Car)
    (q : Pool) : (s.setCar plate car).slotCount q = s.slotCount q := by
  cases q <;> rfl

@[simp] theorem slotMax_setCar (s : ParkManagerServer) (plate : Str) (car : Option Car)
    (q : Pool) : (s.setCar plate car).slotMax q = s.slotMax q := by
  cases q <;> rfl

/-- The pool a car with this flag gets its slot from. -/
def choosePool (s : ParkManagerServer) (handicap : Str) : Option Pool :=
  if handicap = HandicapStatus.yes ∧ s.handicapSlotCount ≠ 0 then some .handicap
  else if s.normalSlotCount ≠ 0 then some .normal
  else none

/-- The slot number announced for the next slot of the pool. -/
def slotNumber (s : ParkManagerServer) : Pool → Int32
  | .normal => s.normalSlotCount.toInt32
  | .handicap => (s.normalSlotMax + s.handicapSlotCount).toInt32

/-- The pool an entrance takes a slot from: none at a gate that is not registered. -/
def takesFrom (s : ParkManagerServer) (r : CarEnterence) : Option Pool :=
  if r.enterenceGate ∈ s.enternceGates then s.choosePool r.handicap else none

theorem choosePool_count {s : ParkManagerServer} {handicap : Str} {p : Pool}
    (h : s.choosePool handicap = some p) : s.slotCount p ≠ 0 := by
  unfold choosePool at h
  split_ifs at h with h₁ h₂
  · cases h
    exact h₁.2
  · cases h
    exact h₂

theorem takesFrom_eq_some {s : ParkManagerServer} {r : CarEnterence} {p : Pool}
    (h : s.takesFrom r = some p) :
    r.enterenceGate ∈ s.enternceGates ∧ s.choosePool r.handicap = some p := by
  unfold takesFrom at h
  split_ifs at h with hg
  exact ⟨hg, h⟩

/-- While counters and sizes fit a positive `int`, a free slot has a number that is
not 0. -/
theorem slotNumber_ne_zero_of_lt {s : ParkManagerServer} {p : Pool}
    (hm : (s.slotMax .normal).toNat < 2 ^ 31) (hc : (s.slotCount p).toNat < 2 ^ 31)
    (hp : s.slotCount p ≠ 0) : s.slotNumber p ≠ 0 := by
  intro h0
  have hz : ∀ n : UInt32, n.toInt32 = 0 → n = 0 := fun n hn => Wrap.toInt32_inj.mp hn
  cases p with
  | normal => exact hp (hz _ h0)
  | handicap =>
    have hsum := congrArg UInt32.toNat (hz _ h0)
    have hne : s.handicapSlotCount.toNat ≠ 0 := fun e => hp (UInt32.toNat_inj.mp e)
    simp only [slotCount, slotMax] at hc hm
    rw [UInt32.toNat_add, Nat.mod_eq_of_lt (by omega), UInt32.toNat_zero] at hsum
    omega

end ParkManagerServer

open ParkManagerServer Wrap

/-! ## Entrance -/

theorem allocateSlot_eq (s : ParkManagerServer) (handicap : Str) :
    allocateSlot s handicap =
      match s.choosePool handicap with
      | some p => (s.setCount p (s.slotCount p - 1), s.slotNumber p, p.flag)
      | none => (s, 0, handicap) := by
  unfold allocateSlot choosePool
  split_ifs with h₁ h₂
  · simp only [setCount, slotCount, slotNumber, Pool.flag, h₁.1]
  · rfl
  · rfl

/-- The car an entrance stores. -/
def newCar (a : Ambient) (r : CarEnterence) (p : Pool) : Car :=
  Car.new a.random.toUInt32 r.carPlate r.enteranceTime r.enterenceGate p.flag

theorem Pool.flag_eq_yes_iff (p : Pool) : p.flag = HandicapStatus.yes ↔ p = .handicap := by
  cases p <;> decide

@[simp] theorem newCar_pool (a : Ambient) (r : CarEnterence) (p : Pool) :
    (newCar a r p).pool = p := by
  have h : (newCar a r p).pool = if p.flag = HandicapStatus.yes then .handicap else .normal := rfl
  rw [h]
  cases p <;> simp [Pool.flag_eq_yes_iff]

/-- All an entrance can do.  The third case, a counter that drops with no slot
handed out, needs a slot number that wraps around to 0. -/
theorem admitCar_cases (env : Env) (a : Ambient) (s : ParkManagerServer) (r : CarEnterence) :
    (r.enterenceGate ∉ s.enternceGates ∧ admitCar env a s r = (s, notRegisteredGate)) ∨
    (r.enterenceGate ∈ s.enternceGates ∧ s.choosePool r.handicap = none ∧
      admitCar env a s r = (s, parkingFull)) ∨
    (∃ p, s.takesFrom r = some p ∧ s.slotNumber p = 0 ∧
      admitCar env a s r = (s.setCount p (s.slotCount p - 1), parkingFull)) ∨
    (∃ p, s.takesFrom r = some p ∧ s.slotNumber p ≠ 0 ∧
      admitCar env a s r =
        ((s.setCount p (s.slotCount p - 1)).setCar r.carPlate (some (newCar a r p)),
          ⟨RegistrationStatus.accept, welcome env r (s.slotNumber p)⟩)) := by
  unfold admitCar
  by_cases hg : r.enterenceGate ∈ s.enternceGates
  · rw [if_neg (not_not.mpr hg), allocateSlot_eq]
    cases hp : s.choosePool r.handicap with
    | none => exact Or.inr (Or.inl ⟨hg, rfl, rfl⟩)
    | some p =>
      have ht : s.takesFrom r = some p := by rw [takesFrom, if_pos hg, hp]
      by_cases hs : s.slotNumber p = 0
      · refine Or.inr (Or.inr (Or.inl ⟨p, ht, hs, ?_⟩))
        simp only [hs, ne_eq, not_true_eq_false, ↓reduceIte]
      · refine Or.inr (Or.inr (Or.inr ⟨p, ht, hs, ?_⟩))
        simp only [ne_eq, hs, not_false_eq_true, ↓reduceIte]
        rfl
  · exact Or.inl ⟨hg, if_pos hg⟩

theorem takesFrom_none_of_gate {s : ParkManagerServer} {r : CarEnterence}
    (hg : r.enterenceGate ∉ s.enternceGates) : s.takesFrom r = none := if_neg hg

theorem takesFrom_none_of_full {s : ParkManagerServer} {r : CarEnterence}
    (hg : r.enterenceGate ∈ s.enternceGates) (hp : s.choosePool r.handicap = none) :
    s.takesFrom r = none := by rw [takesFrom, if_pos hg, hp]

/-! ## Exit -/

theorem release_slotCount (s : ParkManagerServer) (plate : Str) (car : Car) (q : Pool) :
    (release s plate car).slotCount q =
      if q = car.pool then s.slotCount q + 1 else s.slotCount q := by
  unfold release Car.pool
  split_ifs <;> cases q <;> simp_all [slotCount]

theorem release_slotMax (s : ParkManagerServer) (plate : Str) (car : Car) (q : Pool) :
    (release s plate car).slotMax q = s.slotMax q := by
  unfold release
  split_ifs <;> cases q <;> rfl

/-- Only a normal car leaves the map, and it leaves its key behind. -/
theorem release_registeredCars (s : ParkManagerServer) (plate : Str) (car : Car) :
    (release s plate car).registeredCars =
      match car.pool with
      | .normal => s.registeredCars.insert plate none
      | .handicap => s.registeredCars := by
  unfold release Car.pool
  split_ifs <;> rfl

theorem release_gates (s : ParkManagerServer) (plate : Str) (car : Car) :
    (release s plate car).enternceGates = s.enternceGates ∧
      (release s plate car).exitingGates = s.exitingGates := by
  unfold release
  split_ifs <;> exact ⟨rfl, rfl⟩

theorem registerGate_cars {s s' : ParkManagerServer} {r : GateRegistration}
    {resp : GateRegistrationResponse} (h : registerGate s r = (s', resp)) :
    (∀ p, s'.slotCount p = s.slotCount p) ∧ (∀ p, s'.slotMax p = s.slotMax p) ∧
    s'.registeredCars = s.registeredCars ∧ s'.unRegisteredCars = s.unRegisteredCars := by
  rcases registerGate_cases s r with ⟨e, -⟩ | ⟨e, -⟩ | ⟨e, -⟩ | ⟨e, -⟩ <;>
    (rw [e] at h; obtain ⟨rfl, -⟩ := Prod.mk.inj h)
  · exact ⟨fun p => by cases p <;> rfl, fun p => by cases p <;> rfl, rfl, rfl⟩
  · exact ⟨fun p => by cases p <;> rfl, fun p => by cases p <;> rfl, rfl, rfl⟩
  · exact ⟨fun _ => rfl, fun _ => rfl, rfl, rfl⟩
  · exact ⟨fun _ => rfl, fun _ => rfl, rfl, rfl⟩

/-! ## A step of a run -/

/-- What a step of a run does, by the branch its handler takes.  A lost slot is a
counter that drops with no car behind it. -/
inductive Handled (env : Env) (s : ParkManagerServer) :
    Request × Ambient → Response → ParkManagerServer → Prop
  | gate {r : GateRegistration} {a : Ambient} {s' : ParkManagerServer}
      {resp : GateRegistrationResponse} (hg : registerGate s r = (s', resp)) :
      Handled env s (.gateRegistration r, a) (.gateRegistration resp) s'
  | turnedAway {r : CarEnterence} {a : Ambient} {resp : CarEnterenceResponse}
      (hp : s.takesFrom r = none) (hres : resp.result ≠ RegistrationStatus.accept) :
      Handled env s (.carEnterence r, a) (.carEnterence resp) s
  | lostSlot {r : CarEnterence} {a : Ambient} {p : Pool} (hp : s.takesFrom r = some p)
      (h0 : s.slotNumber p = 0) :
      Handled env s (.carEnterence r, a) (.carEnterence parkingFull)
        (s.setCount p (s.slotCount p - 1))
  | letIn {r : CarEnterence} {a : Ambient} {p : Pool} (hp : s.takesFrom r = some p)
      (h0 : s.slotNumber p ≠ 0) :
      Handled env s (.carEnterence r, a)
        (.carEnterence ⟨RegistrationStatus.accept, welcome env r (s.slotNumber p)⟩)
        ((s.setCount p (s.slotCount p - 1)).setCar r.carPlate (some (newCar a r p)))
  | unknown {r : CarStatusUpdate} {a : Ambient} (hl : s.registeredCars.lookup r.carPlate = none) :
      Handled env s (.carStatusUpdate r, a) (.carStatusUpdate (notRegisteredCar env)) s
  | released {r : CarStatusUpdate} {a : Ambient} {car : Car} {duration free : ℤ}
      (hl : s.registeredCars.lookup r.carPlate = some (some car))
      (hf : stoi (env.getValueFromConfigFile (str "FreeDurationinMin")) = .ok free) :
      Handled env s (.carStatusUpdate r, a) (.carStatusUpdate (byeBye env duration free))
        (release s r.carPlate car)

theorem handled {env : Env} {s s' : ParkManagerServer} {i : Request × Ambient} {o : Response}
    (h : handle env s i = .ok (o, s')) : Handled env s i o s' := by
  rcases handle_cases h with ⟨r, a, resp, rfl, hg, rfl⟩ | ⟨r, a, resp, rfl, hg, rfl⟩ |
    ⟨r, a, resp, rfl, hg, rfl⟩
  · exact .gate hg
  · rcases admitCar_cases env a s r with ⟨hgate, e⟩ | ⟨hgate, hp, e⟩ | ⟨p, hp, h0, e⟩ |
      ⟨p, hp, h0, e⟩ <;>
      (rw [e] at hg; obtain ⟨rfl, rfl⟩ := Prod.mk.inj hg)
    · exact .turnedAway (takesFrom_none_of_gate hgate) (by decide)
    · exact .turnedAway (takesFrom_none_of_full hgate hp) (by decide)
    · exact .lostSlot hp h0
    · exact .letIn hp h0
  · rcases checkOut_cases hg with ⟨hl, rfl, rfl⟩ | ⟨car, duration, free, hl, hf, rfl, rfl⟩
    · exact .unknown hl
    · exact .released hl hf

/-- No handler changes the sizes of the pools. -/
theorem handle_slotMax {env : Env} {s s' : ParkManagerServer} {i : Request × Ambient}
    {o : Response} (h : handle env s i = .ok (o, s')) (p : Pool) : s'.slotMax p = s.slotMax p := by
  cases handled h with
  | gate hg => exact (registerGate_cars hg).2.1 p
  | turnedAway => rfl
  | lostSlot => exact slotMax_setCount ..
  | letIn => rw [slotMax_setCar, slotMax_setCount]
  | unknown => rfl
  | released => exact release_slotMax ..

/-- Every handler keeps the names in the gate sets. -/
theorem handle_gates_mono {env : Env} {s s' : ParkManagerServer} {i : Request × Ambient}
    {o : Response} (h : handle env s i = .ok (o, s')) :
    s.enternceGates ⊆ s'.enternceGates ∧ s.exitingGates ⊆ s'.exitingGates := by
  cases handled h with
  | @gate r _ _ _ hg =>
    rcases registerGate_cases s r with ⟨e, -⟩ | ⟨e, -⟩ | ⟨e, -⟩ | ⟨e, -⟩ <;>
      (rw [e] at hg; obtain ⟨rfl, -⟩ := Prod.mk.inj hg)
    · exact ⟨Finset.subset_insert _ _, Finset.Subset.refl _⟩
    · exact ⟨Finset.Subset.refl _, Finset.subset_insert _ _⟩
    · exact ⟨Finset.Subset.refl _, Finset.Subset.refl _⟩
    · exact ⟨Finset.Subset.refl _, Finset.Subset.refl _⟩
  | turnedAway => exact ⟨Finset.Subset.refl _, Finset.Subset.refl _⟩
  | lostSlot => exact ⟨(enternceGates_setCount ..).ge, (exitingGates_setCount ..).ge⟩
  | letIn => exact ⟨(enternceGates_setCount ..).ge, (exitingGates_setCount ..).ge⟩
  | unknown => exact ⟨Finset.Subset.refl _, Finset.Subset.refl _⟩
  | released => exact ⟨(release_gates ..).1.ge, (release_gates ..).2.ge⟩

end ParkManager
