import ParkManager.Visits

/-!
# The end of a stay

A key of `m_RegisteredCars` outlives the stay of its car: a normal car leaves an
empty pointer behind, a handicap car stays in the map.

Proved here, for every run from start-up:

* `nullPointer_iff`: an exit dereferences an empty pointer exactly when it names
  a key that a normal car left behind;
* `endsOnce_iff`: the step lemma, and from it `stays_end_once_iff`: stays end
  exactly once as long as every exit of a known plate is the first of a handicap
  car;
* `second_exit_crashes`: the second exit of a normal car.
-/

namespace ParkManager

open ParkManagerServer Wrap

/-- Every key of `m_RegisteredCars` has a car behind it. -/
def AllLive (s : ParkManagerServer) : Prop := ∀ plate, s.registeredCars.lookup plate ≠ some none

/-- The plate has left, and was not let in again since. -/
def ExitedSince (plate : Str) (past : List ServerStep) : Prop :=
  ∃ mid e pre, past = mid ++ e :: pre ∧ IsExitOf plate e ∧ ∀ st ∈ mid, ¬ IsEntranceOf plate st

instance (plate : Str) (past : List ServerStep) : Decidable (ExitedSince plate past) :=
  decidable_of_iff (¬ History.AllSplits
    (fun mid e _ => IsExitOf plate e → ∃ st ∈ mid, IsEntranceOf plate st) past) (by
      simp only [History.AllSplits, ExitedSince]
      push Not
      rfl)

/-- A transition after which every key has a car behind it and no exit would
dereference an empty pointer; if it is a repeated exit, it changes nothing and is
answered as for an unknown plate. -/
structure EndsOnce (env : Env) (past : List ServerStep) (st : ServerStep) : Prop where
  live : AllLive st.post
  safe : ∀ a r, checkOut env a st.post r ≠ .error .nullPointer
  repeated : ∀ r, st.input.1 = .carStatusUpdate r → ExitedSince r.carPlate past →
    SameCars st.pre st.post ∧ st.output = .carStatusUpdate (notRegisteredCar env)

/-- An exit of a plate that is a key names a handicap car that has not left since
it was let in. -/
def FirstHandicapExit (past : List ServerStep) (st : ServerStep) : Prop :=
  ∀ r, st.input.1 = .carStatusUpdate r → st.pre.registeredCars.lookup r.carPlate ≠ none →
    (st.pre.registeredCars.lookup r.carPlate).any (holds .handicap) = true ∧
      ¬ ExitedSince r.carPlate past

instance (past : List ServerStep) : ∀ st, Decidable (FirstHandicapExit past st)
  | ⟨_, (.gateRegistration _, _), _, _⟩ => .isTrue fun _ h => by cases h
  | ⟨_, (.carEnterence _, _), _, _⟩ => .isTrue fun _ h => by cases h
  | ⟨s, (.carStatusUpdate r, _), _, _⟩ =>
    decidable_of_iff (s.registeredCars.lookup r.carPlate ≠ none →
      (s.registeredCars.lookup r.carPlate).any (holds .handicap) = true ∧
        ¬ ExitedSince r.carPlate past)
      ⟨fun h _ e => by cases e; exact h, fun h => h r rfl⟩

/-! ## Empty pointers -/

theorem stoi_ne_nullPointer (s : Str) : stoi s ≠ .error .nullPointer := by
  simp only [stoi]
  split_ifs <;> simp

theorem nullPointer_iff (env : Env) (a : Ambient) (s : ParkManagerServer) (r : CarStatusUpdate) :
    checkOut env a s r = .error .nullPointer ↔ s.registeredCars.lookup r.carPlate = some none := by
  unfold checkOut
  split
  · rename_i hl
    simp [hl]
  · rename_i hl
    simp [hl]
  · rename_i car hl
    have hne := stoi_ne_nullPointer (env.getValueFromConfigFile (str "FreeDurationinMin"))
    cases hf : stoi (env.getValueFromConfigFile (str "FreeDurationinMin")) with
    | error e =>
      rw [hf] at hne
      simp only [bind, Except.bind, Except.error.injEq, hl, Option.some.injEq, reduceCtorEq,
        iff_false]
      exact fun e' => hne (congrArg Except.error e')
    | ok free => simp [bind, Except.bind, pure, Except.pure, hl]

/-- Where every key has a car behind it, no exit dereferences an empty pointer. -/
theorem AllLive.no_nullPointer {s : ParkManagerServer} (h : AllLive s) (env : Env) (a : Ambient)
    (r : CarStatusUpdate) : checkOut env a s r ≠ .error .nullPointer :=
  fun e => h r.carPlate ((nullPointer_iff env a s r).mp e)

/-! ## One step -/

theorem allLive_setCar {s : ParkManagerServer} (hs : AllLive s) (plate : Str) (car : Car) :
    AllLive (s.setCar plate (some car)) := by
  intro q
  rw [setCar, MapCount.lookup_insert_eq_if]
  split_ifs
  · simp
  · exact hs q

/-- An exit of a live car leaves every key with a car behind it exactly when the
car is one of the handicap pool. -/
theorem allLive_release_iff {s : ParkManagerServer} (hs : AllLive s) (plate : Str) (car : Car) :
    AllLive (release s plate car) ↔ car.pool = .handicap := by
  unfold AllLive
  rw [release_registeredCars]
  cases hc : car.pool with
  | normal =>
    refine iff_of_false (fun h => h plate ?_) (by decide)
    exact AList.lookup_insert s.registeredCars
  | handicap => exact iff_of_true hs rfl

/-- Only an exit of a normal car empties a pointer. -/
theorem allLive_step {env : Env} {s s' : ParkManagerServer} {i : Request × Ambient} {o : Response}
    (hs : AllLive s) (h : handle env s i = .ok (o, s'))
    (hi : ∀ r, i.1 ≠ .carStatusUpdate r) : AllLive s' := by
  cases handled h with
  | gate hg =>
    unfold AllLive
    rw [(registerGate_cars hg).2.2.1]
    exact hs
  | turnedAway => exact hs
  | lostSlot =>
    unfold AllLive
    rwa [registeredCars_setCount]
  | @letIn r a p =>
    refine allLive_setCar ?_ r.carPlate _
    unfold AllLive
    rwa [registeredCars_setCount]
  | @unknown r => exact absurd rfl (hi r)
  | @released r => exact absurd rfl (hi r)

/-- **Step lemma.** -/
theorem endsOnce_iff {env : Env} {past : List ServerStep} {s s' : ParkManagerServer}
    {i : Request × Ambient} {o : Response} (hs : AllLive s) (h : handle env s i = .ok (o, s')) :
    EndsOnce env past ⟨s, i, o, s'⟩ ↔ FirstHandicapExit past ⟨s, i, o, s'⟩ := by
  by_cases hi : ∃ r, i.1 = .carStatusUpdate r
  · obtain ⟨r, hi⟩ := hi
    obtain ⟨req, a⟩ := i
    cases hi
    cases handled h with
    | unknown hl =>
      refine iff_of_true ⟨hs, hs.no_nullPointer env, fun _ _ _ => ⟨SameCars.refl s, rfl⟩⟩ ?_
      intro r' e hne
      cases e
      exact absurd hl hne
    | @released _ _ car _ _ hl =>
      constructor
      · intro hends r' e _
        cases e
        dsimp only
        refine ⟨?_, fun hex => ?_⟩
        · have hp := (allLive_release_iff hs r.carPlate car).mp hends.live
          rw [hl]
          exact any_holds_iff.mpr ⟨car, rfl, hp⟩
        · exact not_sameCars_release s r.carPlate car (hends.repeated r rfl hex).1
      · intro hfirst
        obtain ⟨hany, hnot⟩ := hfirst r rfl (by dsimp only; rw [hl]; simp)
        dsimp only at hany
        rw [hl] at hany
        obtain ⟨car', e, hp⟩ := any_holds_iff.mp hany
        cases e
        have hlive := (allLive_release_iff hs r.carPlate car).mpr hp
        refine ⟨hlive, hlive.no_nullPointer env, ?_⟩
        intro r' e hex
        cases e
        exact absurd hex hnot
  · rw [not_exists] at hi
    have hlive := allLive_step hs h hi
    exact iff_of_true ⟨hlive, hlive.no_nullPointer env, fun r e => absurd e (hi r)⟩
      fun r e => absurd e (hi r)

/-! ## Runs -/

/-- **A stay ends exactly once.** -/
theorem stays_end_once_iff {env : Env} {s₀ s : ParkManagerServer} {h : List ServerStep}
    (hs : StartUp env s₀) (hr : ServerRun env s₀ h s) :
    History.Each (EndsOnce env) h ↔ History.Each FirstHandicapExit h := by
  have h₀ : AllLive s₀ := by
    obtain ⟨-, -, -, -, -, -, hm, -⟩ := startUp_spec hs
    intro plate
    rw [hm, AList.lookup_empty]
    simp
  refine hr.each_iff_each (J := fun _ t => AllLive t) h₀ ?_ ?_
  · intro past s i o s' _ hl hst
    exact endsOnce_iff hl hst
  · intro past s i o s' _ hl hst hc
    exact ((endsOnce_iff hl hst).mpr hc).live

/-- The second exit of a normal car ends the server. -/
theorem second_exit_crashes :
    StartUp packaged packagedStart ∧
    ∃ h s, ServerRun packaged packagedStart h s ∧
      h.reverse.map (·.input) = onMorning [entranceGate, exitGate, enter (str "A") (str "No"),
        leave (str "A")] ∧
      handle packaged s (leave (str "A"), morning) = .error .nullPointer ∧
      ¬ History.Each (EndsOnce packaged) h := by
  refine ⟨startUp_packaged, ?_⟩
  obtain ⟨h, s, hr, hin, hkey, hf⟩ : ∃ h s, ServerRun packaged packagedStart h s ∧
      (h.reverse.map (·.input) = onMorning [entranceGate, exitGate, enter (str "A") (str "No"),
        leave (str "A")] ∧ s.registeredCars.lookup (str "A") = some none ∧
        ¬ History.Each (fun _ st => ∀ plate ∈ [str "A"],
          st.post.registeredCars.lookup plate ≠ some none) h) := by
    refine History.exists_run_of_execute (onMorning [entranceGate, exitGate,
      enter (str "A") (str "No"), leave (str "A")]) _ ?_
    decide +kernel
  refine ⟨h, s, hr, hin, ?_, fun hends => hf (hends.imp fun _ _ he plate _ => he.live plate)⟩
  have hc := (nullPointer_iff packaged morning s ⟨str "EntGate2", str "A"⟩).mpr hkey
  simp only [handle, leave, hc]

/-- A handicap car that comes back before it leaves again. -/
theorem stays_end_once_handicap :
    ∃ h s, ServerRun packaged packagedStart h s ∧
      h.reverse.map (·.input) = onMorning [entranceGate, exitGate, enter (str "A") (str "Yes"),
        leave (str "A"), enter (str "A") (str "Yes"), leave (str "A")] ∧
      History.Each (EndsOnce packaged) h := by
  obtain ⟨h, s, hr, hin, hf⟩ : ∃ h s, ServerRun packaged packagedStart h s ∧
      (h.reverse.map (·.input) = onMorning [entranceGate, exitGate, enter (str "A") (str "Yes"),
        leave (str "A"), enter (str "A") (str "Yes"), leave (str "A")] ∧
        History.Each FirstHandicapExit h) := by
    refine History.exists_run_of_execute (onMorning [entranceGate, exitGate,
      enter (str "A") (str "Yes"), leave (str "A"), enter (str "A") (str "Yes"),
      leave (str "A")]) _ ?_
    decide +kernel
  exact ⟨h, s, hr, hin, (stays_end_once_iff startUp_packaged hr).mpr hf⟩

end ParkManager
