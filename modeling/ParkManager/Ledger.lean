import ParkManager.Visits

/-!
# The record of a plate

The entries of one plate in the two car maps, against what has happened to this
plate.  A visit is an entrance of the plate that is let in, with the car stored for
it, or an exit that names the plate.

Proved here:

* `entry_step`: a transition changes the entries of a plate by its visit, if it is one;
* `entry_run`: after a run they are what the visits of the plate have made of them;
* `same_visits_same_answer`: two servers that have seen the same visits of a plate
  answer its exit alike, whatever else they have served.
-/

namespace ParkManager

open ParkManagerServer

/-- What `m_RegisteredCars` and `m_UnRegisteredCars` hold of a plate. -/
structure Entry where
  registered : Option (Option Car)
  unRegistered : Option (Option Car)
  deriving DecidableEq

def ParkManagerServer.entry (s : ParkManagerServer) (plate : Str) : Entry :=
  ⟨s.registeredCars.lookup plate, s.unRegisteredCars.lookup plate⟩

/-- What can happen to a plate. -/
inductive Visit
  | letIn (car : Car)
  | leaves
  deriving DecidableEq

/-- What the transition does to the plate. -/
def visit (plate : Str) (st : ServerStep) : Option Visit :=
  match st.input.1 with
  | .gateRegistration _ => none
  | .carEnterence r =>
    match st.pre.takesFrom r with
    | some p =>
      if r.carPlate = plate ∧ st.pre.slotNumber p ≠ 0 then some (.letIn (newCar st.input.2 r p))
      else none
    | none => none
  | .carStatusUpdate r => if r.carPlate = plate then some .leaves else none

/-- A transition about another plate is no visit. -/
theorem visit_other {plate : Str} {st : ServerStep}
    (henter : ∀ r, st.input.1 = .carEnterence r → r.carPlate ≠ plate)
    (hleave : ∀ r, st.input.1 = .carStatusUpdate r → r.carPlate ≠ plate) :
    visit plate st = none := by
  unfold visit
  split
  · rfl
  · rename_i r hr
    split
    · rw [if_neg fun h => henter r hr h.1]
    · rfl
  · rename_i r hr
    rw [if_neg (hleave r hr)]

/-- The entries after a visit.  Only a normal car goes over to the history. -/
def Entry.after (e : Entry) : Visit → Entry
  | .letIn car => { e with registered := some (some car) }
  | .leaves =>
    match e.registered with
    | some (some car) => if car.pool = .normal then ⟨some none, some (some car)⟩ else e
    | _ => e

/-- The visits of a plate, newest first. -/
def visits (plate : Str) (h : List ServerStep) : List Visit := h.filterMap (visit plate)

/-- The entries after some visits, newest first. -/
def Entry.afterAll (e : Entry) (vs : List Visit) : Entry := vs.foldr (fun v e => e.after v) e

/-! ## The entries -/

theorem entry_congr {s s' : ParkManagerServer} (hr : s'.registeredCars = s.registeredCars)
    (hu : s'.unRegisteredCars = s.unRegisteredCars) (plate : Str) :
    s'.entry plate = s.entry plate := by
  rw [entry, entry, hr, hu]

theorem entry_setCar (s : ParkManagerServer) (q plate : Str) (car : Car) :
    (s.setCar q (some car)).entry plate =
      if q = plate then (s.entry plate).after (.letIn car) else s.entry plate := by
  have hu : (s.setCar q (some car)).unRegisteredCars = s.unRegisteredCars := rfl
  have hr : (s.setCar q (some car)).registeredCars = s.registeredCars.insert q (some car) := rfl
  rw [entry, hu, hr, MapCount.lookup_insert_eq_if]
  by_cases hq : q = plate
  · rw [if_pos hq.symm, if_pos hq]
    rfl
  · rw [if_neg (Ne.symm hq), if_neg hq]
    rfl

theorem release_unRegisteredCars (s : ParkManagerServer) (plate : Str) (car : Car) :
    (release s plate car).unRegisteredCars =
      match car.pool with
      | .normal => s.unRegisteredCars.insert plate (some car)
      | .handicap => s.unRegisteredCars := by
  unfold release Car.pool
  split_ifs <;> rfl

theorem entry_release {s : ParkManagerServer} {q : Str} {car : Car}
    (hl : s.registeredCars.lookup q = some (some car)) (plate : Str) :
    (release s q car).entry plate =
      if q = plate then (s.entry plate).after .leaves else s.entry plate := by
  have hafter : (s.entry q).after .leaves =
      if car.pool = .normal then ⟨some none, some (some car)⟩ else s.entry q := by
    simp only [entry, Entry.after, hl]
  rw [entry, release_registeredCars, release_unRegisteredCars]
  cases hp : car.pool with
  | normal =>
    simp only [MapCount.lookup_insert_eq_if]
    by_cases hq : q = plate
    · subst hq
      rw [if_pos rfl, if_pos rfl, if_pos rfl, hafter, if_pos hp]
    · rw [if_neg (Ne.symm hq), if_neg (Ne.symm hq), if_neg hq]
      rfl
  | handicap =>
    by_cases hq : q = plate
    · subst hq
      rw [if_pos rfl, hafter, if_neg (by rw [hp]; decide)]
      rfl
    · rw [if_neg hq]
      rfl

/-- **Step lemma.**  A transition changes the entries of a plate by what it does to
the plate. -/
theorem entry_step {env : Env} {st : ServerStep} (plate : Str)
    (h : handle env st.pre st.input = .ok (st.output, st.post)) :
    st.post.entry plate = (st.pre.entry plate).afterAll (visit plate st).toList := by
  obtain ⟨s, i, o, s'⟩ := st
  dsimp only at h ⊢
  cases handled h with
  | gate hg =>
    obtain ⟨-, -, hr, hu⟩ := registerGate_cars hg
    exact entry_congr hr hu plate
  | turnedAway hp =>
    simp only [visit, hp]
    rfl
  | lostSlot hp h0 =>
    simp only [visit, hp, h0, ne_eq, not_true_eq_false, and_false, ↓reduceIte]
    exact entry_congr (registeredCars_setCount ..) (unRegisteredCars_setCount ..) plate
  | @letIn r a p hp h0 =>
    have hs : (s.setCount p (s.slotCount p - 1)).entry plate = s.entry plate :=
      entry_congr (registeredCars_setCount ..) (unRegisteredCars_setCount ..) plate
    rw [entry_setCar, hs]
    simp only [visit, hp, h0, ne_eq, not_false_eq_true, and_true]
    by_cases hq : r.carPlate = plate
    · rw [if_pos hq, if_pos hq]
      rfl
    · rw [if_neg hq, if_neg hq]
      rfl
  | @unknown r a hl =>
    simp only [visit]
    by_cases hq : r.carPlate = plate
    · subst hq
      simp only [↓reduceIte, Option.toList_some, Entry.afterAll, List.foldr_cons, List.foldr_nil,
        Entry.after, entry, hl]
    · rw [if_neg hq]
      rfl
  | @released r _ car _ _ hl =>
    rw [entry_release hl]
    simp only [visit]
    by_cases hq : r.carPlate = plate
    · rw [if_pos hq, if_pos hq]
      rfl
    · rw [if_neg hq, if_neg hq]
      rfl

theorem visits_cons (plate : Str) (st : ServerStep) (past : List ServerStep) :
    visits plate (st :: past) = (visit plate st).toList ++ visits plate past := by
  rw [visits, visits, List.filterMap_cons]
  cases visit plate st <;> rfl

theorem afterAll_append (e : Entry) (vs ws : List Visit) :
    e.afterAll (vs ++ ws) = (e.afterAll ws).afterAll vs := List.foldr_append

/-- **Run lemma.**  What the two maps hold of a plate is what its own visits have made
of it. -/
theorem entry_run {env : Env} {s₀ s : ParkManagerServer} {h : List ServerStep}
    (hr : ServerRun env s₀ h s) (plate : Str) :
    s.entry plate = (s₀.entry plate).afterAll (visits plate h) := by
  refine hr.invariant_hist (I := fun h s => s.entry plate =
    (s₀.entry plate).afterAll (visits plate h)) rfl ?_
  intro past s i o s' _ ih hs
  rw [visits_cons, afterAll_append, ← ih]
  let st : ServerStep := ⟨s, i, o, s'⟩
  have hstep : handle env st.pre st.input = .ok (st.output, st.post) := hs
  exact entry_step plate hstep

/-! ## What an exit is told -/

/-- The answer to an exit depends on the entry of its plate only. -/
theorem checkOut_entry (env : Env) (a : Ambient) {s s' : ParkManagerServer} (r : CarStatusUpdate)
    (h : s.entry r.carPlate = s'.entry r.carPlate) :
    (checkOut env a s r).map Prod.snd = (checkOut env a s' r).map Prod.snd := by
  have hl : s.registeredCars.lookup r.carPlate = s'.registeredCars.lookup r.carPlate :=
    congrArg Entry.registered h
  unfold checkOut
  rw [hl]
  split
  · rfl
  · rfl
  · cases stoi (env.getValueFromConfigFile (str "FreeDurationinMin")) <;> rfl

/-- **The other plates do not matter.**  Two servers, possibly of other sizes and with
other gates, that have seen the same visits of a plate hold the same of it and answer
its exit alike. -/
theorem same_visits_same_answer {env : Env} {s₀ s s₀' s' : ParkManagerServer}
    {h h' : List ServerStep} (hr : ServerRun env s₀ h s) (hr' : ServerRun env s₀' h' s')
    {plate : Str} (h₀ : s₀.entry plate = s₀'.entry plate)
    (hv : visits plate h = visits plate h') :
    s.entry plate = s'.entry plate ∧
    ∀ a gate, (checkOut env a s ⟨gate, plate⟩).map Prod.snd =
      (checkOut env a s' ⟨gate, plate⟩).map Prod.snd := by
  have hentry : s.entry plate = s'.entry plate := by
    rw [entry_run hr plate, entry_run hr' plate, h₀, hv]
  exact ⟨hentry, fun a gate => checkOut_entry env a ⟨gate, plate⟩ hentry⟩

/-- Plate A alone, and behind plate B. -/
theorem same_visits_same_answer_ofA :
    ∃ h s h' s', ServerRun packaged packagedStart h s ∧ ServerRun packaged packagedStart h' s' ∧
      h.length = 2 ∧ h'.length = 4 ∧ s.entry (str "A") = s'.entry (str "A") := by
  let carOfA : Car := newCar morning
    ⟨str "A", str "No", str "2022-07-01T08:00:00Z", str "EntGate1"⟩ .normal
  obtain ⟨h, s, hr, hlen, hv⟩ : ∃ h s, ServerRun packaged packagedStart h s ∧
      (h.length = 2 ∧ visits (str "A") h = [.letIn carOfA]) := by
    refine History.exists_run_of_execute (onMorning [entranceGate, enter (str "A") (str "No")]) _ ?_
    decide +kernel
  obtain ⟨h', s', hr', hlen', hv'⟩ : ∃ h s, ServerRun packaged packagedStart h s ∧
      (h.length = 4 ∧ visits (str "A") h = [.letIn carOfA]) := by
    refine History.exists_run_of_execute (onMorning [entranceGate, enter (str "B") (str "No"),
      enter (str "A") (str "No"), leave (str "B")]) _ ?_
    decide +kernel
  exact ⟨h, s, h', s', hr, hr', hlen, hlen',
    (same_visits_same_answer hr hr' rfl (hv.trans hv'.symm)).1⟩

end ParkManager
