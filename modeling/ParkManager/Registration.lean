import ParkManager.Visits

/-!
# Registered gates

Proved here, for every run from start-up:

* `gates_run`: the gate sets hold exactly the names accepted so far;
* `entrance_registered`: an entrance that changes something names one of them;
* `registeredOnly_iff`: the step lemma, and from it `registered_gates_only_iff`:
  only registered gates move cars, except for exits of plates that are known;
* `stray_exit`: a gate that never registered checks a car out.
-/

namespace ParkManager

open ParkManagerServer Wrap

/-- The transition accepted a gate of the type under the name. -/
def AcceptsGate (type : GateType) (name : Str) (st : ServerStep) : Prop :=
  match st.input.1 with
  | .gateRegistration r => gateTypeOf r = type.toInt ∧ r.gateName = name ∧
      st.output = .gateRegistration ⟨RegistrationStatus.accept⟩
  | _ => False

/-- The gate was accepted earlier. -/
def Registered (type : GateType) (name : Str) (past : List ServerStep) : Prop :=
  ∃ e ∈ past, AcceptsGate type name e

/-- A transition that changes a counter or a car map was asked for by a gate that
was accepted earlier, an entrance gate for an entrance and an exiting gate for an
exit. -/
structure RegisteredOnly (past : List ServerStep) (st : ServerStep) : Prop where
  entrance : ∀ r, st.input.1 = .carEnterence r → ¬ SameCars st.pre st.post →
    Registered .enterence r.enterenceGate past
  exit : ∀ r, st.input.1 = .carStatusUpdate r → ¬ SameCars st.pre st.post →
    Registered .exiting r.exitingGate past

/-- An exit at a gate that was not accepted as an exiting gate names a plate that
is no key of `m_RegisteredCars`. -/
def NoStrayExit (past : List ServerStep) (st : ServerStep) : Prop :=
  ∀ r, st.input.1 = .carStatusUpdate r → ¬ Registered .exiting r.exitingGate past →
    st.pre.registeredCars.lookup r.carPlate = none

instance (type : GateType) (name : Str) : ∀ st, Decidable (AcceptsGate type name st)
  | ⟨_, (.gateRegistration _, _), _, _⟩ => inferInstanceAs (Decidable (_ ∧ _ ∧ _))
  | ⟨_, (.carEnterence _, _), _, _⟩ => .isFalse id
  | ⟨_, (.carStatusUpdate _, _), _, _⟩ => .isFalse id

instance (type : GateType) (name : Str) (past : List ServerStep) :
    Decidable (Registered type name past) :=
  inferInstanceAs (Decidable (∃ e ∈ past, _))

instance (past : List ServerStep) : ∀ st, Decidable (NoStrayExit past st)
  | ⟨_, (.gateRegistration _, _), _, _⟩ => .isTrue fun _ h => by cases h
  | ⟨_, (.carEnterence _, _), _, _⟩ => .isTrue fun _ h => by cases h
  | ⟨s, (.carStatusUpdate r, _), _, _⟩ =>
    decidable_of_iff (¬ Registered .exiting r.exitingGate past →
      s.registeredCars.lookup r.carPlate = none)
      ⟨fun h _ e => by cases e; exact h, fun h => h r rfl⟩

/-! ## The gate sets -/

theorem registered_cons (type : GateType) (name : Str) (st : ServerStep) (past : List ServerStep) :
    Registered type name (st :: past) ↔ AcceptsGate type name st ∨ Registered type name past := by
  simp [Registered]

/-- The gate sets hold the names accepted in the history. -/
structure GatesTrack (past : List ServerStep) (s : ParkManagerServer) : Prop where
  entrance : ∀ name, name ∈ s.enternceGates ↔ Registered .enterence name past
  exit : ∀ name, name ∈ s.exitingGates ↔ Registered .exiting name past

/-- A transition that accepts no gate and keeps the gate sets. -/
theorem GatesTrack.keep {past : List ServerStep} {st : ServerStep} (h : GatesTrack past st.pre)
    (he : st.post.enternceGates = st.pre.enternceGates)
    (hx : st.post.exitingGates = st.pre.exitingGates)
    (hno : ∀ type name, ¬ AcceptsGate type name st) : GatesTrack (st :: past) st.post where
  entrance name := by rw [he, h.entrance, registered_cons, or_iff_right (hno _ name)]
  exit name := by rw [hx, h.exit, registered_cons, or_iff_right (hno _ name)]

theorem acceptsGate_accept {s s' : ParkManagerServer} {r : GateRegistration} {a : Ambient}
    (type : GateType) (name : Str) :
    AcceptsGate type name ⟨s, (.gateRegistration r, a),
      .gateRegistration ⟨RegistrationStatus.accept⟩, s'⟩ ↔
      gateTypeOf r = type.toInt ∧ r.gateName = name := by
  simp [AcceptsGate]

theorem not_acceptsGate_other {s s' : ParkManagerServer} {r : GateRegistration} {a : Ambient}
    {result : Str} (hres : result ≠ RegistrationStatus.accept) (type : GateType) (name : Str) :
    ¬ AcceptsGate type name ⟨s, (.gateRegistration r, a), .gateRegistration ⟨result⟩, s'⟩ := by
  simp [AcceptsGate, hres]

/-- **Step lemma** for the gate sets. -/
theorem gatesTrack_step {env : Env} {past : List ServerStep} {s s' : ParkManagerServer}
    {i : Request × Ambient} {o : Response} (hs : GatesTrack past s)
    (h : handle env s i = .ok (o, s')) : GatesTrack (⟨s, i, o, s'⟩ :: past) s' := by
  cases handled h with
  | @gate r _ _ _ hg =>
    rcases registerGate_cases s r with ⟨e, ht, -⟩ | ⟨e, ht, -⟩ | ⟨e, -⟩ | ⟨e, -⟩ <;>
      (rw [e] at hg; obtain ⟨rfl, rfl⟩ := Prod.mk.inj hg)
    · constructor
      · intro name
        rw [registered_cons, acceptsGate_accept, ← hs.entrance, Finset.mem_insert,
          eq_comm (a := name)]
        simp [ht, GateType.toInt]
      · intro name
        rw [registered_cons, acceptsGate_accept, ← hs.exit]
        simp [ht, GateType.toInt]
    · constructor
      · intro name
        rw [registered_cons, acceptsGate_accept, ← hs.entrance]
        simp [ht, GateType.toInt]
      · intro name
        rw [registered_cons, acceptsGate_accept, ← hs.exit, Finset.mem_insert, eq_comm (a := name)]
        simp [ht, GateType.toInt]
    · exact hs.keep rfl rfl (not_acceptsGate_other (by decide))
    · exact hs.keep rfl rfl (not_acceptsGate_other (by decide))
  | turnedAway => exact hs.keep rfl rfl fun _ _ => id
  | lostSlot => exact hs.keep (enternceGates_setCount ..) (exitingGates_setCount ..) fun _ _ => id
  | letIn => exact hs.keep (enternceGates_setCount ..) (exitingGates_setCount ..) fun _ _ => id
  | unknown => exact hs.keep rfl rfl fun _ _ => id
  | released => exact hs.keep (release_gates ..).1 (release_gates ..).2 fun _ _ => id

/-- The gate sets hold exactly the names accepted so far. -/
theorem gates_run {env : Env} {s₀ s : ParkManagerServer} {h : List ServerStep}
    (hs : StartUp env s₀) (hr : ServerRun env s₀ h s) : GatesTrack h s := by
  obtain ⟨-, -, -, -, he, hx, -, -⟩ := startUp_spec hs
  refine hr.invariant_hist ?_ fun _ hi hst => gatesTrack_step hi hst
  exact ⟨fun name => by simp [he, Registered], fun name => by simp [hx, Registered]⟩

/-! ## One step -/

/-- An entrance that changes something was asked for at a registered gate. -/
theorem entrance_registered {env : Env} {st : ServerStep} {r : CarEnterence}
    (h : handle env st.pre st.input = .ok (st.output, st.post))
    (hi : st.input.1 = .carEnterence r) (hne : ¬ SameCars st.pre st.post) :
    r.enterenceGate ∈ st.pre.enternceGates := by
  by_contra hgate
  obtain ⟨s, i, o, s'⟩ := st
  dsimp only at h hi
  cases handled h with
  | gate => cases hi
  | turnedAway => exact hne (SameCars.refl s)
  | lostSlot hp =>
    cases hi
    exact hgate (takesFrom_eq_some hp).1
  | letIn hp =>
    cases hi
    exact hgate (takesFrom_eq_some hp).1
  | unknown => cases hi
  | released => cases hi

/-- An exit changes something exactly when the plate is a key. -/
theorem exit_sameCars_iff {env : Env} {st : ServerStep} {r : CarStatusUpdate}
    (h : handle env st.pre st.input = .ok (st.output, st.post))
    (hi : st.input.1 = .carStatusUpdate r) :
    SameCars st.pre st.post ↔ st.pre.registeredCars.lookup r.carPlate = none := by
  obtain ⟨s, ⟨req, a⟩, o, s'⟩ := st
  cases hi
  dsimp only at h ⊢
  cases handled h with
  | unknown hl => exact iff_of_true (SameCars.refl _) hl
  | @released _ _ car _ _ hl =>
    refine iff_of_false (not_sameCars_release s r.carPlate car) ?_
    rw [hl]
    simp

/-- **Step lemma.** -/
theorem registeredOnly_iff {env : Env} {past : List ServerStep} {st : ServerStep}
    (hs : GatesTrack past st.pre)
    (h : handle env st.pre st.input = .ok (st.output, st.post)) :
    RegisteredOnly past st ↔ NoStrayExit past st := by
  constructor
  · intro hreg r hi hno
    by_contra hl
    exact hno (hreg.exit r hi fun hsame => hl ((exit_sameCars_iff h hi).mp hsame))
  · intro hno
    constructor
    · intro r hi hne
      exact (hs.entrance r.enterenceGate).mp (entrance_registered h hi hne)
    · intro r hi hne
      by_contra hgate
      exact hne ((exit_sameCars_iff h hi).mpr (hno r hi hgate))

/-! ## Runs -/

/-- **Only registered gates move cars**, in the runs in which a gate that is not
an accepted exiting gate never names a plate that is a key. -/
theorem registered_gates_only_iff {env : Env} {s₀ s : ParkManagerServer} {h : List ServerStep}
    (hs : StartUp env s₀) (hr : ServerRun env s₀ h s) :
    History.Each RegisteredOnly h ↔ History.Each NoStrayExit h := by
  refine hr.each_iff_each (J := fun past t => GatesTrack past t) (gates_run hs .start) ?_ ?_
  · intro past s i o s' _ hg hst
    exact registeredOnly_iff hg hst
  · intro past s i o s' _ hg hst _
    exact gatesTrack_step hg hst

/-- A gate that never registered checks a car out. -/
theorem stray_exit :
    StartUp packaged packagedStart ∧
    ∃ h s, ServerRun packaged packagedStart h s ∧
      h.reverse.map (·.input) = onMorning [entranceGate, enter (str "A") (str "No"),
        leave (str "A")] ∧
      ¬ History.Each RegisteredOnly h := by
  refine ⟨startUp_packaged, ?_⟩
  obtain ⟨h, s, hr, hin, hf⟩ : ∃ h s, ServerRun packaged packagedStart h s ∧
      (h.reverse.map (·.input) = onMorning [entranceGate, enter (str "A") (str "No"),
        leave (str "A")] ∧
        ¬ History.Each (fun past st => st.input.1 = leave (str "A") →
          st.pre.normalSlotCount ≠ st.post.normalSlotCount →
          Registered .exiting (str "EntGate2") past) h) := by
    refine History.exists_run_of_execute (onMorning [entranceGate,
      enter (str "A") (str "No"), leave (str "A")]) _ ?_
    decide +kernel
  refine ⟨h, s, hr, hin, fun hreg => hf (hreg.imp fun past st hst hi hne => ?_)⟩
  exact hst.exit _ hi fun hsame => hne (hsame.slotCount .normal).symm

theorem registered_gates_only_one_stay :
    ∃ h s, ServerRun packaged packagedStart h s ∧
      h.reverse.map (·.input) = onMorning [entranceGate, exitGate, enter (str "A") (str "No"),
        leave (str "A")] ∧
      History.Each RegisteredOnly h := by
  obtain ⟨h, s, hr, hin, hf⟩ : ∃ h s, ServerRun packaged packagedStart h s ∧
      (h.reverse.map (·.input) = onMorning [entranceGate, exitGate, enter (str "A") (str "No"),
        leave (str "A")] ∧ History.Each NoStrayExit h) := by
    refine History.exists_run_of_execute (onMorning [entranceGate, exitGate,
      enter (str "A") (str "No"), leave (str "A")]) _ ?_
    decide +kernel
  exact ⟨h, s, hr, hin, (registered_gates_only_iff startUp_packaged hr).mpr hf⟩

end ParkManager
