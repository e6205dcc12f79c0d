import ParkManager.Slots

/-!
# Double parking

A slot number is read off the counter of free slots, which says how many slots
are free but not which.

Proved here, for every run from start-up:

* `inRange_normal`, `inRange_handicap_iff`: when a slot number lies in the range
  of its pool;
* `slotCount_eq_iff`: when the counter is back where an earlier entrance found
  it;
* `ownSlot_iff`: the step lemma, and from it `own_slots_iff`: every car gets a
  slot of its own exactly when every entrance finds a fresh number;
* `double_parking`: two cars on one slot.
-/

namespace ParkManager

open ParkManagerServer Wrap

/-- The range of the slot numbers of a pool. -/
def InRange (s : ParkManagerServer) (p : Pool) (slot : Int32) : Prop :=
  match p with
  | .normal => 1 ≤ slot.toInt ∧ slot.toInt ≤ s.normalSlotMax.toNat
  | .handicap => (s.normalSlotMax.toNat : ℤ) + 1 ≤ slot.toInt ∧
      slot.toInt ≤ s.normalSlotMax.toNat + s.handicapSlotMax.toNat

/-- The plate of an earlier entrance `e` has not left by the end of `mid`. -/
def StillIn (mid : List ServerStep) (r : CarEnterence) : Prop :=
  ∀ st ∈ mid, ¬ IsExitOf r.carPlate st

/-- A car that is let in is told a slot number in the range of its pool, and not
the number told to another plate that has not left since. -/
def OwnSlot (past : List ServerStep) (st : ServerStep) : Prop :=
  ∀ r ∈ admitted st,
    (∀ p ∈ taken st, InRange st.pre p (announced st)) ∧
    History.AllSplits (fun mid e _ => ∀ r' ∈ admitted e, r'.carPlate ≠ r.carPlate →
      StillIn mid r' → announced st ≠ announced e) past

/-- Exits that gave a slot back to the pool. -/
def exits (p : Pool) (h : List ServerStep) : ℕ := h.countP fun st => givenBack st = some p

/-- Entrances that took a slot from the pool. -/
def entrances (p : Pool) (h : List ServerStep) : ℕ := h.countP fun st => taken st = some p

/-- If the car that `e` let in from the same pool is still in, then the pool has
not had exactly one more exit than entrances since. -/
def FreshSince (r : CarEnterence) (p : Pool) (mid : List ServerStep) (e : ServerStep) : Prop :=
  ∀ r' p', LetsIn e r' p' → p' = p → r'.carPlate ≠ r.carPlate → StillIn mid r' →
    ¬ exits p mid ≡ entrances p mid + 1 [MOD 2 ^ 32]

/-- The handicap counter does not exceed its pool, and the slot is fresh since
every earlier entrance. -/
def FreshSlot (past : List ServerStep) (st : ServerStep) : Prop :=
  ∀ r p, LetsIn st r p →
    (p = .handicap → st.pre.handicapSlotCount.toNat ≤ st.pre.handicapSlotMax.toNat ∧
      st.pre.normalSlotMax.toNat + st.pre.handicapSlotCount.toNat < 2 ^ 31) ∧
    History.AllSplits (fun mid e _ => FreshSince r p mid e) past

instance (s : ParkManagerServer) (p : Pool) (slot : Int32) : Decidable (InRange s p slot) :=
  match p with
  | .normal => inferInstanceAs (Decidable (_ ∧ _))
  | .handicap => inferInstanceAs (Decidable (_ ∧ _))

instance (mid : List ServerStep) (r : CarEnterence) : Decidable (StillIn mid r) :=
  inferInstanceAs (Decidable (∀ st ∈ mid, _))

instance (past : List ServerStep) (st : ServerStep) : Decidable (OwnSlot past st) :=
  inferInstanceAs (Decidable (∀ r ∈ admitted st, _))

instance (r : CarEnterence) (p : Pool) (mid : List ServerStep) (e : ServerStep) :
    Decidable (FreshSince r p mid e) :=
  decidableLetsIn e _

instance (past : List ServerStep) (st : ServerStep) : Decidable (FreshSlot past st) :=
  decidableLetsIn st _

/-! ## Ranges -/

theorem inRange_congr {s t : ParkManagerServer} (hm : ∀ p, s.slotMax p = t.slotMax p) (p : Pool)
    (slot : Int32) : InRange s p slot ↔ InRange t p slot := by
  have hn : s.normalSlotMax = t.normalSlotMax := hm .normal
  have hh : s.handicapSlotMax = t.handicapSlotMax := hm .handicap
  cases p <;> simp only [InRange, hn, hh]

/-- The ranges of the two pools do not meet. -/
theorem InRange.ne {s : ParkManagerServer} {p q : Pool} {a b : Int32} (hp : InRange s p a)
    (hq : InRange s q b) (hpq : p ≠ q) : a ≠ b := by
  rintro rfl
  cases p <;> cases q <;>
    simp only [InRange, ne_eq, not_true_eq_false, reduceCtorEq] at hp hq hpq <;>
    omega

theorem toNat_ne_zero {n : UInt32} (h : n ≠ 0) : n.toNat ≠ 0 := fun e => h (UInt32.toNat_inj.mp e)

theorem inRange_normal {s : ParkManagerServer} (h0 : s.slotCount .normal ≠ 0)
    (hle : (s.slotCount .normal).toNat ≤ (s.slotMax .normal).toNat)
    (hb : (s.slotMax .normal).toNat < 2 ^ 31) : InRange s .normal (s.slotNumber .normal) := by
  have hne := toNat_ne_zero h0
  simp only [slotCount, slotMax, InRange, slotNumber] at hne hle hb ⊢
  rw [toInt_toInt32, if_pos (by omega)]
  omega

theorem inRange_handicap_iff {s : ParkManagerServer} (h0 : s.slotCount .handicap ≠ 0)
    (hb : ∀ p, (s.slotMax p).toNat < 2 ^ 31) :
    InRange s .handicap (s.slotNumber .handicap) ↔
      s.handicapSlotCount.toNat ≤ s.handicapSlotMax.toNat ∧
        s.normalSlotMax.toNat + s.handicapSlotCount.toNat < 2 ^ 31 := by
  have hne := toNat_ne_zero h0
  have hn := hb .normal
  have hh := hb .handicap
  have hc := s.handicapSlotCount.toNat_lt
  simp only [slotCount, slotMax, InRange, slotNumber] at hne hn hh ⊢
  rw [toInt_toInt32, UInt32.toNat_add]
  -- the sum is at most 2^32 + 2^31, so it wraps at most once
  rcases Nat.lt_or_ge (s.normalSlotMax.toNat + s.handicapSlotCount.toNat) (2 ^ 32) with hw | hw
  · rw [Nat.mod_eq_of_lt hw]
    split_ifs <;> omega
  · rw [Nat.mod_eq_sub_mod hw, Nat.mod_eq_of_lt (by omega)]
    split_ifs <;> omega

theorem slotNumber_eq_iff {s t : ParkManagerServer} (hm : s.slotMax .normal = t.slotMax .normal)
    (p : Pool) : s.slotNumber p = t.slotNumber p ↔ s.slotCount p = t.slotCount p := by
  have hn : s.normalSlotMax = t.normalSlotMax := hm
  cases p with
  | normal => exact toInt32_inj
  | handicap =>
    simp only [slotNumber, slotCount, hn]
    rw [toInt32_inj, UInt32.add_right_inj]

/-! ## The counter between two entrances -/

theorem slotCount_eq_iff {env : Env} {s₀ s : ParkManagerServer} {mid pre : List ServerStep}
    {e : ServerStep} {r : CarEnterence} {p : Pool}
    (hr : ServerRun env s₀ (mid ++ e :: pre) s) (he : LetsIn e r p) :
    s.slotCount p = e.pre.slotCount p ↔ exits p mid ≡ entrances p mid + 1 [MOD 2 ^ 32] := by
  obtain ⟨-, hst, hmid⟩ := hr.split
  have hpost : e.post.slotCount p = e.pre.slotCount p - 1 := by
    rw [he.post_eq hst, slotCount_setCar, slotCount_setCount, if_pos rfl]
  exact counter_eq_iff (fun s => s.slotCount p) (fun st => givenBack st = some p)
    (fun st => taken st = some p) hmid
    (fun hs => by simpa only [decide_eq_true_eq] using step_residue hs p) hpost

/-! ## One entrance -/

/-- Every car let in so far was told a number in the range of its pool. -/
def AllInRange (past : List ServerStep) : Prop :=
  ∀ e ∈ past, ∀ r p, LetsIn e r p → InRange e.pre p (announced e)

theorem inRange_letsIn_iff {env : Env} {s₀ : ParkManagerServer} {past : List ServerStep}
    {st : ServerStep} (hs : StartUp env s₀) (hr : ServerRun env s₀ past st.pre)
    {r : CarEnterence} {p : Pool} (hp : LetsIn st r p) :
    InRange st.pre p (announced st) ↔
      (p = .handicap → st.pre.handicapSlotCount.toNat ≤ st.pre.handicapSlotMax.toNat ∧
        st.pre.normalSlotMax.toNat + st.pre.handicapSlotCount.toNat < 2 ^ 31) := by
  have hb : ∀ p, (st.pre.slotMax p).toNat < 2 ^ 31 := fun p => by
    rw [slotMax_run hr]
    exact (startUp_conserved hs).2 p
  have h0 := choosePool_count (takesFrom_eq_some hp.2.1).2
  rw [hp.announced_eq]
  cases p with
  | normal =>
    have hle := normal_le_run hs hr
    exact iff_of_true (inRange_normal h0 (by omega) (hb .normal)) (fun h => by cases h)
  | handicap =>
    rw [inRange_handicap_iff h0 hb]
    exact ⟨fun h _ => h, fun h => h rfl⟩

/-- **Step lemma.** -/
theorem ownSlot_iff {env : Env} {s₀ : ParkManagerServer} {past : List ServerStep} {st : ServerStep}
    (hs : StartUp env s₀) (hr : ServerRun env s₀ past st.pre) (hall : AllInRange past)
    (hst : handle env st.pre st.input = .ok (st.output, st.post)) :
    OwnSlot past st ↔ FreshSlot past st := by
  -- an earlier entrance, seen from the state it was made in
  have hsplit : ∀ {mid e pre}, past = mid ++ e :: pre →
      (∀ p, e.pre.slotMax p = st.pre.slotMax p) ∧
      handle env e.pre e.input = .ok (e.output, e.post) ∧ e ∈ past := by
    rintro mid e pre rfl
    obtain ⟨hpre, he, -⟩ := hr.split
    exact ⟨fun p => (slotMax_run hpre p).trans (slotMax_run hr p).symm, he, by simp⟩
  have hnum : ∀ {mid e pre r r' p}, past = mid ++ e :: pre → LetsIn st r p → LetsIn e r' p →
      (announced st = announced e ↔ exits p mid ≡ entrances p mid + 1 [MOD 2 ^ 32]) := by
    intro mid e pre r r' p hpast hp he
    rw [hp.announced_eq, he.announced_eq, slotNumber_eq_iff ((hsplit hpast).1 .normal).symm]
    subst hpast
    exact slotCount_eq_iff hr he
  constructor
  · intro hown r p hp
    obtain ⟨hin, hne⟩ := hown r ((admitted_iff hst).mpr ⟨p, hp⟩)
    refine ⟨(inRange_letsIn_iff hs hr hp).mp (hin p hp.taken_eq), ?_⟩
    rintro mid e pre hpast r' p' he rfl hplate hstill hcount
    exact hne mid e pre hpast r' ((admitted_iff (hsplit hpast).2.1).mpr ⟨p', he⟩) hplate hstill
      ((hnum hpast hp he).mpr hcount)
  · intro hfresh r hadm
    obtain ⟨p, hp⟩ := (admitted_iff hst).mp hadm
    obtain ⟨hrange, hcount⟩ := hfresh r p hp
    have hin := (inRange_letsIn_iff hs hr hp).mpr hrange
    constructor
    · intro p' hp'
      rw [hp.taken_eq] at hp'
      cases hp'
      exact hin
    · intro mid e pre hpast r' hadm' hplate hstill
      obtain ⟨hmax, he, hmem⟩ := hsplit hpast
      obtain ⟨p', hp'⟩ := (admitted_iff he).mp hadm'
      by_cases hpp : p' = p
      · subst hpp
        exact fun h => hcount mid e pre hpast r' p' hp' rfl hplate hstill ((hnum hpast hp hp').mp h)
      · have hin' := (inRange_congr hmax p' _).mp (hall e hmem r' p' hp')
        exact (hin'.ne hin hpp).symm

/-! ## Runs -/

/-- **Double parking.**  In a run from start-up every car has a slot of its own,
in the range of its pool, exactly when every entrance finds a fresh number. -/
theorem own_slots_iff {env : Env} {s₀ s : ParkManagerServer} {h : List ServerStep}
    (hs : StartUp env s₀) (hr : ServerRun env s₀ h s) :
    History.Each OwnSlot h ↔ History.Each FreshSlot h := by
  refine hr.each_iff_each (J := fun past _ => AllInRange past) (fun e he => by cases he) ?_ ?_
  · intro past s i o s' hpast hall hst
    exact ownSlot_iff hs hpast hall hst
  · intro past s i o s' hpast hall hst hfresh e he r p hp
    rcases List.mem_cons.mp he with rfl | he
    · exact (inRange_letsIn_iff hs hpast hp).mpr (hfresh r p hp).1
    · exact hall e he r p hp

/-- Two cars go in, the first goes out, and a third is sent to the slot of the
second. -/
def threeCars : List (Request × Ambient) :=
  onMorning [entranceGate, exitGate, enter (str "A") (str "No"), enter (str "B") (str "No"),
    leave (str "A"), enter (str "C") (str "No")]

theorem double_parking :
    StartUp packaged packagedStart ∧
    ∃ h s, ServerRun packaged packagedStart h s ∧ h.reverse.map (·.input) = threeCars ∧
      h.map announced = [19, 0, 19, 20, 0, 0] ∧ ¬ History.Each OwnSlot h := by
  refine ⟨startUp_packaged, History.exists_run_of_execute threeCars _ ?_⟩
  decide +kernel

/-- Cars that leave in the reverse order of their coming do not meet. -/
theorem own_slots_two_stays :
    ∃ h s, ServerRun packaged packagedStart h s ∧
      h.reverse.map (·.input) = onMorning [entranceGate, exitGate, enter (str "A") (str "No"),
        enter (str "B") (str "No"), leave (str "B"), enter (str "C") (str "Yes"),
        enter (str "D") (str "No")] ∧
      History.Each OwnSlot h := by
  obtain ⟨h, s, hr, hin, hf⟩ : ∃ h s, ServerRun packaged packagedStart h s ∧
      (h.reverse.map (·.input) = onMorning [entranceGate, exitGate, enter (str "A") (str "No"),
        enter (str "B") (str "No"), leave (str "B"), enter (str "C") (str "Yes"),
        enter (str "D") (str "No")] ∧ History.Each FreshSlot h) := by
    refine History.exists_run_of_execute (onMorning [entranceGate, exitGate,
      enter (str "A") (str "No"), enter (str "B") (str "No"), leave (str "B"),
      enter (str "C") (str "Yes"), enter (str "D") (str "No")]) _ ?_
    decide +kernel
  exact ⟨h, s, hr, hin, (own_slots_iff startUp_packaged hr).mpr hf⟩

end ParkManager
