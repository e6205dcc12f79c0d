import ParkManager.Server
import Mathlib.Algebra.Order.Round

/-!
# The fee

What an exit is charged, as a function of the seconds stayed, the free minutes and
the price.  The code compares seconds and charges minutes; the price is taken
exactly, and the free minutes are so few that their seconds are an `int`.

Proved here:

* `stdRound_of_nonneg`, `stdRound_neg`: `std::round` in terms of `round`;
* `amount_eq`: branch and formula agree, at the boundary and for a clock that runs
  ahead; `fee_law`: what follows from it;
* `checkOut_payable`: the exit of a car asks for this amount.
-/

namespace ParkManager

/-! ## Rounding -/

theorem stdRound_of_nonneg {q : ℚ} (h : 0 ≤ q) : stdRound q = round q := by
  rw [stdRound, if_pos h, round_eq]

/-- Halves are rounded away from zero on either side of it. -/
theorem stdRound_neg (q : ℚ) : stdRound (-q) = -stdRound q := by
  have hceil : ∀ x : ℚ, ⌈-x - 1 / 2⌉ = -⌊x + 1 / 2⌋ := by
    intro x
    rw [← Int.ceil_neg]
    congr 1
    ring
  rcases lt_trichotomy q 0 with hq | rfl | hq
  · have hfloor := hceil (-q)
    rw [neg_neg] at hfloor
    rw [stdRound, if_pos (by linarith), stdRound, if_neg (by linarith), hfloor, neg_neg]
  · decide +kernel
  · rw [stdRound, if_neg (by linarith), stdRound, if_pos hq.le, hceil]

theorem stdRound_zero : stdRound 0 = 0 := by decide +kernel

theorem stdRound_nonneg {q : ℚ} (h : 0 ≤ q) : 0 ≤ stdRound q := by
  rw [stdRound, if_pos h]
  exact Int.floor_nonneg.mpr (by linarith)

theorem stdRound_le {q q' : ℚ} (h : 0 ≤ q) (hq : q ≤ q') : stdRound q ≤ stdRound q' := by
  rw [stdRound, if_pos h, stdRound, if_pos (h.trans hq)]
  exact Int.floor_le_floor (by linarith)

/-! ## Minutes -/

/-- The minutes that are charged: the whole minutes stayed beyond the free ones. -/
def billedMinutes (duration freeDurationinMin : ℤ) : ℤ :=
  max 0 (⌊(duration : ℚ) / 60⌋ - freeDurationinMin)

theorem floor_minutes (duration : ℤ) : ⌊(duration : ℚ) / 60⌋ = duration / 60 := by
  exact_mod_cast Rat.floor_intCast_div_natCast duration 60

theorem billedMinutes_nonneg (duration free : ℤ) : 0 ≤ billedMinutes duration free :=
  le_max_left _ _

theorem billedMinutes_le {duration duration' : ℤ} (h : duration ≤ duration') (free : ℤ) :
    billedMinutes duration free ≤ billedMinutes duration' free := by
  unfold billedMinutes
  rw [floor_minutes, floor_minutes]
  omega

theorem billedMinutes_anti (duration : ℤ) {free free' : ℤ} (h : free ≤ free') :
    billedMinutes duration free' ≤ billedMinutes duration free := by
  unfold billedMinutes
  omega

/-- The last second that is free is the one before a minute beyond the free ones is
complete. -/
theorem billedMinutes_eq_zero_iff {duration free : ℤ} :
    billedMinutes duration free = 0 ↔ duration ≤ 60 * (free + 1) - 1 := by
  unfold billedMinutes
  rw [floor_minutes]
  omega

/-- Where the threshold test succeeds, the truncated quotient is the whole minutes. -/
theorem billedMinutes_of_lt {duration free : ℤ} (hf : 0 ≤ free) (h : duration > free * 60) :
    billedMinutes duration free = duration.tdiv 60 - free := by
  unfold billedMinutes
  rw [floor_minutes, Int.tdiv_eq_ediv_of_nonneg (by omega)]
  omega

/-! ## The amount -/

theorem freeSeconds_eq {free : ℤ} (hf : 0 ≤ free) (hint : 60 * free < 2 ^ 31) :
    freeSeconds free = free * 60 :=
  Int32.toInt_ofInt_of_le (by omega) (by omega)

/-- The seconds compared and the minutes charged agree. -/
theorem amount_eq (p : ℚ) (duration : ℤ) {free : ℤ} (hf : 0 ≤ free) (hint : 60 * free < 2 ^ 31) :
    amount p duration free = stdRound (p * billedMinutes duration free) := by
  rw [amount, freeSeconds_eq hf hint]
  split_ifs with h
  · rw [billedMinutes_of_lt hf h]
  · have hfree : billedMinutes duration free = 0 := billedMinutes_eq_zero_iff.mpr (by omega)
    rw [hfree, Int.cast_zero, mul_zero, stdRound_zero]

/-- **The fee law.** -/
theorem fee_law {p : ℚ} (hp : 0 ≤ p) (duration : ℤ) {free : ℤ} (hf : 0 ≤ free)
    (hint : 60 * free < 2 ^ 31) :
    amount p duration free =
      stdRound (p * (max 0 (⌊(duration : ℚ) / 60⌋ - free) : ℤ)) ∧
    0 ≤ amount p duration free ∧
    (duration ≤ 60 * (free + 1) - 1 → amount p duration free = 0) ∧
    (∀ duration', duration ≤ duration' → amount p duration free ≤ amount p duration' free) ∧
    (∀ p', p ≤ p' → amount p duration free ≤ amount p' duration free) ∧
    ∀ free', free ≤ free' → 60 * free' < 2 ^ 31 →
      amount p duration free' ≤ amount p duration free := by
  have hminutes : ∀ duration free, (0 : ℚ) ≤ billedMinutes duration free := by
    intro duration free
    exact_mod_cast billedMinutes_nonneg duration free
  have hfee : ∀ duration free, 0 ≤ p * billedMinutes duration free := fun duration free =>
    mul_nonneg hp (hminutes duration free)
  refine ⟨amount_eq p duration hf hint, ?_, fun hfree => ?_, fun duration' hd => ?_,
    fun p' hp' => ?_, fun free' hf' hint' => ?_⟩
  · rw [amount_eq p duration hf hint]
    exact stdRound_nonneg (hfee duration free)
  · rw [amount_eq p duration hf hint, billedMinutes_eq_zero_iff.mpr hfree, Int.cast_zero, mul_zero,
      stdRound_zero]
  · rw [amount_eq p duration hf hint, amount_eq p duration' hf hint]
    refine stdRound_le (hfee duration free) (mul_le_mul_of_nonneg_left ?_ hp)
    exact Int.cast_le.mpr (billedMinutes_le hd free)
  · rw [amount_eq p duration hf hint, amount_eq p' duration hf hint]
    exact stdRound_le (hfee duration free)
      (mul_le_mul_of_nonneg_right hp' (hminutes duration free))
  · rw [amount_eq p duration (hf.trans hf') hint', amount_eq p duration hf hint]
    refine stdRound_le (hfee duration free') (mul_le_mul_of_nonneg_left ?_ hp)
    exact Int.cast_le.mpr (billedMinutes_anti duration hf')

/-- At a dollar fifty a minute, with 30 minutes free, 30:59 are still free and 31 minutes cost
the dollar fifty rounded up. -/
theorem fee_law_dollar_fifty :
    amount (3 / 2) 1859 30 = 0 ∧ amount (3 / 2) 1860 30 ≤ amount (3 / 2) 1920 30 ∧
      amount (3 / 2) 1860 30 = 2 := by
  have hp : (0 : ℚ) ≤ 3 / 2 := by norm_num
  exact ⟨(fee_law hp 1859 (by decide) (by decide)).2.2.1 (by decide),
    (fee_law hp 1860 (by decide) (by decide)).2.2.2.1 1920 (by decide), by decide +kernel⟩

/-! ## What the exit asks for -/

/-- The text of the amount, also where nothing is charged. -/
theorem byeBye_payable (env : Env) (duration free : ℤ) :
    (byeBye env duration free).payable =
      decimalInt (toInt32 (amount (env.atof (env.getValueFromConfigFile (str "PricePerMin")))
        duration free)) := by
  unfold byeBye
  split_ifs with h
  · rfl
  · rw [amount, if_neg h]
    rfl

/-- The exit of a car asks for its billed minutes at the configured price. -/
theorem checkOut_payable {env : Env} {a : Ambient} {s s' : ParkManagerServer} {r : CarStatusUpdate}
    {o : CarStatusUpdateResponse} {car : Car} {free : ℤ}
    (hl : s.registeredCars.lookup r.carPlate = some (some car))
    (hfree : stoi (env.getValueFromConfigFile (str "FreeDurationinMin")) = .ok free)
    (hf : 0 ≤ free) (hint : 60 * free < 2 ^ 31) (h : checkOut env a s r = .ok (s', o)) :
    o.payable = decimalInt (toInt32
      (stdRound (env.atof (env.getValueFromConfigFile (str "PricePerMin")) *
        billedMinutes (env.getTimeinSeconds a.timeUTC - env.getTimeinSeconds car.enterenceTime)
          free))) := by
  have ho : checkOut env a s r = .ok (release s r.carPlate car,
      byeBye env (env.getTimeinSeconds a.timeUTC - env.getTimeinSeconds car.enterenceTime)
        free) := by
    simp only [checkOut, hl, hfree, bind, Except.bind, pure, Except.pure]
  rw [ho] at h
  obtain ⟨-, rfl⟩ := Prod.mk.inj (Except.ok.inj h)
  rw [byeBye_payable, amount_eq _ _ hf hint]

end ParkManager
