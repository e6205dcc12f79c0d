import ParkManager.Pools
import ParkManager.Lib.CommonPrefix

/-!
# The slot in the welcome text

The slot number leaves the server in the comment only, behind texts of any length, and
the comment is cut at 249 bytes.

Proved here:

* `accepted_comment`: the comment of an entrance that is accepted;
* `welcome_ne_iff`: when the cut leaves two slot numbers apart;
* `told_slot_iff`: two entrances that differ in the slot get different comments exactly
  then; `slot_cut_off` is a plate that is too long.
-/

namespace ParkManager

open ParkManagerServer CommonPrefix

/-- The welcome text in front of the slot number. -/
def beforeSlot (env : Env) (carEnter : CarEnterence) : Str :=
  str "Welcome " ++ cstr carEnter.carPlate ++ str " ,Gate " ++ cstr carEnter.enterenceGate ++
  str " will be opened for you, first " ++
  cstr (env.getValueFromConfigFile (str "FreeDurationinMin")) ++
  str " minutes of your stay is free of charge then its only " ++
  cstr (env.getValueFromConfigFile (str "PricePerMin")) ++
  cstr (env.getValueFromConfigFile (str "Currency")) ++
  str " per min proceed to slot number "

/-- The slot number that an entrance announces, 0 for none. -/
def allocatedSlot (s : ParkManagerServer) (carEnter : CarEnterence) : Int32 :=
  (allocateSlot s carEnter.handicap).2.1

theorem welcomeText_eq (env : Env) (r : CarEnterence) (slot : Int32) :
    welcomeText env r slot = beforeSlot env r ++
      (decimalInt slot.toInt ++ ch ' ' :: (str "entering time " ++ cstr r.enteranceTime)) := by
  have hspace : str " entering time " = ch ' ' :: str "entering time " := by decide
  simp only [welcomeText, beforeSlot, hspace, List.append_assoc, List.cons_append]

theorem length_beforeSlot (env : Env) (r : CarEnterence) :
    (beforeSlot env r).length = 132 + (cstr r.carPlate).length + (cstr r.enterenceGate).length +
      (cstr (env.getValueFromConfigFile (str "FreeDurationinMin"))).length +
      (cstr (env.getValueFromConfigFile (str "PricePerMin"))).length +
      (cstr (env.getValueFromConfigFile (str "Currency"))).length := by
  have hfixed : (str "Welcome ").length + (str " ,Gate ").length +
      (str " will be opened for you, first ").length +
      (str " minutes of your stay is free of charge then its only ").length +
      (str " per min proceed to slot number ").length = 132 := by decide
  simp only [beforeSlot, List.length_append]
  omega

/-- Two slot numbers can be told apart if the cut comes behind what they share. -/
theorem welcome_ne_iff (env : Env) (r : CarEnterence) {slot₁ slot₂ : Int32} (h : slot₁ ≠ slot₂) :
    welcome env r slot₁ ≠ welcome env r slot₂ ↔
      (beforeSlot env r).length + agree (decimalInt slot₁.toInt) (decimalInt slot₂.toInt) <
        249 := by
  have hne : decimalInt slot₁.toInt ≠ decimalInt slot₂.toInt := fun e =>
    h (Int32.toInt_inj.mp (decimalInt_injective e))
  have hspace : ∀ n : ℤ, ch ' ' ∉ decimalInt n := by
    intro n hn
    rcases mem_decimalInt hn with hd | hd
    · exact absurd hd (by decide)
    · exact absurd hd (by decide)
  have htail : decimalInt slot₁.toInt ++ ch ' ' :: (str "entering time " ++ cstr r.enteranceTime) ≠
      decimalInt slot₂.toInt ++ ch ' ' :: (str "entering time " ++ cstr r.enteranceTime) := fun e =>
    hne (List.append_cancel_right e)
  have hcut : ∀ t : Str, (beforeSlot env r ++ t).take 249 =
      (beforeSlot env r).take 249 ++ t.take (249 - (beforeSlot env r).length) := fun _ =>
    List.take_append
  rw [ne_eq, welcome, welcome, welcomeText_eq, welcomeText_eq, hcut, hcut,
    List.append_cancel_left_eq, take_eq_take_iff htail,
    agree_append_cons (hspace _) (hspace _) hne]
  omega

/-- What the reply to an accepted entrance says. -/
theorem accepted_comment {env : Env} {a : Ambient} {s : ParkManagerServer} {r : CarEnterence}
    (h : (admitCar env a s r).2.result = RegistrationStatus.accept) :
    (admitCar env a s r).2.comment = welcome env r (allocatedSlot s r) := by
  have hreject : notRegisteredGate.result ≠ RegistrationStatus.accept := by decide
  have hfull : parkingFull.result ≠ RegistrationStatus.accept := by decide
  rcases admitCar_cases env a s r with ⟨-, e⟩ | ⟨-, -, e⟩ | ⟨p, -, -, e⟩ | ⟨p, hp, -, e⟩
  · rw [e] at h
    exact absurd h hreject
  · rw [e] at h
    exact absurd h hfull
  · rw [e] at h
    exact absurd h hfull
  · have hslot : allocatedSlot s r = s.slotNumber p := by
      rw [allocatedSlot, allocateSlot_eq, (takesFrom_eq_some hp).2]
    rw [e, hslot]

/-- **The driver is told his slot**: two accepted entrances with the same request and
configuration and different slots get different comments exactly if the text in front
of the slot number and the digits that the numbers share are less than 249 bytes. -/
theorem told_slot_iff {env : Env} {a₁ a₂ : Ambient} {s₁ s₂ : ParkManagerServer} {r : CarEnterence}
    (h₁ : (admitCar env a₁ s₁ r).2.result = RegistrationStatus.accept)
    (h₂ : (admitCar env a₂ s₂ r).2.result = RegistrationStatus.accept)
    (hne : allocatedSlot s₁ r ≠ allocatedSlot s₂ r) :
    (admitCar env a₁ s₁ r).2.comment ≠ (admitCar env a₂ s₂ r).2.comment ↔
      (beforeSlot env r).length + agree (decimalInt (allocatedSlot s₁ r).toInt)
        (decimalInt (allocatedSlot s₂ r).toInt) < 249 := by
  rw [accepted_comment h₁, accepted_comment h₂]
  exact welcome_ne_iff env r hne

/-- The packaged server with the entrance gate registered and `n` normal slots left. -/
def slotsLeft (n : UInt32) : ParkManagerServer :=
  { packagedStart with normalSlotCount := n, enternceGates := {str "EntGate1"} }

/-- A car with this plate at the entrance. -/
def arrival (plate : Str) : CarEnterence :=
  ⟨plate, str "No", str "2022-07-01T08:00:00Z", str "EntGate1"⟩

def widePlate : Str := List.replicate 200 (ch 'A')

/-- The driver with the wide plate gets the same comment for slot 20 and for slot 7. -/
theorem slot_cut_off :
    (admitCar packaged morning (slotsLeft 20) (arrival widePlate)).2.result =
      RegistrationStatus.accept ∧
    (admitCar packaged morning (slotsLeft 7) (arrival widePlate)).2.result =
      RegistrationStatus.accept ∧
    allocatedSlot (slotsLeft 20) (arrival widePlate) = 20 ∧
    allocatedSlot (slotsLeft 7) (arrival widePlate) = 7 ∧
    (admitCar packaged morning (slotsLeft 20) (arrival widePlate)).2.comment =
      (admitCar packaged morning (slotsLeft 7) (arrival widePlate)).2.comment := by
  decide +kernel

/-- With a short plate he can tell 20 from 7. -/
theorem told_slot_iff_short_plate :
    (admitCar packaged morning (slotsLeft 20) (arrival (str "A"))).2.comment ≠
      (admitCar packaged morning (slotsLeft 7) (arrival (str "A"))).2.comment :=
  (@told_slot_iff packaged morning morning (slotsLeft 20) (slotsLeft 7) (arrival (str "A"))
    (by decide +kernel) (by decide +kernel) (by decide +kernel)).mpr (by decide +kernel)

end ParkManager
