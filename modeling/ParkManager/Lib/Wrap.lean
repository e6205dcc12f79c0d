import ParkManager.Lib.History
import Mathlib.Data.ZMod.Basic
import Mathlib.Tactic.Abel
import Mathlib.Tactic.LinearCombination

/-!
# Wrapping counters

A `UInt32` counter, read as a number while it stays away from the wrap and as a
residue modulo 2^32 otherwise.

Proved here:

* `toNat_pred`, `toNat_succ`: counting down and up as numbers;
* `toInt_toInt32`, `toInt32_inj`: the counter cast to an `int`;
* `residue_injective`, `residue_succ`, `residue_pred`: the same as residues;
* `residue_of_run`: in a run whose transitions move the counter up or down, what
  it shows is decided by how many moved it up and how many moved it down.
-/

namespace Wrap

theorem toNat_pred {n : UInt32} (h : n ≠ 0) : (n - 1).toNat + 1 = n.toNat := by
  have hn : n.toNat ≠ 0 := fun e => h (UInt32.toNat_inj.mp (by simpa using e))
  have hle : (1 : UInt32) ≤ n := by
    rw [UInt32.le_iff_toNat_le]
    simp only [UInt32.toNat_one]
    omega
  rw [UInt32.toNat_sub_of_le _ _ hle, UInt32.toNat_one]
  omega

theorem toNat_succ {n : UInt32} (h : n.toNat + 1 < 2 ^ 32) : (n + 1).toNat = n.toNat + 1 := by
  rw [UInt32.toNat_add, UInt32.toNat_one]
  exact Nat.mod_eq_of_lt h

theorem succ_ne (n : UInt32) : n + 1 ≠ n := by
  intro h
  have h' := congrArg UInt32.toNat h
  rw [UInt32.toNat_add, UInt32.toNat_one] at h'
  have := n.toNat_lt
  omega

/-- The counter read as a signed number. -/
theorem toInt_toInt32 (n : UInt32) :
    n.toInt32.toInt = if n.toNat < 2 ^ 31 then (n.toNat : ℤ) else (n.toNat : ℤ) - 2 ^ 32 := by
  have h : n.toInt32.toInt = n.toBitVec.toInt := rfl
  rw [h, BitVec.toInt_eq_toNat_cond, UInt32.toNat_toBitVec]
  by_cases hn : n.toNat < 2 ^ 31
  · rw [if_pos hn, if_pos (by omega)]
  · rw [if_neg hn, if_neg (by omega)]
    rfl

theorem toInt32_inj {m n : UInt32} : m.toInt32 = n.toInt32 ↔ m = n := by
  constructor
  · intro h
    have h' := congrArg Int32.toUInt32 h
    rwa [UInt32.toUInt32_toInt32, UInt32.toUInt32_toInt32] at h'
  · rintro rfl
    rfl

/-! ## Residues -/

/-- The counter modulo 2^32. -/
def residue (n : UInt32) : ZMod (2 ^ 32) := n.toNat

theorem residue_injective : Function.Injective residue := by
  intro m n h
  have hm : m.toNat % 2 ^ 32 = n.toNat % 2 ^ 32 := (ZMod.natCast_eq_natCast_iff _ _ _).mp h
  have h₁ := m.toNat_lt
  have h₂ := n.toNat_lt
  rw [Nat.mod_eq_of_lt h₁, Nat.mod_eq_of_lt h₂] at hm
  exact UInt32.toNat_inj.mp hm

theorem residue_succ (n : UInt32) : residue (n + 1) = residue n + 1 := by
  unfold residue
  rw [UInt32.toNat_add, UInt32.toNat_one, ZMod.natCast_mod, Nat.cast_add, Nat.cast_one]

theorem residue_pred (n : UInt32) : residue (n - 1) = residue n - 1 := by
  have h := residue_succ (n - 1)
  rw [UInt32.sub_add_cancel] at h
  exact eq_sub_of_add_eq h.symm

section
variable {σ ι ο : Type*} {R : σ → ι → ο → σ → Prop} {s₀ s : σ} {h : List (History.Step σ ι ο)}

theorem sum_map_ite {α G : Type*} [Ring G] (p q : α → Bool) (l : List α) :
    (l.map fun a => (if p a then (1 : G) else 0) - if q a then 1 else 0).sum =
      (l.countP p : G) - (l.countP q : G) := by
  induction l with
  | nil => simp
  | cons a l ih =>
    rw [List.map_cons, List.sum_cons, ih, List.countP_cons, List.countP_cons, Nat.cast_add,
      Nat.cast_add]
    cases p a <;> cases q a <;> simp <;> abel

/-- What a counter shows after a run that moves it up and down. -/
theorem residue_of_run (counter : σ → UInt32) (up down : History.Step σ ι ο → Bool)
    (hr : History.Run R s₀ h s)
    (hstep : ∀ {s i o s'}, R s i o s' → residue (counter s') = residue (counter s) +
      ((if up ⟨s, i, o, s'⟩ then 1 else 0) - if down ⟨s, i, o, s'⟩ then 1 else 0)) :
    residue (counter s) =
      residue (counter s₀) + ((h.countP up : ZMod (2 ^ 32)) - (h.countP down : ZMod (2 ^ 32))) := by
  rw [hr.telescope (fun s => residue (counter s))
    (fun st => (if up st then 1 else 0) - if down st then 1 else 0) hstep, sum_map_ite]

/-- A counter that was taken one down before the run is back exactly when the
run has moved it up once more than down. -/
theorem counter_eq_iff (counter : σ → UInt32) (up down : History.Step σ ι ο → Bool)
    (hr : History.Run R s₀ h s)
    (hstep : ∀ {s i o s'}, R s i o s' → residue (counter s') = residue (counter s) +
      ((if up ⟨s, i, o, s'⟩ then 1 else 0) - if down ⟨s, i, o, s'⟩ then 1 else 0))
    {n : UInt32} (hn : counter s₀ = n - 1) :
    counter s = n ↔ h.countP up ≡ h.countP down + 1 [MOD 2 ^ 32] := by
  rw [← residue_injective.eq_iff, residue_of_run counter up down hr hstep, hn, residue_pred,
    ← ZMod.natCast_eq_natCast_iff, Nat.cast_add, Nat.cast_one]
  constructor
  · intro e
    linear_combination e
  · intro e
    linear_combination e

end

end Wrap
