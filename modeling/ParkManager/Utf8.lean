import ParkManager.Json
import ParkManager.Lib.Unicode

/-!
# Cutting UTF-8 text

Proved here, of the automaton of `dump_escaped`:

* `utf8Accepts_iff_wellFormed`: it accepts the encodings of Unicode text;
* `utf8Accepts_append`: accepted texts can be joined;
* `utf8Accepts_take_iff`: an accepted text cut off after `n` bytes is accepted
  exactly when the cut does not go through a character;
* `utf8Accepts_cstr`: cutting it at a NUL is harmless.
-/

namespace ParkManager

/-- A byte that continues a character. -/
def IsContinuation (b : UInt8) : Prop := 0x80 ≤ b ∧ b < 0xC0

/-- The first byte behind the cut continues a character. -/
def CutsCharacter (s : Str) (n : ℕ) : Prop := ∃ b, s[n]? = some b ∧ IsContinuation b

/-! ## The automaton -/

/-- All 256 bytes: the types, and those of the continuation bytes. -/
theorem utf8Type_table : ∀ n, n < 256 → utf8Type n.toUInt8 < 12 ∧
    (0x80 ≤ n.toUInt8 ∧ n.toUInt8 < 0xC0 ↔ utf8Type n.toUInt8 ∈ [1, 7, 9]) := by
  decide +kernel

theorem utf8Type_spec (b : UInt8) :
    utf8Type b < 12 ∧ (IsContinuation b ↔ utf8Type b ∈ [1, 7, 9]) := by
  have hself : b.toNat.toUInt8 = b := UInt8.ofNat_toNat
  have h := utf8Type_table b.toNat b.toNat_lt
  rwa [hself] at h

/-- The rejecting state is never left. -/
theorem decode_rejected (b : UInt8) : decode 1 b = 1 := by
  have h : ∀ t, t < 12 → (utf8Rows.getD 1 []).getD t 1 = 1 := by decide
  exact h _ (utf8Type_spec b).1

theorem foldl_decode_rejected (s : Str) : s.foldl decode 1 = 1 := by
  induction s with
  | nil => rfl
  | cons b s ih => rw [List.foldl_cons, decode_rejected, ih]

/-- A byte that is not rejected starts a character exactly between characters. -/
theorem decode_continues {state : ℕ} {b : UInt8} (h : decode state b ≠ 1) :
    state = 0 ↔ ¬ IsContinuation b := by
  have hrow : ∀ q, q < 9 → ∀ t, t < 12 →
      (utf8Rows.getD q []).getD t 1 = 1 ∨ (q = 0 ↔ t ∉ [1, 7, 9]) := by decide
  rw [(utf8Type_spec b).2]
  by_cases hq : state < 9
  · exact (hrow state hq _ (utf8Type_spec b).1).resolve_left h
  · have hnil : utf8Rows.getD state [] = [] := by
      rw [List.getD_eq_getElem?_getD, List.getElem?_eq_none (by simp [utf8Rows]; omega)]
      rfl
    exact absurd (by rw [decode, hnil]; rfl) h

/-- The ranges of the bytes that a state waits for. -/
def awaits : ℕ → Option (List (UInt8 × UInt8))
  | 0 => some []
  | 2 => some [(0x80, 0xBF)]
  | 3 => some [(0x80, 0xBF), (0x80, 0xBF)]
  | 4 => some [(0xA0, 0xBF), (0x80, 0xBF)]
  | 5 => some [(0x80, 0x9F), (0x80, 0xBF)]
  | 6 => some [(0x90, 0xBF), (0x80, 0xBF), (0x80, 0xBF)]
  | 7 => some [(0x80, 0xBF), (0x80, 0xBF), (0x80, 0xBF)]
  | 8 => some [(0x80, 0x8F), (0x80, 0xBF), (0x80, 0xBF)]
  | _ => none

/-- All states and bytes. -/
theorem awaits_table : ∀ q, q < 9 → ∀ n, n < 256 →
    awaits (decode q n.toUInt8) = (awaits q).bind (Unicode.next n.toUInt8) := by
  decide +kernel

/-- A byte is taken if it is in the first range that the state waits for. -/
theorem awaits_decode (q : ℕ) (b : UInt8) :
    awaits (decode q b) = (awaits q).bind (Unicode.next b) := by
  by_cases hq : q < 9
  · have hself : b.toNat.toUInt8 = b := UInt8.ofNat_toNat
    have h := awaits_table q hq b.toNat b.toNat_lt
    rwa [hself] at h
  · have hrow : utf8Rows.getD q [] = [] := by
      rw [List.getD_eq_getElem?_getD, List.getElem?_eq_none (by simp [utf8Rows]; omega)]
      rfl
    have hnone : awaits q = none := by
      unfold awaits
      split <;> first | rfl | omega
    rw [decode, hrow, hnone]
    rfl

theorem awaits_foldl (s : Str) (q : ℕ) :
    awaits (s.foldl decode q) = (awaits q).bind fun ranges => Unicode.check ranges s := by
  induction s generalizing q with
  | nil => exact (Option.bind_fun_some (awaits q)).symm
  | cons b s ih =>
    rw [List.foldl_cons, ih, awaits_decode, Option.bind_assoc]
    rfl

theorem awaits_eq_nil_iff {q : ℕ} : awaits q = some [] ↔ q = 0 := by
  refine ⟨fun h => ?_, fun h => h ▸ rfl⟩
  unfold awaits at h
  split at h
  · rfl
  all_goals cases h

/-! ## Texts -/

theorem utf8Accepts_iff {s : Str} : utf8Accepts s = true ↔ s.foldl decode 0 = 0 := by
  unfold utf8Accepts
  exact beq_iff_eq

/-- **What is accepted** is what `String.utf8EncodeChar` writes for some characters. -/
theorem utf8Accepts_iff_wellFormed {s : Str} :
    utf8Accepts s = true ↔ ∃ cs : List Char, s = cs.flatMap String.utf8EncodeChar := by
  have hcheck : awaits (s.foldl decode 0) = Unicode.check [] s := awaits_foldl s 0
  rw [utf8Accepts_iff, ← awaits_eq_nil_iff, hcheck, ← Unicode.wellFormed_iff]
  rfl

theorem utf8Accepts_append {s t : Str} (hs : utf8Accepts s = true) (ht : utf8Accepts t = true) :
    utf8Accepts (s ++ t) = true := by
  rw [utf8Accepts_iff] at hs ht ⊢
  rw [List.foldl_append, hs, ht]

/-- An accepted text cut off is accepted if no character is cut. -/
theorem utf8Accepts_take_iff {s : Str} (hs : utf8Accepts s = true) (n : ℕ) :
    utf8Accepts (s.take n) = true ↔ ¬ CutsCharacter s n := by
  rw [utf8Accepts_iff] at hs ⊢
  rw [← List.take_append_drop n s, List.foldl_append] at hs
  cases hdrop : s.drop n with
  | nil =>
    rw [hdrop] at hs
    refine iff_of_true hs ?_
    rintro ⟨b, hb, -⟩
    have hlen := (List.getElem?_eq_some_iff.mp hb).1
    have := List.drop_eq_nil_iff.mp hdrop
    omega
  | cons b rest =>
    have hb : s[n]? = some b := by
      rw [← List.head?_drop, hdrop]
      rfl
    rw [hdrop, List.foldl_cons] at hs
    have hne : decode ((s.take n).foldl decode 0) b ≠ 1 := by
      intro h
      rw [h, foldl_decode_rejected] at hs
      cases hs
    rw [decode_continues hne]
    refine not_congr ⟨fun hc => ⟨b, hb, hc⟩, ?_⟩
    rintro ⟨c, hc, hcont⟩
    rw [hb] at hc
    exact Option.some.inj hc ▸ hcont

theorem utf8Accepts_cstr {s : Str} (hs : utf8Accepts s = true) : utf8Accepts (cstr s) = true := by
  obtain ⟨t, ht⟩ := List.takeWhile_prefix (l := s) (· ≠ 0)
  have htake : cstr s = s.take (cstr s).length := List.prefix_iff_eq_take.mp ⟨t, ht⟩
  rw [htake, utf8Accepts_take_iff hs]
  rintro ⟨b, hb, hcont⟩
  have hsplit : s = cstr s ++ s.dropWhile (· ≠ 0) := List.takeWhile_append_dropWhile.symm
  have hdrop : s.drop (cstr s).length = s.dropWhile (· ≠ 0) := by
    have h := congrArg (List.drop (cstr s).length) hsplit
    rwa [List.drop_left] at h
  rw [← List.head?_drop, hdrop] at hb
  have h0 := List.head?_dropWhile_not (· ≠ 0) s
  simp only [hb] at h0
  have hzero : b = 0 := by simpa using h0
  rw [hzero] at hcont
  exact absurd hcont.1 (by decide)

end ParkManager
