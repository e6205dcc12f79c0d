import Mathlib.Data.List.Forall2
import Mathlib.Tactic.SplitIfs

/-!
# UTF-8

A text is UTF-8 if it is what `String.utf8EncodeChar` makes of some characters, which
are the Unicode scalar values.

Proved here:

* `sequence_iff`: the bytes of one character, by the ranges of the Unicode standard for
  the bytes behind a first byte;
* `wellFormed_iff`: so a text is UTF-8 exactly if these ranges, checked byte for byte,
  take it to its end.
-/

namespace Unicode

/-- The ranges of the bytes that follow a first byte. -/
def following (b : UInt8) : Option (List (UInt8 × UInt8)) :=
  if b < 0x80 then some []
  else if b < 0xC2 then none
  else if b < 0xE0 then some [(0x80, 0xBF)]
  else if b = 0xE0 then some [(0xA0, 0xBF), (0x80, 0xBF)]
  else if b = 0xED then some [(0x80, 0x9F), (0x80, 0xBF)]
  else if b < 0xF0 then some [(0x80, 0xBF), (0x80, 0xBF)]
  else if b = 0xF0 then some [(0x90, 0xBF), (0x80, 0xBF), (0x80, 0xBF)]
  else if b < 0xF4 then some [(0x80, 0xBF), (0x80, 0xBF), (0x80, 0xBF)]
  else if b = 0xF4 then some [(0x80, 0x8F), (0x80, 0xBF), (0x80, 0xBF)]
  else none

def InRange (r : UInt8 × UInt8) (b : UInt8) : Prop := r.1 ≤ b ∧ b ≤ r.2

instance : ∀ r, DecidablePred (InRange r) := fun r b =>
  inferInstanceAs (Decidable (r.1 ≤ b ∧ b ≤ r.2))

/-- A first byte, and bytes in the ranges that follow it. -/
def Sequence : List UInt8 → Prop
  | [] => False
  | b :: bs => ∃ ranges, following b = some ranges ∧ List.Forall₂ InRange ranges bs

/-- The text is the encoding of some characters. -/
def WellFormed (s : List UInt8) : Prop := ∃ cs : List Char, s = cs.flatMap String.utf8EncodeChar

/-- One byte, given the ranges that the bytes to come must be in. -/
def next (b : UInt8) : List (UInt8 × UInt8) → Option (List (UInt8 × UInt8))
  | [] => following b
  | r :: ranges => if InRange r b then some ranges else none

/-- The ranges that are left after a text. -/
def check (ranges : List (UInt8 × UInt8)) : List UInt8 → Option (List (UInt8 × UInt8))
  | [] => some ranges
  | b :: s => (next b ranges).bind fun ranges => check ranges s

/-! ## One character -/

theorem exists_char {n : ℕ} (h : n.isValidChar) : ∃ c : Char, c.val.toNat = n :=
  ⟨Char.ofNatAux n h, rfl⟩

theorem inRange_ofNat {lo hi : UInt8} {n : ℕ} (hn : n < 256) :
    InRange (lo, hi) (UInt8.ofNat n) ↔ lo.toNat ≤ n ∧ n ≤ hi.toNat := by
  have h : (UInt8.ofNat n).toNat = n := by
    rw [UInt8.toNat_ofNat']
    omega
  rw [InRange, UInt8.le_iff_toNat_le, UInt8.le_iff_toNat_le, h]

/-- `following` in numbers. -/
theorem following_ofNat {n : ℕ} (hn : n < 256) : following (UInt8.ofNat n) =
    if n < 0x80 then some []
    else if n < 0xC2 then none
    else if n < 0xE0 then some [(0x80, 0xBF)]
    else if n = 0xE0 then some [(0xA0, 0xBF), (0x80, 0xBF)]
    else if n = 0xED then some [(0x80, 0x9F), (0x80, 0xBF)]
    else if n < 0xF0 then some [(0x80, 0xBF), (0x80, 0xBF)]
    else if n = 0xF0 then some [(0x90, 0xBF), (0x80, 0xBF), (0x80, 0xBF)]
    else if n < 0xF4 then some [(0x80, 0xBF), (0x80, 0xBF), (0x80, 0xBF)]
    else if n = 0xF4 then some [(0x80, 0x8F), (0x80, 0xBF), (0x80, 0xBF)]
    else none := by
  have h : (UInt8.ofNat n).toNat = n := by
    rw [UInt8.toNat_ofNat']
    omega
  simp only [following, UInt8.lt_iff_toNat_lt, ← UInt8.toNat_inj, h, UInt8.reduceToNat]

theorem inRange_tail (n : ℕ) : InRange (0x80, 0xBF) (UInt8.ofNat (n % 0x40 + 0x80)) := by
  rw [inRange_ofNat (by omega)]
  simp only [UInt8.reduceToNat]
  omega

theorem sequence_utf8EncodeChar (c : Char) : Sequence (String.utf8EncodeChar c) := by
  have hvalid : c.val.toNat < 0xD800 ∨ 0xDFFF < c.val.toNat ∧ c.val.toNat < 0x110000 := c.valid
  unfold String.utf8EncodeChar
  generalize c.val.toNat = v at hvalid
  simp only
  split_ifs with h₁ h₂ h₃
  · exact ⟨[], by rw [following_ofNat (by omega), if_pos (by omega)], .nil⟩
  · refine ⟨[(0x80, 0xBF)], ?_, .cons (inRange_tail _) .nil⟩
    rw [following_ofNat (by omega), if_neg (by omega), if_neg (by omega), if_pos (by omega)]
  · have hlead : v / 4096 % 0x10 + 0xE0 < 256 := by omega
    have hsecond : v / 64 % 0x40 + 0x80 < 256 := by omega
    -- the second byte is bounded from below behind E0, from above behind ED
    by_cases hE0 : v / 4096 = 0
    · refine ⟨[(0xA0, 0xBF), (0x80, 0xBF)], ?_, .cons ?_ (.cons (inRange_tail _) .nil)⟩
      · rw [following_ofNat hlead, hE0]
        rfl
      · rw [inRange_ofNat hsecond]
        simp only [UInt8.reduceToNat]
        omega
    by_cases hED : v / 4096 = 13
    · refine ⟨[(0x80, 0x9F), (0x80, 0xBF)], ?_, .cons ?_ (.cons (inRange_tail _) .nil)⟩
      · rw [following_ofNat hlead, hED]
        rfl
      · rw [inRange_ofNat hsecond]
        simp only [UInt8.reduceToNat]
        omega
    · refine ⟨[(0x80, 0xBF), (0x80, 0xBF)], ?_,
        .cons (inRange_tail _) (.cons (inRange_tail _) .nil)⟩
      rw [following_ofNat hlead, if_neg (by omega), if_neg (by omega), if_neg (by omega),
        if_neg (by omega), if_neg (by omega), if_pos (by omega)]
  · have hlead : v / 262144 % 0x08 + 0xF0 < 256 := by omega
    have hsecond : v / 4096 % 0x40 + 0x80 < 256 := by omega
    have htail := List.Forall₂.cons (inRange_tail (v / 64)) (.cons (inRange_tail v) .nil)
    -- the same behind F0 and F4
    by_cases hF0 : v / 262144 = 0
    · refine ⟨[(0x90, 0xBF), (0x80, 0xBF), (0x80, 0xBF)], ?_, .cons ?_ htail⟩
      · rw [following_ofNat hlead, hF0]
        rfl
      · rw [inRange_ofNat hsecond]
        simp only [UInt8.reduceToNat]
        omega
    by_cases hF4 : v / 262144 = 4
    · refine ⟨[(0x80, 0x8F), (0x80, 0xBF), (0x80, 0xBF)], ?_, .cons ?_ htail⟩
      · rw [following_ofNat hlead, hF4]
        rfl
      · rw [inRange_ofNat hsecond]
        simp only [UInt8.reduceToNat]
        omega
    · refine ⟨[(0x80, 0xBF), (0x80, 0xBF), (0x80, 0xBF)], ?_, .cons (inRange_tail _) htail⟩
      rw [following_ofNat hlead, if_neg (by omega), if_neg (by omega), if_neg (by omega),
        if_neg (by omega), if_neg (by omega), if_neg (by omega), if_neg (by omega),
        if_pos (by omega)]

theorem inRange_toNat {lo hi b : UInt8} (h : InRange (lo, hi) b) :
    lo.toNat ≤ b.toNat ∧ b.toNat ≤ hi.toNat :=
  ⟨UInt8.le_iff_toNat_le.mp h.1, UInt8.le_iff_toNat_le.mp h.2⟩

theorem ofNat_eq {n : ℕ} {b : UInt8} (h : n = b.toNat) : UInt8.ofNat n = b := by
  rw [h]
  exact UInt8.ofNat_toNat

/-- A byte that continues a character. -/
def Tail (b : UInt8) : Prop := 0x80 ≤ b.toNat ∧ b.toNat ≤ 0xBF

/-- Two bytes are a character. -/
theorem exists_two {b₀ b₁ : UInt8} (h₀ : 0xC2 ≤ b₀.toNat ∧ b₀.toNat < 0xE0) (h₁ : Tail b₁) :
    ∃ c, [b₀, b₁] = String.utf8EncodeChar c := by
  obtain ⟨l₁, u₁⟩ := h₁
  obtain ⟨c, hc⟩ := exists_char (n := (b₀.toNat - 0xC0) * 64 + (b₁.toNat - 0x80))
    (Or.inl (by omega))
  refine ⟨c, ?_⟩
  simp only [String.utf8EncodeChar, hc]
  rw [if_neg (by omega), if_pos (by omega), ofNat_eq (b := b₀) (by omega),
    ofNat_eq (b := b₁) (by omega)]

/-- Three bytes are a character if there is no shorter way to write it, and it is no
surrogate. -/
theorem exists_three {b₀ b₁ b₂ : UInt8} (h₀ : 0xE0 ≤ b₀.toNat ∧ b₀.toNat < 0xF0) (h₁ : Tail b₁)
    (h₂ : Tail b₂) (hE0 : b₀.toNat = 0xE0 → 0xA0 ≤ b₁.toNat)
    (hED : b₀.toNat = 0xED → b₁.toNat ≤ 0x9F) :
    ∃ c, [b₀, b₁, b₂] = String.utf8EncodeChar c := by
  obtain ⟨⟨l₁, u₁⟩, l₂, u₂⟩ := And.intro h₁ h₂
  obtain ⟨c, hc⟩ := exists_char
    (n := (b₀.toNat - 0xE0) * 4096 + (b₁.toNat - 0x80) * 64 + (b₂.toNat - 0x80))
    (by unfold Nat.isValidChar; omega)
  refine ⟨c, ?_⟩
  simp only [String.utf8EncodeChar, hc]
  rw [if_neg (by omega), if_neg (by omega), if_pos (by omega), ofNat_eq (b := b₀) (by omega),
    ofNat_eq (b := b₁) (by omega), ofNat_eq (b := b₂) (by omega)]

/-- Four bytes are a character if there is no shorter way to write it, and it is one. -/
theorem exists_four {b₀ b₁ b₂ b₃ : UInt8} (h₀ : 0xF0 ≤ b₀.toNat ∧ b₀.toNat ≤ 0xF4) (h₁ : Tail b₁)
    (h₂ : Tail b₂) (h₃ : Tail b₃) (hF0 : b₀.toNat = 0xF0 → 0x90 ≤ b₁.toNat)
    (hF4 : b₀.toNat = 0xF4 → b₁.toNat ≤ 0x8F) :
    ∃ c, [b₀, b₁, b₂, b₃] = String.utf8EncodeChar c := by
  obtain ⟨⟨l₁, u₁⟩, ⟨l₂, u₂⟩, l₃, u₃⟩ := And.intro h₁ (And.intro h₂ h₃)
  obtain ⟨c, hc⟩ := exists_char
    (n := (b₀.toNat - 0xF0) * 262144 + (b₁.toNat - 0x80) * 4096 + (b₂.toNat - 0x80) * 64 +
      (b₃.toNat - 0x80))
    (by unfold Nat.isValidChar; omega)
  refine ⟨c, ?_⟩
  simp only [String.utf8EncodeChar, hc]
  rw [if_neg (by omega), if_neg (by omega), if_neg (by omega), ofNat_eq (b := b₀) (by omega),
    ofNat_eq (b := b₁) (by omega), ofNat_eq (b := b₂) (by omega), ofNat_eq (b := b₃) (by omega)]

theorem exists_one {b : UInt8} (h : b.toNat < 0x80) : ∃ c, [b] = String.utf8EncodeChar c := by
  obtain ⟨c, hc⟩ := exists_char (n := b.toNat) (Or.inl (by omega))
  refine ⟨c, ?_⟩
  simp only [String.utf8EncodeChar, hc]
  rw [if_pos (by omega), ofNat_eq (b := b) rfl]

theorem exists_char_of_sequence {s : List UInt8} (h : Sequence s) :
    ∃ c, s = String.utf8EncodeChar c := by
  match s, h with
  | b :: bs, ⟨ranges, hfollow, hbs⟩ =>
    simp only [following, UInt8.lt_iff_toNat_lt, ← UInt8.toNat_inj, UInt8.reduceToNat] at hfollow
    split_ifs at hfollow <;> obtain rfl := Option.some.inj hfollow
    · cases hbs
      exact exists_one ‹_›
    · obtain _ | ⟨h₁, _ | _⟩ := hbs
      exact exists_two (by omega) (inRange_toNat h₁)
    · obtain _ | ⟨h₁, _ | ⟨h₂, _ | _⟩⟩ := hbs
      obtain ⟨l, u⟩ := inRange_toNat h₁
      simp only [UInt8.reduceToNat] at l u
      exact exists_three (by omega) ⟨by omega, u⟩ (inRange_toNat h₂) (by omega) (by omega)
    · obtain _ | ⟨h₁, _ | ⟨h₂, _ | _⟩⟩ := hbs
      obtain ⟨l, u⟩ := inRange_toNat h₁
      simp only [UInt8.reduceToNat] at l u
      exact exists_three (by omega) ⟨l, by omega⟩ (inRange_toNat h₂) (by omega) (by omega)
    · obtain _ | ⟨h₁, _ | ⟨h₂, _ | _⟩⟩ := hbs
      exact exists_three (by omega) (inRange_toNat h₁) (inRange_toNat h₂) (by omega) (by omega)
    · obtain _ | ⟨h₁, _ | ⟨h₂, _ | ⟨h₃, _ | _⟩⟩⟩ := hbs
      obtain ⟨l, u⟩ := inRange_toNat h₁
      simp only [UInt8.reduceToNat] at l u
      exact exists_four (by omega) ⟨by omega, u⟩ (inRange_toNat h₂) (inRange_toNat h₃) (by omega)
        (by omega)
    · obtain _ | ⟨h₁, _ | ⟨h₂, _ | ⟨h₃, _ | _⟩⟩⟩ := hbs
      exact exists_four (by omega) (inRange_toNat h₁) (inRange_toNat h₂) (inRange_toNat h₃)
        (by omega) (by omega)
    · obtain _ | ⟨h₁, _ | ⟨h₂, _ | ⟨h₃, _ | _⟩⟩⟩ := hbs
      obtain ⟨l, u⟩ := inRange_toNat h₁
      simp only [UInt8.reduceToNat] at l u
      exact exists_four (by omega) ⟨l, by omega⟩ (inRange_toNat h₂) (inRange_toNat h₃) (by omega)
        (by omega)

/-- **One character**, by the ranges of its bytes. -/
theorem sequence_iff {s : List UInt8} : Sequence s ↔ ∃ c, s = String.utf8EncodeChar c := by
  refine ⟨exists_char_of_sequence, ?_⟩
  rintro ⟨c, rfl⟩
  exact sequence_utf8EncodeChar c

/-! ## Texts -/

theorem WellFormed.nil : WellFormed [] := ⟨[], rfl⟩

theorem wellFormed_char (c : Char) : WellFormed (String.utf8EncodeChar c) :=
  ⟨[c], (List.flatMap_singleton ..).symm⟩

theorem WellFormed.append {s t : List UInt8} (hs : WellFormed s) (ht : WellFormed t) :
    WellFormed (s ++ t) := by
  obtain ⟨cs, rfl⟩ := hs
  obtain ⟨ds, rfl⟩ := ht
  exact ⟨cs ++ ds, (List.flatMap_append).symm⟩

theorem check_append {ranges : List (UInt8 × UInt8)} {s t : List UInt8} :
    check ranges (s ++ t) = (check ranges s).bind fun ranges => check ranges t := by
  induction s generalizing ranges with
  | nil => rfl
  | cons b s ih =>
    rw [List.cons_append, check, check]
    cases next b ranges with
    | none => rfl
    | some ranges' => exact ih

theorem check_of_forall₂ {ranges : List (UInt8 × UInt8)} {bs : List UInt8}
    (h : List.Forall₂ InRange ranges bs) : check ranges bs = some [] := by
  induction h with
  | nil => rfl
  | cons hb _ ih => rw [check, next, if_pos hb, Option.bind_some, ih]

/-- A text that passes has bytes in the ranges at its front, and UTF-8 behind them. -/
theorem exists_of_check {ranges : List (UInt8 × UInt8)} {s : List UInt8}
    (h : check ranges s = some []) :
    ∃ bs rest, s = bs ++ rest ∧ List.Forall₂ InRange ranges bs ∧ WellFormed rest := by
  induction s generalizing ranges with
  | nil =>
    obtain rfl := Option.some.inj h
    exact ⟨[], [], rfl, .nil, .nil⟩
  | cons b s ih =>
    obtain ⟨ranges', hnext, h⟩ := Option.bind_eq_some_iff.mp h
    obtain ⟨bs, rest, rfl, hbs, hrest⟩ := ih h
    cases ranges with
    | nil =>
      obtain ⟨c, hc⟩ := sequence_iff.mp (show Sequence (b :: bs) from ⟨ranges', hnext, hbs⟩)
      refine ⟨[], _, rfl, .nil, ?_⟩
      rw [← List.cons_append, hc]
      exact (wellFormed_char c).append hrest
    | cons r ranges =>
      rw [next] at hnext
      split_ifs at hnext with hb
      obtain rfl := Option.some.inj hnext
      exact ⟨b :: bs, rest, rfl, .cons hb hbs, hrest⟩

theorem check_char (c : Char) : check [] (String.utf8EncodeChar c) = some [] := by
  have hseq := sequence_utf8EncodeChar c
  match String.utf8EncodeChar c, hseq with
  | b :: bs, ⟨ranges, hfollow, hbs⟩ =>
    rw [check, next, hfollow, Option.bind_some, check_of_forall₂ hbs]

/-- **UTF-8**, checked byte for byte. -/
theorem wellFormed_iff {s : List UInt8} : WellFormed s ↔ check [] s = some [] := by
  constructor
  · rintro ⟨cs, rfl⟩
    induction cs with
    | nil => rfl
    | cons c cs ih => rw [List.flatMap_cons, check_append, check_char, Option.bind_some, ih]
  · intro h
    obtain ⟨bs, rest, rfl, hbs, hrest⟩ := exists_of_check h
    cases hbs
    exact hrest

end Unicode
