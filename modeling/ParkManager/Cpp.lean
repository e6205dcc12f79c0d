import Mathlib.Algebra.Group.Nat.Defs
import Mathlib.Algebra.Ring.Int.Defs
import Mathlib.Data.List.Infix
import Mathlib.Data.List.TakeWhile
import Mathlib.Tactic.SplitIfs
import ParkManager.Lib.Split

/-!
# The C++ values the program is written with

A `std::string` is its list of bytes.  Fallible operations return
`Except Fault`; a fault is an exception or an operation whose behaviour C++
leaves undefined.

Proved here:

* `digitsValue_decimal`, `digit_of_mem_decimal`: what `os << n` writes consists of
  digits and is read back as `n`; `stoi_decimalInt`: so is what `to_string` writes;
* `cstr_eq_self`, `cstr_append_zero`: `c_str()` is harmless on a string without a NUL, and
  ends at the first one;
* `stripEnds_append`: what dropping the first and the last character leaves.
-/

namespace ParkManager

/-- A `std::string`: its bytes. -/
abbrev Str := List UInt8

/-- The bytes of an ASCII literal. -/
def str (s : String) : Str := s.toList.map fun c => c.toNat.toUInt8

/-- The byte of an ASCII character. -/
def ch (c : Char) : UInt8 := c.toNat.toUInt8

/-- What can end a function of the program other than a return. -/
inductive Fault
  /-- An access past the end of a vector (undefined behaviour). -/
  | vectorRange
  /-- A dereference of an empty `unique_ptr` (undefined behaviour). -/
  | nullPointer
  /-- A line of the log that does not fit its buffer, or asks for an argument that was
  not passed (undefined behaviour). -/
  | badLogLine
  /-- `std::out_of_range`, thrown by `substr` and `stoi`. -/
  | outOfRange
  /-- `std::invalid_argument`, thrown by `stoi`. -/
  | invalidArgument
  /-- `nlohmann::json::parse_error`. -/
  | parseError
  /-- `nlohmann::json::type_error` (302 `get`, 304 `at`, 316 `dump`). -/
  | typeError (id : ℕ)
  /-- `nlohmann::json::out_of_range` 403, thrown by `at` on a missing key. -/
  | jsonOutOfRange
  deriving DecidableEq, Repr

/-- The faults that are exceptions; the others leave the behaviour undefined. -/
def Fault.isException : Fault → Bool
  | vectorRange | nullPointer | badLogLine => false
  | outOfRange | invalidArgument | parseError | typeError _ | jsonOutOfRange => true

/-- A sequence of fallible operations returns when both parts do. -/
theorem bind_ok_iff {ε α β : Type} {x : Except ε α} {f : α → Except ε β} {b : β} :
    (x >>= f) = .ok b ↔ ∃ a, x = .ok a ∧ f a = .ok b := by
  cases x <;> simp [bind, Except.bind]

/-! ## Vectors and strings -/

/-- `v[i]`. -/
def vectorAt {α : Type} (v : List α) (i : ℕ) : Except Fault α :=
  match v[i]? with
  | some a => .ok a
  | none => .error .vectorRange

/-- The elements from `v.begin() + offset` to `v.end()`. -/
def vectorFrom {α : Type} (v : List α) (offset : ℕ) : Except Fault (List α) :=
  if offset ≤ v.length then .ok (v.drop offset) else .error .vectorRange

/-- Subtraction of `size_t` values. -/
def sizeSub (m n : ℕ) : ℕ := if n ≤ m then m - n else m + 2 ^ 64 - n

/-- `s.substr(pos, count)`. -/
def substr (s : Str) (pos count : ℕ) : Except Fault Str :=
  if pos ≤ s.length then .ok ((s.drop pos).take count) else .error .outOfRange

/-- A string read back from `s.c_str()`: it ends at the first NUL. -/
def cstr (s : Str) : Str := s.takeWhile (· ≠ 0)

/-- `s.find(t) != std::string::npos`. -/
def contains (s t : Str) : Bool := decide (t <:+: s)

theorem vectorAt_ok_iff {α : Type} {v : List α} {i : ℕ} {a : α} :
    vectorAt v i = .ok a ↔ v[i]? = some a := by
  unfold vectorAt
  cases v[i]? <;> simp

theorem vectorAt_isOk_iff {α : Type} {v : List α} {i : ℕ} :
    (∃ a, vectorAt v i = .ok a) ↔ i < v.length := by
  simp [vectorAt_ok_iff, ← Option.isSome_iff_exists]

theorem cstr_eq_self {s : Str} (h : 0 ∉ s) : cstr s = s := Split.takeWhile_ne_eq_self h

/-- A string ends at the first NUL. -/
theorem cstr_append_zero {s : Str} (h : 0 ∉ s) (rest : Str) : cstr (s ++ 0 :: rest) = s :=
  Split.takeWhile_ne_append h rest

theorem zero_notMem_cstr (s : Str) : 0 ∉ cstr s := Split.notMem_takeWhile_ne 0 s

/-! ## Stripping the first and the last character -/

/-- `s.substr(1, s.length() - 2)`. -/
def stripEnds (s : Str) : Except Fault Str := substr s 1 (sizeSub s.length 2)

theorem stripEnds_append (a b : UInt8) (s : Str) : stripEnds (a :: (s ++ [b])) = .ok s := by
  have hl : (a :: (s ++ [b])).length = s.length + 2 := by simp
  unfold stripEnds substr
  rw [if_pos (by simp), hl, sizeSub, if_pos (by omega)]
  simp

/-! ## Numbers -/

/-- `os << n` and `std::to_string(n)` for a non-negative number. -/
def decimal (n : ℕ) : Str := (Nat.toDigits 10 n).map ch

/-- `std::to_string(n)` and `%d`. -/
def decimalInt (n : ℤ) : Str := if n < 0 then ch '-' :: decimal n.natAbs else decimal n.natAbs

def isSpace (b : UInt8) : Bool := b == 32 || (9 ≤ b && b ≤ 13)

def isDigit (b : UInt8) : Bool := 48 ≤ b && b ≤ 57

/-- The value of a string of digits. -/
def digitsValue (ds : Str) : ℕ := ds.foldl (fun n d => 10 * n + (d.toNat - 48)) 0

/-- An optional sign, and what follows it. -/
def takeSign : Str → Bool × Str
  | [] => (false, [])
  | b :: s => if b = ch '-' then (true, s) else if b = ch '+' then (false, s) else (false, b :: s)

/-- `std::stoi`: white space, a sign, digits; the rest of the string is ignored. -/
def stoi (s : Str) : Except Fault ℤ :=
  let (negative, t) := takeSign (s.dropWhile isSpace)
  let ds := t.takeWhile isDigit
  let n : ℤ := if negative then -(digitsValue ds : ℤ) else digitsValue ds
  if ds = [] then .error .invalidArgument
  else if -2 ^ 31 ≤ n ∧ n < 2 ^ 31 then .ok n
  else .error .outOfRange

theorem stoi_bounds {s : Str} {n : ℤ} (h : stoi s = .ok n) : -2 ^ 31 ≤ n ∧ n < 2 ^ 31 := by
  simp only [stoi] at h
  split_ifs at h with h₁ h₂ h₃ h₃ <;> exact Except.ok.inj h ▸ h₃

private theorem ch_toNat {c : Char} (h : c.isDigit = true) : (ch c).toNat = c.toNat := by
  have hc : c.toNat ≤ 57 := by
    simp only [Char.isDigit, Bool.and_eq_true, decide_eq_true_eq] at h
    exact h.2
  simp only [ch, Nat.toUInt8, UInt8.toNat_ofNat']
  omega

theorem digit_of_mem_decimal {n : ℕ} {b : UInt8} (h : b ∈ decimal n) :
    48 ≤ b.toNat ∧ b.toNat ≤ 57 := by
  obtain ⟨c, hc, rfl⟩ := List.mem_map.mp h
  have hd := Nat.isDigit_of_mem_toDigits (by decide) (by decide) hc
  rw [ch_toNat hd]
  simp only [Char.isDigit, Bool.and_eq_true, decide_eq_true_eq] at hd
  exact ⟨hd.1, hd.2⟩

/-- A byte that is no digit does not occur in a printed number. -/
theorem notMem_decimal {n : ℕ} {b : UInt8} (h : b.toNat < 48 ∨ 57 < b.toNat) : b ∉ decimal n := by
  intro hb
  have := digit_of_mem_decimal hb
  omega

theorem isDigit_of_mem_decimal {n : ℕ} {b : UInt8} (h : b ∈ decimal n) : isDigit b = true := by
  obtain ⟨h₁, h₂⟩ := digit_of_mem_decimal h
  simp only [isDigit, Bool.and_eq_true, decide_eq_true_eq]
  exact ⟨UInt8.le_iff_toNat_le.mpr h₁, UInt8.le_iff_toNat_le.mpr h₂⟩

/-- Reading a printed number gives the number. -/
@[simp] theorem digitsValue_decimal (n : ℕ) : digitsValue (decimal n) = n := by
  have hread : ∀ (cs : List Char) (m : ℕ), (∀ c ∈ cs, c.isDigit = true) →
      (cs.map ch).foldl (fun n d => 10 * n + (d.toNat - 48)) m = Nat.ofDigitChars 10 cs m := by
    intro cs
    induction cs with
    | nil => exact fun _ _ => rfl
    | cons c cs ih =>
      intro m hcs
      obtain ⟨hc, hcs⟩ := List.forall_mem_cons.mp hcs
      rw [List.map_cons, List.foldl_cons, ch_toNat hc, ih _ hcs, Nat.ofDigitChars_cons]
      rfl
  unfold digitsValue decimal
  rw [hread _ _ fun c hc => Nat.isDigit_of_mem_toDigits (by decide) (by decide) hc]
  exact Nat.ofDigitChars_toDigits (by decide) (by decide)

theorem decimal_ne_nil (n : ℕ) : decimal n ≠ [] := fun h =>
  Nat.toDigits_ne_nil (List.map_eq_nil_iff.mp h)

theorem stoi_of_takeSign {s : Str} {negative : Bool} {m : ℕ} {n : ℤ}
    (hs : takeSign (s.dropWhile isSpace) = (negative, decimal m))
    (hn : n = if negative then -(m : ℤ) else m) :
    stoi s = if -2 ^ 31 ≤ n ∧ n < 2 ^ 31 then .ok n else .error .outOfRange := by
  have hdigits : (decimal m).takeWhile isDigit = decimal m :=
    List.takeWhile_eq_self_iff.mpr fun b hb => isDigit_of_mem_decimal hb
  simp only [stoi, hs, hdigits, decimal_ne_nil, ↓reduceIte, digitsValue_decimal, ← hn]

/-- `stoi` reads a printed number, if it is an `int`. -/
theorem stoi_decimalInt (n : ℤ) :
    stoi (decimalInt n) = if -2 ^ 31 ≤ n ∧ n < 2 ^ 31 then .ok n else .error .outOfRange := by
  by_cases hneg : n < 0
  · have hs : takeSign ((decimalInt n).dropWhile isSpace) = (true, decimal n.natAbs) := by
      rw [decimalInt, if_pos hneg]
      rfl
    refine stoi_of_takeSign hs ?_
    simp only [↓reduceIte]
    omega
  · obtain ⟨b, t, hbt⟩ := List.exists_cons_of_ne_nil (decimal_ne_nil n.natAbs)
    have hb := digit_of_mem_decimal (n := n.natAbs) (b := b) (by rw [hbt]; exact List.mem_cons_self)
    have hlow : ∀ c : UInt8, c.toNat < 48 → b ≠ c := by
      rintro c hc rfl
      omega
    have hspace : isSpace b = false := by
      have h13 : ¬ b ≤ 13 := by
        rw [UInt8.le_iff_toNat_le]
        exact fun h => absurd (hb.1.trans h) (by decide)
      simp only [isSpace, h13, decide_false, Bool.and_false, Bool.or_false, beq_eq_false_iff_ne]
      exact hlow 32 (by decide)
    have hs : takeSign ((decimalInt n).dropWhile isSpace) = (false, decimal n.natAbs) := by
      rw [decimalInt, if_neg hneg, hbt, List.dropWhile_cons, hspace]
      simp only [Bool.false_eq_true, ↓reduceIte, takeSign, hlow (ch '-') (by decide),
        hlow (ch '+') (by decide)]
    refine stoi_of_takeSign hs ?_
    simp only [Bool.false_eq_true, ↓reduceIte]
    omega

theorem decimal_injective : Function.Injective decimal :=
  Function.LeftInverse.injective digitsValue_decimal

/-- A printed number consists of digits and perhaps a minus. -/
theorem mem_decimalInt {n : ℤ} {b : UInt8} (h : b ∈ decimalInt n) :
    isDigit b = true ∨ b = ch '-' := by
  unfold decimalInt at h
  split_ifs at h
  · rcases List.mem_cons.mp h with rfl | h
    · exact Or.inr rfl
    · exact Or.inl (isDigit_of_mem_decimal h)
  · exact Or.inl (isDigit_of_mem_decimal h)

theorem decimalInt_injective : Function.Injective decimalInt := by
  have hminus : ∀ n : ℕ, ∀ t, ch '-' :: t ≠ decimal n := by
    intro n t e
    have hm : ch '-' ∈ decimal n := e ▸ List.mem_cons_self
    exact absurd (isDigit_of_mem_decimal hm) (by decide)
  intro m n h
  unfold decimalInt at h
  split_ifs at h with hm hn hn
  · have := decimal_injective (List.cons.inj h).2
    omega
  · exact absurd h (hminus _ _)
  · exact absurd h.symm (hminus _ _)
  · have := decimal_injective h
    omega

end ParkManager
