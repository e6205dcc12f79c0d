import ParkManager.Cpp
import ParkManager.Lib.Calendar

/-!
# `date.h`

What `GetUTCTime` uses of the date library: reading the formats `%FT%TZ` and
`%FT%T%Ez` from a stream, and writing `%FT%TZ`.  A reader returns what it read and
what is left of the stream, or `none` where it sets `failbit`.  The `long double` of
the seconds is taken exactly.

Proved here:

* `readUnsigned_setw`: a number written with leading zeros is read back;
* `parseZ_format`: a written time with a year from 0 to 9999 is read back;
* `getUTCTime_format`: such a text is what `GetUTCTime` makes of it.
-/

namespace ParkManager

open Calendar

/-! ## Reading -/

/-- `read` of a character of the format. -/
def readChar (a0 : UInt8) : Str → Option Str
  | [] => none
  | c :: s => if c = a0 then some s else none

def readUnsigned (m M : ℕ) (s : Str) : Option (ℕ × Str) :=
  let digits := (s.take M).takeWhile isDigit
  if digits.length < m then none else some (digitsValue digits, s.drop digits.length)

def readSigned (m M : ℕ) : Str → Option (ℤ × Str)
  | [] => none
  | c :: s =>
    if c = ch '-' then (readUnsigned (max m 1) M s).map fun r => (-(r.1 : ℤ), r.2)
    else if c = ch '+' then (readUnsigned (max m 1) M s).map fun r => ((r.1 : ℤ), r.2)
    else if isDigit c then (readUnsigned (max m 1) M (c :: s)).map fun r => ((r.1 : ℤ), r.2)
    else none

/-- `read_long_double`: `i`, `f` and `fcount` of the value `i + f / 10 ^ fcount`. -/
def readLongDouble (m M : ℕ) (s : Str) : Option ((ℕ × ℕ × ℕ) × Str) :=
  let field := s.take M
  let whole := field.takeWhile isDigit
  let (fraction, count) := match field.drop whole.length with
    | [] => ([], whole.length)
    | c :: rest =>
      if c = ch '.' then
        (rest.takeWhile isDigit, whole.length + 1 + (rest.takeWhile isDigit).length)
      else ([], whole.length)
  if count < m then none
  else some ((digitsValue whole, digitsValue fraction, fraction.length), s.drop count)

/-- `round<milliseconds>` of `i + f / 10 ^ fcount` seconds: to the nearest, ties to even. -/
def roundMilliseconds : ℕ × ℕ × ℕ → ℕ
  | (i, f, fcount) =>
    let n := 1000 * (i * 10 ^ fcount + f)
    let q := n / 10 ^ fcount
    let r := n % 10 ^ fcount
    if 2 * r < 10 ^ fcount then q
    else if 10 ^ fcount < 2 * r then q + 1
    else q + q % 2

/-- `%F`. -/
def readF (s : Str) : Option (Date × Str) := do
  let (tY, s) ← readSigned 1 4 s
  let s ← readChar (ch '-') s
  let (tn, s) ← readUnsigned 1 2 s
  let s ← readChar (ch '-') s
  let (td, s) ← readUnsigned 1 2 s
  return (⟨tY, tn, td⟩, s)

/-- The fields of a time of day; the seconds in milliseconds. -/
structure TimeOfDay where
  h : ℕ
  m : ℕ
  s : ℕ
  deriving DecidableEq, Repr

/-- `%T`. -/
def readT (s : Str) : Option (TimeOfDay × Str) := do
  let (tH, s) ← readUnsigned 1 2 s
  let s ← readChar (ch ':') s
  let (tM, s) ← readUnsigned 1 2 s
  let s ← readChar (ch ':') s
  let (S, s) ← readLongDouble 1 6 s
  return (⟨tH, tM, roundMilliseconds S⟩, s)

/-- `%Ez`, in minutes. -/
def readEz (s : Str) : Option (ℤ × Str) := do
  let neg := decide (s.head? = some (ch '-'))
  let (tH, s) ← readSigned 1 2 s
  let (toff, s) ← match s with
    | [] => pure (tH.natAbs * 60, [])
    | c :: rest =>
      if c = ch ':' then (readUnsigned 2 2 rest).map fun r => (tH.natAbs * 60 + r.1, r.2)
      else pure (tH.natAbs * 60, c :: rest)
  return (if neg then -(toff : ℤ) else toff, s)

/-- `in_conventional_range`. -/
def TimeOfDay.InConventionalRange (tod : TimeOfDay) : Prop :=
  tod.h < 24 ∧ tod.m < 60 ∧ tod.s < 60000

instance : DecidablePred TimeOfDay.InConventionalRange := fun tod =>
  inferInstanceAs (Decidable (tod.h < 24 ∧ tod.m < 60 ∧ tod.s < 60000))

/-- The end of `from_stream`: the milliseconds since 1970 of the fields that were read. -/
def sysTime (ymd : Date) (tod : TimeOfDay) (offset : ℤ) : Option ℤ :=
  if ymd.Ok ∧ tod.InConventionalRange then
    some (toDays ymd * 86400000 - offset * 60000 + (tod.h * 3600000 + tod.m * 60000 + tod.s : ℕ))
  else none

/-- `date::parse("%FT%TZ", tp)`. -/
def parseZ (s : Str) : Option ℤ := do
  let (ymd, s) ← readF s
  let s ← readChar (ch 'T') s
  let (tod, s) ← readT s
  let _ ← readChar (ch 'Z') s
  sysTime ymd tod 0

/-- `date::parse("%FT%T%Ez", tp)`. -/
def parseEz (s : Str) : Option ℤ := do
  let (ymd, s) ← readF s
  let s ← readChar (ch 'T') s
  let (tod, s) ← readT s
  let (offset, _) ← readEz s
  sysTime ymd tod offset

/-! ## Writing -/

/-- A field of a width, filled with `0`. -/
def setw (width : ℕ) (s : Str) : Str := List.replicate (width - s.length) (ch '0') ++ s

/-- `%F`, given how the year is written. -/
def writeF (writeYear : ℤ → Str) (ymd : Date) : Str :=
  writeYear ymd.year ++ (ch '-' :: (setw 2 (decimal ymd.month) ++
    (ch '-' :: setw 2 (decimal ymd.day))))

/-- `%T` of the seconds of a day. -/
def writeT (tod : ℕ) : Str :=
  setw 2 (decimal (tod / 3600)) ++ (ch ':' :: (setw 2 (decimal (tod / 60 % 60)) ++
    (ch ':' :: setw 2 (decimal (tod % 60)))))

/-- `%FT%TZ` of a time in seconds. -/
def writeTime (writeYear : ℤ → Str) (tp : ℤ) : Str :=
  writeF writeYear (ofDays (tp / 86400)) ++
    (ch 'T' :: (writeT (tp % 86400).toNat ++ [ch 'Z']))

/-- `date::format("%FT%TZ", tp)`. -/
def format (tp : ℤ) : Str := writeTime (fun year => setw 4 (decimalInt year)) tp

/-- `GetUTCTime`: the time in the string, in UTC and without fractions of a second;
empty when it is in neither format. -/
def getUTCTime (timeStr : Str) : Str :=
  match parseZ timeStr with
  | some tp => format (tp / 1000)
  | none =>
    match parseEz timeStr with
    | some tp => format (tp / 1000)
    | none => []

/-! ## Reading what was written -/

theorem isDigit_of_mem_setw {w n : ℕ} {b : UInt8} (h : b ∈ setw w (decimal n)) :
    isDigit b = true := by
  rcases List.mem_append.mp h with h | h
  · rw [(List.mem_replicate.mp h).2]
    decide
  · exact isDigit_of_mem_decimal h

@[simp] theorem digitsValue_setw (w : ℕ) (s : Str) : digitsValue (setw w s) = digitsValue s := by
  unfold setw digitsValue
  rw [List.foldl_append]
  congr 1
  induction w - s.length with
  | zero => rfl
  | succ k ih => rwa [List.replicate_succ, List.foldl_cons]

theorem length_setw {w n : ℕ} (hw : 0 < w) (hn : n < 10 ^ w) : (setw w (decimal n)).length = w := by
  have hlen : (decimal n).length ≤ w := by
    rw [decimal, List.length_map]
    exact (Nat.length_toDigits_le_iff (by decide) hw).mpr hn
  rw [setw, List.length_append, List.length_replicate]
  omega

/-- Digits that fill the width are read. -/
theorem readUnsigned_digits {m M : ℕ} {digits rest : Str} (hd : ∀ b ∈ digits, isDigit b = true)
    (hm : m ≤ digits.length) (hM : digits.length = M) :
    readUnsigned m M (digits ++ rest) = some (digitsValue digits, rest) := by
  have hfield : ((digits ++ rest).take M).takeWhile isDigit = digits := by
    rw [List.take_left' hM, List.takeWhile_eq_self_iff]
    exact hd
  simp only [readUnsigned, hfield, if_neg (not_lt.mpr hm), List.drop_left]

theorem readUnsigned_setw {w n : ℕ} {rest : Str} (hw : 0 < w) (hn : n < 10 ^ w) :
    readUnsigned 1 w (setw w (decimal n) ++ rest) = some (n, rest) := by
  rw [readUnsigned_digits (fun _ => isDigit_of_mem_setw) (by rw [length_setw hw hn]; exact hw)
    (length_setw hw hn), digitsValue_setw, digitsValue_decimal]

theorem readSigned_setw {w n : ℕ} {rest : Str} (hw : 0 < w) (hn : n < 10 ^ w) :
    readSigned 1 w (setw w (decimal n) ++ rest) = some ((n : ℤ), rest) := by
  have hread : readUnsigned 1 w (setw w (decimal n) ++ rest) = some (n, rest) :=
    readUnsigned_setw hw hn
  cases hs : setw w (decimal n) with
  | nil =>
    have hlen := length_setw hw hn
    rw [hs, List.length_nil] at hlen
    omega
  | cons b digits =>
    have hb : isDigit b = true := isDigit_of_mem_setw (hs ▸ List.mem_cons_self)
    have hminus : b ≠ ch '-' := by rintro rfl; exact absurd hb (by decide)
    have hplus : b ≠ ch '+' := by rintro rfl; exact absurd hb (by decide)
    rw [hs, List.cons_append] at hread
    simp only [List.cons_append, readSigned, if_neg hminus, if_neg hplus, if_pos hb, max_self,
      hread, Option.map_some]

/-- Two digits of seconds, with no fraction behind them. -/
theorem readLongDouble_setw {n : ℕ} (hn : n < 100) :
    readLongDouble 1 6 (setw 2 (decimal n) ++ [ch 'Z']) = some ((n, 0, 0), [ch 'Z']) := by
  have hlen := length_setw (w := 2) (by decide) hn
  have htake : (setw 2 (decimal n) ++ [ch 'Z']).take 6 = setw 2 (decimal n) ++ [ch 'Z'] :=
    List.take_of_length_le (by rw [List.length_append, hlen]; decide)
  have hwhole : (setw 2 (decimal n) ++ [ch 'Z']).takeWhile isDigit = setw 2 (decimal n) := by
    rw [List.takeWhile_append_of_pos fun _ => isDigit_of_mem_setw]
    exact List.append_nil _
  have hdrop : (setw 2 (decimal n) ++ [ch 'Z']).drop 2 = [ch 'Z'] := List.drop_left' hlen
  have hdot : ch 'Z' ≠ ch '.' := by decide
  simp only [readLongDouble, htake, hwhole, hlen, hdrop, if_neg hdot, digitsValue_setw,
    digitsValue_decimal]
  rfl

theorem readChar_self (c : UInt8) (s : Str) : readChar c (c :: s) = some s := if_pos rfl

theorem decimalInt_natCast (n : ℕ) : decimalInt n = decimal n := by simp [decimalInt]

/-- `%F` as `format` writes it. -/
theorem readF_writeF {year month day : ℕ} (hy : year < 10000) (hm : month < 100) (hd : day < 100)
    (s : Str) :
    readF (writeF (fun year => setw 4 (decimalInt year)) ⟨year, month, day⟩ ++ s) =
      some (⟨year, month, day⟩, s) := by
  simp only [writeF, decimalInt_natCast, List.append_assoc, List.cons_append, readF,
    readSigned_setw (w := 4) (by decide) hy, readChar_self,
    readUnsigned_setw (w := 2) (by decide) hm, readUnsigned_setw (w := 2) (by decide) hd, bind,
    Option.bind_some, pure]

theorem readT_writeT {tod : ℕ} (h : tod < 86400) :
    readT (writeT tod ++ [ch 'Z']) =
      some (⟨tod / 3600, tod / 60 % 60, 1000 * (tod % 60)⟩, [ch 'Z']) := by
  have hh : tod / 3600 < 10 ^ 2 := by omega
  have hm : tod / 60 % 60 < 10 ^ 2 := by omega
  have hs : tod % 60 < 100 := by omega
  have hround : ∀ s, roundMilliseconds (s, 0, 0) = 1000 * s := by
    simp [roundMilliseconds, Nat.mod_one]
  simp only [writeT, List.append_assoc, List.cons_append, readT,
    readUnsigned_setw (w := 2) (by decide) hh, readChar_self,
    readUnsigned_setw (w := 2) (by decide) hm, readLongDouble_setw hs, hround, bind,
    Option.bind_some, pure]

/-- The year of an instant. -/
def yearOf (tp : ℤ) : ℤ := (ofDays (tp / 86400)).year

theorem lastDay_le (year : ℤ) (month : ℕ) : lastDay year month ≤ 31 := by
  unfold lastDay
  split_ifs <;> decide

/-- The date of an instant, with the bounds its fields are written in. -/
theorem exists_date {tp : ℤ} (h₀ : 0 ≤ yearOf tp) (h₁ : yearOf tp < 10000) :
    ∃ year month day : ℕ, ofDays (tp / 86400) = ⟨year, month, day⟩ ∧ year < 10000 ∧
      1 ≤ month ∧ month ≤ 12 ∧ 1 ≤ day ∧ day ≤ 31 := by
  have hok := ofDays_ok (tp / 86400)
  have hday := hok.day.2.trans (lastDay_le ..)
  unfold yearOf at h₀ h₁
  generalize ofDays (tp / 86400) = ymd at *
  obtain ⟨year, month, day⟩ := ymd
  lift year to ℕ using h₀
  exact ⟨year, month, day, rfl, Int.ofNat_lt.mp h₁, hok.month.1, hok.month.2, hok.day.1, hday⟩

/-- The fields of an instant make up the instant. -/
theorem sysTime_ofDays (tp : ℤ) :
    sysTime (ofDays (tp / 86400)) ⟨(tp % 86400).toNat / 3600, (tp % 86400).toNat / 60 % 60,
      1000 * ((tp % 86400).toNat % 60)⟩ 0 = some (tp * 1000) := by
  have htod : (tp % 86400).toNat < 86400 := by omega
  rw [sysTime, if_pos ⟨ofDays_ok _, by simp only [TimeOfDay.InConventionalRange]; omega⟩,
    toDays_ofDays]
  simp only [Option.some.injEq]
  omega

/-- A time that was written is read back. -/
theorem parseZ_format {tp : ℤ} (h₀ : 0 ≤ yearOf tp) (h₁ : yearOf tp < 10000) :
    parseZ (format tp) = some (tp * 1000) := by
  obtain ⟨year, month, day, hymd, hyear, -, hmonth, -, hday⟩ := exists_date h₀ h₁
  have hsys := sysTime_ofDays tp
  have htod : (tp % 86400).toNat < 86400 := by omega
  rw [hymd] at hsys
  simp only [parseZ, format, writeTime, hymd, bind, Option.bind_some,
    readF_writeF hyear (show month < 100 by omega) (show day < 100 by omega), readChar_self,
    readT_writeT htod, hsys]

/-- What `GetUTCTime` writes it leaves alone. -/
theorem getUTCTime_format {tp : ℤ} (h₀ : 0 ≤ yearOf tp) (h₁ : yearOf tp < 10000) :
    getUTCTime (format tp) = format tp := by
  simp only [getUTCTime, parseZ_format h₀ h₁]
  rw [Int.mul_ediv_cancel _ (by decide)]

end ParkManager
