import ParkManager.Time
import Mathlib.Tactic.Ring

/-!
# Times with an offset from UTC

`GetTimeByString` takes the hours of a numeric offset off the hour by hand and leaves its
minutes out.  Where the hour runs over midnight, it moves it into the day again and
counts `tm_yday` up or down, which `mktime` ignores.

Proved here:

* `getTimeByString_written`: what is read of a date and a time of day, whatever follows;
* `applyOffset_text`: the hour with a written offset taken off;
* `getTimeByString_offset_iff`: an offset is respected exactly when it is one of whole
  hours that leave the hour within its day; `offset_over_midnight` is one that does not.
-/

namespace ParkManager

open Calendar

/-- A date with a year of four digits, and a time of day in seconds. -/
structure DateTime where
  ymd : Date
  tod : ℕ
  ok : ymd.Ok
  fourDigits : 0 ≤ ymd.year ∧ ymd.year < 10000
  tod_lt : tod < 86400

/-- The seconds since 1970, in the zone that the date and the time are from. -/
def DateTime.seconds (x : DateTime) : ℤ := toDays x.ymd * 86400 + x.tod

/-- `%FT%T` -/
def DateTime.text (x : DateTime) : Str :=
  writeF (fun year => setw 4 (decimalInt year)) x.ymd ++ (ch 'T' :: writeT x.tod)

def DateTime.hour (x : DateTime) : ℤ := (x.tod / 3600 : ℕ)

/-- An offset from UTC of at most 14 hours. -/
structure UtcOffset where
  negative : Bool
  hours : ℕ
  minutes : ℕ
  minutes_lt : minutes < 60
  short : hours * 60 + minutes ≤ 840

/-- East of UTC is positive. -/
def UtcOffset.signed (off : UtcOffset) (n : ℕ) : ℤ := if off.negative then -(n : ℤ) else n

def UtcOffset.seconds (off : UtcOffset) : ℤ := off.signed (off.hours * 3600 + off.minutes * 60)

def UtcOffset.sign (off : UtcOffset) : UInt8 := if off.negative then ch '-' else ch '+'

/-- `+hh:mm` or `-hh:mm` -/
def UtcOffset.text (off : UtcOffset) : Str :=
  off.sign :: (setw 2 (decimal off.hours) ++ (ch ':' :: setw 2 (decimal off.minutes)))

/-! ## Searching the text -/

theorem notMem_setw {b : UInt8} (hdigit : isDigit b = false) (w n : ℕ) :
    b ∉ setw w (decimal n) := by
  intro h
  rw [isDigit_of_mem_setw h] at hdigit
  cases hdigit

/-- The offset that is found is the one that was written. -/
theorem offsetText_text (tod : ℕ) (off : UtcOffset) :
    offsetText (writeT tod ++ off.text) = off.text := by
  have hplus := notMem_writeT (b := ch '+') (by decide) (by decide) tod
  have hminus := notMem_writeT (b := ch '-') (by decide) (by decide) tod
  cases hsign : off.negative with
  | false =>
    have htext : off.text = ch '+' :: (setw 2 (decimal off.hours) ++
        (ch ':' :: setw 2 (decimal off.minutes))) := by simp [UtcOffset.text, UtcOffset.sign, hsign]
    have hmem : ch '+' ∈ writeT tod ++ off.text := by simp [htext]
    rw [offsetText, if_pos hmem, htext, fromChar_append hplus]
  | true =>
    have htext : off.text = ch '-' :: (setw 2 (decimal off.hours) ++
        (ch ':' :: setw 2 (decimal off.minutes))) := by simp [UtcOffset.text, UtcOffset.sign, hsign]
    have hmem : ch '-' ∈ writeT tod ++ off.text := by simp [htext]
    have hnot : ch '+' ∉ writeT tod ++ off.text := by
      have hlit : ch '+' ≠ ch '-' ∧ ch '+' ≠ ch ':' := by decide
      simp [htext, hplus, notMem_setw (b := ch '+') (by decide), hlit]
    rw [offsetText, if_neg hnot, if_pos hmem, htext, fromChar_append hminus]

/-! ## The hour with the offset taken off -/

theorem withoutColon_append (a : Str) {b : Str} (h : ch ':' ∉ b) :
    withoutColon (a ++ ch ':' :: b) = a ++ b := by
  have hrev : (a ++ ch ':' :: b).reverse = b.reverse ++ ch ':' :: a.reverse := by simp
  have hb : ch ':' ∉ b.reverse := by rwa [List.mem_reverse]
  rw [withoutColon, if_pos (by simp), hrev, fromChar_append hb, Split.takeWhile_ne_append hb]
  simp

theorem digitsValue_append (a b : Str) :
    digitsValue (a ++ b) = digitsValue a * 10 ^ b.length + digitsValue b := by
  have hfrom : ∀ n, b.foldl (fun n d => 10 * n + (d.toNat - 48)) n =
      n * 10 ^ b.length + digitsValue b := by
    induction b with
    | nil => intro n; simp [digitsValue]
    | cons d b ih =>
      intro n
      have hd : digitsValue (d :: b) = (d.toNat - 48) * 10 ^ b.length + digitsValue b := by
        rw [digitsValue, List.foldl_cons, ih, Nat.mul_zero, Nat.zero_add]
      rw [List.foldl_cons, ih, hd, List.length_cons]
      ring
  rw [digitsValue, List.foldl_append, hfrom]
  rfl

/-- Without its colon an offset is a number of four digits. -/
theorem atoi_text (off : UtcOffset) :
    atoi (withoutColon off.text) = off.signed (off.hours * 100 + off.minutes) := by
  have hdigits : ∀ b ∈ setw 2 (decimal off.hours) ++ setw 2 (decimal off.minutes),
      isDigit b = true := fun b hb =>
    (List.mem_append.mp hb).elim isDigit_of_mem_setw isDigit_of_mem_setw
  have hmin : (setw 2 (decimal off.minutes)).length = 2 := by
    have := off.minutes_lt
    exact length_setw (by decide) (by omega)
  have hvalue : digitsValue (setw 2 (decimal off.hours) ++ setw 2 (decimal off.minutes)) =
      off.hours * 100 + off.minutes := by
    rw [digitsValue_append, hmin]
    simp only [digitsValue_setw, digitsValue_decimal]
    rfl
  have htext : withoutColon off.text =
      off.sign :: (setw 2 (decimal off.hours) ++ setw 2 (decimal off.minutes)) :=
    withoutColon_append (off.sign :: setw 2 (decimal off.hours))
      (notMem_setw (by decide) 2 off.minutes)
  have htake := List.takeWhile_eq_self_iff.mpr hdigits
  have hspace : isSpace (ch '-') = false ∧ isSpace (ch '+') = false ∧ ch '+' ≠ ch '-' := by decide
  cases hneg : off.negative with
  | true =>
    simp only [htext, atoi, UtcOffset.sign, UtcOffset.signed, hneg, ↓reduceIte,
      List.dropWhile_cons, hspace.1, Bool.false_eq_true, takeSign, htake, hvalue]
  | false =>
    simp only [htext, atoi, UtcOffset.sign, UtcOffset.signed, hneg, ↓reduceIte,
      List.dropWhile_cons, hspace.2.1, hspace.2.2, Bool.false_eq_true, takeSign, htake, hvalue]

theorem length_text (off : UtcOffset) : off.text.length = 6 := by
  have hhour : (setw 2 (decimal off.hours)).length = 2 := by
    have := off.short
    exact length_setw (by decide) (by omega)
  have hmin : (setw 2 (decimal off.minutes)).length = 2 := by
    have := off.minutes_lt
    exact length_setw (by decide) (by omega)
  simp only [UtcOffset.text, List.length_cons, List.length_append, hhour, hmin]

/-- The hours of the offset are taken off, its minutes are not; an hour of the next day
loses 23 hours, one of the day before gains 24. -/
theorem applyOffset_text (off : UtcOffset) {hour : ℤ} (h₀ : 0 ≤ hour) (h₁ : hour ≤ 23) :
    applyOffset off.text hour =
      if hour - off.signed off.hours > 23 then hour - off.signed off.hours - 23
      else if hour - off.signed off.hours < 0 then hour - off.signed off.hours + 24
      else hour - off.signed off.hours := by
  have hne : off.text ≠ [] := by simp [UtcOffset.text]
  have hdiff : (off.signed (off.hours * 100 + off.minutes)).tdiv 100 = off.signed off.hours := by
    have hmin := off.minutes_lt
    have hquot : ((off.hours * 100 + off.minutes : ℕ) : ℤ).tdiv 100 = off.hours := by
      rw [Int.tdiv_eq_ediv_of_nonneg (Int.natCast_nonneg _)]
      omega
    unfold UtcOffset.signed
    split_ifs
    · rw [Int.neg_tdiv, hquot]
    · exact hquot
  have hlow : -14 ≤ off.signed off.hours := by
    have := off.short
    unfold UtcOffset.signed
    split_ifs <;> omega
  have hmod : hour - off.signed off.hours > 23 →
      (hour - off.signed off.hours).tmod 23 = hour - off.signed off.hours - 23 := by
    intro h
    rw [Int.tmod_eq_emod_of_nonneg (by omega)]
    omega
  have hhour : hour + (-1) * off.signed off.hours = hour - off.signed off.hours := by omega
  simp only [applyOffset, if_neg hne, length_text, ↓reduceIte, atoi_text, hdiff, hhour]
  split_ifs with h
  · exact hmod h
  · rfl
  · rfl

/-! ## The seconds -/

theorem strptime_text (x : DateTime) (suffix : Str) :
    strptime (x.text ++ suffix) = some ⟨x.ymd.year - 1900, x.ymd.month - 1, x.ymd.day, x.hour,
      (x.tod / 60 % 60 : ℕ), (x.tod % 60 : ℕ)⟩ := by
  obtain ⟨⟨year, month, day⟩, tod, ok, ⟨hyear, hyear'⟩, htod⟩ := x
  have hday := ok.day.2.trans (lastDay_le ..)
  lift year to ℕ using hyear
  have hwritten := strptime_written (Int.ofNat_lt.mp hyear') ok.month ⟨ok.day.1, hday⟩ htod suffix
  simpa only [DateTime.text, DateTime.hour, List.append_assoc, List.cons_append] using hwritten

theorem nul_notMem_text (x : DateTime) : 0 ∉ x.text := by
  intro h
  rcases List.mem_append.mp h with h | h
  · rcases mem_writeF h with h | h
    · exact absurd h (by decide)
    · exact absurd h (by decide)
  · rcases List.mem_cons.mp h with h | h
    · exact absurd h (by decide)
    · exact notMem_writeT (by decide) (by decide) x.tod h

/-- The seconds of the fields, with some hours more. -/
theorem localSeconds_text (x : DateTime) (hour : ℤ) :
    Tm.localSeconds ⟨x.ymd.year - 1900, x.ymd.month - 1, x.ymd.day, hour,
      (x.tod / 60 % 60 : ℕ), (x.tod % 60 : ℕ)⟩ = x.seconds + (hour - x.hour) * 3600 := by
  have hdate : (⟨x.ymd.year - 1900 + 1900, ((x.ymd.month : ℤ) - 1 + 1).toNat,
      (x.ymd.day : ℤ).toNat⟩ : Date) = x.ymd := by simp
  simp only [Tm.localSeconds, hdate, DateTime.seconds, DateTime.hour]
  omega

/-- `GetTimeByString` of a date and a time of day: two hours more than the hour that the
offset leaves, taken as a local time. -/
theorem getTimeByString_written {zone : Zone} {o : ℤ} (hfixed : ∀ t, zone.offset t = o)
    (isdst : ℤ) (x : DateTime) {suffix : Str} (hsuffix : 0 ∉ suffix) :
    getTimeByString zone isdst (x.text ++ suffix) = x.seconds +
      (applyOffset (offsetText (writeT x.tod ++ suffix)) x.hour + 2 - x.hour) * 3600 - o := by
  have hlocal : ∀ localTime, zone.localOffset localTime isdst = o := by
    intro localTime
    obtain ⟨t, ht⟩ := zone.isOffset localTime isdst
    rw [ht, hfixed]
  have htext : x.text ++ suffix = writeF (fun year => setw 4 (decimalInt year)) x.ymd ++
      ch 'T' :: (writeT x.tod ++ suffix) := by
    rw [DateTime.text, List.append_assoc, List.cons_append]
  have hnul : 0 ∉ x.text ++ suffix := by
    rw [List.mem_append, not_or]
    exact ⟨nul_notMem_text x, hsuffix⟩
  have hread := strptime_text x suffix
  rw [htext] at hnul hread ⊢
  rw [getTimeByString_eq zone isdst (T_notMem_writeF x.ymd) hnul hread]
  simp only [mktime, localSeconds_text, hlocal]

theorem nul_notMem_offset (off : UtcOffset) : 0 ∉ off.text := by
  have hsign : (0 : UInt8) ≠ off.sign := by
    unfold UtcOffset.sign
    split_ifs <;> decide
  have hcolon : (0 : UInt8) ≠ ch ':' := by decide
  simp [UtcOffset.text, hsign, hcolon, notMem_setw (b := 0) (by decide)]

/-- **`GetTimeByString` respects an offset** exactly if it is one of whole hours and the
hour with it taken off is one of the same day. -/
theorem getTimeByString_offset_iff {zone : Zone} {o : ℤ} (hfixed : ∀ t, zone.offset t = o)
    (isdst isdst' : ℤ) {x y : DateTime} {off : UtcOffset}
    (hsame : x.seconds - off.seconds = y.seconds) :
    getTimeByString zone isdst (x.text ++ off.text) =
        getTimeByString zone isdst' (y.text ++ [ch 'Z']) ↔
      off.minutes = 0 ∧ 0 ≤ x.hour - off.signed off.hours ∧
        x.hour - off.signed off.hours ≤ 23 := by
  have htod := x.tod_lt
  have hmin := off.minutes_lt
  have hhour : 0 ≤ x.hour ∧ x.hour ≤ 23 := by
    unfold DateTime.hour
    omega
  have hseconds : off.seconds = off.signed off.hours * 3600 + off.signed off.minutes * 60 := by
    unfold UtcOffset.seconds UtcOffset.signed
    split_ifs <;> omega
  have hminutes : (off.signed off.minutes = 0 ↔ off.minutes = 0) ∧
      -60 < off.signed off.minutes ∧ off.signed off.minutes < 60 := by
    unfold UtcOffset.signed
    split_ifs <;> omega
  have hz : (0 : UInt8) ∉ [ch 'Z'] := by decide
  have hnone : applyOffset [] y.hour = y.hour := if_pos rfl
  rw [getTimeByString_written hfixed isdst x (nul_notMem_offset off), offsetText_text,
    applyOffset_text off hhour.1 hhour.2, getTimeByString_written hfixed isdst' y hz,
    offsetText_writeT, hnone]
  -- 23 or 24 hours too many are never made up for by the minutes
  split_ifs <;> omega

/-- A time on a day of 2022. -/
def in2022 (month day tod : ℕ) (ok : (⟨2022, month, day⟩ : Date).Ok) (tod_lt : tod < 86400) :
    DateTime :=
  ⟨⟨2022, month, day⟩, tod, ok, ⟨(by decide : (0 : ℤ) ≤ 2022), (by decide : (2022 : ℤ) < 10000)⟩,
    tod_lt⟩

def plusTwo : UtcOffset := ⟨false, 2, 0, by decide, by decide⟩

def plusHalfPastFive : UtcOffset := ⟨false, 5, 30, by decide, by decide⟩

/-- One in the morning is eleven in the evening of the day before in UTC, and becomes
eleven in the evening of the same day; of half an hour nothing is taken off. -/
theorem offset_over_midnight :
    let one := in2022 7 1 3600 (by decide) (by decide)
    let eleven := in2022 6 30 82800 (by decide) (by decide)
    let noon := in2022 7 1 43200 (by decide) (by decide)
    let halfPastSix := in2022 7 1 23400 (by decide) (by decide)
    one.text ++ plusTwo.text = str "2022-07-01T01:00:00+02:00" ∧
    eleven.text ++ [ch 'Z'] = str "2022-06-30T23:00:00Z" ∧
    one.seconds - plusTwo.seconds = eleven.seconds ∧
    getTimeByString (.fixed 0) (-1) (one.text ++ plusTwo.text) =
      getTimeByString (.fixed 0) (-1) (eleven.text ++ [ch 'Z']) + 86400 ∧
    noon.text ++ plusHalfPastFive.text = str "2022-07-01T12:00:00+05:30" ∧
    noon.seconds - plusHalfPastFive.seconds = halfPastSix.seconds ∧
    getTimeByString (.fixed 0) (-1) (noon.text ++ plusHalfPastFive.text) =
      getTimeByString (.fixed 0) (-1) (halfPastSix.text ++ [ch 'Z']) + 1800 := by
  decide +kernel

/-- At noon an offset of two hours is respected. -/
theorem getTimeByString_offset_iff_noon :
    let noon := in2022 7 1 43200 (by decide) (by decide)
    let ten := in2022 7 1 36000 (by decide) (by decide)
    getTimeByString (.fixed 0) (-1) (noon.text ++ plusTwo.text) =
      getTimeByString (.fixed 0) (-1) (ten.text ++ [ch 'Z']) :=
  (getTimeByString_offset_iff (fun _ => rfl) (-1) (-1) (by decide)).mpr (by decide)

end ParkManager
