import ParkManager.Date

/-!
# Times in seconds

`GetTimeByString`, `GetTimeinSeconds` and `GetCurrentUTCTime`, with the functions of
the C library they call.  `GetTimeByString` never sets `tm_isdst`, so that what it
happens to contain is an argument, as is the time zone of the process.

Proved here:

* `strptime_format`: a written time is read back field by field;
* `getTimeByString_eq`: what `GetTimeByString` makes of the fields and of the text behind
  the first `T`;
* `getTimeinSeconds_current`: what the current time is in seconds;
* `duration_iff`: two times differ by the time between them exactly when `mktime`
  takes both at the same offset from UTC;
* `stay_over_spring_change`: a night on which the clocks go forward.
-/

namespace ParkManager

open Calendar

/-! ## `strptime` -/

/-- `struct tm`, as far as `strptime` fills it in and `mktime` reads it. -/
structure Tm where
  tmYear : ℤ
  tmMon : ℤ
  tmMday : ℤ
  tmHour : ℤ
  tmMin : ℤ
  tmSec : ℤ
  deriving DecidableEq, Repr

/-- The loop of `get_number`, with the digits still allowed and the value so far. -/
def getDigits (hi : ℕ) : ℕ → ℕ → Str → ℕ × Str
  | 0, val, s => (val, s)
  | _ + 1, val, [] => (val, [])
  | n + 1, val, b :: s =>
    if val * 10 ≤ hi ∧ isDigit b then getDigits hi n (10 * val + (b.toNat - 48)) s
    else (val, b :: s)

/-- `get_number`: a number from `lo` to `hi` of at most `n` digits, after blanks. -/
def getNumber (lo hi n : ℕ) (s : Str) : Option (ℕ × Str) :=
  match s.dropWhile (· = ch ' ') with
  | [] => none
  | b :: s =>
    if isDigit b then
      let (val, s) := getDigits hi n 0 (b :: s)
      if lo ≤ val ∧ val ≤ hi then some (val, s) else none
    else none

/-- `strptime(s, "%Y-%m-%dT%H:%M:%S%Z", &tm)`; the name of the time zone is skipped. -/
def strptime (s : Str) : Option Tm := do
  let (year, s) ← getNumber 0 9999 4 s
  let s ← readChar (ch '-') s
  let (mon, s) ← getNumber 1 12 2 s
  let s ← readChar (ch '-') s
  let (mday, s) ← getNumber 1 31 2 s
  let s ← readChar (ch 'T') s
  let (hour, s) ← getNumber 0 23 2 s
  let s ← readChar (ch ':') s
  let (min, s) ← getNumber 0 59 2 s
  let s ← readChar (ch ':') s
  let (sec, _) ← getNumber 0 61 2 s
  return ⟨year - 1900, mon - 1, mday, hour, min, sec⟩

/-! ## Time zones -/

/-- A local time is that of an instant, and `tm_isdst` does not say otherwise. -/
def Reads (offset : ℤ → ℤ) (isDst : ℤ → Bool) (localTime isdst t : ℤ) : Prop :=
  t + offset t = localTime ∧ (isdst < 0 ∨ (0 < isdst ↔ isDst t = true))

/-- The rule of a time zone.  `localOffset` is the offset at which `mktime` takes a
local time, given `tm_isdst`; there may be no instant with that local time, or two. -/
structure Zone where
  /-- Seconds east of UTC. -/
  offset : ℤ → ℤ
  isDst : ℤ → Bool
  localOffset : ℤ → ℤ → ℤ
  /-- `mktime` inverts `localtime`. -/
  inverts : ∀ localTime isdst, (∃ t, Reads offset isDst localTime isdst t) →
    Reads offset isDst localTime isdst (localTime - localOffset localTime isdst)
  /-- It knows no offset but those of the zone. -/
  isOffset : ∀ localTime isdst, ∃ t, localOffset localTime isdst = offset t

/-- A zone whose offset never changes. -/
def Zone.fixed (offset : ℤ) : Zone where
  offset _ := offset
  isDst _ := false
  localOffset _ _ := offset
  inverts := by
    rintro localTime isdst ⟨t, ht, hdst⟩
    exact ⟨sub_add_cancel .., hdst⟩
  isOffset _ _ := ⟨0, rfl⟩

/-- A zone with daylight-saving time.  Where `tm_isdst` leaves it open, a local time is
taken as daylight-saving time if it can be. -/
def Zone.daylight (std dst : ℤ) (isDst : ℤ → Bool) (hon : ∃ t, isDst t = true)
    (hoff : ∃ t, isDst t = false) : Zone where
  offset t := if isDst t then dst else std
  isDst := isDst
  localOffset localTime isdst :=
    if isdst < 0 then if isDst (localTime - dst) then dst else std
    else if 0 < isdst then dst else std
  inverts := by
    rintro localTime isdst ⟨t, ht, hdst⟩
    replace ht : t + (if isDst t then dst else std) = localTime := ht
    have hdaylight : isDst t = true → t + dst = localTime ∧ localTime - dst = t := by
      intro h
      rw [h, if_pos rfl] at ht
      exact ⟨ht, sub_eq_of_eq_add ht.symm⟩
    have hstandard : isDst t = false → t + std = localTime ∧ localTime - std = t := by
      intro h
      rw [h, if_neg Bool.false_ne_true] at ht
      exact ⟨ht, sub_eq_of_eq_add ht.symm⟩
    rcases lt_trichotomy isdst 0 with hneg | rfl | hpos
    · cases hd : isDst (localTime - dst) with
      | true => exact ⟨by simp [hneg, hd], Or.inl hneg⟩
      | false =>
        have h : isDst t = false := by
          by_contra ht'
          rw [Bool.not_eq_false] at ht'
          rw [(hdaylight ht').2, ht'] at hd
          cases hd
        exact ⟨by simp [hneg, hstandard h, h], Or.inl hneg⟩
    · have h : isDst t = false := by simpa using hdst
      exact ⟨by simp [hstandard h, h], by simp [hstandard h, h]⟩
    · have hneg : ¬ isdst < 0 := not_lt.mpr hpos.le
      have h : isDst t = true := (hdst.resolve_left hneg).mp hpos
      exact ⟨by simp [hneg, hpos, hdaylight h, h], by simp [hneg, hpos, hdaylight h, h]⟩
  isOffset := by
    obtain ⟨t, ht⟩ := hon
    obtain ⟨u, hu⟩ := hoff
    intro localTime isdst
    split_ifs
    · exact ⟨t, by rw [ht, if_pos rfl]⟩
    · exact ⟨u, by rw [hu]; rfl⟩
    · exact ⟨t, by rw [ht, if_pos rfl]⟩
    · exact ⟨u, by rw [hu]; rfl⟩

/-- The seconds of the fields, whatever their ranges. -/
def Tm.localSeconds (tm : Tm) : ℤ :=
  toDays ⟨tm.tmYear + 1900, (tm.tmMon + 1).toNat, tm.tmMday.toNat⟩ * 86400 +
    tm.tmHour * 3600 + tm.tmMin * 60 + tm.tmSec

def mktime (zone : Zone) (isdst : ℤ) (tm : Tm) : ℤ :=
  tm.localSeconds - zone.localOffset tm.localSeconds isdst

/-! ## `Base.hpp` -/

/-- `atoi`. -/
def atoi (s : Str) : ℤ :=
  let (negative, t) := takeSign (s.dropWhile isSpace)
  let n : ℤ := digitsValue (t.takeWhile isDigit)
  if negative then -n else n

/-- `s.substr(s.find(c))`, where the character is found. -/
def fromChar (c : UInt8) (s : Str) : Str := s.dropWhile (· ≠ c)

/-- The offset at the end of a time of day. -/
def offsetText (time : Str) : Str :=
  if ch '+' ∈ time then fromChar (ch '+') time
  else if ch '-' ∈ time then fromChar (ch '-') time
  else []

/-- The offset without the last colon; where there is none, `npos` as a length is the
whole text, and `npos + 1` is 0. -/
def withoutColon (offset : Str) : Str :=
  if ch ':' ∈ offset then
    (fromChar (ch ':') offset.reverse).tail.reverse ++
      (offset.reverse.takeWhile (· ≠ ch ':')).reverse
  else offset ++ offset

/-- The hour with the offset taken off. -/
def applyOffset (offset : Str) (tmHour : ℤ) : ℤ :=
  if offset = [] then tmHour
  else
    let ss := if offset.length = 6 then withoutColon offset else offset
    let diffHour := (atoi ss).tdiv 100
    let tmHour := tmHour + (-1) * diffHour
    if tmHour > 23 then tmHour.tmod 23
    else if tmHour < 0 then tmHour + 24
    else tmHour

/-- `GetTimeByString`; 0 when the conversion fails. -/
def getTimeByString (zone : Zone) (isdst : ℤ) (timeStr : Str) : ℤ :=
  match strptime (cstr timeStr) with
  | none => 0
  | some tm =>
    let time := if ch 'T' ∈ timeStr then (fromChar (ch 'T') timeStr).tail else timeStr
    mktime zone isdst { tm with tmHour := applyOffset (offsetText time) tm.tmHour + 2 }

/-- `GetTimeinSeconds`. -/
def getTimeinSeconds (zone : Zone) (isdst : ℤ) (timeUTC : Str) : ℤ :=
  if timeUTC ≠ [] then getTimeByString zone isdst (getUTCTime timeUTC) else 0

/-- The fields of an instant in UTC. -/
def gmtime (t : ℤ) : Tm where
  tmYear := yearOf t - 1900
  tmMon := (ofDays (t / 86400)).month - 1
  tmMday := (ofDays (t / 86400)).day
  tmHour := t % 86400 / 3600
  tmMin := t % 86400 / 60 % 60
  tmSec := t % 86400 % 60

/-- `strftime(bufNow, 42, "%FT%TZ", &tm)`, which does not pad the year. -/
def strftime (tm : Tm) : Str :=
  decimalInt (tm.tmYear + 1900) ++ (ch '-' :: (setw 2 (decimalInt (tm.tmMon + 1)) ++
    (ch '-' :: (setw 2 (decimalInt tm.tmMday) ++ (ch 'T' :: (setw 2 (decimalInt tm.tmHour) ++
    (ch ':' :: (setw 2 (decimalInt tm.tmMin) ++ (ch ':' :: (setw 2 (decimalInt tm.tmSec) ++
    [ch 'Z']))))))))))

/-- `GetCurrentUTCTime`. -/
def getCurrentUTCTime (now : ℤ) : Str := getUTCTime (strftime (gmtime now))

/-! ## Reading back the fields -/

theorem le_foldl_digits (digits : Str) (val : ℕ) :
    val ≤ digits.foldl (fun n d => 10 * n + (d.toNat - 48)) val := by
  induction digits generalizing val with
  | nil => exact le_rfl
  | cons b digits ih =>
    have hval : val ≤ 10 * val + (b.toNat - 48) := by omega
    exact hval.trans (ih _)

/-- All digits are taken as long as the number stays in range. -/
theorem getDigits_digits {hi : ℕ} {digits : Str} (rest : Str)
    (hd : ∀ b ∈ digits, isDigit b = true) {val : ℕ}
    (hhi : digits.foldl (fun n d => 10 * n + (d.toNat - 48)) val ≤ hi) :
    getDigits hi digits.length val (digits ++ rest) =
      (digits.foldl (fun n d => 10 * n + (d.toNat - 48)) val, rest) := by
  induction digits generalizing val with
  | nil => rfl
  | cons b digits ih =>
    obtain ⟨hb, hd⟩ := List.forall_mem_cons.mp hd
    rw [List.foldl_cons] at hhi ⊢
    have hval : val * 10 ≤ hi := by
      have := le_foldl_digits digits (10 * val + (b.toNat - 48))
      omega
    rw [List.length_cons, List.cons_append, getDigits, if_pos ⟨hval, hb⟩, ih hd hhi]

theorem getNumber_setw {lo hi w n : ℕ} {rest : Str} (hw : 0 < w) (hn : n < 10 ^ w) (hlo : lo ≤ n)
    (hhi : n ≤ hi) : getNumber lo hi w (setw w (decimal n) ++ rest) = some (n, rest) := by
  have hlen := length_setw hw hn
  have hd : ∀ b ∈ setw w (decimal n), isDigit b = true := fun _ => isDigit_of_mem_setw
  have hvalue : (setw w (decimal n)).foldl (fun n d => 10 * n + (d.toNat - 48)) 0 = n :=
    (digitsValue_setw w _).trans (digitsValue_decimal n)
  have hget := getDigits_digits rest hd (hvalue.trans_le hhi)
  rw [hlen, hvalue] at hget
  cases hs : setw w (decimal n) with
  | nil =>
    rw [hs, List.length_nil] at hlen
    omega
  | cons b digits =>
    have hb : isDigit b = true := hd b (hs ▸ List.mem_cons_self)
    have hblank : b ≠ ch ' ' := by rintro rfl; exact absurd hb (by decide)
    rw [hs, List.cons_append] at hget
    simp only [getNumber, List.cons_append, List.dropWhile_cons, decide_eq_false hblank, hb, hget,
      Bool.false_eq_true, ↓reduceIte, hlo, hhi, and_self]

/-- The time of day of an instant, as `format` takes it apart. -/
theorem tod_cast (t : ℤ) :
    (((t % 86400).toNat / 3600 : ℕ) : ℤ) = t % 86400 / 3600 ∧
    (((t % 86400).toNat / 60 % 60 : ℕ) : ℤ) = t % 86400 / 60 % 60 ∧
    (((t % 86400).toNat % 60 : ℕ) : ℤ) = t % 86400 % 60 := by
  omega

/-- A date and a time of day are read field by field, whatever follows. -/
theorem strptime_written {year month day tod : ℕ} (hyear : year < 10000)
    (hmonth : 1 ≤ month ∧ month ≤ 12) (hday : 1 ≤ day ∧ day ≤ 31) (htod : tod < 86400)
    (rest : Str) :
    strptime (writeF (fun year => setw 4 (decimalInt year)) ⟨year, month, day⟩ ++
        (ch 'T' :: (writeT tod ++ rest))) =
      some ⟨year - 1900, month - 1, day, (tod / 3600 : ℕ), (tod / 60 % 60 : ℕ),
        (tod % 60 : ℕ)⟩ := by
  have hh : tod / 3600 ≤ 23 := by omega
  have hm : tod / 60 % 60 ≤ 59 := by omega
  have hs : tod % 60 ≤ 61 := by omega
  simp only [strptime, writeF, writeT, decimalInt_natCast, List.append_assoc, List.cons_append,
    readChar_self, bind, Option.bind_some, pure,
    getNumber_setw (w := 4) (by decide) (show year < 10 ^ 4 from hyear) (Nat.zero_le _)
      (Nat.le_of_lt_succ hyear),
    getNumber_setw (w := 2) (by decide) (show month < 10 ^ 2 by omega) hmonth.1 hmonth.2,
    getNumber_setw (w := 2) (by decide) (show day < 10 ^ 2 by omega) hday.1 hday.2,
    getNumber_setw (w := 2) (by decide) (show tod / 3600 < 10 ^ 2 by omega) (Nat.zero_le _) hh,
    getNumber_setw (w := 2) (by decide) (show tod / 60 % 60 < 10 ^ 2 by omega) (Nat.zero_le _) hm,
    getNumber_setw (w := 2) (by decide) (show tod % 60 < 10 ^ 2 by omega) (Nat.zero_le _) hs]

/-- A time that was written is read back field by field. -/
theorem strptime_format {t : ℤ} (h₀ : 0 ≤ yearOf t) (h₁ : yearOf t < 10000) :
    strptime (format t) = some (gmtime t) := by
  obtain ⟨year, month, day, hymd, hyear, hmonth, hmonth', hday, hday'⟩ := exists_date h₀ h₁
  obtain ⟨hhour, hmin, hsec⟩ := tod_cast t
  rw [format, writeTime, hymd, strptime_written hyear ⟨hmonth, hmonth'⟩ ⟨hday, hday'⟩ (by omega)]
  simp only [gmtime, yearOf, hymd, hhour, hmin, hsec]

theorem strftime_gmtime {t : ℤ} (h₀ : 1000 ≤ yearOf t) (h₁ : yearOf t < 10000) :
    strftime (gmtime t) = format t := by
  obtain ⟨year, month, day, hymd, hyear, -⟩ := exists_date (by omega) h₁
  obtain ⟨hhour, hmin, hsec⟩ := tod_cast t
  have hpad : setw 4 (decimal year) = decimal year := by
    have hyear' : ¬ year < 10 ^ 3 := by
      have hy : yearOf t = year := by rw [yearOf, hymd]
      omega
    have hlen : ¬ (decimal year).length ≤ 3 := by
      rwa [decimal, List.length_map, Nat.length_toDigits_le_iff (by decide) (by decide)]
    rw [setw, Nat.sub_eq_zero_of_le (by omega)]
    rfl
  simp only [strftime, gmtime, format, writeTime, writeF, writeT, yearOf, hymd, ← hhour, ← hmin,
    ← hsec, sub_add_cancel, decimalInt_natCast, hpad, List.append_assoc, List.cons_append]

/-- The fields of an instant denote it. -/
theorem localSeconds_gmtime (t : ℤ) (hours : ℤ) :
    Tm.localSeconds { gmtime t with tmHour := (gmtime t).tmHour + hours } = t + hours * 3600 := by
  have hdate : (⟨(gmtime t).tmYear + 1900, ((gmtime t).tmMon + 1).toNat,
      (gmtime t).tmMday.toNat⟩ : Date) = ofDays (t / 86400) := by
    simp [gmtime, yearOf]
  simp only [Tm.localSeconds, hdate, toDays_ofDays]
  simp only [gmtime]
  omega

/-! ## The offset in the text -/

theorem mem_setw_decimalInt {w : ℕ} {n : ℤ} {b : UInt8} (h : b ∈ setw w (decimalInt n)) :
    isDigit b = true ∨ b = ch '-' := by
  rcases List.mem_append.mp h with h | h
  · rw [(List.mem_replicate.mp h).2]
    decide
  · exact mem_decimalInt h

theorem mem_writeF {ymd : Date} {b : UInt8}
    (h : b ∈ writeF (fun year => setw 4 (decimalInt year)) ymd) :
    isDigit b = true ∨ b = ch '-' := by
  simp only [writeF, List.mem_append, List.mem_cons] at h
  rcases h with h | rfl | h | rfl | h
  · exact mem_setw_decimalInt h
  · exact Or.inr rfl
  · exact Or.inl (isDigit_of_mem_setw h)
  · exact Or.inr rfl
  · exact Or.inl (isDigit_of_mem_setw h)

theorem mem_writeT {tod : ℕ} {b : UInt8} (h : b ∈ writeT tod) : isDigit b = true ∨ b = ch ':' := by
  simp only [writeT, List.mem_append, List.mem_cons] at h
  rcases h with h | rfl | h | rfl | h
  · exact Or.inl (isDigit_of_mem_setw h)
  · exact Or.inr rfl
  · exact Or.inl (isDigit_of_mem_setw h)
  · exact Or.inr rfl
  · exact Or.inl (isDigit_of_mem_setw h)

theorem notMem_writeT {b : UInt8} (hdigit : isDigit b = false) (hcolon : b ≠ ch ':') (tod : ℕ) :
    b ∉ writeT tod := by
  intro h
  rcases mem_writeT h with h | h
  · rw [hdigit] at h
    cases h
  · exact hcolon h

/-- A written time is in UTC: it has no offset. -/
theorem offsetText_writeT (tod : ℕ) : offsetText (writeT tod ++ [ch 'Z']) = [] := by
  have hno : ∀ c : UInt8, isDigit c = false → c ≠ ch ':' → c ≠ ch 'Z' →
      c ∉ writeT tod ++ [ch 'Z'] := by
    intro c hdigit hcolon hz h
    rcases List.mem_append.mp h with h | h
    · exact notMem_writeT hdigit hcolon tod h
    · exact hz (List.mem_singleton.mp h)
  rw [offsetText, if_neg (hno _ (by decide) (by decide) (by decide)),
    if_neg (hno _ (by decide) (by decide) (by decide))]

theorem T_notMem_writeF (ymd : Date) :
    ch 'T' ∉ writeF (fun year => setw 4 (decimalInt year)) ymd := fun h =>
  (mem_writeF h).elim (absurd · (by decide)) (absurd · (by decide))

theorem fromChar_append {c : UInt8} {a : Str} (h : c ∉ a) (b : Str) :
    fromChar c (a ++ c :: b) = c :: b := by
  have ha : ∀ x ∈ a, decide (x ≠ c) = true := by
    rintro x hx
    rw [decide_eq_true_eq]
    rintro rfl
    exact h hx
  rw [fromChar, List.dropWhile_append_of_pos ha]
  simp

theorem mem_format {t : ℤ} {b : UInt8} (h : b ∈ format t) :
    isDigit b = true ∨ b ∈ [ch '-', ch 'T', ch ':', ch 'Z'] := by
  simp only [format, writeTime, List.mem_append, List.mem_cons] at h ⊢
  rcases h with h | h | h | h
  · exact (mem_writeF h).imp_right Or.inl
  · exact Or.inr (Or.inr (Or.inl h))
  · exact (mem_writeT h).imp_right fun h => Or.inr (Or.inr (Or.inl h))
  · exact Or.inr (Or.inr (Or.inr (Or.inr h)))

/-- A written time has no NUL. -/
theorem nul_notMem_format (t : ℤ) : 0 ∉ format t := fun h =>
  (mem_format h).elim (absurd · (by decide)) (absurd · (by decide))

/-- `GetTimeByString` of a text that `strptime` reads, in which a time of day, perhaps
with an offset, stands behind the first `T`. -/
theorem getTimeByString_eq (zone : Zone) (isdst : ℤ) {date time : Str} {tm : Tm}
    (hT : ch 'T' ∉ date) (h0 : 0 ∉ date ++ ch 'T' :: time)
    (htm : strptime (date ++ ch 'T' :: time) = some tm) :
    getTimeByString zone isdst (date ++ ch 'T' :: time) =
      mktime zone isdst { tm with tmHour := applyOffset (offsetText time) tm.tmHour + 2 } := by
  have hmem : ch 'T' ∈ date ++ ch 'T' :: time := List.mem_append_right _ List.mem_cons_self
  simp only [getTimeByString, cstr_eq_self h0, htm, if_pos hmem, fromChar_append hT, List.tail_cons]

/-- `GetTimeByString` of a written time: two hours more, taken as a local time. -/
theorem getTimeByString_format (zone : Zone) (isdst : ℤ) {t : ℤ} (h₀ : 0 ≤ yearOf t)
    (h₁ : yearOf t < 10000) :
    getTimeByString zone isdst (format t) = t + 7200 - zone.localOffset (t + 7200) isdst := by
  have hread : getTimeByString zone isdst (format t) = _ :=
    getTimeByString_eq zone isdst (T_notMem_writeF _) (nul_notMem_format t) (strptime_format h₀ h₁)
  simp only [hread, offsetText_writeT, applyOffset, ↓reduceIte, mktime, localSeconds_gmtime]
  rfl

theorem format_ne_nil (t : ℤ) : format t ≠ [] := by simp [format, writeTime]

theorem getTimeinSeconds_format (zone : Zone) (isdst : ℤ) {t : ℤ} (h₀ : 0 ≤ yearOf t)
    (h₁ : yearOf t < 10000) :
    getTimeinSeconds zone isdst (format t) = t + 7200 - zone.localOffset (t + 7200) isdst := by
  rw [getTimeinSeconds, if_pos (format_ne_nil t), getUTCTime_format h₀ h₁,
    getTimeByString_format zone isdst h₀ h₁]

/-! ## Billed time -/

/-- Central European Time, with the daylight-saving time of 2022. -/
def centralEurope : Zone :=
  .daylight 3600 7200 (fun t => decide (1648342800 ≤ t ∧ t < 1667091600)) ⟨1648342800, by decide⟩
    ⟨0, by decide⟩

/-- The years that `strftime` writes with four digits. -/
def FourDigitYear (t : ℤ) : Prop := 1000 ≤ yearOf t ∧ yearOf t < 10000

instance : DecidablePred FourDigitYear := fun t =>
  inferInstanceAs (Decidable (1000 ≤ yearOf t ∧ yearOf t < 10000))

theorem getCurrentUTCTime_eq {t : ℤ} (h : FourDigitYear t) : getCurrentUTCTime t = format t := by
  have h₀ : 0 ≤ yearOf t := le_trans (by decide) h.1
  rw [getCurrentUTCTime, strftime_gmtime h.1 h.2, getUTCTime_format h₀ h.2]

/-- What `GetTimeinSeconds` makes of a current time. -/
theorem getTimeinSeconds_current (zone : Zone) (isdst : ℤ) {t : ℤ} (h : FourDigitYear t) :
    getTimeinSeconds zone isdst (getCurrentUTCTime t) =
      t + 7200 - zone.localOffset (t + 7200) isdst := by
  rw [getCurrentUTCTime_eq h, getTimeinSeconds_format zone isdst (le_trans (by decide) h.1) h.2]

/-- What `Duration` is: the two hours cancel, the offsets may not. -/
theorem duration_eq (zone : Zone) (isdst₁ isdst₂ : ℤ) {t₁ t₂ : ℤ} (h₁ : FourDigitYear t₁)
    (h₂ : FourDigitYear t₂) :
    getTimeinSeconds zone isdst₂ (getCurrentUTCTime t₂) -
        getTimeinSeconds zone isdst₁ (getCurrentUTCTime t₁) =
      t₂ - t₁ + (zone.localOffset (t₁ + 7200) isdst₁ - zone.localOffset (t₂ + 7200) isdst₂) := by
  rw [getTimeinSeconds_current zone isdst₂ h₂, getTimeinSeconds_current zone isdst₁ h₁]
  omega

/-- **Billed time is elapsed time** exactly when `mktime` takes the two local times,
each two hours more than the UTC time, at the same offset from UTC. -/
theorem duration_iff (zone : Zone) (isdst₁ isdst₂ : ℤ) {t₁ t₂ : ℤ} (h₁ : FourDigitYear t₁)
    (h₂ : FourDigitYear t₂) :
    getTimeinSeconds zone isdst₂ (getCurrentUTCTime t₂) -
        getTimeinSeconds zone isdst₁ (getCurrentUTCTime t₁) = t₂ - t₁ ↔
      zone.localOffset (t₁ + 7200) isdst₁ = zone.localOffset (t₂ + 7200) isdst₂ := by
  rw [duration_eq zone isdst₁ isdst₂ h₁ h₂, add_eq_left, sub_eq_zero]

/-- A car that stays from 20:00 to 08:00 UTC while the clocks go forward is charged for
an hour less; and ten minutes in July are not ten minutes when `tm_isdst` happens to be
1 at the entrance and 0 at the exit. -/
theorem stay_over_spring_change :
    FourDigitYear 1648324800 ∧ FourDigitYear 1648368000 ∧
    getTimeinSeconds centralEurope (-1) (getCurrentUTCTime 1648368000) -
      getTimeinSeconds centralEurope (-1) (getCurrentUTCTime 1648324800) =
        1648368000 - 1648324800 - 3600 ∧
    getTimeinSeconds centralEurope 0 (getCurrentUTCTime 1656670200) -
      getTimeinSeconds centralEurope 1 (getCurrentUTCTime 1656669600) =
        1656670200 - 1656669600 + 3600 := by
  have hmarch : FourDigitYear 1648324800 ∧ FourDigitYear 1648368000 := by decide
  have hjuly : FourDigitYear 1656669600 ∧ FourDigitYear 1656670200 := by decide
  refine ⟨hmarch.1, hmarch.2, ?_, ?_⟩
  · rw [getTimeinSeconds_current _ _ hmarch.1, getTimeinSeconds_current _ _ hmarch.2]
    decide
  · rw [getTimeinSeconds_current _ _ hjuly.1, getTimeinSeconds_current _ _ hjuly.2]
    decide

/-- Ten minutes in July. -/
theorem duration_iff_july :
    getTimeinSeconds centralEurope (-1) (getCurrentUTCTime 1656670200) -
      getTimeinSeconds centralEurope (-1) (getCurrentUTCTime 1656669600) = 600 :=
  (duration_iff centralEurope (-1) (-1) (by decide) (by decide)).mpr (by decide)

/-- In a zone whose offset never changes the time billed is the time elapsed. -/
theorem duration_of_fixed {zone : Zone} {o : ℤ} (h : ∀ t, zone.offset t = o) (isdst₁ isdst₂ : ℤ)
    {t₁ t₂ : ℤ} (h₁ : FourDigitYear t₁) (h₂ : FourDigitYear t₂) :
    getTimeinSeconds zone isdst₂ (getCurrentUTCTime t₂) -
      getTimeinSeconds zone isdst₁ (getCurrentUTCTime t₁) = t₂ - t₁ := by
  have hoffset : ∀ localTime isdst, zone.localOffset localTime isdst = o := by
    intro localTime isdst
    obtain ⟨t, ht⟩ := zone.isOffset localTime isdst
    rw [ht, h]
  rw [duration_eq zone isdst₁ isdst₂ h₁ h₂, hoffset, hoffset, sub_self, add_zero]

/-- Where each of the two local times is that of one instant only, the offsets are
those of the instants. -/
theorem duration_of_unique {zone : Zone} {isdst₁ isdst₂ t₁ t₂ s₁ s₂ : ℤ} (h₁ : FourDigitYear t₁)
    (h₂ : FourDigitYear t₂)
    (hs₁ : ∀ t, Reads zone.offset zone.isDst (t₁ + 7200) isdst₁ t ↔ t = s₁)
    (hs₂ : ∀ t, Reads zone.offset zone.isDst (t₂ + 7200) isdst₂ t ↔ t = s₂) :
    getTimeinSeconds zone isdst₂ (getCurrentUTCTime t₂) -
        getTimeinSeconds zone isdst₁ (getCurrentUTCTime t₁) =
      t₂ - t₁ + (zone.offset s₁ - zone.offset s₂) := by
  have hoffset : ∀ {localTime isdst s},
      (∀ t, Reads zone.offset zone.isDst localTime isdst t ↔ t = s) →
        zone.localOffset localTime isdst = zone.offset s := by
    intro localTime isdst s h
    have hinv := (h _).mp (zone.inverts localTime isdst ⟨s, (h s).mpr rfl⟩)
    have hreads := ((h s).mpr rfl).1
    omega
  rw [duration_eq zone isdst₁ isdst₂ h₁ h₂, hoffset hs₁, hoffset hs₂]

end ParkManager
