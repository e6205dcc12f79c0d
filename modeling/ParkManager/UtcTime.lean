import ParkManager.UtcOffset

/-!
# Times that were sent

What `GetUTCTime` makes of a time that a client has written: with a fraction of a
second or without, in UTC or with an offset.  The seconds are read as a `long double`
of at most six characters, so that three digits of a fraction fit.

Proved here:

* `readT_text`: the time of day is read up to the first three digits of its fraction;
* `getUTCTime_timestamp`: what becomes of a time in general, against the instant that it
  `Denotes`;
* `getUTCTime_offset`: an offset is taken off to the minute, so that two ways to write
  one instant are billed alike, whatever the zone of the server;
* `getUTCTime_fraction`: the digits behind the third of a fraction are taken for an
  offset in hours.
-/

namespace ParkManager

open Calendar

/-! ## The time of day -/

theorem digitsValue_lt {digits : Str} (h : ∀ b ∈ digits, isDigit b = true) :
    digitsValue digits < 10 ^ digits.length := by
  induction digits with
  | nil => exact Nat.one_pos
  | cons d digits ih =>
    obtain ⟨hd, h⟩ := List.forall_mem_cons.mp h
    have hle : d.toNat - 48 ≤ 9 := by
      simp only [isDigit, Bool.and_eq_true, decide_eq_true_eq, UInt8.le_iff_toNat_le] at hd
      have : (57 : UInt8).toNat = 57 := rfl
      omega
    have hcons : digitsValue (d :: digits) = (d.toNat - 48) * 10 ^ digits.length +
        digitsValue digits := by
      have happ := digitsValue_append [d] digits
      simpa [digitsValue] using happ
    have hmul := Nat.mul_le_mul_right (10 ^ digits.length) hle
    have htail := ih h
    rw [hcons, List.length_cons, pow_succ]
    omega

theorem takeWhile_field {f : Str} (hf : ∀ b ∈ f, isDigit b = true) {c : UInt8}
    (hc : isDigit c = false) (s : Str) (n : ℕ) :
    ((f ++ c :: s).take n).takeWhile isDigit = f.take n := by
  have htake : ∀ b ∈ f.take n, isDigit b = true := fun b hb => hf b (List.mem_of_mem_take hb)
  rw [List.take_append, List.takeWhile_append_of_pos htake]
  cases n - f.length with
  | zero => exact List.append_nil _
  | succ k => rw [List.take_succ_cons, List.takeWhile_cons, hc, if_neg Bool.false_ne_true,
      List.append_nil]

/-- Two digits of seconds, with no fraction behind them. -/
theorem readLongDouble_plain {n : ℕ} (hn : n < 100) {c : UInt8} (hc : isDigit c = false)
    (hdot : c ≠ ch '.') (s : Str) :
    readLongDouble 1 6 (setw 2 (decimal n) ++ c :: s) = some ((n, 0, 0), c :: s) := by
  have hlen := length_setw (w := 2) (by decide) hn
  have hwhole : ((setw 2 (decimal n) ++ c :: s).take 6).takeWhile isDigit = setw 2 (decimal n) := by
    rw [takeWhile_field (fun _ => isDigit_of_mem_setw) hc, List.take_of_length_le (by omega)]
  have hdrop : ((setw 2 (decimal n) ++ c :: s).take 6).drop 2 = c :: s.take 3 := by
    rw [List.take_append, List.take_of_length_le (by omega), hlen]
    exact List.drop_left' hlen
  simp only [readLongDouble, hwhole, hlen, hdrop, if_neg hdot, digitsValue_setw,
    digitsValue_decimal, List.drop_left' hlen]
  rfl

/-- Of a fraction three digits are read. -/
theorem readLongDouble_fraction {n : ℕ} (hn : n < 100) {f : Str}
    (hf : ∀ b ∈ f, isDigit b = true) {c : UInt8} (hc : isDigit c = false) (s : Str) :
    readLongDouble 1 6 (setw 2 (decimal n) ++ ch '.' :: (f ++ c :: s)) =
      some ((n, digitsValue (f.take 3), (f.take 3).length), f.drop 3 ++ c :: s) := by
  have hlen := length_setw (w := 2) (by decide) hn
  have hdot : isDigit (ch '.') = false := by decide
  have hwhole : ((setw 2 (decimal n) ++ ch '.' :: (f ++ c :: s)).take 6).takeWhile isDigit =
      setw 2 (decimal n) := by
    rw [takeWhile_field (fun _ => isDigit_of_mem_setw) hdot, List.take_of_length_le (by omega)]
  have hdrop : ((setw 2 (decimal n) ++ ch '.' :: (f ++ c :: s)).take 6).drop 2 =
      ch '.' :: (f ++ c :: s).take 3 := by
    rw [List.take_append, List.take_of_length_le (by omega), hlen]
    exact List.drop_left' hlen
  have hrest : (setw 2 (decimal n) ++ ch '.' :: (f ++ c :: s)).drop (2 + 1 + (f.take 3).length) =
      f.drop 3 ++ c :: s := by
    have hmin : (f.take 3).length ≤ f.length := by simp
    have hthree : f.drop (f.take 3).length = f.drop 3 := by
      rw [List.length_take]
      by_cases h : 3 ≤ f.length
      · rw [min_eq_left h]
      · rw [min_eq_right (by omega), List.drop_length, List.drop_eq_nil_of_le (by omega)]
    rw [Nat.add_assoc, ← List.drop_drop, List.drop_left' hlen, Nat.add_comm, List.drop_succ_cons,
      List.drop_append_of_le_length hmin, hthree]
  simp only [readLongDouble, hwhole, hlen, hdrop, takeWhile_field hf hc, digitsValue_setw,
    digitsValue_decimal, ↓reduceIte, hrest]
  exact if_neg (by omega)

/-- At most three digits of a fraction are milliseconds. -/
theorem roundMilliseconds_fraction (n : ℕ) {f : Str} (hf : ∀ b ∈ f, isDigit b = true)
    (hlen : f.length ≤ 3) :
    ∃ ms < 1000, roundMilliseconds (n, digitsValue f, f.length) = 1000 * n + ms := by
  have hlt := digitsValue_lt hf
  generalize digitsValue f = v at *
  have hcases : f.length = 0 ∨ f.length = 1 ∨ f.length = 2 ∨ f.length = 3 := by omega
  rcases hcases with h | h | h | h <;> rw [h] at hlt ⊢
  · refine ⟨1000 * v, by omega, ?_⟩
    simp only [roundMilliseconds]
    split_ifs <;> omega
  · refine ⟨100 * v, by omega, ?_⟩
    simp only [roundMilliseconds]
    split_ifs <;> omega
  · refine ⟨10 * v, by omega, ?_⟩
    simp only [roundMilliseconds]
    split_ifs <;> omega
  · refine ⟨v, by omega, ?_⟩
    simp only [roundMilliseconds]
    split_ifs <;> omega

/-- The hour and the minute of a time of day, and what was read of its seconds. -/
theorem readT_seconds {tod : ℕ} (h : tod < 86400) {rest rest' : Str} {S : ℕ × ℕ × ℕ}
    (hread : readLongDouble 1 6 (setw 2 (decimal (tod % 60)) ++ rest) = some (S, rest')) :
    readT (writeT tod ++ rest) =
      some (⟨tod / 3600, tod / 60 % 60, roundMilliseconds S⟩, rest') := by
  have hh : tod / 3600 < 10 ^ 2 := by omega
  have hm : tod / 60 % 60 < 10 ^ 2 := by omega
  simp only [writeT, List.append_assoc, List.cons_append, readT,
    readUnsigned_setw (w := 2) (by decide) hh, readChar_self,
    readUnsigned_setw (w := 2) (by decide) hm, hread, bind, Option.bind_some, pure]

/-- A fraction of a second of at most three digits, or none. -/
inductive Subsecond : Str → Prop
  | none : Subsecond []
  | digits {f : Str} (hf : ∀ b ∈ f, isDigit b = true) (hlen : f.length ≤ 3) :
    Subsecond (ch '.' :: f)

/-- A time of day is read with its milliseconds. -/
theorem readT_text {tod : ℕ} (h : tod < 86400) {frac : Str} (hfrac : Subsecond frac) {c : UInt8}
    (hc : isDigit c = false) (hdot : c ≠ ch '.') (s : Str) :
    ∃ ms < 1000, readT (writeT tod ++ (frac ++ c :: s)) =
      some (⟨tod / 3600, tod / 60 % 60, 1000 * (tod % 60) + ms⟩, c :: s) := by
  have hs : tod % 60 < 100 := by omega
  cases hfrac with
  | none =>
    obtain ⟨ms, hms, hround⟩ := roundMilliseconds_fraction (tod % 60) (f := [])
      (fun _ hb => (List.not_mem_nil hb).elim) (Nat.zero_le _)
    refine ⟨ms, hms, ?_⟩
    rw [List.nil_append, readT_seconds h (readLongDouble_plain hs hc hdot s), ← hround]
    rfl
  | digits hf hlen =>
    obtain ⟨ms, hms, hround⟩ := roundMilliseconds_fraction (tod % 60) hf hlen
    refine ⟨ms, hms, ?_⟩
    rw [List.cons_append, readT_seconds h (readLongDouble_fraction hs hf hc s),
      List.take_of_length_le hlen, hround, List.drop_eq_nil_of_le hlen, List.nil_append]

/-! ## The two formats -/

theorem readF_text (x : DateTime) (rest : Str) :
    readF (x.text ++ rest) = some (x.ymd, ch 'T' :: (writeT x.tod ++ rest)) := by
  obtain ⟨⟨year, month, day⟩, tod, ok, ⟨hyear, hyear'⟩, htod⟩ := x
  have hday := ok.day.2.trans (lastDay_le ..)
  have hmonth := ok.month.2
  simp only at hday hmonth
  lift year to ℕ using hyear
  simp only [DateTime.text, List.append_assoc, List.cons_append]
  exact readF_writeF (Int.ofNat_lt.mp hyear') (by omega) (by omega) _

theorem parseZ_text (x : DateTime) (rest : Str) :
    parseZ (x.text ++ rest) = (readT (writeT x.tod ++ rest)).bind fun r =>
      (readChar (ch 'Z') r.2).bind fun _ => sysTime x.ymd r.1 0 := by
  simp only [parseZ, readF_text, readChar_self, bind, Option.bind_some]

theorem parseEz_text (x : DateTime) (rest : Str) :
    parseEz (x.text ++ rest) = (readT (writeT x.tod ++ rest)).bind fun r =>
      (readEz r.2).bind fun z => sysTime x.ymd r.1 z.1 := by
  simp only [parseEz, readF_text, readChar_self, bind, Option.bind_some]

/-- The fields of a date and a time make up its seconds, less the offset. -/
theorem sysTime_text (x : DateTime) {ms : ℕ} (hms : ms < 1000) (offset : ℤ) :
    ∃ tp, sysTime x.ymd ⟨x.tod / 3600, x.tod / 60 % 60, 1000 * (x.tod % 60) + ms⟩ offset =
      some tp ∧ tp / 1000 = x.seconds - offset * 60 := by
  have htod := x.tod_lt
  have hrange : TimeOfDay.InConventionalRange
      ⟨x.tod / 3600, x.tod / 60 % 60, 1000 * (x.tod % 60) + ms⟩ := by
    simp only [TimeOfDay.InConventionalRange]
    omega
  refine ⟨_, if_pos ⟨x.ok, hrange⟩, ?_⟩
  dsimp only [DateTime.seconds]
  omega

/-- An offset is read in minutes. -/
theorem readEz_text (off : UtcOffset) :
    readEz off.text = some (off.signed (off.hours * 60 + off.minutes), []) := by
  have hshort := off.short
  have hmin := off.minutes_lt
  have hhours : off.hours < 10 ^ 2 := by omega
  have hminutes : readUnsigned 2 2 (setw 2 (decimal off.minutes)) = some (off.minutes, []) := by
    have hlen : (setw 2 (decimal off.minutes)).length = 2 :=
      length_setw (by decide) (by omega)
    have hread : readUnsigned 2 2 (setw 2 (decimal off.minutes) ++ []) = _ :=
      readUnsigned_digits (fun _ => isDigit_of_mem_setw) hlen.ge hlen
    rwa [List.append_nil, digitsValue_setw, digitsValue_decimal] at hread
  have hsigned : readSigned 1 2 off.text = some (off.signed off.hours,
      ch ':' :: setw 2 (decimal off.minutes)) := by
    have hplus : ch '+' ≠ ch '-' := by decide
    have hread : readUnsigned 1 2
        (setw 2 (decimal off.hours) ++ ch ':' :: setw 2 (decimal off.minutes)) = _ :=
      readUnsigned_setw (by decide) hhours
    unfold UtcOffset.text UtcOffset.sign UtcOffset.signed
    split_ifs with hneg
    · simp only [readSigned, ↓reduceIte, max_self, hread, Option.map_some]
    · simp only [readSigned, hplus, ↓reduceIte, max_self, hread, Option.map_some]
  have hnat : (off.signed off.hours).natAbs = off.hours := by
    unfold UtcOffset.signed
    split_ifs <;> omega
  have hneg : off.text.head? = some (ch '-') ↔ off.negative = true := by
    have hplus : ch '+' ≠ ch '-' := by decide
    unfold UtcOffset.text UtcOffset.sign
    split_ifs with h <;> simp [h, hplus]
  simp only [readEz, hsigned, bind, Option.bind_some, ↓reduceIte, hminutes, Option.map_some, hnat,
    hneg, pure]
  unfold UtcOffset.signed
  split_ifs <;> simp_all

/-- Digits that stand where the offset should be: two of them are its hours. -/
theorem readEz_digits {g : Str} (hne : g ≠ []) (hg : ∀ b ∈ g, isDigit b = true) {c : UInt8}
    (hc : isDigit c = false) (hcolon : c ≠ ch ':') (s : Str) :
    ∃ rest, readEz (g ++ c :: s) = some (((digitsValue (g.take 2) * 60 : ℕ) : ℤ), rest) := by
  obtain ⟨d, t, rfl⟩ := List.exists_cons_of_ne_nil hne
  have hd : isDigit d = true := hg d List.mem_cons_self
  have hminus : d ≠ ch '-' := by rintro rfl; exact absurd hd (by decide)
  have hplus : d ≠ ch '+' := by rintro rfl; exact absurd hd (by decide)
  have hfield := takeWhile_field hg hc s 2
  have hread : readSigned 1 2 (d :: t ++ c :: s) = some ((digitsValue ((d :: t).take 2) : ℤ),
      (d :: t ++ c :: s).drop ((d :: t).take 2).length) := by
    have hlen : ¬ ((d :: t).take 2).length < 1 := by simp
    rw [List.cons_append] at hfield ⊢
    simp only [readSigned, if_neg hminus, if_neg hplus, if_pos hd, max_self, readUnsigned, hfield,
      if_neg hlen, Option.map_some]
  -- no colon follows, neither among the digits nor behind them
  have hnext : ∀ b s', (d :: t ++ c :: s).drop ((d :: t).take 2).length = b :: s' →
      b ≠ ch ':' := by
    rintro b s' h rfl
    rw [List.drop_append_of_le_length (List.length_take_le' ..)] at h
    cases hrest : (d :: t).drop ((d :: t).take 2).length with
    | nil =>
      rw [hrest, List.nil_append] at h
      exact hcolon (List.cons.inj h).1
    | cons e g' =>
      rw [hrest, List.cons_append] at h
      have he : e ∈ d :: t := List.mem_of_mem_drop (hrest ▸ List.mem_cons_self)
      rw [(List.cons.inj h).1] at he
      exact absurd (hg _ he) (by decide)
  have hhead : (d :: t ++ c :: s).head? ≠ some (ch '-') := by
    rw [List.cons_append, List.head?_cons]
    exact fun h => hminus (Option.some.inj h)
  simp only [readEz, hread, bind, Option.bind_some, hhead, decide_false, Int.natAbs_natCast]
  cases hrest : (d :: t ++ c :: s).drop ((d :: t).take 2).length with
  | nil => exact ⟨[], rfl⟩
  | cons b s' =>
    simp only [if_neg (hnext b s' hrest)]
    exact ⟨b :: s', rfl⟩

/-! ## What is made of a time -/

/-- The end of a time: `Z`, or an offset from UTC. -/
inductive ZoneMark
  | utc
  | offset (off : UtcOffset)

def ZoneMark.text : ZoneMark → Str
  | utc => [ch 'Z']
  | offset off => off.text

/-- East of UTC is positive. -/
def ZoneMark.seconds : ZoneMark → ℤ
  | utc => 0
  | offset off => off.seconds

theorem ZoneMark.text_eq (mark : ZoneMark) :
    ∃ c s, mark.text = c :: s ∧ isDigit c = false ∧ c ≠ ch '.' ∧ c ≠ ch ':' := by
  cases mark with
  | utc => exact ⟨ch 'Z', [], rfl, by decide, by decide, by decide⟩
  | offset off =>
    refine ⟨off.sign, _, rfl, ?_⟩
    unfold UtcOffset.sign
    split_ifs <;> decide

/-- What follows at most three digits of a fraction is taken off. -/
theorem getUTCTime_short (x : DateTime) {frac : Str} (hfrac : Subsecond frac) (mark : ZoneMark) :
    getUTCTime (x.text ++ (frac ++ mark.text)) = format (x.seconds - mark.seconds) := by
  cases mark with
  | utc =>
    obtain ⟨ms, hms, hread⟩ := readT_text x.tod_lt hfrac (c := ch 'Z') (by decide) (by decide) []
    obtain ⟨tp, htp, hseconds⟩ := sysTime_text x hms 0
    have hparse : parseZ (x.text ++ (frac ++ [ch 'Z'])) = some tp := by
      rw [parseZ_text, hread, Option.bind_some, readChar_self, Option.bind_some, htp]
    simp only [ZoneMark.text, ZoneMark.seconds, getUTCTime, hparse, hseconds, zero_mul]
  | offset off =>
    have hsign : isDigit off.sign = false ∧ off.sign ≠ ch '.' ∧ off.sign ≠ ch 'Z' := by
      unfold UtcOffset.sign
      split_ifs <;> decide
    obtain ⟨ms, hms, hread⟩ := readT_text x.tod_lt hfrac hsign.1 hsign.2.1
      (setw 2 (decimal off.hours) ++ ch ':' :: setw 2 (decimal off.minutes))
    obtain ⟨tp, htp, hseconds⟩ := sysTime_text x hms (off.signed (off.hours * 60 + off.minutes))
    have hz : parseZ (x.text ++ (frac ++ off.text)) = none := by
      rw [UtcOffset.text, parseZ_text, hread, Option.bind_some]
      simp only [readChar, if_neg hsign.2.2, Option.bind_none]
    have hez : parseEz (x.text ++ (frac ++ off.text)) = some tp := by
      have hoff := readEz_text off
      rw [UtcOffset.text] at hoff ⊢
      rw [parseEz_text, hread, Option.bind_some, hoff, Option.bind_some, htp]
    have hinstant : tp / 1000 = x.seconds - off.seconds := by
      rw [hseconds]
      unfold UtcOffset.seconds UtcOffset.signed
      split_ifs <;> push_cast <;> ring
    simp only [ZoneMark.text, ZoneMark.seconds, getUTCTime, hz, hez, hinstant]

/-- Of more digits three are milliseconds, the next two hours that are taken off, and the
rest is not read. -/
theorem getUTCTime_long (x : DateTime) {f : Str} (hf : ∀ b ∈ f, isDigit b = true)
    (hlen : 3 < f.length) (mark : ZoneMark) :
    getUTCTime (x.text ++ (ch '.' :: f ++ mark.text)) =
      format (x.seconds - 3600 * digitsValue ((f.drop 3).take 2)) := by
  obtain ⟨c, s, hmark, hc, -, hcolon⟩ := mark.text_eq
  have hdrop : f.drop 3 ≠ [] := by
    rw [Ne, List.drop_eq_nil_iff]
    omega
  have hdigits : ∀ b ∈ f.drop 3, isDigit b = true := fun b hb => hf b (List.mem_of_mem_drop hb)
  have hs : x.tod % 60 < 100 := by omega
  have hread := readT_seconds x.tod_lt (readLongDouble_fraction hs hf hc s)
  obtain ⟨ms, hms, hround⟩ := roundMilliseconds_fraction (x.tod % 60)
    (f := f.take 3) (fun b hb => hf b (List.mem_of_mem_take hb)) (List.length_take_le ..)
  rw [hround] at hread
  obtain ⟨rest, hoffset⟩ := readEz_digits hdrop hdigits hc hcolon s
  obtain ⟨tp, htp, hseconds⟩ := sysTime_text x hms (digitsValue ((f.drop 3).take 2) * 60 : ℕ)
  rw [hmark, List.cons_append]
  have hz : parseZ (x.text ++ ch '.' :: (f ++ c :: s)) = none := by
    obtain ⟨d, t, hg⟩ := List.exists_cons_of_ne_nil hdrop
    have hd : isDigit d = true := hdigits d (hg ▸ List.mem_cons_self)
    have hne : d ≠ ch 'Z' := by rintro rfl; exact absurd hd (by decide)
    rw [parseZ_text, hread, Option.bind_some, hg, List.cons_append]
    simp only [readChar, if_neg hne, Option.bind_none]
  have hez : parseEz (x.text ++ ch '.' :: (f ++ c :: s)) = some tp := by
    rw [parseEz_text, hread, Option.bind_some, hoffset, Option.bind_some, htp]
  simp only [getUTCTime, hz, hez, hseconds]
  congr 1
  push_cast
  ring

/-- A time as ISO 8601 writes it. -/
structure Timestamp where
  dateTime : DateTime
  /-- The digits behind the point of the seconds, if there is one. -/
  fraction : Option Str
  digits : ∀ f ∈ fraction, ∀ b ∈ f, isDigit b = true
  mark : ZoneMark

def Timestamp.text (w : Timestamp) : Str :=
  w.dateTime.text ++ ((w.fraction.elim [] (ch '.' :: ·)) ++ w.mark.text)

/-- The whole seconds of the instant it denotes. -/
def Timestamp.instant (w : Timestamp) : ℤ := w.dateTime.seconds - w.mark.seconds

/-- The seconds by which `GetUTCTime` is ahead of the instant: where a fraction has more
than three digits, it takes the next two for the hours of the offset. -/
def Timestamp.misread (w : Timestamp) : ℤ :=
  match w.fraction with
  | none => 0
  | some f =>
    if f.length ≤ 3 then 0 else w.mark.seconds - 3600 * digitsValue ((f.drop 3).take 2)

/-- What `GetUTCTime` makes of any such time. -/
theorem getUTCTime_timestamp (w : Timestamp) :
    getUTCTime w.text = format (w.instant + w.misread) := by
  obtain ⟨x, fraction, digits, mark⟩ := w
  unfold Timestamp.text Timestamp.instant Timestamp.misread
  cases fraction with
  | none => simpa using getUTCTime_short x .none mark
  | some f =>
    have hf := digits f rfl
    simp only [Option.elim_some]
    split_ifs with hlen
    · rw [getUTCTime_short x (.digits hf hlen) mark, add_zero]
    · rw [getUTCTime_long x hf (not_le.mp hlen) mark]
      congr 1
      ring

/-- **An offset is taken off.**  A time with an offset from UTC comes out as its instant
in UTC; two times of one instant are the same number of seconds for the bill. -/
theorem getUTCTime_offset (x : DateTime) {frac : Str} (hfrac : Subsecond frac) (off : UtcOffset) :
    getUTCTime (x.text ++ (frac ++ off.text)) = format (x.seconds - off.seconds) ∧
    ∀ (y : DateTime) (frac' : Str), Subsecond frac' → y.seconds = x.seconds - off.seconds →
      ∀ zone isdst, getTimeinSeconds zone isdst (x.text ++ (frac ++ off.text)) =
        getTimeinSeconds zone isdst (y.text ++ (frac' ++ [ch 'Z'])) := by
  have htime : getUTCTime (x.text ++ (frac ++ off.text)) = format (x.seconds - off.seconds) :=
    getUTCTime_short x hfrac (.offset off)
  refine ⟨htime, fun y frac' hfrac' hsame zone isdst => ?_⟩
  have hutc : getUTCTime (y.text ++ (frac' ++ [ch 'Z'])) = format (y.seconds - 0) :=
    getUTCTime_short y hfrac' .utc
  have hne : ∀ (x : DateTime) (rest : Str), x.text ++ rest ≠ [] := fun x rest h => by
    simp [DateTime.text] at h
  rw [getTimeinSeconds, if_pos (hne x _), getTimeinSeconds, if_pos (hne y _), htime, hutc,
    sub_zero, hsame]

/-- **Long fractions.**  Of the digits of a fraction of a second three are milliseconds;
the next two are taken for an offset in hours. -/
theorem getUTCTime_fraction (x : DateTime) {f : Str} (hf : ∀ b ∈ f, isDigit b = true) :
    getUTCTime (x.text ++ ch '.' :: (f ++ [ch 'Z'])) =
      format (x.seconds - 3600 * digitsValue ((f.drop 3).take 2)) := by
  by_cases hlen : f.length ≤ 3
  · have hshort : getUTCTime (x.text ++ (ch '.' :: f ++ [ch 'Z'])) = format (x.seconds - 0) :=
      getUTCTime_short x (.digits hf hlen) .utc
    rw [← List.cons_append, hshort, List.drop_eq_nil_of_le hlen]
    simp [digitsValue]
  · exact getUTCTime_long x hf (not_le.mp hlen) .utc

/-- Eight in the morning with microseconds is billed from two days earlier. -/
theorem getUTCTime_fraction_microseconds :
    getUTCTime (str "2022-07-01T08:00:00.123456Z") = str "2022-06-29T11:00:00Z" := by
  have hx := getUTCTime_fraction (in2022 7 1 28800 (by decide) (by decide)) (f := str "123456")
    (by decide +kernel)
  have htext : (in2022 7 1 28800 (by decide) (by decide)).text ++ ch '.' ::
      (str "123456" ++ [ch 'Z']) = str "2022-07-01T08:00:00.123456Z" := by
    decide +kernel
  rw [htext] at hx
  rw [hx]
  decide +kernel

/-- Half past one in India, with milliseconds, is eight in the evening of the day before. -/
theorem getUTCTime_offset_india :
    getUTCTime (str "2022-07-01T01:30:00.250+05:30") = str "2022-06-30T20:00:00Z" := by
  have hx := (getUTCTime_offset (in2022 7 1 5400 (by decide) (by decide))
    (.digits (f := str "250") (by decide +kernel) (by decide)) plusHalfPastFive).1
  have htext : (in2022 7 1 5400 (by decide) (by decide)).text ++
      (ch '.' :: str "250" ++ plusHalfPastFive.text) = str "2022-07-01T01:30:00.250+05:30" := by
    decide +kernel
  rw [htext] at hx
  rw [hx]
  decide +kernel

end ParkManager
