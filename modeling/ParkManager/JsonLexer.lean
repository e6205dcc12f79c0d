import ParkManager.Utf8
import ParkManager.Lib.Scan

/-!
# The lexer of `nlohmann::json`

A function that calls `get()` takes what is left of the input and returns, with what it
reads, what is left of it then; `none` is `token_type::parse_error`.  The three kinds of
numbers are kept as their text.  Error messages and positions are left out.

Proved here:

* `getCodepoint_iff`, `translate_char`, `unicodeEscape_some`: the escapes of code points;
* `stringItem_spells`, `stringItem_some`: one round reads one character, in any of the ways
  to write it;
* `scanString_iff`: so a string literal is read exactly as the characters it spells.
-/

namespace ParkManager

/-- `token_type`, without the two that end the input. -/
inductive Token
  | literalTrue
  | literalFalse
  | literalNull
  | valueString (s : Str)
  | valueNumber (text : Str)
  | beginArray
  | beginObject
  | endArray
  | endObject
  | nameSeparator
  | valueSeparator
  deriving DecidableEq, Repr

namespace Lexer

open Unicode (exists_char)

/-! ## Strings -/

/-- One digit of `get_codepoint`. -/
def codepointDigit (current : UInt8) : Option ℕ :=
  if ch '0' ≤ current ∧ current ≤ ch '9' then some (current.toNat - 0x30)
  else if ch 'A' ≤ current ∧ current ≤ ch 'F' then some (current.toNat - 0x37)
  else if ch 'a' ≤ current ∧ current ≤ ch 'f' then some (current.toNat - 0x57)
  else none

/-- `get_codepoint` -/
def getCodepoint : Str → Option (ℕ × Str)
  | c₁ :: c₂ :: c₃ :: c₄ :: s => do
    let d₁ ← codepointDigit c₁
    let d₂ ← codepointDigit c₂
    let d₃ ← codepointDigit c₃
    let d₄ ← codepointDigit c₄
    return ((d₁ <<< 12) + (d₂ <<< 8) + (d₃ <<< 4) + d₄, s)
  | _ => none

/-- Bytes in the ranges, one for each. -/
def getInRanges : List (UInt8 × UInt8) → Str → Option (Str × Str)
  | [], s => some ([], s)
  | _ :: _, [] => none
  | (lo, hi) :: ranges, current :: s =>
    if lo ≤ current ∧ current ≤ hi then
      (getInRanges ranges s).map fun r => (current :: r.1, r.2)
    else none

/-- `next_byte_in_range` -/
def nextByteInRange (current : UInt8) (ranges : List (UInt8 × UInt8)) (s : Str) :
    Option (Str × Str) :=
  (getInRanges ranges s).map fun r => (current :: r.1, r.2)

/-- The bytes of a code point. -/
def translate (codepoint : ℕ) : Str :=
  if codepoint < 0x80 then [codepoint.toUInt8]
  else if codepoint ≤ 0x7FF then
    [(0xC0 ||| codepoint >>> 6).toUInt8, (0x80 ||| codepoint &&& 0x3F).toUInt8]
  else if codepoint ≤ 0xFFFF then
    [(0xE0 ||| codepoint >>> 12).toUInt8, (0x80 ||| codepoint >>> 6 &&& 0x3F).toUInt8,
      (0x80 ||| codepoint &&& 0x3F).toUInt8]
  else
    [(0xF0 ||| codepoint >>> 18).toUInt8, (0x80 ||| codepoint >>> 12 &&& 0x3F).toUInt8,
      (0x80 ||| codepoint >>> 6 &&& 0x3F).toUInt8, (0x80 ||| codepoint &&& 0x3F).toUInt8]

/-- The code point of two surrogates. -/
def surrogatePair (codepoint1 codepoint2 : ℕ) : ℕ := (codepoint1 <<< 10) + codepoint2 - 0x35FDC00

/-- What has to follow a high surrogate. -/
def lowSurrogate (codepoint1 : ℕ) : Str → Option (Str × Str)
  | c₁ :: c₂ :: s =>
    if c₁ = ch '\\' ∧ c₂ = ch 'u' then do
      let (codepoint2, s) ← getCodepoint s
      if 0xDC00 ≤ codepoint2 ∧ codepoint2 ≤ 0xDFFF then
        return (translate (surrogatePair codepoint1 codepoint2), s)
      else none
    else none
  | _ => none

/-- `\u`: a code point, or a high surrogate and a low one. -/
def unicodeEscape (s : Str) : Option (Str × Str) := do
  let (codepoint1, s) ← getCodepoint s
  if 0xD800 ≤ codepoint1 ∧ codepoint1 ≤ 0xDBFF then lowSurrogate codepoint1 s
  else if 0xDC00 ≤ codepoint1 ∧ codepoint1 ≤ 0xDFFF then none
  else return (translate codepoint1, s)

/-- The escapes, behind the backslash. -/
def escapeSequence : Str → Option (Str × Str)
  | [] => none
  | current :: s =>
    if current = ch '"' then some ([0x22], s)
    else if current = ch '\\' then some ([0x5C], s)
    else if current = ch '/' then some ([0x2F], s)
    else if current = ch 'b' then some ([0x08], s)
    else if current = ch 'f' then some ([0x0C], s)
    else if current = ch 'n' then some ([0x0A], s)
    else if current = ch 'r' then some ([0x0D], s)
    else if current = ch 't' then some ([0x09], s)
    else if current = ch 'u' then unicodeEscape s
    else none

/-- The ranges for `next_byte_in_range` behind a first byte. -/
def rangesBehind (current : UInt8) : Option (List (UInt8 × UInt8)) :=
  if current ≤ 0x7F then some []
  else if 0xC2 ≤ current ∧ current ≤ 0xDF then some [(0x80, 0xBF)]
  else if current = 0xE0 then some [(0xA0, 0xBF), (0x80, 0xBF)]
  else if 0xE1 ≤ current ∧ current ≤ 0xEC ∨ current = 0xEE ∨ current = 0xEF then
    some [(0x80, 0xBF), (0x80, 0xBF)]
  else if current = 0xED then some [(0x80, 0x9F), (0x80, 0xBF)]
  else if current = 0xF0 then some [(0x90, 0xBF), (0x80, 0xBF), (0x80, 0xBF)]
  else if 0xF1 ≤ current ∧ current ≤ 0xF3 then some [(0x80, 0xBF), (0x80, 0xBF), (0x80, 0xBF)]
  else if current = 0xF4 then some [(0x80, 0x8F), (0x80, 0xBF), (0x80, 0xBF)]
  else none

/-- One round of `scan_string`: what it adds to `token_buffer`, or the closing quote. -/
def stringItem : Str → Option (Option Str × Str)
  | [] => none
  | current :: s =>
    if current = ch '"' then some (none, s)
    else if current = ch '\\' then (escapeSequence s).map fun r => (some r.1, r.2)
    else if current ≤ 0x1F then none
    else do
      let ranges ← rangesBehind current
      (nextByteInRange current ranges s).map fun r => (some r.1, r.2)

/-- `scan_string` -/
def scanString (s : Str) : Option (Str × Str) :=
  (Scan.all stringItem s).map fun r => (r.1.flatten, r.2)

/-! ## Numbers -/

/-- The labels of `scan_number`. -/
inductive NumberLabel
  | minus
  | zero
  | any1
  | decimal1
  | decimal2
  | exponent
  | sign
  | any2
  deriving DecidableEq

inductive NumberJump
  | goto (label : NumberLabel)
  | done
  | error
  deriving DecidableEq

def isOneToNine (b : UInt8) : Bool := 49 ≤ b && b ≤ 57

/-- Where `scan_number` goes from a label on the next character. -/
def numberJump (current : UInt8) : NumberLabel → NumberJump
  | .minus =>
    if current = ch '0' then .goto .zero else if isOneToNine current then .goto .any1 else .error
  | .zero =>
    if current = ch '.' then .goto .decimal1
    else if current = ch 'e' ∨ current = ch 'E' then .goto .exponent
    else .done
  | .any1 =>
    if isDigit current then .goto .any1
    else if current = ch '.' then .goto .decimal1
    else if current = ch 'e' ∨ current = ch 'E' then .goto .exponent
    else .done
  | .decimal1 => if isDigit current then .goto .decimal2 else .error
  | .decimal2 =>
    if isDigit current then .goto .decimal2
    else if current = ch 'e' ∨ current = ch 'E' then .goto .exponent
    else .done
  | .exponent =>
    if current = ch '+' ∨ current = ch '-' then .goto .sign
    else if isDigit current then .goto .any2
    else .error
  | .sign => if isDigit current then .goto .any2 else .error
  | .any2 => if isDigit current then .goto .any2 else .done

/-- The same at the end of the input. -/
def numberEnd : NumberLabel → Bool
  | .zero | .any1 | .decimal2 | .any2 => true
  | .minus | .decimal1 | .exponent | .sign => false

/-- The rest of the text of a number. -/
def numberFrom : NumberLabel → Str → Option (Str × Str)
  | label, [] => if numberEnd label then some ([], []) else none
  | label, current :: s =>
    match numberJump current label with
    | .goto label => (numberFrom label s).map fun r => (current :: r.1, r.2)
    | .done => some ([], current :: s)
    | .error => none

/-- `scan_number`, entered on its first character. -/
def scanNumber (current : UInt8) (s : Str) : Option (Str × Str) :=
  let label := if current = ch '-' then NumberLabel.minus
    else if current = ch '0' then .zero else .any1
  (numberFrom label s).map fun r => (current :: r.1, r.2)

/-! ## Tokens -/

/-- `scan_literal`, behind the first character. -/
def scanLiteral (literal : Str) (token : Token) (s : Str) : Option (Option Token × Str) :=
  if literal <+: s then some (some token, s.drop literal.length) else none

def isWhitespace (b : UInt8) : Bool := b == 0x20 || b == 0x09 || b == 0x0A || b == 0x0D

/-- The structural characters. -/
def structural (current : UInt8) : Option Token :=
  if current = ch '[' then some .beginArray
  else if current = ch ']' then some .endArray
  else if current = ch '\x7b' then some .beginObject
  else if current = ch '\x7d' then some .endObject
  else if current = ch ':' then some .nameSeparator
  else if current = ch ',' then some .valueSeparator
  else none

/-- `scan` behind the white space; without a token it is `token_type::end_of_input`. -/
def scanToken : Str → Option (Option Token × Str)
  | [] => some (none, [])
  | current :: s =>
    match structural current with
    | some token => some (some token, s)
    | none =>
      if current = ch 't' then scanLiteral (str "rue") .literalTrue s
      else if current = ch 'f' then scanLiteral (str "alse") .literalFalse s
      else if current = ch 'n' then scanLiteral (str "ull") .literalNull s
      else if current = ch '"' then (scanString s).map fun r => (some (.valueString r.1), r.2)
      else if current = ch '-' ∨ isDigit current = true then
        (scanNumber current s).map fun r => (some (.valueNumber r.1), r.2)
      else if current = 0 then some (none, s)
      else none

/-- `scan` -/
def scan (s : Str) : Option (Option Token × Str) := scanToken (s.dropWhile isWhitespace)

/-- `skip_bom` -/
def skipBom : Str → Option Str
  | 0xEF :: s =>
    match s with
    | 0xBB :: 0xBF :: s => some s
    | _ => none
  | s => some s

/-- All tokens up to the end of the input. -/
def tokens (text : Str) : Option (List Token) :=
  (skipBom text).bind fun s => (Scan.all scan s).map Prod.fst

/-! ## Code points -/

/-- Four digits that write a number, in upper or lower case. -/
def WritesHex (hex : Str) (n : ℕ) : Prop :=
  ∃ d₁ d₂ d₃ d₄, hex.map codepointDigit = [some d₁, some d₂, some d₃, some d₄] ∧
    n = ((d₁ * 16 + d₂) * 16 + d₃) * 16 + d₄

theorem codepointDigit_lt {b : UInt8} {d : ℕ} (h : codepointDigit b = some d) : d < 16 := by
  have hlit : (ch '0').toNat = 48 ∧ (ch '9').toNat = 57 ∧ (ch 'A').toNat = 65 ∧
      (ch 'F').toNat = 70 ∧ (ch 'a').toNat = 97 ∧ (ch 'f').toNat = 102 := by decide
  simp only [codepointDigit, UInt8.le_iff_toNat_le, hlit] at h
  split_ifs at h <;> obtain rfl := Option.some.inj h <;> omega

theorem WritesHex.lt {hex : Str} {n : ℕ} (h : WritesHex hex n) : n < 0x10000 := by
  obtain ⟨d₁, d₂, d₃, d₄, hhex, rfl⟩ := h
  have hd : ∀ d, some d ∈ hex.map codepointDigit → d < 16 := by
    intro d hd
    obtain ⟨b, -, hb⟩ := List.mem_map.mp hd
    exact codepointDigit_lt hb
  rw [hhex] at hd
  have h₁ := hd d₁ (by simp)
  have h₂ := hd d₂ (by simp)
  have h₃ := hd d₃ (by simp)
  have h₄ := hd d₄ (by simp)
  omega

theorem getCodepoint_iff {s rest : Str} {n : ℕ} :
    getCodepoint s = some (n, rest) ↔ ∃ hex, s = hex ++ rest ∧ WritesHex hex n := by
  constructor
  · intro h
    match s, h with
    | [], h => cases h
    | [_], h => cases h
    | [_, _], h => cases h
    | [_, _, _], h => cases h
    | c₁ :: c₂ :: c₃ :: c₄ :: s, h =>
      obtain ⟨d₁, h₁, h⟩ := Option.bind_eq_some_iff.mp h
      obtain ⟨d₂, h₂, h⟩ := Option.bind_eq_some_iff.mp h
      obtain ⟨d₃, h₃, h⟩ := Option.bind_eq_some_iff.mp h
      obtain ⟨d₄, h₄, h⟩ := Option.bind_eq_some_iff.mp h
      obtain ⟨rfl, rfl⟩ := Prod.mk.inj (Option.some.inj h)
      refine ⟨[c₁, c₂, c₃, c₄], rfl, d₁, d₂, d₃, d₄, ?_, ?_⟩
      · rw [List.map_cons, List.map_cons, List.map_cons, List.map_cons, h₁, h₂, h₃, h₄]
        rfl
      · simp only [Nat.shiftLeft_eq]
        omega
  · rintro ⟨hex, rfl, d₁, d₂, d₃, d₄, hhex, rfl⟩
    obtain ⟨c₁, _, rfl, h₁, hhex⟩ := List.map_eq_cons_iff.mp hhex
    obtain ⟨c₂, _, rfl, h₂, hhex⟩ := List.map_eq_cons_iff.mp hhex
    obtain ⟨c₃, _, rfl, h₃, hhex⟩ := List.map_eq_cons_iff.mp hhex
    obtain ⟨c₄, _, rfl, h₄, hhex⟩ := List.map_eq_cons_iff.mp hhex
    obtain rfl := List.map_eq_nil_iff.mp hhex
    simp only [List.cons_append, List.nil_append, getCodepoint, h₁, h₂, h₃, h₄, bind,
      Option.bind_some, pure, Nat.shiftLeft_eq, Option.some.injEq, Prod.mk.injEq, and_true]
    omega

theorem getCodepoint_append {hex : Str} {n : ℕ} (h : WritesHex hex n) (rest : Str) :
    getCodepoint (hex ++ rest) = some (n, rest) := getCodepoint_iff.mpr ⟨hex, rfl, h⟩

/-- `translate` encodes a character. -/
theorem translate_char (c : Char) : translate c.val.toNat = String.utf8EncodeChar c := by
  have hlt : c.val.toNat < 0x110000 := by
    have hvalid : c.val.toNat < 0xD800 ∨ 0xDFFF < c.val.toNat ∧ c.val.toNat < 0x110000 := c.valid
    omega
  have hor : ∀ a i n, n < 2 ^ i → 2 ^ i * a ||| n = n + 2 ^ i * a := fun a i n h =>
    (Nat.two_pow_add_eq_or_of_lt h a).symm.trans (Nat.add_comm _ _)
  have htail : ∀ n, 0x80 ||| n &&& 0x3F = n % 0x40 + 0x80 := by
    intro n
    have hmod : n &&& 0x3F = n % 0x40 := Nat.and_two_pow_sub_one_eq_mod n 6
    rw [hmod]
    exact hor 2 6 _ (Nat.mod_lt _ (by decide))
  have hC0 : ∀ n, n < 0x20 → 0xC0 ||| n = n % 0x20 + 0xC0 := fun n h => by
    rw [Nat.mod_eq_of_lt h]
    exact hor 6 5 n h
  have hE0 : ∀ n, n < 0x10 → 0xE0 ||| n = n % 0x10 + 0xE0 := fun n h => by
    rw [Nat.mod_eq_of_lt h]
    exact hor 14 4 n h
  have hF0 : ∀ n, n < 0x08 → 0xF0 ||| n = n % 0x08 + 0xF0 := fun n h => by
    rw [Nat.mod_eq_of_lt h]
    exact hor 30 3 n h
  unfold translate String.utf8EncodeChar
  generalize c.val.toNat = v at hlt
  have h6 : v >>> 6 = v / 64 := Nat.shiftRight_eq_div_pow v 6
  have h12 : v >>> 12 = v / 4096 := Nat.shiftRight_eq_div_pow v 12
  have h18 : v >>> 18 = v / 262144 := Nat.shiftRight_eq_div_pow v 18
  simp only [htail, h6, h12, h18]
  split_ifs with h₁ h₂ h₃ h₄ h₅ h₆
  any_goals omega
  · rfl
  · rw [hC0 _ (by omega)]
  · rw [hE0 _ (by omega)]
  · rw [hF0 _ (by omega)]

/-! ## What a string literal spells -/

def shortEscapes : List (Char × Char) :=
  [('"', '"'), ('\\', '\\'), ('/', '/'), ('b', '\x08'), ('f', '\x0c'), ('n', '\n'), ('r', '\r'),
    ('t', '\t')]

/-- The ways to write a character in a string literal. -/
inductive Spells : Str → Char → Prop
  | raw {c : Char} (hc : 0x20 ≤ c.val.toNat) (hquote : c ≠ '"') (hback : c ≠ '\\') :
      Spells (String.utf8EncodeChar c) c
  | short {e c : Char} (h : (e, c) ∈ shortEscapes) : Spells [ch '\\', ch e] c
  | unicode {hex : Str} {c : Char} (h : WritesHex hex c.val.toNat) :
      Spells (ch '\\' :: ch 'u' :: hex) c
  | surrogates {high low : Str} {c : Char} (hc : 0x10000 ≤ c.val.toNat)
      (hhigh : WritesHex high (0xD800 + (c.val.toNat - 0x10000) / 0x400))
      (hlow : WritesHex low (0xDC00 + (c.val.toNat - 0x10000) % 0x400)) :
      Spells (ch '\\' :: ch 'u' :: (high ++ ch '\\' :: ch 'u' :: low)) c

theorem char_valid (c : Char) :
    c.val.toNat < 0xD800 ∨ 0xDFFF < c.val.toNat ∧ c.val.toNat < 0x110000 := c.valid

theorem surrogatePair_eq {n m v : ℕ} (h : n * 2 ^ 10 + m = v + 0x35FDC00) :
    surrogatePair n m = v := by
  unfold surrogatePair
  rw [Nat.shiftLeft_eq]
  exact Nat.sub_eq_of_eq_add h

/-- The surrogates of a character. -/
theorem surrogatePair_char {c : Char} (hc : 0x10000 ≤ c.val.toNat) :
    surrogatePair (0xD800 + (c.val.toNat - 0x10000) / 0x400)
      (0xDC00 + (c.val.toNat - 0x10000) % 0x400) = c.val.toNat := surrogatePair_eq (by omega)

/-- A high and a low surrogate are those of a character. -/
theorem exists_surrogates {n m : ℕ} (hn : 0xD800 ≤ n ∧ n ≤ 0xDBFF) (hm : 0xDC00 ≤ m ∧ m ≤ 0xDFFF) :
    ∃ c : Char, c.val.toNat = surrogatePair n m ∧ 0x10000 ≤ c.val.toNat ∧
      n = 0xD800 + (c.val.toNat - 0x10000) / 0x400 ∧
      m = 0xDC00 + (c.val.toNat - 0x10000) % 0x400 := by
  have hvalue : surrogatePair n m = 0x10000 + (n - 0xD800) * 0x400 + (m - 0xDC00) :=
    surrogatePair_eq (by omega)
  obtain ⟨c, hc⟩ := exists_char (n := surrogatePair n m) (by unfold Nat.isValidChar; omega)
  exact ⟨c, hc, by omega, by omega, by omega⟩

theorem unicodeEscape_unicode {hex : Str} {c : Char} (h : WritesHex hex c.val.toNat) (rest : Str) :
    unicodeEscape (hex ++ rest) = some (String.utf8EncodeChar c, rest) := by
  have hread := getCodepoint_append h rest
  have hvalid := char_valid c
  unfold unicodeEscape
  simp only [hread, bind, Option.bind_some]
  rw [if_neg (by omega), if_neg (by omega), translate_char]
  rfl

theorem lowSurrogate_append {n m : ℕ} {low : Str} (hm : 0xDC00 ≤ m ∧ m ≤ 0xDFFF)
    (hlow : WritesHex low m) (rest : Str) :
    lowSurrogate n (ch '\\' :: ch 'u' :: (low ++ rest)) =
      some (translate (surrogatePair n m), rest) := by
  rw [lowSurrogate, if_pos ⟨rfl, rfl⟩, getCodepoint_append hlow rest]
  simp only [bind, Option.bind_some, if_pos hm, pure]

theorem lowSurrogate_some {n : ℕ} {s bytes rest : Str} (h : lowSurrogate n s = some (bytes, rest)) :
    ∃ low m, s = ch '\\' :: ch 'u' :: (low ++ rest) ∧ WritesHex low m ∧ 0xDC00 ≤ m ∧ m ≤ 0xDFFF ∧
      bytes = translate (surrogatePair n m) := by
  unfold lowSurrogate at h
  split at h
  · split_ifs at h with hesc
    obtain ⟨rfl, rfl⟩ := hesc
    obtain ⟨⟨m, t⟩, hread, hm⟩ := Option.bind_eq_some_iff.mp h
    obtain ⟨low, rfl, hlow⟩ := getCodepoint_iff.mp hread
    simp only at hm
    split_ifs at hm with hrange
    obtain ⟨rfl, rfl⟩ := Prod.mk.inj (Option.some.inj hm)
    exact ⟨low, m, rfl, hlow, hrange.1, hrange.2, rfl⟩
  · cases h

theorem unicodeEscape_pair {high low : Str} {n m : ℕ} (hn : 0xD800 ≤ n ∧ n ≤ 0xDBFF)
    (hm : 0xDC00 ≤ m ∧ m ≤ 0xDFFF) (hhigh : WritesHex high n) (hlow : WritesHex low m)
    (rest : Str) :
    unicodeEscape (high ++ ch '\\' :: ch 'u' :: (low ++ rest)) =
      some (translate (surrogatePair n m), rest) := by
  rw [unicodeEscape, getCodepoint_append hhigh]
  simp only [bind, Option.bind_some]
  rw [if_pos hn, lowSurrogate_append hm hlow]

theorem unicodeEscape_some {s bytes rest : Str} (h : unicodeEscape s = some (bytes, rest)) :
    ∃ piece c, s = piece ++ rest ∧ Spells (ch '\\' :: ch 'u' :: piece) c ∧
      bytes = String.utf8EncodeChar c := by
  obtain ⟨⟨n, t⟩, hread, hn⟩ := Option.bind_eq_some_iff.mp h
  obtain ⟨hex, rfl, hhex⟩ := getCodepoint_iff.mp hread
  simp only at hn
  split_ifs at hn with hhigh hlow
  · obtain ⟨low, m, ht, hlow, hm, hm', hbytes⟩ := lowSurrogate_some hn
    obtain ⟨c, hc, hlarge, hhigh', hlow'⟩ := exists_surrogates hhigh ⟨hm, hm'⟩
    rw [hhigh'] at hhex
    rw [hlow'] at hlow
    refine ⟨hex ++ ch '\\' :: ch 'u' :: low, c, by simp [ht], .surrogates hlarge hhex hlow, ?_⟩
    rw [hbytes, ← hc, translate_char]
  · obtain ⟨rfl, rfl⟩ := Prod.mk.inj (Option.some.inj hn)
    have hlt := hhex.lt
    obtain ⟨c, hc⟩ := exists_char (n := n) (by unfold Nat.isValidChar; omega)
    refine ⟨hex, c, rfl, .unicode (hc ▸ hhex), ?_⟩
    rw [← hc, translate_char]

/-- The letter of a short escape, and the byte it stands for. -/
theorem escapeSequence_short {e c : Char} (h : (e, c) ∈ shortEscapes) (rest : Str) :
    escapeSequence (ch e :: rest) = some (String.utf8EncodeChar c, rest) := by
  simp only [shortEscapes, List.mem_cons, Prod.mk.injEq, List.not_mem_nil, or_false] at h
  rcases h with ⟨rfl, rfl⟩ | ⟨rfl, rfl⟩ | ⟨rfl, rfl⟩ | ⟨rfl, rfl⟩ | ⟨rfl, rfl⟩ | ⟨rfl, rfl⟩ |
    ⟨rfl, rfl⟩ | ⟨rfl, rfl⟩ <;> rfl

theorem escapeSequence_some {s bytes rest : Str} (h : escapeSequence s = some (bytes, rest)) :
    ∃ piece c, s = piece ++ rest ∧ Spells (ch '\\' :: piece) c ∧
      bytes = String.utf8EncodeChar c := by
  cases s with
  | nil => cases h
  | cons current s =>
    have hshort : ∀ e c : Char, (e, c) ∈ shortEscapes → current = ch e →
        some (String.utf8EncodeChar c, s) = some (bytes, rest) →
        ∃ piece c, current :: s = piece ++ rest ∧ Spells (ch '\\' :: piece) c ∧
          bytes = String.utf8EncodeChar c := by
      rintro e c he rfl hs
      obtain ⟨rfl, rfl⟩ := Prod.mk.inj (Option.some.inj hs)
      exact ⟨[ch e], c, rfl, .short he, rfl⟩
    simp only [escapeSequence] at h
    split_ifs at h with h₁ h₂ h₃ h₄ h₅ h₆ h₇ h₈ h₉
    · exact hshort '"' '"' (by decide) h₁ h
    · exact hshort '\\' '\\' (by decide) h₂ h
    · exact hshort '/' '/' (by decide) h₃ h
    · exact hshort 'b' '\x08' (by decide) h₄ h
    · exact hshort 'f' '\x0c' (by decide) h₅ h
    · exact hshort 'n' '\n' (by decide) h₆ h
    · exact hshort 'r' '\r' (by decide) h₇ h
    · exact hshort 't' '\t' (by decide) h₈ h
    · obtain ⟨piece, c, rfl, hspells, hbytes⟩ := unicodeEscape_some h
      exact ⟨current :: piece, c, rfl, h₉ ▸ hspells, hbytes⟩

/-- The table of `scan_string` is that of the Unicode standard. -/
theorem rangesBehind_table : ∀ n, n < 256 →
    rangesBehind n.toUInt8 = Unicode.following n.toUInt8 := by
  decide +kernel

theorem rangesBehind_eq (b : UInt8) : rangesBehind b = Unicode.following b := by
  have hself : b.toNat.toUInt8 = b := UInt8.ofNat_toNat
  have h := rangesBehind_table b.toNat b.toNat_lt
  rwa [hself] at h

theorem getInRanges_iff {ranges : List (UInt8 × UInt8)} {s bs rest : Str} :
    getInRanges ranges s = some (bs, rest) ↔
      s = bs ++ rest ∧ List.Forall₂ Unicode.InRange ranges bs := by
  induction ranges generalizing s bs with
  | nil =>
    rw [getInRanges, List.forall₂_nil_left_iff]
    constructor
    · rintro h
      obtain ⟨rfl, rfl⟩ := Prod.mk.inj (Option.some.inj h)
      exact ⟨rfl, rfl⟩
    · rintro ⟨rfl, rfl⟩
      rfl
  | cons r ranges ih =>
    rw [List.forall₂_cons_left_iff]
    constructor
    · intro h
      cases s with
      | nil => cases h
      | cons current s =>
        rw [getInRanges] at h
        split_ifs at h with hr
        obtain ⟨⟨bs', rest'⟩, hread, h⟩ := Option.map_eq_some_iff.mp h
        obtain ⟨rfl, rfl⟩ := Prod.mk.inj h
        obtain ⟨rfl, hbs⟩ := ih.mp hread
        exact ⟨rfl, current, bs', hr, hbs, rfl⟩
    · rintro ⟨rfl, b, bs', hr, hbs, rfl⟩
      rw [List.cons_append, getInRanges, if_pos (show r.1 ≤ b ∧ b ≤ r.2 from hr),
        ih.mpr ⟨rfl, hbs⟩, Option.map_some]

/-- The first byte of a character that is not ASCII is not ASCII. -/
theorem utf8EncodeChar_cons {c : Char} {b : UInt8} {bs : Str}
    (h : String.utf8EncodeChar c = b :: bs) :
    (b.toNat = c.val.toNat ∧ c.val.toNat < 0x80) ∨ (0x80 ≤ b.toNat ∧ 0x80 ≤ c.val.toNat) := by
  have hvalid := char_valid c
  unfold String.utf8EncodeChar at h
  generalize c.val.toNat = v at *
  simp only at h
  split_ifs at h <;> obtain rfl := (List.cons.inj h).1 <;> rw [UInt8.toNat_ofNat'] <;> omega

theorem ch_toNat_iff {b : UInt8} {c : Char} (hb : b.toNat = c.val.toNat) {d : Char}
    (hd : d.val.toNat < 0x80) : b = ch d ↔ c = d := by
  have hch : (ch d).toNat = d.val.toNat := by
    rw [ch, Nat.toUInt8, UInt8.toNat_ofNat', ← Char.toNat_val]
    omega
  rw [← UInt8.toNat_inj, hb, hch, UInt32.toNat_inj, Char.val_inj]

/-- One round reads a character that is written in any way. -/
theorem stringItem_spells {piece : Str} {c : Char} (h : Spells piece c) (rest : Str) :
    stringItem (piece ++ rest) = some (some (String.utf8EncodeChar c), rest) := by
  have hback : ch '\\' ≠ ch '"' := by decide
  cases h with
  | raw hc hquote hback =>
    have hseq := Unicode.sequence_utf8EncodeChar c
    match he : String.utf8EncodeChar c, hseq with
    | b :: bs, ⟨ranges, hfollow, hbs⟩ =>
      have hb : b ≠ ch '"' ∧ b ≠ ch '\\' ∧ ¬ b ≤ 0x1F := by
        rw [UInt8.le_iff_toNat_le]
        rcases utf8EncodeChar_cons he with ⟨hb, -⟩ | ⟨hb, -⟩
        · rw [ne_eq, ne_eq, ch_toNat_iff hb (by decide), ch_toNat_iff hb (by decide), hb]
          exact ⟨hquote, hback, Nat.not_le.mpr hc⟩
        · refine ⟨?_, ?_, by simp; omega⟩ <;> rintro rfl <;> exact absurd hb (by decide)
      have hread : getInRanges ranges (bs ++ rest) = some (bs, rest) :=
        getInRanges_iff.mpr ⟨rfl, hbs⟩
      simp only [List.cons_append, stringItem, hb, ↓reduceIte, rangesBehind_eq, hfollow, bind,
        Option.bind_some, nextByteInRange, hread, Option.map_some]
  | short he =>
    simp only [List.cons_append, List.nil_append, stringItem, hback, ↓reduceIte,
      escapeSequence_short he, Option.map_some]
  | unicode hhex =>
    have hread : escapeSequence (ch 'u' :: (_ ++ rest)) = _ := unicodeEscape_unicode hhex rest
    simp only [List.cons_append, stringItem, hback, ↓reduceIte, hread, Option.map_some]
  | surrogates hc hhigh hlow =>
    have hvalid := char_valid c
    have hread : escapeSequence (ch 'u' :: (_ ++ ch '\\' :: ch 'u' :: (_ ++ rest))) = _ :=
      unicodeEscape_pair (by omega) (by omega) hhigh hlow rest
    simp only [List.cons_append, List.append_assoc, stringItem, hback, ↓reduceIte, hread,
      Option.map_some, surrogatePair_char hc, translate_char]

/-- One round reads a character. -/
theorem stringItem_some {s bytes rest : Str} (h : stringItem s = some (some bytes, rest)) :
    ∃ piece c, s = piece ++ rest ∧ Spells piece c ∧ bytes = String.utf8EncodeChar c := by
  cases s with
  | nil => cases h
  | cons b s =>
    simp only [stringItem] at h
    split_ifs at h with hquote hback hcontrol
    · cases h
    · obtain ⟨⟨bytes', rest'⟩, hread, h⟩ := Option.map_eq_some_iff.mp h
      obtain ⟨hb, rfl⟩ := Prod.mk.inj h
      obtain ⟨piece, c, rfl, hspells, rfl⟩ := escapeSequence_some hread
      exact ⟨b :: piece, c, rfl, hback ▸ hspells, (Option.some.inj hb).symm⟩
    · obtain ⟨ranges, hranges, h⟩ := Option.bind_eq_some_iff.mp h
      obtain ⟨⟨bytes', rest'⟩, hread, h⟩ := Option.map_eq_some_iff.mp h
      obtain ⟨hb, rfl⟩ := Prod.mk.inj h
      obtain ⟨⟨bs, t⟩, hget, hread⟩ := Option.map_eq_some_iff.mp hread
      obtain ⟨rfl, rfl⟩ := Prod.mk.inj hread
      obtain ⟨rfl, hbs⟩ := getInRanges_iff.mp hget
      rw [rangesBehind_eq] at hranges
      obtain ⟨c, hc⟩ := Unicode.sequence_iff.mp
        (show Unicode.Sequence (b :: bs) from ⟨ranges, hranges, hbs⟩)
      refine ⟨b :: bs, c, rfl, ?_, (Option.some.inj hb).symm.trans hc⟩
      rw [hc]
      rw [UInt8.le_iff_toNat_le] at hcontrol
      have hcontrol : 0x1F < b.toNat := by simpa using hcontrol
      rcases utf8EncodeChar_cons hc.symm with ⟨hb, -⟩ | ⟨-, hc'⟩
      · rw [ch_toNat_iff hb (by decide)] at hquote hback
        exact .raw (by omega) hquote hback
      · refine .raw (by omega) ?_ ?_ <;> rintro rfl <;> exact absurd hc' (by decide)

theorem consumes_stringItem : Scan.Consumes stringItem := by
  intro s bytes rest h
  obtain ⟨piece, c, rfl, hspells, -⟩ := stringItem_some h
  have hne : 0 < piece.length := by
    cases hspells with
    | raw => rw [String.length_utf8EncodeChar]; exact Char.utf8Size_pos _
    | short => exact Nat.zero_lt_succ _
    | unicode => exact Nat.zero_lt_succ _
    | surrogates => exact Nat.zero_lt_succ _
  rw [List.length_append]
  omega

theorem stringItem_stop_iff {s rest : Str} :
    stringItem s = some (none, rest) ↔ s = ch '"' :: rest := by
  cases s with
  | nil => simp [stringItem]
  | cons b s =>
    simp only [stringItem, List.cons.injEq]
    split_ifs with hquote hback hcontrol
    · simp [hquote]
    · simp [hquote]
    · simp [hquote]
    · simp [hquote, Option.bind_eq_some_iff]

/-- **A string literal** is read as the characters that are spelled out up to its closing
quote, and nothing else is read. -/
theorem scanString_iff {s v rest : Str} :
    scanString s = some (v, rest) ↔
      ∃ l : List (Str × Char), (∀ p ∈ l, Spells p.1 p.2) ∧
        s = l.flatMap Prod.fst ++ ch '"' :: rest ∧
        v = (l.map Prod.snd).flatMap String.utf8EncodeChar := by
  unfold scanString
  rw [Option.map_eq_some_iff]
  constructor
  · rintro ⟨⟨items, rest'⟩, hall, he⟩
    obtain ⟨rfl, rfl⟩ := Prod.mk.inj he
    have hreads := (Scan.all_eq_some_iff consumes_stringItem).mp hall
    obtain ⟨l, last, hs, hitems, hl, hlast⟩ := hreads.exists_pieces (f := String.utf8EncodeChar)
      fun _ _ _ => stringItem_some
    obtain rfl := stringItem_stop_iff.mp hlast
    refine ⟨l, hl, hs, ?_⟩
    rw [hitems, List.flatMap_def, List.map_map]
    rfl
  · rintro ⟨l, hl, rfl, rfl⟩
    have hstop : Scan.Reads stringItem (ch '"' :: rest) [] rest :=
      .stop (stringItem_stop_iff.mpr rfl)
    have hreads := hstop.append (f := String.utf8EncodeChar)
      fun p hp t => stringItem_spells (hl p hp) t
    refine ⟨_, (Scan.all_eq_some_iff consumes_stringItem).mpr hreads, ?_⟩
    rw [List.append_nil, List.flatMap_def, List.map_map]
    rfl

end Lexer

end ParkManager
