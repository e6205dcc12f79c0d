import Mathlib.Data.List.DropRight
import ParkManager.Cpp
import ParkManager.Lib.Keyed
import ParkManager.Lib.Scan

/-!
# `SimpleIni.h`

`CSimpleIniA` with the settings of its constructor: names without regard to case, one
value for a key, no multi-line or quoted values, no keys without `=`.  The parser writes
NULs into its buffer and keeps pointers to it; here a name that no NUL ends yet carries
the text behind it along (`SectionName`).

Proved here:

* `not_isLess_iff`: `std::map` takes two names for one if they differ in case only;
* `total_commentLine`, `total_findItem`: the loops of the parser end;
* `getValue_addEntry`: what an entry changes.
-/

namespace ParkManager.SimpleIni

/-! ## Characters and names -/

def isSpace (c : UInt8) : Bool := c = ch ' ' || c = ch '\t' || c = ch '\r' || c = ch '\n'

def isComment (c : UInt8) : Bool := c = ch ';' || c = ch '#'

def isNewLineChar (c : UInt8) : Bool := c = ch '\n' || c = ch '\r'

/-- `SkipNewLine`; where the text has ended it is not called. -/
def skipNewLine : Str → Str
  | c :: d :: s => if c = ch '\r' ∧ d = ch '\n' then s else d :: s
  | _ => []

/-- `SI_GenericNoCase::locase`. -/
def locase (c : UInt8) : UInt8 := if c < ch 'A' ∨ ch 'Z' < c then c else c - ch 'A' + ch 'a'

/-- The value of a `char`. -/
def schar (c : UInt8) : ℤ := if c.toNat < 128 then c.toNat else c.toNat - 256

/-- `IsLess`. -/
def isLess : Str → Str → Bool
  | c :: s, d :: t =>
    if locase c = locase d then isLess s t else decide (schar (locase c) < schar (locase d))
  | _, t => !t.isEmpty

/-- A name without its case. -/
def fold (name : Str) : Str := name.map locase

theorem schar_injective : Function.Injective schar := by
  intro c d h
  have hc := c.toNat_lt
  have hd := d.toNat_lt
  unfold schar at h
  refine UInt8.toNat_inj.mp ?_
  split_ifs at h <;> omega

theorem not_isLess_iff {a b : Str} : isLess a b = false ∧ isLess b a = false ↔ fold a = fold b := by
  induction a generalizing b with
  | nil => cases b <;> simp [isLess, fold]
  | cons c s ih =>
    cases b with
    | nil => simp [isLess, fold]
    | cons d t =>
      by_cases h : locase c = locase d
      · simpa [isLess, fold, h] using ih
      · have hne : schar (locase c) ≠ schar (locase d) := fun e => h (schar_injective e)
        have hsym : ¬ locase d = locase c := fun e => h e.symm
        simp only [isLess, if_neg h, if_neg hsym, decide_eq_false_iff_not, fold, List.map_cons,
          List.cons.injEq]
        exact iff_of_false (by omega) fun e => h e.1

/-! ## The data -/

/-- A key, as `TKeyVal` holds it. -/
structure KeyValue where
  key : Str
  value : Str
  comment : Option Str

/-- A section, as `TSection` holds it. -/
structure Section where
  name : Str
  comment : Option Str
  keyValues : Keyed KeyValue fun kv => fold kv.key

/-- `CSimpleIniA`.  The order of the lists is the load order. -/
structure Ini where
  storeIsUtf8 : Bool
  fileComment : Option Str
  sections : Keyed Section fun s => fold s.name

def Ini.empty : Ini := ⟨false, none, .empty⟩

/-- A key in a section.  Only a new key takes the comment. -/
def Section.setValue (key value : Str) (comment : Option Str) (s : Section) : Section :=
  { s with
    keyValues := s.keyValues.upsert (fun kv => { kv with value := value }) (fun _ => rfl)
      ⟨key, value, comment⟩ }

theorem fold_name_setValue (key value : Str) (comment : Option Str) (s : Section) :
    fold (s.setValue key value comment).name = fold s.name := rfl

/-- `AddEntry`, with a key and its value or without.  A new section takes the comment if it
comes without a key. -/
def Ini.addEntry (ini : Ini) (name : Str) (entry : Option (Str × Str)) (comment : Option Str) :
    Ini :=
  match entry with
  | none => { ini with
      sections := ini.sections.upsert id (fun _ => rfl) ⟨name, comment, .empty⟩ }
  | some (key, value) => { ini with
      sections := ini.sections.upsert (Section.setValue key value comment)
        (fold_name_setValue key value comment) ⟨name, none, .empty⟩ }

/-- What holds of all keys of a section holds after a value is set. -/
theorem forall_setValue {P : KeyValue → Prop} {s : Section} {key value : Str}
    {comment : Option Str} (h : ∀ kv ∈ s.keyValues.toList, P kv) (hnew : P ⟨key, value, comment⟩)
    (hset : ∀ kv, P kv → P { kv with value := value }) :
    ∀ kv ∈ (s.setValue key value comment).keyValues.toList, P kv := by
  intro kv hkv
  have hkey : ∀ kv : KeyValue, fold { kv with value := value }.key = fold kv.key := fun _ => rfl
  rcases Keyed.mem_upsert hkey hkv with hkv | rfl | ⟨old, hold, rfl⟩
  · exact h kv hkv
  · exact hset _ hnew
  · exact hset old (h old hold)

/-- What holds of all sections holds after an entry is added. -/
theorem forall_addEntry {P : Section → Prop} {ini : Ini} {name : Str}
    {entry : Option (Str × Str)} {comment : Option Str} (h : ∀ s ∈ ini.sections.toList, P s)
    (hnew : ∀ c, entry = none ∧ c = comment ∨ c = none → P ⟨name, c, .empty⟩)
    (hset : ∀ key value, entry = some (key, value) → ∀ s, P s → P (s.setValue key value comment)) :
    ∀ s ∈ (ini.addEntry name entry comment).sections.toList, P s := by
  intro s hs
  cases entry with
  | none =>
    rcases Keyed.mem_upsert (fun _ => rfl) hs with hs | rfl | ⟨old, hold, hs⟩
    · exact h s hs
    · exact hnew comment (.inl ⟨rfl, rfl⟩)
    · rw [hs]
      exact h old hold
  | some e =>
    obtain ⟨key, value⟩ := e
    rcases Keyed.mem_upsert (fold_name_setValue key value comment) hs with
      hs | rfl | ⟨old, hold, rfl⟩
    · exact h s hs
    · exact hset key value rfl _ (hnew none (.inr rfl))
    · exact hset key value rfl old (h old hold)

/-- `GetValue`. -/
def Ini.getValue (ini : Ini) (name key : Str) : Option Str :=
  (ini.sections.get (fold name)).bind fun s =>
    (s.keyValues.get (fold key)).map KeyValue.value

theorem getValue_addEntry_section (ini : Ini) (name : Str) (comment : Option Str) :
    (ini.addEntry name none comment).getValue = ini.getValue := by
  funext name' key'
  simp only [Ini.getValue, Ini.addEntry, Keyed.get_upsert]
  split_ifs
  · cases ini.sections.get (fold name') <;> rfl
  · rfl

theorem getValue_addEntry (ini : Ini) (name key value : Str) (comment : Option Str)
    (name' key' : Str) : (ini.addEntry name (some (key, value)) comment).getValue name' key' =
      if fold name = fold name' ∧ fold key = fold key' then some value
      else ini.getValue name' key' := by
  simp only [Ini.getValue, Ini.addEntry, Keyed.get_upsert]
  by_cases hn : fold name = fold name'
  · by_cases hk : fold key = fold key'
    · simp [hn, hk, Section.setValue, Keyed.get_upsert]
    · simp only [hn, hk, and_false, ite_false]
      cases ini.sections.get (fold name') with
      | none => simp [Section.setValue, Keyed.get_upsert, hk]; rfl
      | some s => simp [Section.setValue, Keyed.get_upsert, hk]
  · simp [hn]

/-! ## The parser -/

/-- The text up to the end of the line. -/
def line (s : Str) : Str := s.takeWhile fun c => !isNewLineChar c

def afterLine (s : Str) : Str := s.dropWhile fun c => !isNewLineChar c

def trimEnd (s : Str) : Str := s.rdropWhile isSpace

/-- The newlines in text that is skipped. -/
def newLines : Str → ℕ
  | c :: d :: s =>
    if c = ch '\r' ∧ d = ch '\n' then newLines s + 1
    else (if isNewLineChar c then 1 else 0) + newLines (d :: s)
  | [c] => if isNewLineChar c then 1 else 0
  | [] => 0

/-- One round of the loop of `LoadMultiLineText` without a tag: the number of blank lines
before the line of the comment, and the line. -/
def commentLine (allowBlankLines : Bool) (s : Str) : Option (Option (ℕ × Str) × Str) :=
  let next := if allowBlankLines then s.dropWhile isSpace else s
  match next with
  | [] => some (none, s)
  | c :: t =>
    if isComment c then
      let blank := if allowBlankLines then newLines (s.takeWhile isSpace) else 0
      some (some (blank, line (c :: t)), skipNewLine (afterLine (c :: t)))
    else some (none, s)

/-- The lines of a comment, every newline a single `\n`. -/
def commentText (lines : List (ℕ × Str)) : Str :=
  [ch '\n'].intercalate (lines.flatMap fun l => List.replicate l.1 [] ++ [l.2])

/-- `LoadMultiLineText` without a tag: the text, if there is one, and what is behind it. -/
def loadMultiLineText (allowBlankLines : Bool) (s : Str) : Option Str × Str :=
  let lines := Scan.items (commentLine allowBlankLines) s
  (if lines = [] then none else some (commentText lines),
    Scan.remains (commentLine allowBlankLines) s)

/-- What one round of the loop of `FindEntry` comes across. -/
inductive Item
  /-- A comment, and the spaces before it. -/
  | comment (skipped : Str) (text : Option Str)
  /-- A section that is not closed on its line: the text of the line behind `[`. -/
  | unclosed (name : Str)
  | header (name : Str)
  /-- A line that is no entry. -/
  | invalid (raw : Str)
  | keyValue (skipped key value : Str)

/-- The name is searched up to the stop character or the end of the line. -/
def inName (stop c : UInt8) : Bool := c ≠ stop && !isNewLineChar c

/-- Behind `[`. -/
def findSection (t : Str) : Item × Str :=
  let name := (t.dropWhile isSpace).takeWhile (inName (ch ']'))
  match (t.dropWhile isSpace).dropWhile (inName (ch ']')) with
  | [] => (.unclosed name, [])
  | d :: rest =>
    if d = ch ']' then (.header (trimEnd name), afterLine rest) else (.unclosed name, d :: rest)

/-- Behind `=`: the value, and the next line. -/
def findValue (rest : Str) : Str × Str :=
  let value := rest.dropWhile fun d => isSpace d && !isNewLineChar d
  (trimEnd (line value), skipNewLine (afterLine value))

/-- At the beginning of a key. -/
def findKey (skipped s : Str) : Item × Str :=
  let key := s.takeWhile (inName (ch '='))
  match s.dropWhile (inName (ch '=')) with
  | [] => (.invalid (skipped ++ key), [])
  | d :: rest =>
    if d ≠ ch '=' then (.invalid (skipped ++ key), d :: rest)
    else if key = [] then (.invalid (skipped ++ line s), afterLine s)
    else (.keyValue skipped (trimEnd key) (findValue rest).1, (findValue rest).2)

/-- A round of `FindEntry` behind the spaces that it skips first. -/
def findItemAt (skipped : Str) : Str → Option (Option Item × Str)
  | [] => some (none, [])
  | c :: t =>
    let (item, rest) :=
      if isComment c then
        let (text, rest) := loadMultiLineText true (c :: t)
        (.comment skipped text, rest)
      else if c = ch '[' then findSection t
      else findKey skipped (c :: t)
    some (some item, rest)

/-- One round of the loop of `FindEntry`. -/
def findItem (s : Str) : Option (Option Item × Str) :=
  findItemAt (s.takeWhile isSpace) (s.dropWhile isSpace)

/-- `pSection`: the text from the pointer to the first NUL that the parser has written, or
to where it is as long as it has written none. -/
structure SectionName where
  text : Str
  ended : Bool

/-- The parser goes over `raw`. -/
def SectionName.pass (raw : Str) (n : SectionName) : SectionName :=
  if n.ended then n else { n with text := n.text ++ raw }

/-- It writes a NUL behind `raw`. -/
def SectionName.terminate (raw : Str) (n : SectionName) : SectionName :=
  { n.pass raw with ended := true }

/-- Once there is a NUL the name stays. -/
theorem SectionName.terminate_of_ended {n : SectionName} (h : n.ended = true) (raw : Str) :
    n.pass raw = n ∧ n.terminate raw = n := by
  have hpass : n.pass raw = n := by rw [SectionName.pass, if_pos h]
  exact ⟨hpass, by rw [SectionName.terminate, hpass, ← h]⟩

/-- The variables of `LoadData`. -/
structure Loader where
  pSection : SectionName
  pComment : Option Str
  ini : Ini

/-- What the loops of `LoadData` and `FindEntry` do with an item. -/
def Loader.take (l : Loader) : Item → Loader
  | .comment skipped text =>
    { l with pSection := l.pSection.terminate (skipped ++ text.getD []), pComment := text }
  | .unclosed name => { l with pSection := ⟨name, false⟩ }
  | .header name => ⟨⟨name, true⟩, none, l.ini.addEntry name none l.pComment⟩
  | .invalid raw => { l with pSection := l.pSection.pass raw }
  | .keyValue skipped key value =>
    let name := l.pSection.terminate (skipped ++ key)
    ⟨name, none, l.ini.addEntry name.text (some (key, value)) l.pComment⟩

/-- `SI_UTF8_SIGNATURE`. -/
def signature : Str := [0xEF, 0xBB, 0xBF]

/-- The text that is parsed: behind the signature, up to the first NUL. -/
def parsedText (data : Str) : Str :=
  cstr (if signature.isPrefixOf data then data.drop 3 else data)

/-- `LoadData`, into an object that has loaded nothing yet. -/
def loadData (data : Str) : Ini :=
  let (fileComment, rest) := loadMultiLineText false (parsedText data)
  let start : Loader :=
    ⟨⟨[], true⟩, none, ⟨signature.isPrefixOf data, fileComment, .empty⟩⟩
  ((Scan.items findItem rest).foldl Loader.take start).ini

/-- `LoadFile`: whether it is `SI_OK`, and what is loaded.  There may be no such file. -/
def loadFile : Option Str → Bool × Ini
  | none => (false, .empty)
  | some data => (true, if data = [] then .empty else loadData data)

/-! ## Writing -/

/-- `SI_NEWLINE_A`. -/
def newLine : Str := [ch '\n']

/-- `OutputMultiLineText`. -/
def outputMultiLineText (text : Str) : Str :=
  if text = [] then [] else (text.splitOn (ch '\n')).flatMap (· ++ newLine)

def outputComment : Option Str → Str
  | none => []
  | some text => outputMultiLineText text

/-- A key, with the newline before its comment. -/
def KeyValue.output (kv : KeyValue) : Str :=
  (if kv.comment.isSome then newLine ++ outputComment kv.comment else []) ++
    (kv.key ++ str " = " ++ kv.value ++ newLine)

def Section.output (s : Section) : Str :=
  outputComment s.comment ++
    (if s.name = [] then [] else [ch '['] ++ s.name ++ [ch ']'] ++ newLine) ++
    s.keyValues.toList.flatMap KeyValue.output

/-- The loop of `Save` over the sections, with `bNeedNewLine`. -/
def outputSections (needNewLine : Bool) : List Section → Str
  | [] => []
  | s :: rest => (if needNewLine then newLine ++ newLine else []) ++ s.output ++
      outputSections true rest

/-- The section without a name goes first. -/
def emptyFirst (sections : List Section) : List Section :=
  (sections.find? fun s => s.name = []).toList ++ sections.eraseP fun s => s.name = []

/-- `Save`, with the signature that `SaveFile` asks for. -/
def Ini.save (ini : Ini) : Str :=
  (if ini.storeIsUtf8 then signature else []) ++ (outputComment ini.fileComment ++
    outputSections ini.fileComment.isSome (emptyFirst ini.sections.toList))

/-! ## The parser ends -/

theorem skipNewLine_suffix (s : Str) : skipNewLine s <:+ s := by
  unfold skipNewLine
  split
  · split_ifs
    · exact (List.suffix_cons _ _).trans (List.suffix_cons _ _)
    · exact List.suffix_cons _ _
  · exact List.nil_suffix

theorem length_dropWhile_cons_lt {p : UInt8 → Bool} {c : UInt8} (hc : p c = true) (s : Str) :
    ((c :: s).dropWhile p).length < (c :: s).length := by
  rw [List.dropWhile_cons_of_pos hc, List.length_cons]
  exact Nat.lt_succ_of_le (List.dropWhile_suffix p).length_le

theorem isNewLineChar_of_isComment {c : UInt8} (h : isComment c = true) :
    isNewLineChar c = false := by
  simp only [isComment, Bool.or_eq_true, decide_eq_true_eq] at h
  rcases h with rfl | rfl <;> decide

theorem isSpace_of_isNewLineChar {c : UInt8} (h : isNewLineChar c = true) : isSpace c = true := by
  simp only [isNewLineChar, Bool.or_eq_true, decide_eq_true_eq] at h
  rcases h with rfl | rfl <;> decide

/-- A line of a comment is taken off the front. -/
theorem commentLine_suffix {allowBlankLines : Bool} {s t : Str} {o : Option (ℕ × Str)}
    (h : commentLine allowBlankLines s = some (o, t)) :
    t <:+ s ∧ (o.isSome → t.length < s.length) := by
  have hnext : (if allowBlankLines then s.dropWhile isSpace else s) <:+ s := by
    split_ifs
    · exact List.dropWhile_suffix _
    · exact List.suffix_refl s
  simp only [commentLine] at h
  generalize (if allowBlankLines then s.dropWhile isSpace else s) = next at h hnext
  cases next with
  | nil =>
    cases h
    exact ⟨List.suffix_refl _, nofun⟩
  | cons c u =>
    dsimp only at h
    by_cases hc : isComment c = true
    · rw [if_pos hc] at h
      cases h
      have hskip := skipNewLine_suffix (afterLine (c :: u))
      have hline : (afterLine (c :: u)).length < (c :: u).length :=
        length_dropWhile_cons_lt (by simp [isNewLineChar_of_isComment hc]) u
      have hle := hskip.length_le
      have hlen := hnext.length_le
      exact ⟨(hskip.trans (List.dropWhile_suffix _)).trans hnext, fun _ => by omega⟩
    · rw [if_neg hc] at h
      cases h
      exact ⟨List.suffix_refl _, nofun⟩

theorem total_commentLine (allowBlankLines : Bool) :
    Scan.Total (commentLine allowBlankLines) where
  consumes _ _ _ h := (commentLine_suffix h).2 rfl
  succeeds s := by
    simp only [commentLine]
    split
    · exact Option.some_ne_none _
    · split_ifs <;> exact Option.some_ne_none _

theorem remains_commentLine_suffix (allowBlankLines : Bool) (s : Str) :
    Scan.remains (commentLine allowBlankLines) s <:+ s :=
  ((total_commentLine allowBlankLines).reads s).suffix fun _ _ _ h => (commentLine_suffix h).1

/-- What stands where an item is found, and what is left of it. -/
inductive Finds (skipped : Str) : Str → Item → Str → Prop
  | comment {c : UInt8} {t : Str} (hc : isComment c = true) :
      Finds skipped (c :: t) (.comment skipped (loadMultiLineText true (c :: t)).1)
        (loadMultiLineText true (c :: t)).2
  | header {spaces name rest : Str}
      (hhead : ∀ c ∈ (name ++ ch ']' :: rest).head?, isSpace c = false)
      (hname : ∀ c ∈ name, inName (ch ']') c = true) :
      Finds skipped (ch '[' :: (spaces ++ (name ++ ch ']' :: rest))) (.header (trimEnd name))
        (afterLine rest)
  | unclosed {spaces name rest : Str} :
      Finds skipped (ch '[' :: (spaces ++ (name ++ rest))) (.unclosed name) rest
  | invalid {s raw rest : Str} (hs : s ≠ []) : Finds skipped (s ++ rest) (.invalid raw) rest
  | keyValue {key rest : Str} (hne : key ≠ [])
      (hhead : ∀ c ∈ key.head?, isSpace c = false ∧ isComment c = false ∧ c ≠ ch '[')
      (hkey : ∀ c ∈ key, inName (ch '=') c = true) :
      Finds skipped (key ++ ch '=' :: rest)
        (.keyValue skipped (trimEnd key) (findValue rest).1) (findValue rest).2

theorem finds_section {skipped t : Str} :
    Finds skipped (ch '[' :: t) (findSection t).1 (findSection t).2 := by
  have ht : t = t.takeWhile isSpace ++ ((t.dropWhile isSpace).takeWhile (inName (ch ']')) ++
      (t.dropWhile isSpace).dropWhile (inName (ch ']'))) := by
    rw [List.takeWhile_append_dropWhile, List.takeWhile_append_dropWhile]
  have hhead := List.head?_dropWhile_not isSpace t
  rw [← List.takeWhile_append_dropWhile (p := inName (ch ']')) (l := t.dropWhile isSpace)] at hhead
  unfold findSection
  dsimp only
  have hname : ∀ c ∈ (t.dropWhile isSpace).takeWhile (inName (ch ']')), inName (ch ']') c = true :=
    fun c hc => List.mem_takeWhile_imp hc
  generalize (t.dropWhile isSpace).takeWhile (inName (ch ']')) = name at ht hhead hname ⊢
  generalize (t.dropWhile isSpace).dropWhile (inName (ch ']')) = rest at ht hhead ⊢
  generalize t.takeWhile isSpace = spaces at ht
  subst ht
  cases rest with
  | nil => exact .unclosed
  | cons d rest =>
    dsimp only
    split_ifs with hd
    · subst hd
      refine .header (fun c hc => ?_) hname
      rw [hc] at hhead
      exact hhead
    · exact .unclosed

theorem finds_key {skipped s : Str} (hne : s ≠ [])
    (hhead : ∀ c ∈ s.head?, isSpace c = false ∧ isComment c = false ∧ c ≠ ch '[') :
    Finds skipped s (findKey skipped s).1 (findKey skipped s).2 := by
  have hs : s = s.takeWhile (inName (ch '=')) ++ s.dropWhile (inName (ch '=')) :=
    List.takeWhile_append_dropWhile.symm
  have hkey : ∀ c ∈ s.takeWhile (inName (ch '=')), inName (ch '=') c = true :=
    fun c hc => List.mem_takeWhile_imp hc
  have hstop := List.head?_dropWhile_not (inName (ch '=')) s
  unfold findKey
  dsimp only
  split
  · rename_i hrest
    rw [hrest] at hs
    rw [hs] at hne ⊢
    exact .invalid (by simpa using hne)
  · rename_i d rest hrest
    rw [hrest] at hs hstop
    split_ifs with hd hnil
    · -- the line ends before any `=`
      rw [hs]
      refine .invalid fun hnil => ?_
      rw [hnil, List.nil_append] at hs
      have hspace := (hhead d (by rw [hs]; rfl)).1
      have hline : isNewLineChar d = true := by simpa [inName, hd] using hstop
      rw [isSpace_of_isNewLineChar hline] at hspace
      cases hspace
    · -- there is nothing before the `=`
      rw [hnil, List.nil_append] at hs
      rw [not_not] at hd
      have hne : line s ≠ [] := by
        rw [hs, hd, line, List.takeWhile_cons_of_pos (by decide)]
        exact List.cons_ne_nil _ _
      have hfound : Finds skipped (line s ++ afterLine s) (.invalid (skipped ++ line s))
          (afterLine s) := .invalid hne
      rwa [line, afterLine, List.takeWhile_append_dropWhile] at hfound
    · rw [not_not] at hd
      subst hd
      rw [hs, List.head?_append_of_ne_nil _ hnil] at hhead
      have hfound : Finds skipped (_ ++ ch '=' :: rest) _ _ := .keyValue hnil hhead hkey
      rwa [← hs] at hfound

/-- **All that a round of `FindEntry` can do** where it does not stand on a space. -/
theorem finds_of_findItemAt {skipped s t : Str} {o : Option Item}
    (hs : ∀ c ∈ s.head?, isSpace c = false) (h : findItemAt skipped s = some (o, t)) :
    s = [] ∧ o = none ∧ t = [] ∨ ∃ i, o = some i ∧ Finds skipped s i t := by
  cases s with
  | nil =>
    cases h
    exact .inl ⟨rfl, rfl, rfl⟩
  | cons c u =>
    simp only [findItemAt] at h
    cases h
    refine .inr ⟨_, rfl, ?_⟩
    split_ifs with hc hb
    · exact .comment hc
    · rw [hb]
      exact finds_section
    · refine finds_key (List.cons_ne_nil c u) fun d hd => ?_
      obtain rfl : c = d := Option.some.inj hd
      exact ⟨hs c rfl, by simpa using hc, hb⟩

theorem Finds.suffix {skipped s t : Str} {i : Item} (h : Finds skipped s i t) :
    t <:+ s ∧ t.length < s.length := by
  cases h with
  | @comment c u hc =>
    obtain ⟨l, v, hl⟩ : ∃ l v, commentLine true (c :: u) = some (some l, v) := by
      have hspace : isSpace c = false := by
        simp only [isComment, Bool.or_eq_true, decide_eq_true_eq] at hc
        rcases hc with rfl | rfl <;> decide
      simp [commentLine, hspace, hc]
    have hrest := ((total_commentLine true).item hl).2
    have hv := remains_commentLine_suffix true v
    have hcons := commentLine_suffix hl
    have hlt := hcons.2 rfl
    have hle := hv.length_le
    simp only [loadMultiLineText, hrest]
    exact ⟨hv.trans hcons.1, by omega⟩
  | @header spaces name rest _ _ =>
    have hrest : afterLine rest <:+ rest := List.dropWhile_suffix _
    have hle := hrest.length_le
    refine ⟨hrest.trans ⟨ch '[' :: (spaces ++ name ++ [ch ']']), by simp⟩, ?_⟩
    simp only [List.length_cons, List.length_append]
    omega
  | @unclosed spaces name =>
    exact ⟨⟨ch '[' :: (spaces ++ name), by simp⟩, by simp; omega⟩
  | invalid hs =>
    have hpos := List.length_pos_of_ne_nil hs
    exact ⟨List.suffix_append _ _, by simp; omega⟩
  | @keyValue key rest _ _ _ =>
    have hrest : (findValue rest).2 <:+ rest :=
      (skipNewLine_suffix _).trans ((List.dropWhile_suffix _).trans (List.dropWhile_suffix _))
    have hle := hrest.length_le
    refine ⟨hrest.trans ⟨key ++ [ch '='], by simp⟩, ?_⟩
    simp only [List.length_cons, List.length_append]
    omega

theorem findItem_cases {s t : Str} {o : Option Item} (h : findItem s = some (o, t)) :
    s.dropWhile isSpace = [] ∧ o = none ∧ t = [] ∨
      ∃ i, o = some i ∧ Finds (s.takeWhile isSpace) (s.dropWhile isSpace) i t := by
  refine finds_of_findItemAt (fun c hc => ?_) h
  have hhead := List.head?_dropWhile_not isSpace s
  rw [hc] at hhead
  exact hhead

theorem findItem_suffix {s t : Str} {o : Option Item} (h : findItem s = some (o, t)) :
    t <:+ s ∧ (o.isSome → t.length < s.length) := by
  have hspaces : s.dropWhile isSpace <:+ s := List.dropWhile_suffix _
  rcases findItem_cases h with ⟨-, rfl, rfl⟩ | ⟨i, rfl, hfound⟩
  · exact ⟨List.nil_suffix, nofun⟩
  · obtain ⟨hsuffix, hlt⟩ := hfound.suffix
    have hle := hspaces.length_le
    exact ⟨hsuffix.trans hspaces, fun _ => by omega⟩

theorem total_findItem : Scan.Total findItem where
  consumes _ _ _ h := (findItem_suffix h).2 rfl
  succeeds s := by
    unfold findItem findItemAt
    split <;> exact Option.some_ne_none _

theorem zero_notMem_commentLine (allowBlankLines : Bool) (s : Str) (o : Option (ℕ × Str)) (t : Str)
    (h : commentLine allowBlankLines s = some (o, t)) (h0 : 0 ∉ s) : 0 ∉ t :=
  fun hmem => h0 ((commentLine_suffix h).1.subset hmem)

theorem zero_notMem_findItem (s : Str) (o : Option Item) (t : Str)
    (h : findItem s = some (o, t)) (h0 : 0 ∉ s) : 0 ∉ t :=
  fun hmem => h0 ((findItem_suffix h).1.subset hmem)

end ParkManager.SimpleIni
