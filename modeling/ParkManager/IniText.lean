import ParkManager.SimpleIni

/-!
# Reading a configuration file back

What the parser makes of text that `Save` has written.  Comments move about when a file
is read and written again; the entries do not.

Proved here:

* `entries_commentLine`: to read a line of a comment leaves the entries behind it alone;
* `ReadsAs.comment`, `ReadsAs.header`, `ReadsAs.keyValue`: each piece of the file is read
  for what it says, whatever stands behind it;
* `plain_of_findItem`: what is read can be written.
-/

namespace ParkManager.SimpleIni

/-! ## Text that can be written -/

/-- A value that is read as it is written. -/
structure PlainValue (v : Str) : Prop where
  inline : ∀ c ∈ v, c ≠ 0 ∧ isNewLineChar c = false
  head : ∀ c ∈ v.head?, isSpace c = false
  last : ∀ c ∈ v.getLast?, isSpace c = false

structure PlainName (n : Str) : Prop extends PlainValue n where
  noBracket : ch ']' ∉ n

structure PlainKey (k : Str) : Prop extends PlainValue k where
  ne_nil : k ≠ []
  noEquals : ch '=' ∉ k
  start : ∀ c ∈ k.head?, isComment c = false ∧ c ≠ ch '['
  unsigned : ¬ signature <+: k

instance (v : Str) : Decidable (PlainValue v) :=
  decidable_of_iff ((v.all fun c => c ≠ 0 && !isNewLineChar c) = true ∧
      v.head?.all (fun c => !isSpace c) = true ∧ v.getLast?.all (fun c => !isSpace c) = true) <| by
    simp only [List.all_eq_true, Option.all_eq_true, Bool.and_eq_true, decide_eq_true_eq,
      Bool.not_eq_true']
    exact ⟨fun h => ⟨h.1, h.2.1, h.2.2⟩, fun h => ⟨h.inline, h.head, h.last⟩⟩

instance (k : Str) : Decidable (PlainKey k) :=
  decidable_of_iff (PlainValue k ∧ k.isEmpty = false ∧ k.contains (ch '=') = false ∧
      k.head?.all (fun c => !isComment c && !(c == ch '[')) = true ∧
      signature.isPrefixOf k = false) <| by
    have hfalse : signature.isPrefixOf k = false ↔ ¬ signature <+: k := by
      rw [Bool.eq_false_iff, Ne, List.isPrefixOf_iff_prefix]
    rw [hfalse]
    constructor
    · rintro ⟨hv, hne, heq, hstart, hsig⟩
      exact ⟨hv, by simpa using hne, by simpa using heq,
        by simpa [Option.all_eq_true] using hstart, hsig⟩
    · intro h
      exact ⟨h.toPlainValue, by simpa using h.ne_nil, by simpa using h.noEquals,
        by simpa [Option.all_eq_true] using h.start, h.unsigned⟩

/-- The text of a comment: each line is empty or starts like a comment. -/
def CommentText (text : Str) : Prop :=
  ∀ l ∈ text.splitOn (ch '\n'), (∀ c ∈ l.head?, isComment c = true) ∧
    ∀ c ∈ l, c ≠ 0 ∧ isNewLineChar c = false

/-! ## The entries of a text -/

/-- What counts of an item for the values. -/
inductive Entry
  | header (name : Str)
  | keyValue (key value : Str)
  | unclosed

def Item.asEntry : Item → Option Entry
  | .header name => some (.header name)
  | .keyValue _ key value => some (.keyValue key value)
  | .unclosed _ => some .unclosed
  | .comment .. => none
  | .invalid _ => none

def entries (s : Str) : List Entry := (Scan.items findItem s).filterMap Item.asEntry

theorem entries_item {s t : Str} {i : Item} (h : findItem s = some (some i, t)) :
    entries s = i.asEntry.toList ++ entries t := by
  rw [entries, (total_findItem.item h).1, List.filterMap_cons]
  cases i.asEntry <;> rfl

theorem findKey_entry (skipped skipped' s : Str) :
    (findKey skipped s).1.asEntry = (findKey skipped' s).1.asEntry ∧
      (findKey skipped s).2 = (findKey skipped' s).2 := by
  unfold findKey
  dsimp only
  split
  · exact ⟨rfl, rfl⟩
  · split_ifs <;> exact ⟨rfl, rfl⟩

/-- The spaces that were skipped make no difference. -/
theorem findItemAt_entry (skipped skipped' s : Str) :
    (findItemAt skipped s).map (fun r => (r.1.map Item.asEntry, r.2)) =
      (findItemAt skipped' s).map fun r => (r.1.map Item.asEntry, r.2) := by
  cases s with
  | nil => rfl
  | cons c t =>
    simp only [findItemAt, Option.map_some]
    split_ifs
    · rfl
    · rfl
    · rw [(findKey_entry skipped skipped' (c :: t)).1, (findKey_entry skipped skipped' (c :: t)).2]

theorem entries_dropWhile (s : Str) : entries (s.dropWhile isSpace) = entries s := by
  have h := findItemAt_entry ((s.dropWhile isSpace).takeWhile isSpace) (s.takeWhile isSpace)
    (s.dropWhile isSpace)
  have hdrop : findItem (s.dropWhile isSpace) =
      findItemAt ((s.dropWhile isSpace).takeWhile isSpace) (s.dropWhile isSpace) := by
    rw [findItem, List.dropWhile_idempotent]
  rw [← hdrop, ← findItem] at h
  cases hs : findItem s with
  | none => exact absurd hs (total_findItem.succeeds s)
  | some r =>
    obtain ⟨o, t⟩ := r
    rw [hs] at h
    obtain ⟨⟨o', t'⟩, hs', ho⟩ := Option.map_eq_some_iff.mp h
    obtain ⟨ho, rfl⟩ := Prod.mk.inj ho
    cases o with
    | none =>
      obtain rfl := Option.map_eq_none_iff.mp ho
      rw [entries, entries, (total_findItem.stop hs).1, (total_findItem.stop hs').1]
    | some i =>
      obtain ⟨i', rfl, hi⟩ := Option.map_eq_some_iff.mp ho
      rw [entries_item hs, entries_item hs', hi]

theorem entries_space {c : UInt8} (hc : isSpace c = true) (s : Str) :
    entries (c :: s) = entries s := by
  rw [← entries_dropWhile, List.dropWhile_cons_of_pos hc, entries_dropWhile]

/-! ## Comments -/

theorem isSpace_of_isComment {c : UInt8} (h : isComment c = true) : isSpace c = false := by
  simp only [isComment, Bool.or_eq_true, decide_eq_true_eq] at h
  rcases h with rfl | rfl <;> decide

theorem commentLine_head {c : UInt8} (hc : isComment c = true) (u : Str) :
    commentLine true (c :: u) =
      some (some (0, line (c :: u)), skipNewLine (afterLine (c :: u))) := by
  simp [commentLine, isSpace_of_isComment hc, hc, newLines]

theorem commentLine_stop {allowBlankLines : Bool} {s t : Str}
    (h : commentLine allowBlankLines s = some (none, t)) : t = s := by
  simp only [commentLine] at h
  split at h
  · cases h
    rfl
  · split_ifs at h
    all_goals cases h
    rfl

/-- A line of a comment stands behind spaces. -/
theorem commentLine_some {allowBlankLines : Bool} {s t : Str} {l : ℕ × Str}
    (h : commentLine allowBlankLines s = some (some l, t)) :
    ∃ c u, s.dropWhile isSpace = c :: u ∧ isComment c = true ∧ l.2 = line (c :: u) ∧
      t = skipNewLine (afterLine (c :: u)) := by
  obtain ⟨c, u, hnext, hc, hl, rfl⟩ : ∃ c u,
      (if allowBlankLines then s.dropWhile isSpace else s) = c :: u ∧ isComment c = true ∧
        l.2 = line (c :: u) ∧ t = skipNewLine (afterLine (c :: u)) := by
    simp only [commentLine] at h
    split at h
    · cases h
    · rename_i c u hnext
      by_cases hc : isComment c = true
      · rw [if_pos hc] at h
        cases h
        exact ⟨c, u, hnext, hc, rfl, rfl⟩
      · rw [if_neg hc] at h
        cases h
  refine ⟨c, u, ?_, hc, hl, rfl⟩
  split_ifs at hnext
  · exact hnext
  · rw [hnext, List.dropWhile_cons_of_neg (by simp [isSpace_of_isComment hc])]

/-- A comment takes the comment lines behind it along. -/
theorem entries_remains (s : Str) : entries (Scan.remains (commentLine true) s) = entries s := by
  cases hs : commentLine true s with
  | none => exact absurd hs ((total_commentLine true).succeeds s)
  | some r =>
    obtain ⟨o, t⟩ := r
    cases o with
    | none =>
      obtain rfl := commentLine_stop hs
      rw [((total_commentLine true).stop hs).2]
    | some l =>
      obtain ⟨c, u, hdrop, hc, -, rfl⟩ := commentLine_some hs
      have hfound : findItem (c :: u) =
          some (some (.comment [] (loadMultiLineText true (c :: u)).1),
            (loadMultiLineText true (c :: u)).2) := by
        simp [findItem, findItemAt, isSpace_of_isComment hc, hc]
      rw [((total_commentLine true).item hs).2, ← entries_dropWhile s, hdrop,
        entries_item hfound, loadMultiLineText,
        ((total_commentLine true).item (commentLine_head hc u)).2]
      rfl

/-- **Comments do not matter.** -/
theorem entries_commentLine {allowBlankLines : Bool} {s t : Str} {l : ℕ × Str}
    (h : commentLine allowBlankLines s = some (some l, t)) : entries s = entries t := by
  obtain ⟨c, u, hdrop, hc, -, rfl⟩ := commentLine_some h
  rw [← entries_dropWhile s, hdrop, ← entries_remains (c :: u),
    ((total_commentLine true).item (commentLine_head hc u)).2, entries_remains]

/-- The file comment is not missed. -/
theorem entries_fileComment (s : Str) :
    entries (Scan.remains (commentLine false) s) = entries s := by
  have hreads := (total_commentLine false).reads s
  generalize Scan.items (commentLine false) s = lines at hreads
  generalize Scan.remains (commentLine false) s = rest at hreads
  induction hreads with
  | stop hs => rw [commentLine_stop hs]
  | item hs _ ih => rw [ih, entries_commentLine hs]

/-! ## What is written -/

theorem line_append {l : Str} (hl : ∀ c ∈ l, isNewLineChar c = false) (more : Str) :
    line (l ++ ch '\n' :: more) = l := by
  rw [line, List.takeWhile_append_of_pos (by simpa using hl)]
  exact List.append_nil l

theorem afterLine_append {l : Str} (hl : ∀ c ∈ l, isNewLineChar c = false) (more : Str) :
    afterLine (l ++ ch '\n' :: more) = ch '\n' :: more := by
  rw [afterLine, List.dropWhile_append_of_pos (by simpa using hl)]
  rfl

theorem skipNewLine_newLine (more : Str) : skipNewLine (ch '\n' :: more) = more := by
  cases more <;> rfl

theorem trimEnd_eq_self {v : Str} (h : ∀ c ∈ v.getLast?, isSpace c = false) : trimEnd v = v := by
  rw [trimEnd, List.rdropWhile_eq_self_iff]
  intro hne hspace
  rw [h _ (List.getLast?_eq_some_getLast hne)] at hspace
  cases hspace

theorem takeWhile_inName {stop : UInt8} {n : Str} (h : ∀ c ∈ n, inName stop c = true)
    (rest : Str) : (n ++ stop :: rest).takeWhile (inName stop) = n ∧
      (n ++ stop :: rest).dropWhile (inName stop) = stop :: rest := by
  have hstop : ¬ inName stop stop = true := by simp [inName]
  rw [List.takeWhile_append_of_pos h, List.dropWhile_append_of_pos h,
    List.takeWhile_cons_of_neg hstop, List.dropWhile_cons_of_neg hstop, List.append_nil]
  exact ⟨rfl, rfl⟩

theorem findSection_plain {n : Str} (h : PlainName n) (rest : Str) :
    findSection (n ++ ch ']' :: rest) = (.header n, afterLine rest) := by
  have hin : ∀ c ∈ n, inName (ch ']') c = true := by
    intro c hc
    have hne : c ≠ ch ']' := fun e => h.noBracket (e ▸ hc)
    simp [inName, hne, (h.inline c hc).2]
  have hspace : (n ++ ch ']' :: rest).dropWhile isSpace = n ++ ch ']' :: rest := by
    cases n with
    | nil => rfl
    | cons c u => exact List.dropWhile_cons_of_neg (by simp [h.head c rfl])
  simp only [findSection, hspace, (takeWhile_inName hin rest).1, (takeWhile_inName hin rest).2,
    if_true, trimEnd_eq_self h.last]

theorem findValue_plain {v : Str} (h : PlainValue v) (more : Str) :
    findValue (ch ' ' :: (v ++ ch '\n' :: more)) = (v, more) := by
  have hline : ∀ c ∈ v, isNewLineChar c = false := fun c hc => (h.inline c hc).2
  have hspace : (ch ' ' :: (v ++ ch '\n' :: more)).dropWhile
      (fun d => isSpace d && !isNewLineChar d) = v ++ ch '\n' :: more := by
    rw [List.dropWhile_cons_of_pos (by decide)]
    cases v with
    | nil => exact List.dropWhile_cons_of_neg (by decide)
    | cons c u => exact List.dropWhile_cons_of_neg (by simp [h.head c rfl])
  simp only [findValue, hspace, line_append hline, afterLine_append hline, skipNewLine_newLine,
    trimEnd_eq_self h.last]

theorem findKey_plain {k v : Str} (hk : PlainKey k) (hv : PlainValue v) (skipped more : Str) :
    findKey skipped (k ++ (str " = " ++ (v ++ ch '\n' :: more))) =
      (.keyValue skipped k v, more) := by
  have hin : ∀ c ∈ k ++ [ch ' '], inName (ch '=') c = true := by
    intro c hc
    rcases List.mem_append.mp hc with hc | hc
    · have hne : c ≠ ch '=' := fun e => hk.noEquals (e ▸ hc)
      simp [inName, hne, (hk.inline c hc).2]
    · rw [List.mem_singleton.mp hc]
      decide
  have htext : k ++ (str " = " ++ (v ++ ch '\n' :: more)) =
      (k ++ [ch ' ']) ++ ch '=' :: (ch ' ' :: (v ++ ch '\n' :: more)) := by
    rw [List.append_assoc]
    rfl
  have htrim : trimEnd (k ++ [ch ' ']) = k := by
    rw [trimEnd, List.rdropWhile_concat_pos _ _ _ (by decide)]
    exact trimEnd_eq_self hk.last
  have hne : k ++ [ch ' '] ≠ [] := by simp
  rw [htext]
  simp only [findKey, (takeWhile_inName hin _).1, (takeWhile_inName hin _).2, ne_eq,
    not_true_eq_false, if_false, hne, htrim, findValue_plain hv more]

theorem not_signature_cons {c : UInt8} (hc : c ≠ 0xEF) (s : Str) : ¬ signature <+: c :: s :=
  fun h => hc (List.cons_prefix_cons.mp h).1.symm

/-- A key that does not look like the signature does not do so before ` = ` either. -/
theorem not_signature_append {k : Str} (hk : ¬ signature <+: k) {c : UInt8} (hc : c ∉ signature)
    (s : Str) : ¬ signature <+: k ++ c :: s := by
  intro h
  by_cases hlen : signature.length ≤ k.length
  · exact hk (List.prefix_of_prefix_length_le h (List.prefix_append _ _) hlen)
  · have hstart : k ++ [c] <+: k ++ c :: s := ⟨s, by simp⟩
    have hkc : k ++ [c] <+: signature := by
      refine List.prefix_of_prefix_length_le hstart h ?_
      rw [List.length_append, List.length_singleton]
      omega
    exact hc (hkc.subset (by simp))

/-- A piece of a file that is read as these entries, whatever stands behind it. -/
structure ReadsAs (piece : Str) (es : List Entry) : Prop where
  noNul : 0 ∉ piece
  unsigned : piece = [] ∨ ∀ more, ¬ signature <+: piece ++ more
  reads : ∀ more, entries (piece ++ more) = es ++ entries more

namespace ReadsAs

theorem nil : ReadsAs [] [] := ⟨List.not_mem_nil, .inl rfl, fun _ => rfl⟩

theorem append {a b : Str} {es fs : List Entry} (ha : ReadsAs a es) (hb : ReadsAs b fs) :
    ReadsAs (a ++ b) (es ++ fs) where
  noNul h := (List.mem_append.mp h).elim ha.noNul hb.noNul
  unsigned := by
    rcases ha.unsigned with rfl | hstart
    · exact hb.unsigned
    · refine .inr fun more => ?_
      rw [List.append_assoc]
      exact hstart (b ++ more)
  reads more := by rw [List.append_assoc, ha.reads, hb.reads, List.append_assoc]

theorem flatMap {α : Type} {f : α → Str} {g : α → List Entry} {l : List α}
    (h : ∀ a ∈ l, ReadsAs (f a) (g a)) : ReadsAs (l.flatMap f) (l.flatMap g) := by
  induction l with
  | nil => exact nil
  | cons a l ih =>
    obtain ⟨ha, hl⟩ := List.forall_mem_cons.mp h
    rw [List.flatMap_cons, List.flatMap_cons]
    exact ha.append (ih hl)

theorem newLine : ReadsAs newLine [] where
  noNul := by decide
  unsigned := .inr (not_signature_cons (by decide))
  reads := entries_space (by decide)

theorem commentLine {l : Str} (hstart : ∀ c ∈ l.head?, isComment c = true)
    (hl : ∀ c ∈ l, c ≠ 0 ∧ isNewLineChar c = false) : ReadsAs (l ++ SimpleIni.newLine) [] where
  noNul h := by
    rcases List.mem_append.mp h with h | h
    · exact (hl 0 h).1 rfl
    · exact absurd h (by decide)
  unsigned := by
    refine .inr fun more => ?_
    cases l with
    | nil => exact not_signature_cons (by decide) _
    | cons c u =>
      refine not_signature_cons (fun e => ?_) _
      have hc := hstart c rfl
      rw [e] at hc
      exact absurd hc (by decide)
  reads more := by
    cases l with
    | nil => exact newLine.reads more
    | cons c u =>
      have hhead := commentLine_head (hstart c rfl) (u ++ ch '\n' :: more)
      rw [← List.cons_append, afterLine_append (fun d hd => (hl d hd).2),
        skipNewLine_newLine] at hhead
      rw [List.append_assoc]
      exact entries_commentLine hhead

theorem comment {text : Option Str} (h : ∀ t ∈ text, CommentText t) :
    ReadsAs (outputComment text) [] := by
  cases text with
  | none => exact nil
  | some t =>
    simp only [outputComment, outputMultiLineText]
    split_ifs
    · exact nil
    · have hnil : ((t.splitOn (ch '\n')).flatMap fun _ => ([] : List Entry)) = [] :=
        List.flatMap_eq_nil_iff.mpr fun _ _ => rfl
      rw [← hnil]
      exact flatMap fun l hl => commentLine (h t rfl l hl).1 (h t rfl l hl).2

theorem header {n : Str} (h : PlainName n) :
    ReadsAs ([ch '['] ++ n ++ [ch ']'] ++ SimpleIni.newLine) [.header n] where
  noNul hmem := by
    simp only [List.mem_append, or_assoc] at hmem
    rcases hmem with h0 | h0 | h0 | h0
    · exact absurd h0 (by decide)
    · exact (h.inline 0 h0).1 rfl
    · exact absurd h0 (by decide)
    · exact absurd h0 (by decide)
  unsigned := .inr fun _ => not_signature_cons (by decide) _
  reads more := by
    have hfound : findItem (ch '[' :: (n ++ ch ']' :: ch '\n' :: more)) =
        some (some (findSection (n ++ ch ']' :: ch '\n' :: more)).1,
          (findSection (n ++ ch ']' :: ch '\n' :: more)).2) := rfl
    rw [findSection_plain h] at hfound
    have htext : [ch '['] ++ n ++ [ch ']'] ++ SimpleIni.newLine ++ more =
        ch '[' :: (n ++ ch ']' :: ch '\n' :: more) := by
      simp [SimpleIni.newLine]
    rw [htext, entries_item hfound]
    exact congrArg (Entry.header n :: ·) (newLine.reads more)

theorem keyValue {k v : Str} (hk : PlainKey k) (hv : PlainValue v) :
    ReadsAs (k ++ str " = " ++ v ++ SimpleIni.newLine) [.keyValue k v] where
  noNul hmem := by
    simp only [List.mem_append, or_assoc] at hmem
    rcases hmem with h0 | h0 | h0 | h0
    · exact (hk.inline 0 h0).1 rfl
    · exact absurd h0 (by decide)
    · exact (hv.inline 0 h0).1 rfl
    · exact absurd h0 (by decide)
  unsigned := by
    refine .inr fun more => ?_
    rw [List.append_assoc, List.append_assoc, List.append_assoc]
    exact not_signature_append hk.unsigned (by decide) _
  reads more := by
    have htext : k ++ str " = " ++ v ++ SimpleIni.newLine ++ more =
        k ++ (str " = " ++ (v ++ ch '\n' :: more)) := by
      simp [SimpleIni.newLine]
    have hfound : findItem (k ++ (str " = " ++ (v ++ ch '\n' :: more))) =
        some (some (.keyValue [] k v), more) := by
      have hkey := findKey_plain hk hv [] more
      obtain ⟨c, u, rfl⟩ := List.exists_cons_of_ne_nil hk.ne_nil
      have hstart := hk.start c rfl
      rw [List.cons_append] at hkey ⊢
      simp only [findItem, findItemAt, List.takeWhile_cons, List.dropWhile_cons, hk.head c rfl,
        hstart.1, hstart.2, Bool.false_eq_true, if_false, hkey]
    rw [htext, entries_item hfound]
    rfl

end ReadsAs

/-! ## What is read -/

theorem mem_trimEnd {v : Str} {c : UInt8} (h : c ∈ trimEnd v) : c ∈ v :=
  (List.rdropWhile_prefix isSpace v).subset h

theorem head_trimEnd {v : Str} {c : UInt8} (h : c ∈ (trimEnd v).head?) : c ∈ v.head? := by
  obtain ⟨u, hu⟩ := List.head?_eq_some_iff.mp h
  obtain ⟨rest, hv⟩ := List.rdropWhile_prefix isSpace v
  rw [trimEnd] at hu
  rw [← hv, hu]
  rfl

theorem last_trimEnd {v : Str} {c : UInt8} (h : c ∈ (trimEnd v).getLast?) :
    isSpace c = false := by
  have hne : trimEnd v ≠ [] := by
    rintro hnil
    rw [hnil] at h
    cases h
  have hlast := List.rdropWhile_last_not isSpace v hne
  rw [Option.mem_def, List.getLast?_eq_some_getLast hne, Option.some_inj] at h
  rw [← h]
  exact Bool.not_eq_true _ ▸ hlast

theorem plainValue_trimEnd {v : Str} (hin : ∀ c ∈ v, c ≠ 0 ∧ isNewLineChar c = false)
    (hhead : ∀ c ∈ (trimEnd v).head?, isSpace c = false) : PlainValue (trimEnd v) where
  inline c hc := hin c (mem_trimEnd hc)
  head := hhead
  last _ hc := last_trimEnd hc

theorem isNewLineChar_of_inName {stop c : UInt8} (h : inName stop c = true) :
    c ≠ stop ∧ isNewLineChar c = false := by
  simpa [inName] using h

theorem mem_line {s : Str} {c : UInt8} (h : c ∈ line s) : c ∈ s ∧ isNewLineChar c = false :=
  ⟨(List.takeWhile_prefix _).subset h, by simpa using List.mem_takeWhile_imp h⟩

/-- A value that is read is plain. -/
theorem plain_findValue {rest : Str} (h0 : 0 ∉ rest) : PlainValue (findValue rest).1 := by
  refine plainValue_trimEnd (fun c hc => ?_) fun c hc => ?_
  · obtain ⟨hmem, hline⟩ := mem_line hc
    exact ⟨fun e => h0 (e ▸ (List.dropWhile_suffix _).subset hmem), hline⟩
  · have hline := head_trimEnd hc
    have hnl := (mem_line (List.mem_of_mem_head? hline)).2
    have hdrop := List.head?_dropWhile_not (fun d => isSpace d && !isNewLineChar d) rest
    obtain ⟨u, hu⟩ := List.head?_eq_some_iff.mp hline
    obtain ⟨tail, htail⟩ := List.takeWhile_prefix (fun c => !isNewLineChar c)
      (l := rest.dropWhile fun d => isSpace d && !isNewLineChar d)
    rw [line] at hu
    rw [← htail, hu, List.cons_append, List.head?_cons] at hdrop
    simpa [hnl] using hdrop

/-- Nothing in the text keeps the entry from being written: it ends on its line, and its key
does not look like the signature. -/
def Entry.Regular : Entry → Prop
  | .header _ => True
  | .keyValue key _ => ¬ signature <+: key
  | .unclosed => False

instance : DecidablePred Entry.Regular := fun e => by
  cases e <;> unfold Entry.Regular <;> infer_instance

def Entry.Plain : Entry → Prop
  | .header name => PlainName name
  | .keyValue key value => PlainKey key ∧ PlainValue value
  | .unclosed => False

/-- **What is read can be written.** -/
theorem plain_of_findItem {s t : Str} {i : Item} (h : findItem s = some (some i, t))
    (h0 : 0 ∉ s) {e : Entry} (he : i.asEntry = some e) (hr : e.Regular) : e.Plain := by
  obtain ⟨-, hno, -⟩ | ⟨i', hi', hfound⟩ := findItem_cases h
  · cases hno
  obtain rfl := Option.some.inj hi'
  have h0 : 0 ∉ s.dropWhile isSpace := fun hmem => h0 ((List.dropWhile_suffix _).subset hmem)
  generalize s.dropWhile isSpace = u at hfound h0
  cases hfound with
  | comment _ => cases he
  | invalid _ => cases he
  | unclosed =>
    cases he
    exact hr.elim
  | @header spaces name rest hhead hname =>
    cases he
    refine ⟨plainValue_trimEnd (fun c hc => ⟨?_, ?_⟩) fun c hc => ?_, fun hc => ?_⟩
    · rintro rfl
      exact h0 (by simp [hc])
    · exact (isNewLineChar_of_inName (hname c hc)).2
    · obtain ⟨v, rfl⟩ := List.head?_eq_some_iff.mp (head_trimEnd hc)
      exact hhead c rfl
    · exact (isNewLineChar_of_inName (hname _ (mem_trimEnd hc))).1 rfl
  | @keyValue key rest hne hhead hkey =>
    cases he
    obtain ⟨c, v, rfl⟩ := List.exists_cons_of_ne_nil hne
    have hc := hhead c rfl
    refine ⟨⟨plainValue_trimEnd (fun d hd => ⟨?_, ?_⟩) fun d hd => ?_, ?_, ?_, ?_, hr⟩,
      plain_findValue fun hmem => h0 (by simp [hmem])⟩
    · rintro rfl
      exact h0 (by rw [List.mem_append]; exact .inl hd)
    · exact (isNewLineChar_of_inName (hkey d hd)).2
    · exact (hhead d (head_trimEnd hd)).1
    · intro hnil
      have hspace := List.rdropWhile_eq_nil_iff.mp hnil c List.mem_cons_self
      rw [hc.1] at hspace
      cases hspace
    · exact fun hmem => (isNewLineChar_of_inName (hkey _ (mem_trimEnd hmem))).1 rfl
    · exact fun d hd => (hhead d (head_trimEnd hd)).2

theorem plain_commentLine {allowBlankLines : Bool} {s t : Str} {l : ℕ × Str}
    (h : commentLine allowBlankLines s = some (some l, t)) (h0 : 0 ∉ s) :
    (∀ c ∈ l.2.head?, isComment c = true) ∧ ∀ c ∈ l.2, c ≠ 0 ∧ isNewLineChar c = false := by
  obtain ⟨c, u, hdrop, hc, hl, -⟩ := commentLine_some h
  rw [hl]
  refine ⟨fun d hd => ?_, fun d hd => ⟨fun e => ?_, (mem_line hd).2⟩⟩
  · rw [line, List.takeWhile_cons_of_pos (by simp [isNewLineChar_of_isComment hc])] at hd
    obtain rfl : c = d := Option.some.inj hd
    exact hc
  · have hmem := (mem_line hd).1
    rw [← hdrop, e] at hmem
    exact h0 ((List.dropWhile_suffix _).subset hmem)

/-- A comment that is read can be written. -/
theorem commentText_loadMultiLineText {allowBlankLines : Bool} {s : Str} (h0 : 0 ∉ s) :
    ∀ text ∈ (loadMultiLineText allowBlankLines s).1, CommentText text := by
  intro text htext
  have hlines := ((total_commentLine allowBlankLines).reads s).forall_mem h0
    (zero_notMem_commentLine allowBlankLines) fun _ _ _ => plain_commentLine
  simp only [loadMultiLineText] at htext
  generalize Scan.items (commentLine allowBlankLines) s = ls at hlines htext
  split_ifs at htext with hne
  · cases htext
  obtain rfl := Option.some.inj htext
  have hpieces : ∀ p ∈ ls.flatMap (fun l => List.replicate l.1 [] ++ [l.2]),
      (∀ c ∈ p.head?, isComment c = true) ∧ ∀ c ∈ p, c ≠ 0 ∧ isNewLineChar c = false := by
    intro p hp
    obtain ⟨l, hl, hp⟩ := List.mem_flatMap.mp hp
    rcases List.mem_append.mp hp with hp | hp
    · obtain rfl := List.eq_of_mem_replicate hp
      simp
    · obtain rfl := List.mem_singleton.mp hp
      exact hlines l hl
  have hnewLine : ∀ p ∈ ls.flatMap (fun l => List.replicate l.1 [] ++ [l.2]),
      ch '\n' ∉ p := by
    intro p hp hmem
    have := ((hpieces p hp).2 _ hmem).2
    exact absurd this (by decide)
  have hsome : ls.flatMap (fun l => List.replicate l.1 [] ++ [l.2]) ≠ [] := by
    obtain ⟨l, ls, rfl⟩ := List.exists_cons_of_ne_nil hne
    simp
  intro p hp
  rw [commentText, List.splitOn_intercalate _ hnewLine hsome] at hp
  exact hpieces p hp

end ParkManager.SimpleIni
