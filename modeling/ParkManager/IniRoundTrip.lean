import Mathlib.Data.List.Perm.Basic
import ParkManager.IniText

/-!
# A configuration file written and read again

Proved here:

* `getValue_loadData`: of the entries of a file the last one for a name counts;
* `entries_save`: the file that `Save` writes has the entries of the object, the section
  without a name first;
* `plain_loadData`: what is loaded from a regular file can be written;
* `load_save`: what is written and loaded again has the same values.
-/

namespace ParkManager.SimpleIni

/-! ## The entries of an object -/

structure KeyValue.Plain (kv : KeyValue) : Prop where
  key : PlainKey kv.key
  value : PlainValue kv.value
  comment : ∀ text ∈ kv.comment, CommentText text

structure Section.Plain (s : Section) : Prop where
  name : PlainName s.name
  comment : ∀ text ∈ s.comment, CommentText text
  keyValues : ∀ kv ∈ s.keyValues.toList, kv.Plain

structure Ini.Plain (ini : Ini) : Prop where
  fileComment : ∀ text ∈ ini.fileComment, CommentText text
  sections : ∀ s ∈ ini.sections.toList, s.Plain

def Section.entries (s : Section) : List Entry :=
  (if s.name = [] then [] else [.header s.name]) ++
    s.keyValues.toList.flatMap fun kv => [.keyValue kv.key kv.value]

theorem KeyValue.Plain.readsAs {kv : KeyValue} (h : kv.Plain) :
    ReadsAs kv.output [.keyValue kv.key kv.value] := by
  have hcomment : ReadsAs (if kv.comment.isSome then newLine ++ outputComment kv.comment else [])
      [] := by
    split_ifs
    · exact ReadsAs.newLine.append (.comment h.comment)
    · exact .nil
  exact hcomment.append (.keyValue h.key h.value)

theorem Section.Plain.readsAs {s : Section} (h : s.Plain) : ReadsAs s.output s.entries := by
  have hheader : ReadsAs (if s.name = [] then [] else [ch '['] ++ s.name ++ [ch ']'] ++ newLine)
      (if s.name = [] then [] else [.header s.name]) := by
    split_ifs
    · exact .nil
    · exact .header h.name
  exact ((ReadsAs.comment h.comment).append hheader).append
    (.flatMap fun kv hkv => (h.keyValues kv hkv).readsAs)

theorem readsAs_outputSections {l : List Section} (h : ∀ s ∈ l, s.Plain) (needNewLine : Bool) :
    ReadsAs (outputSections needNewLine l) (l.flatMap Section.entries) := by
  induction l generalizing needNewLine with
  | nil => exact .nil
  | cons s l ih =>
    obtain ⟨hs, hl⟩ := List.forall_mem_cons.mp h
    have hlines : ReadsAs (if needNewLine then newLine ++ newLine else []) [] := by
      split_ifs
      · exact ReadsAs.newLine.append .newLine
      · exact .nil
    exact (hlines.append hs.readsAs).append (ih hl true)

theorem emptyFirst_perm (l : List Section) : (emptyFirst l).Perm l := by
  unfold emptyFirst
  induction l with
  | nil => exact .refl _
  | cons s l ih =>
    by_cases hs : s.name = []
    · simp [hs]
    · simp only [List.find?_cons, List.eraseP_cons, hs, decide_false, cond_false]
      exact List.perm_middle.trans (ih.cons s)

/-- The file that `Save` writes, behind the signature. -/
def Ini.body (ini : Ini) : Str :=
  outputComment ini.fileComment ++
    outputSections ini.fileComment.isSome (emptyFirst ini.sections.toList)

theorem Ini.Plain.readsAs_body {ini : Ini} (h : ini.Plain) :
    ReadsAs ini.body ((emptyFirst ini.sections.toList).flatMap Section.entries) := by
  have hsections : ∀ s ∈ emptyFirst ini.sections.toList, s.Plain := fun s hs =>
    h.sections s ((emptyFirst_perm _).subset hs)
  exact (ReadsAs.comment h.fileComment).append (readsAs_outputSections hsections _)

/-! ## The values of a file -/

/-- The values that entries set, each with its section and its key. -/
def assignments (name : Str) : List Entry → List (Str × Str × Str)
  | [] => []
  | .header name' :: es => assignments name' es
  | .keyValue key value :: es => (name, key, value) :: assignments name es
  | .unclosed :: es => assignments name es

/-- A value is set. -/
def assign (values : Str → Str → Option Str) (a : Str × Str × Str) : Str → Str → Option Str :=
  fun name key => if fold a.1 = fold name ∧ fold a.2.1 = fold key then some a.2.2
    else values name key

/-- Comments and lines that are no entries make no difference to the values. -/
theorem take_assignments {l : Loader} (hended : l.pSection.ended = true) {i : Item}
    (hi : i.asEntry ≠ some .unclosed) : (l.take i).pSection.ended = true ∧
      ∀ es, (assignments (l.take i).pSection.text es).foldl assign (l.take i).ini.getValue =
        (assignments l.pSection.text (i.asEntry.toList ++ es)).foldl assign l.ini.getValue := by
  have hpass := fun raw => (SectionName.terminate_of_ended hended raw).1
  have hterminate := fun raw => (SectionName.terminate_of_ended hended raw).2
  cases i with
  | comment skipped text => simp [Loader.take, hterminate, hended, Item.asEntry]
  | unclosed name => exact absurd rfl hi
  | header name => simp [Loader.take, Item.asEntry, assignments, getValue_addEntry_section]
  | invalid raw => simp [Loader.take, hpass, hended, Item.asEntry]
  | keyValue skipped key value =>
    have hvalues : (l.ini.addEntry l.pSection.text (some (key, value)) l.pComment).getValue =
        assign l.ini.getValue (l.pSection.text, key, value) := by
      funext name' key'
      rw [getValue_addEntry]
      rfl
    simp [Loader.take, hterminate, hended, Item.asEntry, assignments, hvalues]

theorem getValue_foldl {l : Loader} {items : List Item} (hended : l.pSection.ended = true)
    (hclosed : ∀ i ∈ items, i.asEntry ≠ some .unclosed) :
    (items.foldl Loader.take l).ini.getValue =
      (assignments l.pSection.text (items.filterMap Item.asEntry)).foldl assign l.ini.getValue := by
  induction items generalizing l with
  | nil => rfl
  | cons i items ih =>
    obtain ⟨hi, hrest⟩ := List.forall_mem_cons.mp hclosed
    obtain ⟨hstill, hvalues⟩ := take_assignments hended hi
    rw [List.foldl_cons, ih hstill hrest, hvalues, List.filterMap_cons]
    cases i.asEntry <;> rfl

/-- **What a file says.** -/
theorem getValue_loadData {data : Str} (hclosed : Entry.unclosed ∉ entries (parsedText data)) :
    (loadData data).getValue =
      (assignments [] (entries (parsedText data))).foldl assign fun _ _ => none := by
  rw [← entries_fileComment] at hclosed ⊢
  refine getValue_foldl rfl fun i hi he => hclosed ?_
  exact List.mem_filterMap.mpr ⟨i, hi, he⟩

/-! ## The values of an object -/

/-- What is set, with the keys in the order of the object. -/
def Section.assignments (s : Section) : List (Str × Str × Str) :=
  s.keyValues.toList.map fun kv => (s.name, kv.key, kv.value)

theorem foldl_assign_none {as : List (Str × Str × Str)} {name key : Str}
    (h : ∀ a ∈ as, ¬ (fold a.1 = fold name ∧ fold a.2.1 = fold key))
    (values : Str → Str → Option Str) : as.foldl assign values name key = values name key := by
  induction as generalizing values with
  | nil => rfl
  | cons a as ih =>
    obtain ⟨ha, has⟩ := List.forall_mem_cons.mp h
    rw [List.foldl_cons, ih has, assign, if_neg ha]

theorem foldl_assign_some {as : List (Str × Str × Str)} {name key value : Str}
    (hall : ∀ a ∈ as, fold a.1 = fold name ∧ fold a.2.1 = fold key → a.2.2 = value)
    (hex : ∃ a ∈ as, fold a.1 = fold name ∧ fold a.2.1 = fold key)
    (values : Str → Str → Option Str) : as.foldl assign values name key = some value := by
  induction as generalizing values with
  | nil => simp at hex
  | cons a as ih =>
    obtain ⟨ha, has⟩ := List.forall_mem_cons.mp hall
    rw [List.foldl_cons]
    by_cases hlater : ∃ b ∈ as, fold b.1 = fold name ∧ fold b.2.1 = fold key
    · exact ih has hlater _
    · have hnow : fold a.1 = fold name ∧ fold a.2.1 = fold key := by
        obtain ⟨b, hb, hm⟩ := hex
        rcases List.mem_cons.mp hb with rfl | hb
        · exact hm
        · exact absurd ⟨b, hb, hm⟩ hlater
      rw [foldl_assign_none (fun b hb hm => hlater ⟨b, hb, hm⟩), assign, if_pos hnow, ha hnow]

theorem getValue_eq_some_iff {ini : Ini} {name key value : Str} :
    ini.getValue name key = some value ↔
      ∃ s ∈ ini.sections.toList, fold s.name = fold name ∧
        ∃ kv ∈ s.keyValues.toList, fold kv.key = fold key ∧ kv.value = value := by
  simp only [Ini.getValue, Option.bind_eq_some_iff, Option.map_eq_some_iff, Keyed.get_eq_some_iff,
    and_assoc]

/-- The order of the sections does not matter for the values. -/
theorem foldl_assign_sections {ini : Ini} {l : List Section} (hl : l.Perm ini.sections.toList) :
    (l.flatMap Section.assignments).foldl assign (fun _ _ => none) = ini.getValue := by
  funext name key
  have hmem : ∀ a, a ∈ l.flatMap Section.assignments ↔ ∃ s ∈ ini.sections.toList,
      ∃ kv ∈ s.keyValues.toList, (s.name, kv.key, kv.value) = a := by
    intro a
    simp only [List.mem_flatMap, hl.mem_iff, Section.assignments, List.mem_map]
  cases hget : ini.getValue name key with
  | none =>
    refine foldl_assign_none (fun a ha hm => ?_) _
    obtain ⟨s, hs, kv, hkv, rfl⟩ := (hmem a).mp ha
    rw [getValue_eq_some_iff.mpr ⟨s, hs, hm.1, kv, hkv, hm.2, rfl⟩] at hget
    cases hget
  | some value =>
    refine foldl_assign_some (fun a ha hm => ?_) ?_ _
    · obtain ⟨s, hs, kv, hkv, rfl⟩ := (hmem a).mp ha
      rw [getValue_eq_some_iff.mpr ⟨s, hs, hm.1, kv, hkv, hm.2, rfl⟩] at hget
      exact Option.some.inj hget
    · obtain ⟨s, hs, hn, kv, hkv, hk, -⟩ := getValue_eq_some_iff.mp hget
      exact ⟨_, (hmem _).mpr ⟨s, hs, kv, hkv, rfl⟩, hn, hk⟩

theorem assignments_section {name : Str} {s : Section} (h : s.name = [] → name = [])
    (es : List Entry) : SimpleIni.assignments name (s.entries ++ es) =
      s.assignments ++ SimpleIni.assignments s.name es := by
  have hkeys : ∀ (kvs : List KeyValue) (es : List Entry),
      SimpleIni.assignments s.name (kvs.flatMap (fun kv => [.keyValue kv.key kv.value]) ++ es) =
        kvs.map (fun kv => (s.name, kv.key, kv.value)) ++ SimpleIni.assignments s.name es := by
    intro kvs es
    induction kvs with
    | nil => rfl
    | cons kv kvs ih => simp [SimpleIni.assignments, ih]
  unfold Section.entries Section.assignments
  split_ifs with hn
  · rw [h hn, ← hn, List.nil_append, hkeys]
  · exact hkeys _ es

theorem assignments_sections {l : List Section} (h : ∀ s ∈ l, s.name ≠ []) (name : Str) :
    SimpleIni.assignments name (l.flatMap Section.entries) = l.flatMap Section.assignments := by
  induction l generalizing name with
  | nil => rfl
  | cons s l ih =>
    obtain ⟨hs, hl⟩ := List.forall_mem_cons.mp h
    rw [List.flatMap_cons, List.flatMap_cons, assignments_section (fun e => absurd e hs), ih hl]

/-- With the section without a name in front every key comes back to its section. -/
theorem assignments_emptyFirst (m : Keyed Section fun s => fold s.name) :
    SimpleIni.assignments [] ((emptyFirst m.toList).flatMap Section.entries) =
      (emptyFirst m.toList).flatMap Section.assignments := by
  have hnodup : ((emptyFirst m.toList).map fun s => fold s.name).Nodup :=
    ((emptyFirst_perm m.toList).map _).nodup_iff.mpr m.nodup
  unfold emptyFirst at hnodup ⊢
  cases hfind : m.toList.find? fun s => s.name = [] with
  | none =>
    refine assignments_sections (fun s hs => ?_) []
    have hno := List.find?_eq_none.mp hfind s (List.mem_of_mem_eraseP hs)
    simpa using hno
  | some s =>
    have hs : s.name = [] := by
      have := List.find?_some (p := fun s : Section => decide (s.name = [])) hfind
      exact of_decide_eq_true this
    rw [hfind] at hnodup
    simp only [Option.toList_some, List.singleton_append] at hnodup ⊢
    have hrest : ∀ r ∈ m.toList.eraseP fun s => s.name = [], r.name ≠ [] := by
      intro r hr hnil
      have hfirst := (List.nodup_cons.mp hnodup).1
      exact hfirst (List.mem_map.mpr ⟨r, hr, by simp only [hnil, hs]⟩)
    rw [List.flatMap_cons, List.flatMap_cons, assignments_section (fun _ => rfl),
      assignments_sections hrest]

/-! ## What is loaded -/

/-- An item whose entry and comment can be written. -/
def Item.Plain (i : Item) : Prop :=
  (∀ e ∈ i.asEntry, e.Plain) ∧ ∀ skipped text, i = .comment skipped text →
    ∀ t ∈ text, CommentText t

theorem plain_item {s t : Str} {i : Item} (h : findItem s = some (some i, t)) (h0 : 0 ∉ s)
    (hr : ∀ e ∈ i.asEntry, e.Regular) : i.Plain := by
  refine ⟨fun e he => plain_of_findItem h h0 he (hr e he), ?_⟩
  rintro skipped text rfl
  obtain ⟨-, hno, -⟩ | ⟨j, hj, hfound⟩ := findItem_cases h
  · cases hno
  · obtain rfl := Option.some.inj hj
    have h0 : 0 ∉ s.dropWhile isSpace := fun hmem => h0 ((List.dropWhile_suffix _).subset hmem)
    generalize s.dropWhile isSpace = u at hfound h0
    cases hfound
    exact commentText_loadMultiLineText h0

theorem commentText_none : ∀ text ∈ (none : Option Str), CommentText text := by
  intro text h
  cases h

theorem plainName_nil : PlainName [] :=
  ⟨⟨fun _ h => absurd h List.not_mem_nil, by simp, by simp⟩, List.not_mem_nil⟩

theorem plain_section {name : Str} (hn : PlainName name) {comment : Option Str}
    (hc : ∀ text ∈ comment, CommentText text) : Section.Plain ⟨name, comment, .empty⟩ :=
  ⟨hn, hc, fun _ h => absurd h List.not_mem_nil⟩

theorem plain_setValue {s : Section} (hs : s.Plain) {key value : Str} (hk : PlainKey key)
    (hv : PlainValue value) {comment : Option Str} (hc : ∀ text ∈ comment, CommentText text) :
    (s.setValue key value comment).Plain :=
  ⟨hs.name, hs.comment, forall_setValue hs.keyValues ⟨hk, hv, hc⟩ fun _ h => ⟨h.key, hv, h.comment⟩⟩

theorem Ini.Plain.addEntry {ini : Ini} (h : ini.Plain) {name : Str} (hn : PlainName name)
    {entry : Option (Str × Str)} (he : ∀ e ∈ entry, PlainKey e.1 ∧ PlainValue e.2)
    {comment : Option Str} (hc : ∀ text ∈ comment, CommentText text) :
    (ini.addEntry name entry comment).Plain where
  fileComment := by cases entry <;> exact h.fileComment
  sections := by
    refine forall_addEntry h.sections (fun c hcase => plain_section hn ?_) ?_
    · rcases hcase with ⟨-, rfl⟩ | rfl
      · exact hc
      · exact commentText_none
    · rintro key value rfl s hs
      exact plain_setValue hs (he _ rfl).1 (he _ rfl).2 hc

/-- The parser in the middle of a regular file. -/
structure Loader.Plain (l : Loader) : Prop where
  ended : l.pSection.ended = true
  name : PlainName l.pSection.text
  comment : ∀ text ∈ l.pComment, CommentText text
  ini : l.ini.Plain

theorem Loader.Plain.take {l : Loader} (h : l.Plain) {i : Item} (hi : i.Plain) :
    (l.take i).Plain := by
  have hpass := fun raw => (SectionName.terminate_of_ended h.ended raw).1
  have hterminate := fun raw => (SectionName.terminate_of_ended h.ended raw).2
  cases i with
  | comment skipped text =>
    simp only [Loader.take, hterminate]
    exact ⟨h.ended, h.name, hi.2 skipped text rfl, h.ini⟩
  | unclosed name => exact (hi.1 _ rfl).elim
  | header name =>
    have hname : PlainName name := hi.1 _ rfl
    have hini : (l.ini.addEntry name none l.pComment).Plain :=
      h.ini.addEntry hname (fun _ he => by cases he) h.comment
    exact ⟨rfl, hname, commentText_none, hini⟩
  | invalid raw =>
    simp only [Loader.take, hpass]
    exact ⟨h.ended, h.name, h.comment, h.ini⟩
  | keyValue skipped key value =>
    have he : PlainKey key ∧ PlainValue value := hi.1 _ rfl
    have hini : (l.ini.addEntry l.pSection.text (some (key, value)) l.pComment).Plain :=
      h.ini.addEntry h.name (fun e h => by obtain rfl := Option.some.inj h; exact he) h.comment
    simp only [Loader.take, hterminate]
    exact ⟨h.ended, h.name, commentText_none, hini⟩

theorem zero_notMem_parsedText (data : Str) : 0 ∉ parsedText data := Split.notMem_takeWhile_ne 0 _

/-- **What is loaded from a regular file can be written.** -/
theorem plain_loadData {data : Str} (hr : ∀ e ∈ entries (parsedText data), e.Regular) :
    (loadData data).Plain := by
  have h0 := zero_notMem_parsedText data
  have hrest : 0 ∉ Scan.remains (commentLine false) (parsedText data) := fun hmem =>
    h0 ((remains_commentLine_suffix false _).subset hmem)
  rw [← entries_fileComment] at hr
  have hitems := (total_findItem.reads _).forall_mem hrest zero_notMem_findItem
    fun _ i _ h h0 => plain_item (i := i) h h0
  have hstart : Loader.Plain ⟨⟨[], true⟩, none, ⟨signature.isPrefixOf data,
      (loadMultiLineText false (parsedText data)).1, .empty⟩⟩ :=
    ⟨rfl, plainName_nil, commentText_none, commentText_loadMultiLineText h0,
      fun _ h => absurd h List.not_mem_nil⟩
  refine (List.foldlRecOn (motive := Loader.Plain) _ _ hstart fun l hl i hi => ?_).ini
  exact hl.take (hitems i hi fun e he => hr e (List.mem_filterMap.mpr ⟨i, hi, he⟩))

/-- All values of the object are plain. -/
def Ini.PlainValues (ini : Ini) : Prop :=
  ∀ s ∈ ini.sections.toList, ∀ kv ∈ s.keyValues.toList, PlainValue kv.value

theorem Ini.PlainValues.addEntry {ini : Ini} (h : ini.PlainValues) (name : Str)
    {entry : Option (Str × Str)} (he : ∀ e ∈ entry, PlainValue e.2) (comment : Option Str) :
    (ini.addEntry name entry comment).PlainValues := by
  refine forall_addEntry h (fun _ _ _ h => absurd h List.not_mem_nil) ?_
  rintro key value rfl s hs
  exact forall_setValue hs (he _ rfl) fun _ _ => he _ rfl

theorem plainValue_findItem {s t : Str} {i : Item} (h : findItem s = some (some i, t))
    (h0 : 0 ∉ s) : ∀ skipped key value, i = .keyValue skipped key value → PlainValue value := by
  rintro skipped key value rfl
  obtain ⟨-, hno, -⟩ | ⟨j, hj, hfound⟩ := findItem_cases h
  · cases hno
  · obtain rfl := Option.some.inj hj
    have h0 : 0 ∉ s.dropWhile isSpace := fun hmem => h0 ((List.dropWhile_suffix _).subset hmem)
    generalize s.dropWhile isSpace = u at hfound h0
    cases hfound
    exact plain_findValue fun hmem => h0 (by simp [hmem])

/-- A value that is read is plain, whatever the file looks like. -/
theorem plainValue_loadData {data name key value : Str}
    (h : (loadData data).getValue name key = some value) : PlainValue value := by
  have hrest : 0 ∉ Scan.remains (commentLine false) (parsedText data) := fun hmem =>
    zero_notMem_parsedText data ((remains_commentLine_suffix false _).subset hmem)
  have hitems := (total_findItem.reads _).forall_mem hrest zero_notMem_findItem
    fun _ i _ h h0 => plainValue_findItem (i := i) h h0
  have hplain : (loadData data).PlainValues := by
    refine List.foldlRecOn (motive := fun l : Loader => l.ini.PlainValues) _ _
      (fun _ h => absurd h List.not_mem_nil) fun l hl i hi => ?_
    cases i with
    | comment | unclosed | invalid => exact hl
    | header name => exact hl.addEntry name (fun _ he => by cases he) _
    | keyValue skipped key value =>
      refine hl.addEntry _ (fun e he => ?_) _
      obtain rfl := Option.some.inj he
      exact hitems _ hi skipped key value rfl
  obtain ⟨s, hs, -, kv, hkv, -, rfl⟩ := getValue_eq_some_iff.mp h
  exact hplain s hs kv hkv

theorem storeIsUtf8_loadData (data : Str) :
    (loadData data).storeIsUtf8 = signature.isPrefixOf data := by
  refine List.foldlRecOn (motive := fun l : Loader => l.ini.storeIsUtf8 = signature.isPrefixOf data)
    _ _ rfl fun l hl i _ => ?_
  cases i <;> exact hl

/-! ## Written and loaded -/

theorem parsedText_save {ini : Ini} (h : ini.Plain) :
    signature.isPrefixOf ini.save = ini.storeIsUtf8 ∧ parsedText ini.save = ini.body := by
  have hbody := h.readsAs_body
  have hsave : ini.save = (if ini.storeIsUtf8 then signature else []) ++ ini.body := rfl
  cases hutf : ini.storeIsUtf8 with
  | true =>
    rw [hutf] at hsave
    have hsig : signature.isPrefixOf ini.save = true := by
      rw [hsave, List.isPrefixOf_iff_prefix]
      exact List.prefix_append _ _
    refine ⟨hsig, ?_⟩
    rw [parsedText, if_pos hsig, hsave]
    exact cstr_eq_self hbody.noNul
  | false =>
    have hsave : ini.save = ini.body := by simpa [hutf] using hsave
    have hsig : signature.isPrefixOf ini.save = false := by
      rw [Bool.eq_false_iff, Ne, List.isPrefixOf_iff_prefix, hsave]
      rcases hbody.unsigned with hnil | hstart
      · rw [hnil]
        exact fun hp => absurd (List.prefix_nil.mp hp) (List.cons_ne_nil _ _)
      · have := hstart []
        rwa [List.append_nil] at this
    refine ⟨hsig, ?_⟩
    rw [parsedText, hsig, hsave]
    exact cstr_eq_self hbody.noNul

theorem entries_save {ini : Ini} (h : ini.Plain) : entries (parsedText ini.save) =
    (emptyFirst ini.sections.toList).flatMap Section.entries := by
  rw [(parsedText_save h).2]
  have hreads := h.readsAs_body.reads []
  have hnil : entries [] = [] := rfl
  rwa [List.append_nil, hnil, List.append_nil] at hreads

theorem regular_save {ini : Ini} (h : ini.Plain) :
    ∀ e ∈ entries (parsedText ini.save), e.Regular := by
  rw [entries_save h]
  intro e he
  obtain ⟨s, hs, he⟩ := List.mem_flatMap.mp he
  have hplain := h.sections s ((emptyFirst_perm _).subset hs)
  rcases List.mem_append.mp he with he | he
  · split_ifs at he
    · cases he
    · obtain rfl := List.mem_singleton.mp he
      trivial
  · obtain ⟨kv, hkv, he⟩ := List.mem_flatMap.mp he
    obtain rfl := List.mem_singleton.mp he
    exact (hplain.keyValues kv hkv).key.unsigned

/-- **Round trip.**  A configuration that is written and loaded again has the same values, and
it can be written again. -/
theorem load_save {ini : Ini} (h : ini.Plain) :
    (loadData ini.save).getValue = ini.getValue ∧ (loadData ini.save).Plain ∧
      (loadData ini.save).storeIsUtf8 = ini.storeIsUtf8 := by
  have hregular := regular_save h
  refine ⟨?_, plain_loadData hregular, (storeIsUtf8_loadData _).trans (parsedText_save h).1⟩
  rw [getValue_loadData fun hmem => hregular _ hmem, entries_save h,
    assignments_emptyFirst ini.sections]
  exact foldl_assign_sections (emptyFirst_perm _)

end ParkManager.SimpleIni
