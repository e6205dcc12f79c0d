import ParkManager.Json

/-!
# Reading JSON text

What the program relies on in `nlohmann::json::parse`, and a reader of the texts
that `dump()` writes, one byte after the other, which keeps to it.

Proved here:

* `readText_member`, `readText_members`: the reader goes through what `dump()`
  writes and collects the members;
* `parsesText_readObject`, `parsesExactly_readObject`: it reads an object back from
  its text, with nothing added, rejects a text that is cut off, and yields UTF-8
  strings only.
-/

namespace ParkManager

/-- What the program relies on in `nlohmann::json::parse`. -/
structure ParsesText (parse : Str → Option Json) : Prop where
  /-- An object of strings is read back from its text. -/
  readsBack : ∀ members text, (members.map Prod.fst).Nodup → dumpObject members = .ok text →
    ∃ j, parse text = some j ∧ ∀ m ∈ members, j.HasString m.1 m.2
  /-- An object that is cut off is no JSON text. -/
  rejectsCut : ∀ members text n, dumpObject members = .ok text → n < text.length →
    parse (text.take n) = none
  /-- Strings that are not UTF-8 are rejected. -/
  utf8 : ∀ text j key s, parse text = some j → j.HasString key s → utf8Accepts s = true

/-- The same, with nothing but the members in the object that is read back. -/
structure ParsesExactly (parse : Str → Option Json) : Prop extends ParsesText parse where
  noOther : ∀ members text j key s, dumpObject members = .ok text → parse text = some j →
    j.HasString key s → (key, s) ∈ members

/-! ## The reader -/

inductive Escape
  | plain
  | backslash
  | hex (digits : Str)
  deriving DecidableEq

/-- Where in the object the reader is. -/
inductive Reading
  | start
  | firstKey
  | key
  /-- Inside a key, or inside the value of a key. -/
  | inside (key : Option Str) (text : Str) (escape : Escape)
  | colon (key : Str)
  | value (key : Str)
  | comma
  | done
  | failed
  deriving DecidableEq

structure Reader where
  members : List (Str × Str)
  reading : Reading
  deriving DecidableEq

def hexValue (b : UInt8) : Option ℕ := (List.range 16).find? fun n => hexDigit n = b

/-- The byte behind `\u00xy`; other code points are not written with `\u`. -/
def ofHex : Str → Option UInt8
  | [z₁, z₂, h, l] =>
    match hexValue h, hexValue l with
    | some h, some l => if z₁ = ch '0' ∧ z₂ = ch '0' then some (16 * h + l).toUInt8 else none
    | _, _ => none
  | _ => none

/-- The byte behind a backslash and a letter. -/
def unescape (b : UInt8) : Option UInt8 :=
  if b = ch 'b' then some 0x08
  else if b = ch 't' then some 0x09
  else if b = ch 'n' then some 0x0A
  else if b = ch 'f' then some 0x0C
  else if b = ch 'r' then some 0x0D
  else if b = ch '"' then some 0x22
  else if b = ch '\\' then some 0x5C
  else none

/-- One byte inside a string. -/
def readInside (key : Option Str) (text : Str) (b : UInt8) : Escape → Option Reading
  | .plain =>
    if b = ch '\\' then some (.inside key text .backslash)
    else if b ≤ 0x1F then none
    else some (.inside key (text ++ [b]) .plain)
  | .backslash =>
    if b = ch 'u' then some (.inside key text (.hex []))
    else (unescape b).map fun c => .inside key (text ++ [c]) .plain
  | .hex digits =>
    if digits.length < 3 then some (.inside key text (.hex (digits ++ [b])))
    else (ofHex (digits ++ [b])).map fun c => .inside key (text ++ [c]) .plain

def readByte (r : Reader) (b : UInt8) : Reader :=
  match r.reading with
  | .start => ⟨r.members, if b = ch '\x7b' then .firstKey else .failed⟩
  | .firstKey =>
    ⟨r.members,
      if b = ch '"' then .inside none [] .plain else if b = ch '\x7d' then .done else .failed⟩
  | .key => ⟨r.members, if b = ch '"' then .inside none [] .plain else .failed⟩
  | .inside key text escape =>
    if b = ch '"' ∧ escape = .plain then
      match key with
      | none => ⟨r.members, .colon text⟩
      | some k => ⟨r.members ++ [(k, text)], .comma⟩
    else ⟨r.members, (readInside key text b escape).getD .failed⟩
  | .colon key => ⟨r.members, if b = ch ':' then .value key else .failed⟩
  | .value key => ⟨r.members, if b = ch '"' then .inside (some key) [] .plain else .failed⟩
  | .comma => ⟨r.members, if b = ch ',' then .key else if b = ch '\x7d' then .done else .failed⟩
  | .done => ⟨r.members, .failed⟩
  | .failed => r

def readText (r : Reader) (text : Str) : Reader := text.foldl readByte r

/-- `nlohmann::json::parse` on the texts that `dump()` writes. -/
def readObject (text : Str) : Option Json :=
  let r := readText ⟨[], .start⟩ text
  if r.reading = .done ∧ r.members.all (fun m => utf8Accepts m.1 && utf8Accepts m.2) = true then
    some (.object (r.members.map fun m => (m.1, .string m.2)))
  else none

theorem readText_append (r : Reader) (s t : Str) :
    readText r (s ++ t) = readText (readText r s) t := List.foldl_append

theorem readText_cons (r : Reader) (b : UInt8) (t : Str) :
    readText r (b :: t) = readText (readByte r b) t := rfl

/-! ## Strings -/

theorem ofHex_control : ∀ n, n < 32 →
    ofHex [ch '0', ch '0', hexDigit (n / 16), hexDigit (n % 16)] = some n.toUInt8 := by
  decide

/-- What is written for a byte is read as that byte. -/
theorem readText_escape (ms : List (Str × Str)) (key : Option Str) (text : Str) (b : UInt8) :
    readText ⟨ms, .inside key text .plain⟩ (escape b) = ⟨ms, .inside key (text ++ [b]) .plain⟩ := by
  unfold escape
  split_ifs with h₁ h₂ h₃ h₄ h₅ h₆ h₇ h₈
  · rw [h₁]; rfl
  · rw [h₂]; rfl
  · rw [h₃]; rfl
  · rw [h₄]; rfl
  · rw [h₅]; rfl
  · rw [h₆]; rfl
  · rw [h₇]; rfl
  · have hb : b.toNat < 32 := by
      have := UInt8.le_iff_toNat_le.mp h₈
      exact Nat.lt_succ_of_le this
    have hself : b.toNat.toUInt8 = b := UInt8.ofNat_toNat
    have hhex := ofHex_control b.toNat hb
    rw [hself] at hhex
    have hstart : readText ⟨ms, .inside key text .plain⟩ (str "\\u00") =
        ⟨ms, .inside key text (.hex [ch '0', ch '0'])⟩ := rfl
    rw [readText_append, hstart]
    simp only [readText, List.foldl_cons, List.foldl_nil, readByte, reduceCtorEq, and_false,
      ↓reduceIte, readInside, List.length_cons, List.length_nil, Nat.reduceAdd, Nat.reduceLT,
      List.cons_append, List.nil_append, Option.getD_some, Nat.lt_irrefl, hhex, Option.map_some]
  · have hquote : b ≠ ch '"' := h₆
    have hback : b ≠ ch '\\' := h₇
    simp only [readText, List.foldl_cons, List.foldl_nil, readByte, hquote, false_and, ↓reduceIte,
      readInside, hback, h₈, Option.getD_some]

theorem readText_flatMap_escape (ms : List (Str × Str)) (key : Option Str) (text s : Str) :
    readText ⟨ms, .inside key text .plain⟩ (s.flatMap escape) =
      ⟨ms, .inside key (text ++ s) .plain⟩ := by
  induction s generalizing text with
  | nil => rw [List.append_nil]; rfl
  | cons b s ih =>
    rw [List.flatMap_cons, readText_append, readText_escape, ih, List.append_assoc,
      List.singleton_append]

/-! ## Members -/

/-- A member is read where a key is expected. -/
theorem readText_member {key value t : Str} (h : dumpMember key value = .ok t)
    (ms : List (Str × Str)) {r : Reading} (hr : r = .firstKey ∨ r = .key) :
    readText ⟨ms, r⟩ t = ⟨ms ++ [(key, value)], .comma⟩ := by
  have ht : t = ch '"' :: (key.flatMap escape ++
      ch '"' :: ch ':' :: ch '"' :: (value.flatMap escape ++ [ch '"'])) := by
    unfold dumpMember dumpEscaped at h
    split at h
    · rename_i k v hk hv
      split_ifs at hk hv
      have hkey := Except.ok.inj hk
      have hvalue := Except.ok.inj hv
      have ht := Except.ok.inj h
      subst hkey hvalue ht
      simp [show str "\"" = [ch '"'] by decide,
        show str "\":\"" = [ch '"', ch ':', ch '"'] by decide]
    · cases h
    · cases h
  have hquote : readByte ⟨ms, r⟩ (ch '"') = ⟨ms, .inside none [] .plain⟩ := by
    rcases hr with rfl | rfl <;> rfl
  rw [ht, readText_cons, hquote, readText_append, readText_flatMap_escape, List.nil_append,
    readText_cons, readText_cons, readText_cons]
  have hvalue : readByte (readByte (readByte ⟨ms, .inside none key .plain⟩ (ch '"')) (ch ':'))
      (ch '"') = ⟨ms, .inside (some key) [] .plain⟩ := rfl
  rw [hvalue, readText_append, readText_flatMap_escape, List.nil_append]
  rfl

theorem readText_members {members : List (Str × Str)} {ts : List Str}
    (h : dumpMembers members = .ok ts) (hne : members ≠ []) (ms : List (Str × Str)) {r : Reading}
    (hr : r = .firstKey ∨ r = .key) :
    readText ⟨ms, r⟩ (List.intercalate (str ",") ts) = ⟨ms ++ members, .comma⟩ := by
  induction members generalizing ts ms r with
  | nil => exact absurd rfl hne
  | cons m rest ih =>
    obtain ⟨key, value⟩ := m
    unfold dumpMembers at h
    split at h
    · rename_i t us ht hus
      have hts := Except.ok.inj h
      subst hts
      cases rest with
      | nil =>
        have hnil := Except.ok.inj hus
        subst hnil
        have e : List.intercalate (str ",") [t] = t := by simp [List.intercalate]
        rw [e, readText_member ht ms hr]
      | cons m' rest =>
        have hcons : ∃ t' us', us = t' :: us' := by
          obtain ⟨key', value'⟩ := m'
          unfold dumpMembers at hus
          split at hus
          · exact ⟨_, _, (Except.ok.inj hus).symm⟩
          · cases hus
          · cases hus
        obtain ⟨t', us', rfl⟩ := hcons
        have e : List.intercalate (str ",") (t :: t' :: us') =
            t ++ ch ',' :: List.intercalate (str ",") (t' :: us') := by
          simp [List.intercalate, show str "," = [ch ','] by decide]
        have hcomma : readByte ⟨ms ++ [(key, value)], .comma⟩ (ch ',') =
            ⟨ms ++ [(key, value)], .key⟩ := rfl
        rw [e, readText_append, readText_member ht ms hr, readText_cons, hcomma,
          ih hus (List.cons_ne_nil _ _) _ (Or.inr rfl), List.append_assoc, List.singleton_append]
    · cases h
    · cases h

/-- A whole object is read to its end. -/
theorem readText_dumpObject {members : List (Str × Str)} {text : Str}
    (h : dumpObject members = .ok text) : readText ⟨[], .start⟩ text = ⟨members, .done⟩ := by
  unfold dumpObject at h
  split at h
  · rename_i ts hts
    have htext := Except.ok.inj h
    subst htext
    have hopen : readText ⟨[], .start⟩ (str "\x7b") = ⟨[], .firstKey⟩ := rfl
    rw [readText_append, readText_append, hopen]
    by_cases hne : members = []
    · subst hne
      have hnil := Except.ok.inj hts
      subst hnil
      rfl
    · rw [readText_members hts hne [] (Or.inl rfl)]
      rfl
  · cases h

/-! ## The reader keeps to what the program relies on -/

theorem lookup_of_mem_of_nodup {members : List (Str × Str)} (hn : (members.map Prod.fst).Nodup)
    {m : Str × Str} (hm : m ∈ members) :
    (members.map fun m => (m.1, Json.string m.2)).lookup m.1 = some (.string m.2) := by
  induction members with
  | nil => cases hm
  | cons m' rest ih =>
    obtain ⟨hnew, hrest⟩ := List.nodup_cons.mp hn
    rw [List.map_cons, List.lookup_cons]
    rcases List.mem_cons.mp hm with rfl | hm
    · rw [beq_self_eq_true]
    · have hne : m.1 ≠ m'.1 := fun e => hnew (e ▸ List.mem_map_of_mem hm)
      rw [beq_false_of_ne hne]
      exact ih hrest hm

/-- A string in the object was read as the value of its key, and is UTF-8. -/
theorem mem_readText_of_hasString {text key s : Str} {j : Json} (h : readObject text = some j)
    (hs : j.HasString key s) :
    (key, s) ∈ (readText ⟨[], .start⟩ text).members ∧ utf8Accepts s = true := by
  unfold readObject at h
  simp only at h
  split_ifs at h with hok
  obtain ⟨members, hj, hl⟩ := hs
  rw [← Option.some.inj h] at hj
  obtain rfl := Json.object.inj hj
  obtain ⟨l₁, l₂, hsplit, -⟩ := List.lookup_eq_some_iff.mp hl
  have hmem : (key, Json.string s) ∈
      (readText ⟨[], .start⟩ text).members.map fun m => (m.1, Json.string m.2) := by
    rw [hsplit]
    simp
  obtain ⟨⟨k, v⟩, hm, he⟩ := List.mem_map.mp hmem
  obtain ⟨rfl, hv⟩ := Prod.mk.inj he
  obtain rfl := Json.string.inj hv
  have hall := List.all_eq_true.mp hok.2 _ hm
  exact ⟨hm, (Bool.and_eq_true_iff.mp hall).2⟩

theorem parsesText_readObject : ParsesText readObject where
  readsBack members text hn h := by
    have hread := readText_dumpObject h
    have hutf8 : members.all (fun m => utf8Accepts m.1 && utf8Accepts m.2) = true := by
      rw [List.all_eq_true]
      intro m hm
      obtain ⟨hk, hv⟩ := (dumpObject_isOk_iff members).mp ⟨text, h⟩ m hm
      rw [hk, hv]
      rfl
    refine ⟨.object (members.map fun m => (m.1, .string m.2)), ?_, fun m hm =>
      ⟨_, rfl, lookup_of_mem_of_nodup hn hm⟩⟩
    simp only [readObject, hread, hutf8, and_self, ↓reduceIte]
  rejectsCut members text n h hn := by
    have hread := readText_dumpObject h
    rw [← List.take_append_drop n text, readText_append] at hread
    cases hdrop : text.drop n with
    | nil =>
      have := List.drop_eq_nil_iff.mp hdrop
      omega
    | cons b rest =>
      have hdone : (readText ⟨[], .start⟩ (text.take n)).reading ≠ .done := by
        intro hd
        -- a reader that is done fails on the next byte, and stays failed
        have hfail : ∀ t r, r.reading = .failed → (readText r t).reading = .failed := by
          intro t
          induction t with
          | nil => exact fun r hr => hr
          | cons c t ih =>
            intro r hr
            rw [readText_cons]
            refine ih _ ?_
            unfold readByte
            rw [hr]
            exact hr
        rw [hdrop, readText_cons] at hread
        have hb : (readByte (readText ⟨[], .start⟩ (text.take n)) b).reading = .failed := by
          unfold readByte
          rw [hd]
        have := hfail rest _ hb
        rw [hread] at this
        cases this
      simp only [readObject, hdone, false_and, ↓reduceIte]
  utf8 text j key s h hs := (mem_readText_of_hasString h hs).2

theorem parsesExactly_readObject : ParsesExactly readObject where
  toParsesText := parsesText_readObject
  noOther members text j key s hdump h hs := by
    obtain ⟨hmem, -⟩ := mem_readText_of_hasString h hs
    rwa [readText_dumpObject hdump] at hmem

end ParkManager
