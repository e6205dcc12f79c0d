import ParkManager.JsonParser
import ParkManager.JsonText
import ParkManager.JsonTokens

/-!
# The JSON library

`nlohmann::json::parse` as a whole, on any text.

Proved here:

* `parseText_prefix`: of a text that is cut off, what is left is no JSON text;
* `parseText_utf8`: every string in a value that was read is UTF-8;
* `spells_escape`, `parseText_dumpObject`: what `dump()` writes is read back;
* `parsesExactly_parseText`: the library keeps to what the program relies on.
-/

namespace ParkManager

/-! ## Texts that are cut off -/

namespace JsonParser

open Token

theorem parseTokens_eq_some {ts : List Token} {j : Json} :
    parseTokens ts = some j ↔ run ⟨[], .value⟩ ts = some ⟨[], .endOfInput j⟩ := by
  unfold parseTokens
  constructor
  · intro h
    split at h
    · rename_i hrun
      cases h
      exact hrun
    · cases h
  · intro h
    rw [h]

/-- Behind a complete text there is no token. -/
theorem parseTokens_append {ts us : List Token} {j j' : Json} (h : parseTokens ts = some j)
    (h' : parseTokens (ts ++ us) = some j') : us = [] ∧ j' = j := by
  rw [parseTokens_eq_some] at h h'
  rw [run_append, h, Option.bind_some] at h'
  cases us with
  | nil =>
    cases h'
    exact ⟨rfl, rfl⟩
  | cons t us =>
    rw [run_cons] at h'
    cases t <;> cases h'

/-- Only a number does not show where it ends. -/
theorem closed_getLast {d : Doc} (hd : ∀ text, d.value ≠ .number text) :
    ∀ t, d.tokens.getLast? = some t → Lexer.Closed t := by
  intro t ht
  cases d with
  | scalar token j h =>
    have ht : token = t := Option.some.inj ht
    subst ht
    cases token with
    | valueNumber text =>
      have hj := h
      simp only [scalar] at hj
      split_ifs at hj
      exact absurd (Option.some.inj hj).symm (hd text)
    | _ => trivial
  | array ds =>
    rw [Doc.tokens_array, ← List.cons_append, List.getLast?_concat] at ht
    cases ht
    trivial
  | object ms =>
    rw [Doc.tokens_object, ← List.cons_append, List.getLast?_concat] at ht
    cases ht
    trivial

theorem tokens_ne_nil (d : Doc) : d.tokens ≠ [] := by
  intro h
  cases d with
  | scalar => cases h
  | array ds => rw [Doc.tokens_array] at h; cases h
  | object ms => rw [Doc.tokens_object] at h; cases h

theorem tokens_of_number {d : Doc} {text : Str} (h : d.value = .number text) :
    ∃ text', d.tokens = [valueNumber text'] := by
  cases d with
  | scalar token j hj =>
    have h : j = .number text := h
    subst h
    cases token <;> simp only [scalar, reduceCtorEq, Option.some.injEq] at hj
    exact ⟨_, rfl⟩
  | array ds => rw [Doc.value_array] at h; cases h
  | object ms => rw [Doc.value_object] at h; cases h

theorem value_of_number {d : Doc} {text : Str} {ts : List Token}
    (h : d.tokens = valueNumber text :: ts) : ∃ text', d.value = .number text' := by
  cases d with
  | scalar token j hj =>
    have h : token = valueNumber text := (List.cons.inj h).1
    subst h
    have hvalue := hj
    simp only [scalar] at hvalue
    split_ifs at hvalue
    exact ⟨text, (Option.some.inj hvalue).symm⟩
  | array ds => rw [Doc.tokens_array] at h; cases h
  | object ms => rw [Doc.tokens_object] at h; cases h

end JsonParser

theorem skipBom_append {p s : Str} (h : Lexer.skipBom p = some s) (hne : p ≠ []) (q : Str) :
    Lexer.skipBom (p ++ q) = some (s ++ q) := by
  unfold Lexer.skipBom at h
  split at h
  · split at h
    · cases h
      rfl
    · cases h
  · rename_i hEF
    cases h
    cases p with
    | nil => exact absurd rfl hne
    | cons b p =>
      rw [List.cons_append, Lexer.skipBom]
      rintro t ht
      exact hEF p (by rw [(List.cons.inj ht).1])

theorem skipBom_suffix {p s : Str} (h : Lexer.skipBom p = some s) : s <:+ p := by
  unfold Lexer.skipBom at h
  split at h
  · split at h
    · cases h
      exact ⟨[0xEF, 0xBB, 0xBF], rfl⟩
    · cases h
  · cases h
    exact List.suffix_rfl

/-- **A text that is cut off** does not go unnoticed: what is left is no JSON text, or has
the same value, and only white space is missing. -/
theorem parseText_prefix {p q : Str} {j j' : Json} (h : parseText p = some j) (hzero : 0 ∉ p)
    (h' : parseText (p ++ q) = some j') (hnumber : ∀ text, j' ≠ .number text) :
    j = j' ∧ Lexer.AtEnd q := by
  obtain ⟨ts, hts, hj⟩ := Option.bind_eq_some_iff.mp h
  obtain ⟨us, hus, hj'⟩ := Option.bind_eq_some_iff.mp h'
  obtain ⟨s, hbom, -⟩ := Option.bind_eq_some_iff.mp hts
  have hne : p ≠ [] := by
    rintro rfl
    cases hbom
    cases hts
    cases hj
  have hreads := (Lexer.tokens_iff hbom).mp hts
  have hreads' := (Lexer.tokens_iff (skipBom_append hbom hne q)).mp hus
  obtain ⟨d, rfl, rfl⟩ := JsonParser.parseTokens_iff.mp hj
  obtain ⟨d', rfl, rfl⟩ := JsonParser.parseTokens_iff.mp hj'
  have hzero' : 0 ∉ s := fun h0 => hzero ((skipBom_suffix hbom).subset h0)
  have hd : ∀ text, d.value ≠ .number text := by
    intro text hd
    obtain ⟨rest, hreads⟩ := hreads
    obtain ⟨rest', hreads'⟩ := hreads'
    obtain ⟨text', ht⟩ := JsonParser.tokens_of_number hd
    rw [ht] at hreads
    cases hreads with
    | item hstep _ =>
      cases ht' : d'.tokens with
      | nil => exact JsonParser.tokens_ne_nil d' ht'
      | cons t ts' =>
        rw [ht'] at hreads'
        cases hreads' with
        | item hstep' _ =>
          obtain ⟨text'', he⟩ := Lexer.scan_number_append hstep hstep'
          cases he
          obtain ⟨n, hn⟩ := JsonParser.value_of_number ht'
          exact hnumber n hn
  obtain ⟨vs, he, hvs⟩ := hreads.append (JsonParser.closed_getLast hd) hzero' hreads'
  rw [he] at hj'
  obtain ⟨rfl, hvalue⟩ := JsonParser.parseTokens_append hj hj'
  obtain ⟨rest, hvs⟩ := hvs
  cases hvs with
  | stop hstop => exact ⟨hvalue.symm, rest, hstop⟩

/-- Without its line break an object is still read, and it is the same one. -/
theorem parseText_prefix_newline :
    Json.object [(str "a", .string (str "b"))] = .object [(str "a", .string (str "b"))] ∧
      Lexer.AtEnd (str "\n") :=
  parseText_prefix (p := str "\x7b\"a\":\"b\"\x7d") rfl (by decide) rfl fun _ => Json.noConfusion

/-! ## Strings in a value -/

/-- The string is in the value somewhere, as a value or as a key. -/
inductive Json.Holds : Json → Str → Prop
  | string (s : Str) : Holds (.string s) s
  | element {elements : List Json} {j : Json} {s : Str} (hj : j ∈ elements) (h : Holds j s) :
    Holds (.array elements) s
  | key {members : List (Str × Json)} {m : Str × Json} (hm : m ∈ members) :
    Holds (.object members) m.1
  | member {members : List (Str × Json)} {m : Str × Json} {s : Str} (hm : m ∈ members)
    (h : Holds m.2 s) : Holds (.object members) s

theorem mem_of_mem_assign {key : Str} {j : Json} {members : List (Str × Json)} {m : Str × Json}
    (h : m ∈ assign key j members) : m = (key, j) ∨ m ∈ members := by
  induction members with
  | nil => exact Or.inl (List.mem_singleton.mp h)
  | cons m' members ih =>
    unfold assign at h
    split_ifs at h
    · exact (List.mem_cons.mp h).imp_right fun h => List.mem_cons_of_mem _ h
    · exact List.mem_cons.mp h
    · rcases List.mem_cons.mp h with rfl | h
      · exact Or.inr List.mem_cons_self
      · exact (ih h).imp_right fun h => List.mem_cons_of_mem _ h

theorem mem_intercalate {α : Type} {a : α} {l sep : List α} {ls : List (List α)} (hl : l ∈ ls)
    (ha : a ∈ l) : a ∈ List.intercalate sep ls := by
  induction ls with
  | nil => cases hl
  | cons x ls ih =>
    by_cases hls : ls = []
    · subst hls
      rw [List.intercalate_singleton]
      exact List.mem_singleton.mp hl ▸ ha
    · rw [List.intercalate_cons_of_ne_nil hls, List.mem_append, List.mem_append]
      rcases List.mem_cons.mp hl with rfl | hl
      · exact Or.inl (Or.inl ha)
      · exact Or.inr (ih hl)

namespace JsonParser

theorem mem_membersOf {ms : List (Str × Doc)} {m : Str × Json} (h : m ∈ membersOf ms) :
    ∃ m' ∈ ms, m = (m'.1, m'.2.value) := by
  induction ms using List.reverseRecOn with
  | nil => cases h
  | append_singleton ms m' ih =>
    rw [membersOf_append] at h
    rcases mem_of_mem_assign h with rfl | h
    · exact ⟨m', List.mem_append_right _ List.mem_cons_self, rfl⟩
    · obtain ⟨m'', hm, e⟩ := ih h
      exact ⟨m'', List.mem_append_left _ hm, e⟩

/-- Every string in the value of a text is one of its tokens. -/
theorem valueString_mem {d : Doc} {s : Str} (h : d.value.Holds s) :
    Token.valueString s ∈ d.tokens := by
  induction d using Doc.induct generalizing s with
  | hscalar token j hj =>
    rw [Doc.value] at h
    rw [Doc.tokens, List.mem_singleton]
    cases token <;> simp only [scalar, reduceCtorEq, Option.some.injEq] at hj
    case valueNumber text =>
      split_ifs at hj
      cases hj
      cases h
    all_goals subst hj; cases h
    rfl
  | harray ds ih =>
    rw [Doc.value_array] at h
    rw [Doc.tokens_array]
    cases h with
    | element hj h =>
      obtain ⟨d, hd, rfl⟩ := List.mem_map.mp hj
      exact List.mem_cons_of_mem _ (List.mem_append_left _
        (mem_intercalate (List.mem_map_of_mem hd) (ih d hd h)))
  | hobject ms ih =>
    rw [Doc.value_object] at h
    rw [Doc.tokens_object]
    refine List.mem_cons_of_mem _ (List.mem_append_left _ ?_)
    cases h with
    | key hkey =>
      obtain ⟨m, hm, rfl⟩ := mem_membersOf hkey
      exact mem_intercalate (List.mem_map_of_mem hm) List.mem_cons_self
    | member hmember h =>
      obtain ⟨m, hm, rfl⟩ := mem_membersOf hmember
      exact mem_intercalate (List.mem_map_of_mem hm)
        (List.mem_cons_of_mem _ (List.mem_cons_of_mem _ (ih m hm h)))

end JsonParser

/-- **Every string in a value that was read is UTF-8**, so that it can be dumped. -/
theorem parseText_utf8 {text s : Str} {j : Json} (h : parseText text = some j) (hs : j.Holds s) :
    utf8Accepts s = true := by
  obtain ⟨ts, hts, hj⟩ := Option.bind_eq_some_iff.mp h
  obtain ⟨t, hbom, -⟩ := Option.bind_eq_some_iff.mp hts
  obtain ⟨d, rfl, rfl⟩ := JsonParser.parseTokens_iff.mp hj
  exact ((Lexer.tokens_iff hbom).mp hts).utf8 (JsonParser.valueString_mem hs)

/-- An escaped code point in an array in an object. -/
theorem parseText_utf8_escaped : utf8Accepts [0xC3, 0xA4] = true :=
  have hread : parseText (str "\x7b\"a\":[\"\\u00e4\"]\x7d") =
      some (.object [(str "a", .array [.string [0xC3, 0xA4]])]) := rfl
  parseText_utf8 hread
    (.member (m := (str "a", .array [.string [0xC3, 0xA4]])) List.mem_cons_self
      (.element List.mem_cons_self (.string _)))

/-! ## What `dump()` writes is read back -/

namespace Lexer

theorem codepointDigit_hexDigit : ∀ n, n < 16 → codepointDigit (hexDigit n) = some n := by decide

theorem escape_of_le {b : UInt8} (h : 0x80 ≤ b.toNat) : escape b = [b] := by
  have hne : ∀ c : UInt8, c.toNat < 0x80 → b ≠ c := by
    rintro c hc rfl
    omega
  have hcontrol : ¬ b ≤ 0x1F := by
    rw [UInt8.le_iff_toNat_le]
    exact fun hle => absurd (h.trans hle) (by decide)
  simp only [escape, hne 0x08 (by decide), hne 0x09 (by decide), hne 0x0A (by decide),
    hne 0x0C (by decide), hne 0x0D (by decide), hne 0x22 (by decide), hne 0x5C (by decide),
    hcontrol, ↓reduceIte]

/-- What is written for a byte of ASCII spells its character. -/
theorem spells_escape_ascii {b : UInt8} {c : Char} (hb : b.toNat = c.val.toNat)
    (hlt : c.val.toNat < 0x80) : Spells (escape b) c := by
  have hchar : ∀ d : Char, d.val.toNat < 0x80 → b = ch d → c = d := fun d hd h =>
    (ch_toNat_iff hb hd).mp h
  unfold escape
  split_ifs with h₁ h₂ h₃ h₄ h₅ h₆ h₇ h₈
  · obtain rfl := hchar '\x08' (by decide) h₁
    exact Spells.short (e := 'b') (by decide)
  · obtain rfl := hchar '\t' (by decide) h₂
    exact Spells.short (e := 't') (by decide)
  · obtain rfl := hchar '\n' (by decide) h₃
    exact Spells.short (e := 'n') (by decide)
  · obtain rfl := hchar '\x0c' (by decide) h₄
    exact Spells.short (e := 'f') (by decide)
  · obtain rfl := hchar '\r' (by decide) h₅
    exact Spells.short (e := 'r') (by decide)
  · obtain rfl := hchar '"' (by decide) h₆
    exact Spells.short (e := '"') (by decide)
  · obtain rfl := hchar '\\' (by decide) h₇
    exact Spells.short (e := '\\') (by decide)
  · have hlow : b.toNat ≤ 0x1F := UInt8.le_iff_toNat_le.mp h₈
    have hu : str "\\u00" = [ch '\\', ch 'u', ch '0', ch '0'] := by decide
    have hzero : codepointDigit (ch '0') = some 0 := by decide
    rw [hu]
    have hwrites : WritesHex [ch '0', ch '0', hexDigit (b.toNat / 16), hexDigit (b.toNat % 16)]
        c.val.toNat := by
      refine ⟨0, 0, b.toNat / 16, b.toNat % 16, ?_, by omega⟩
      simp only [List.map_cons, List.map_nil, hzero,
        codepointDigit_hexDigit (b.toNat / 16) (by omega),
        codepointDigit_hexDigit (b.toNat % 16) (by omega)]
    exact .unicode hwrites
  · have hhigh : 0x1F < b.toNat := by
      rw [UInt8.le_iff_toNat_le] at h₈
      exact Nat.lt_of_not_le h₈
    have hencode : String.utf8EncodeChar c = [b] := by
      simp only [String.utf8EncodeChar]
      rw [if_pos (by omega), ← hb]
      exact congrArg (fun b => [b]) UInt8.ofNat_toNat
    rw [← hencode]
    refine .raw (by omega) ?_ ?_
    · rintro rfl
      exact h₆ ((ch_toNat_iff hb (by decide)).mpr rfl)
    · rintro rfl
      exact h₇ ((ch_toNat_iff hb (by decide)).mpr rfl)

/-- What `dump_escaped` writes for a character spells it. -/
theorem spells_escape (c : Char) : Spells ((String.utf8EncodeChar c).flatMap escape) c := by
  by_cases hc : c.val.toNat < 0x80
  · have hencode : String.utf8EncodeChar c = [UInt8.ofNat c.val.toNat] := by
      simp only [String.utf8EncodeChar]
      rw [if_pos (by omega)]
    rw [hencode, List.flatMap_singleton]
    refine spells_escape_ascii ?_ hc
    rw [UInt8.toNat_ofNat']
    omega
  · have hbytes : ∀ b ∈ String.utf8EncodeChar c, 0x80 ≤ b.toNat := by
      have hvalid := char_valid c
      intro b hb
      unfold String.utf8EncodeChar at hb
      generalize c.val.toNat = v at *
      simp only at hb
      split_ifs at hb <;> simp only [List.mem_cons, List.not_mem_nil, or_false] at hb <;>
        rcases hb with rfl | rfl | rfl | rfl <;> rw [UInt8.toNat_ofNat'] <;> omega
    have hself : (String.utf8EncodeChar c).flatMap escape = String.utf8EncodeChar c := by
      rw [List.flatMap_congr fun b hb => escape_of_le (hbytes b hb)]
      exact List.flatMap_singleton' _
    rw [hself]
    refine .raw (by omega) ?_ ?_ <;> rintro rfl <;> exact absurd hc (by decide)

/-- A string that was dumped is read back. -/
theorem scanString_dumpEscaped {s t : Str} (h : dumpEscaped s = .ok t) (rest : Str) :
    scanString (t ++ ch '"' :: rest) = some (s, rest) := by
  unfold dumpEscaped at h
  split_ifs at h with hutf8
  obtain ⟨cs, rfl⟩ := utf8Accepts_iff_wellFormed.mp hutf8
  cases h
  refine scanString_iff.mpr
    ⟨cs.map fun c => ((String.utf8EncodeChar c).flatMap escape, c), ?_, ?_, ?_⟩
  · intro p hp
    obtain ⟨c, -, rfl⟩ := List.mem_map.mp hp
    exact spells_escape c
  · rw [List.flatMap_map, List.flatMap_assoc]
  · rw [List.map_map]
    exact congrArg (List.flatMap String.utf8EncodeChar) (List.map_id _).symm

/-- The text of a string, whatever comes behind it. -/
theorem scan_quoted {s t : Str} (h : dumpEscaped s = .ok t) (rest : Str) :
    scan (ch '"' :: (t ++ ch '"' :: rest)) = some (some (.valueString s), rest) := by
  have hread : scan (ch '"' :: (t ++ ch '"' :: rest)) =
      (scanString (t ++ ch '"' :: rest)).map fun r => (some (.valueString r.1), r.2) := rfl
  rw [hread, scanString_dumpEscaped h, Option.map_some]

/-- The tokens of a member. -/
theorem readsTokens_member {key value t rest : Str} (h : dumpMember key value = .ok t)
    {ts : List Token} (hts : ReadsTokens rest ts) :
    ReadsTokens (t ++ rest) (.valueString key :: .nameSeparator :: .valueString value :: ts) := by
  unfold dumpMember at h
  split at h
  · rename_i k v hk hv
    cases h
    have htext : str "\"" ++ k ++ str "\":\"" ++ v ++ str "\"" ++ rest =
        ch '"' :: (k ++ ch '"' :: ch ':' :: ch '"' :: (v ++ ch '"' :: rest)) := by
      simp [show str "\"" = [ch '"'] by decide,
        show str "\":\"" = [ch '"', ch ':', ch '"'] by decide]
    rw [htext]
    exact .cons (scan_quoted hk _) (.cons rfl (.cons (scan_quoted hv _) hts))
  · cases h
  · cases h

end Lexer

/-- The text of an object of strings, as a document. -/
def docOf (members : List (Str × Str)) : JsonParser.Doc :=
  .object (members.map fun m => (m.1, .scalar (.valueString m.2) (.string m.2) rfl))

namespace Lexer

theorem readsTokens_members {members : List (Str × Str)} {texts : List Str}
    (h : dumpMembers members = .ok texts) {rest : Str} {ts : List Token}
    (hts : ReadsTokens rest ts) :
    ReadsTokens (List.intercalate (str ",") texts ++ rest)
      (List.intercalate [.valueSeparator] (members.map fun m =>
        [.valueString m.1, .nameSeparator, .valueString m.2]) ++ ts) := by
  induction members generalizing texts with
  | nil =>
    cases h
    exact hts
  | cons m members ih =>
    obtain ⟨key, value⟩ := m
    unfold dumpMembers at h
    split at h
    · rename_i t us ht hus
      cases h
      by_cases hnil : members = []
      · subst hnil
        cases hus
        rw [List.intercalate_singleton, List.map_singleton, List.intercalate_singleton]
        exact readsTokens_member ht hts
      · have hus' : us ≠ [] := by
          rintro rfl
          cases members with
          | nil => exact hnil rfl
          | cons m' members =>
            obtain ⟨key', value'⟩ := m'
            unfold dumpMembers at hus
            split at hus <;> cases hus
        have hmap : (members.map fun m : Str × Str =>
            [Token.valueString m.1, .nameSeparator, .valueString m.2]) ≠ [] := by
          simpa using hnil
        rw [List.intercalate_cons_of_ne_nil hus', List.map_cons,
          List.intercalate_cons_of_ne_nil hmap, List.append_assoc, List.append_assoc,
          List.append_assoc]
        exact readsTokens_member ht (.cons rfl (ih hus))
    · cases h
    · cases h

theorem tokens_dumpObject {members : List (Str × Str)} {text : Str}
    (h : dumpObject members = .ok text) : tokens text = some (docOf members).tokens := by
  unfold dumpObject at h
  split at h
  · rename_i texts htexts
    cases h
    have hend : ReadsTokens (str "\x7d") [.endObject] := ⟨[], .item rfl (.stop rfl)⟩
    have hreads := ReadsTokens.cons
      (s := ch '\x7b' :: (List.intercalate (str ",") texts ++ str "\x7d")) rfl
      (readsTokens_members htexts hend)
    have hbom : skipBom (str "\x7b" ++ List.intercalate (str ",") texts ++ str "\x7d") =
        some (ch '\x7b' :: (List.intercalate (str ",") texts ++ str "\x7d")) := rfl
    rw [(tokens_iff hbom).mpr hreads, docOf, JsonParser.Doc.tokens_object, List.map_map]
    rfl
  · cases h

end Lexer

/-- An object of strings is read back from its text. -/
theorem parseText_dumpObject {members : List (Str × Str)} {text : Str}
    (h : dumpObject members = .ok text) : parseText text = some (docOf members).value := by
  rw [parseText, Lexer.tokens_dumpObject h, Option.bind_some, JsonParser.parseTokens_iff]
  exact ⟨docOf members, rfl, rfl⟩

/-! ## The library keeps to what the program relies on -/

theorem lookup_cons_ite (m : Str × Json) (members : List (Str × Json)) (k : Str) :
    (m :: members).lookup k = if k = m.1 then some m.2 else members.lookup k := by
  rw [List.lookup_cons]
  by_cases h : k = m.1
  · rw [beq_iff_eq.mpr h, if_pos h]
  · rw [beq_false_of_ne h, if_neg h]

theorem lookup_assign (key : Str) (j : Json) (members : List (Str × Json)) (k : Str) :
    (assign key j members).lookup k = if k = key then some j else members.lookup k := by
  induction members with
  | nil => exact lookup_cons_ite (key, j) [] k
  | cons m members ih =>
    by_cases hkey : key = m.1
    · rw [assign, if_pos hkey, lookup_cons_ite, lookup_cons_ite, ← hkey]
      split_ifs <;> rfl
    by_cases hlt : key < m.1
    · rw [assign, if_neg hkey, if_pos hlt, lookup_cons_ite]
    · rw [assign, if_neg hkey, if_neg hlt, lookup_cons_ite, lookup_cons_ite, ih]
      by_cases hk : k = m.1
      · rw [if_pos hk, if_pos hk, if_neg fun e => hkey (e.symm.trans hk)]
      · rw [if_neg hk, if_neg hk]

/-- Of members with the same key the last one is found. -/
theorem lookup_membersOf (ms : List (Str × JsonParser.Doc)) (k : Str) :
    (JsonParser.membersOf ms).lookup k =
      (ms.reverse.map fun m => (m.1, m.2.value)).lookup k := by
  induction ms using List.reverseRecOn with
  | nil => rfl
  | append_singleton ms m ih =>
    rw [JsonParser.membersOf_append, lookup_assign, ih, List.reverse_append, List.reverse_singleton,
      List.singleton_append, List.map_cons, lookup_cons_ite]

theorem docOf_value (members : List (Str × Str)) : ∃ ms, (docOf members).value = .object ms ∧
    ∀ k, ms.lookup k = (members.reverse.map fun m => (m.1, Json.string m.2)).lookup k := by
  refine ⟨_, JsonParser.Doc.value_object _, fun k => ?_⟩
  have hlookup := lookup_membersOf (members.map fun m =>
    (m.1, JsonParser.Doc.scalar (.valueString m.2) (.string m.2) rfl)) k
  rw [← List.map_reverse, List.map_map] at hlookup
  exact hlookup

theorem closing_brace {members : List (Str × Str)} {text : Str}
    (h : dumpObject members = .ok text) : text.getLast? = some (ch '\x7d') := by
  unfold dumpObject at h
  split at h
  · cases h
    exact List.getLast?_concat
  · cases h

/-- **The parser of the library keeps to what the program relies on.** -/
theorem parsesExactly_parseText : ParsesExactly parseText where
  readsBack members text hn h := by
    obtain ⟨ms, hvalue, hlookup⟩ := docOf_value members
    refine ⟨_, parseText_dumpObject h, fun m hm => ⟨ms, hvalue, ?_⟩⟩
    have hn' : (members.reverse.map Prod.fst).Nodup := by
      rw [List.map_reverse]
      exact (List.reverse_perm _).nodup_iff.mpr hn
    rw [hlookup]
    exact lookup_of_mem_of_nodup hn' (List.mem_reverse.mpr hm)
  rejectsCut members text n h hn := by
    have hsplit : text.take n ++ text.drop n = text := List.take_append_drop n text
    have hzero : 0 ∉ text := zero_notMem_dumpObject h
    cases hj : parseText (text.take n) with
    | none => rfl
    | some j =>
      obtain ⟨ms, hvalue, -⟩ := docOf_value members
      have hfull : parseText (text.take n ++ text.drop n) = some (.object ms) := by
        rw [hsplit, parseText_dumpObject h, hvalue]
      obtain ⟨-, hend⟩ := parseText_prefix hj (fun h0 => hzero (List.mem_of_mem_take h0)) hfull
        (fun _ => Json.noConfusion)
      have hlast : ch '\x7d' ∈ text.drop n := by
        have hne : text.drop n ≠ [] := by
          rw [ne_eq, List.drop_eq_nil_iff]
          omega
        have hget := closing_brace h
        rw [← hsplit, List.getLast?_append_of_ne_nil _ hne] at hget
        exact List.mem_of_getLast? hget
      rcases hend.cases with hspace | h0
      · exact absurd (hspace _ hlast) (by decide)
      · exact absurd (List.mem_of_mem_drop h0) hzero
  utf8 text j key s h hs := by
    obtain ⟨members, rfl, hl⟩ := hs
    obtain ⟨l₁, l₂, rfl, -⟩ := List.lookup_eq_some_iff.mp hl
    exact parseText_utf8 h (.member (m := (key, .string s)) (by simp) (.string s))
  noOther members text j key s hdump h hs := by
    obtain ⟨ms, hvalue, hlookup⟩ := docOf_value members
    rw [parseText_dumpObject hdump, hvalue] at h
    cases h
    obtain ⟨_, he, hl⟩ := hs
    cases he
    rw [hlookup] at hl
    obtain ⟨l₁, l₂, hsplit, -⟩ := List.lookup_eq_some_iff.mp hl
    have hmem : (key, Json.string s) ∈ members.reverse.map fun m => (m.1, Json.string m.2) := by
      rw [hsplit]
      simp
    obtain ⟨m, hm, he⟩ := List.mem_map.mp hmem
    cases he
    exact List.mem_reverse.mp hm

end ParkManager
