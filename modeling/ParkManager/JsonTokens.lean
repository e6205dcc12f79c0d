import ParkManager.JsonLexer

/-!
# Tokens

What `scan` makes of an input behind which more input stands.

Proved here:

* `scanToken_cases`: what `scan` does, by the first character;
* `scan_append`: a token is read in the same way whatever comes behind it, unless it is a
  number at the end;
* `ReadsTokens.append`: so an input is read, and then what stands behind it;
* `ReadsTokens.utf8`: the strings that are read are UTF-8.
-/

namespace ParkManager

namespace Lexer

/-! ## Tokens -/

/-- Every token but a number shows where it ends. -/
def Closed : Token → Prop
  | .valueNumber _ => False
  | _ => True

theorem scanLiteral_some {literal s rest : Str} {token : Token} {t : Option Token}
    (h : scanLiteral literal token s = some (t, rest)) : t = some token ∧ s = literal ++ rest := by
  unfold scanLiteral at h
  split_ifs at h with hprefix
  obtain ⟨rfl, rfl⟩ := Prod.mk.inj (Option.some.inj h)
  obtain ⟨u, rfl⟩ := hprefix
  rw [List.drop_left]
  exact ⟨rfl, rfl⟩

theorem scanLiteral_append (literal : Str) (token : Token) (rest : Str) :
    scanLiteral literal token (literal ++ rest) = some (some token, rest) := by
  rw [scanLiteral, if_pos (List.prefix_append ..), List.drop_left]

/-- A string literal shows where it ends. -/
theorem scanString_append {s v rest : Str} (h : scanString s = some (v, rest)) (q : Str) :
    scanString (s ++ q) = some (v, rest ++ q) := by
  obtain ⟨l, hl, rfl, rfl⟩ := scanString_iff.mp h
  exact scanString_iff.mpr ⟨l, hl, by simp, rfl⟩

theorem numberFrom_append {label : NumberLabel} {s text rest : Str}
    (h : numberFrom label s = some (text, rest)) (hrest : rest ≠ []) (q : Str) :
    numberFrom label (s ++ q) = some (text, rest ++ q) := by
  induction s generalizing label text with
  | nil =>
    rw [numberFrom] at h
    split_ifs at h
    obtain ⟨-, rfl⟩ := Prod.mk.inj (Option.some.inj h)
    exact absurd rfl hrest
  | cons b s ih =>
    rw [List.cons_append, numberFrom]
    rw [numberFrom] at h
    cases hjump : numberJump b label with
    | goto label' =>
      rw [hjump] at h
      obtain ⟨⟨text', rest'⟩, hread, he⟩ := Option.map_eq_some_iff.mp h
      obtain ⟨rfl, rfl⟩ := Prod.mk.inj he
      simp only [ih hread, Option.map_some]
    | done =>
      rw [hjump] at h
      obtain ⟨rfl, rfl⟩ := Prod.mk.inj (Option.some.inj h)
      rfl
    | error =>
      rw [hjump] at h
      cases h

/-- The token carries no text. -/
def Fixed : Token → Prop
  | .valueString _ => False
  | .valueNumber _ => False
  | _ => True

/-- What `scan` does, by the character it stops the white space at. -/
theorem scanToken_cases (current : UInt8) :
    (∃ token, Fixed token ∧
      ∀ s, scanToken (current :: s) = some (some token, s)) ∨
    (∃ literal token, Fixed token ∧
      ∀ s, scanToken (current :: s) = scanLiteral literal token s) ∨
    (current = ch '"' ∧ ∀ s, scanToken (current :: s) =
      (scanString s).map fun r => (some (.valueString r.1), r.2)) ∨
    (∀ s, scanToken (current :: s) =
      (scanNumber current s).map fun r => (some (.valueNumber r.1), r.2)) ∨
    (current = 0 ∧ ∀ s, scanToken (current :: s) = some (none, s)) ∨
    (∀ s, scanToken (current :: s) = none) := by
  cases hstruct : structural current with
  | some token =>
    refine Or.inl ⟨token, ?_, fun s => by rw [scanToken, hstruct]⟩
    unfold structural at hstruct
    split_ifs at hstruct <;> cases hstruct <;> trivial
  | none =>
    simp only [scanToken, hstruct]
    split_ifs with ht hf hn hquote hnumber h0
    · exact Or.inr (Or.inl ⟨_, .literalTrue, trivial, fun _ => rfl⟩)
    · exact Or.inr (Or.inl ⟨_, .literalFalse, trivial, fun _ => rfl⟩)
    · exact Or.inr (Or.inl ⟨_, .literalNull, trivial, fun _ => rfl⟩)
    · exact Or.inr (Or.inr (Or.inl ⟨hquote, fun _ => rfl⟩))
    · exact Or.inr (Or.inr (Or.inr (Or.inl fun _ => rfl)))
    · exact Or.inr (Or.inr (Or.inr (Or.inr (Or.inl ⟨h0, fun _ => rfl⟩))))
    · exact Or.inr (Or.inr (Or.inr (Or.inr (Or.inr fun _ => rfl))))

/-- A token is read in the same way if more input stands behind it. -/
theorem scanToken_append {s rest : Str} {t : Token} (h : scanToken s = some (some t, rest))
    (hclosed : Closed t ∨ rest ≠ []) (q : Str) :
    scanToken (s ++ q) = some (some t, rest ++ q) := by
  cases s with
  | nil => cases h
  | cons current s =>
    rw [List.cons_append]
    rcases scanToken_cases current with ⟨token, -, hscan⟩ | ⟨literal, token, -, hscan⟩ |
      ⟨-, hscan⟩ | hscan | ⟨-, hscan⟩ | hscan <;> rw [hscan] at h ⊢
    · cases h
      rfl
    · obtain ⟨ht, rfl⟩ := scanLiteral_some h
      rw [List.append_assoc, scanLiteral_append, ht]
    · obtain ⟨⟨v, rest'⟩, hread, he⟩ := Option.map_eq_some_iff.mp h
      cases he
      rw [scanString_append hread, Option.map_some]
    · obtain ⟨⟨text, rest'⟩, hread, he⟩ := Option.map_eq_some_iff.mp h
      cases he
      obtain ⟨⟨text', rest''⟩, hfrom, he'⟩ := Option.map_eq_some_iff.mp hread
      cases he'
      rw [scanNumber, numberFrom_append hfrom (hclosed.resolve_left id)]
      rfl
    · cases h
    · cases h

theorem scan_append {s rest : Str} {t : Token} (h : scan s = some (some t, rest))
    (hclosed : Closed t ∨ rest ≠ []) (q : Str) : scan (s ++ q) = some (some t, rest ++ q) := by
  unfold scan at h ⊢
  have hne : s.dropWhile isWhitespace ≠ [] := by
    intro hnil
    rw [hnil] at h
    cases h
  rw [List.dropWhile_append, if_neg (by simpa using hne)]
  exact scanToken_append h hclosed q

/-- What begins with a number still does if more input stands behind it. -/
theorem scan_number_append {s rest rest' q : Str} {text : Str} {t : Option Token}
    (h : scan s = some (some (.valueNumber text), rest)) (h' : scan (s ++ q) = some (t, rest')) :
    ∃ text', t = some (.valueNumber text') := by
  unfold scan at h h'
  cases hs : s.dropWhile isWhitespace with
  | nil =>
    rw [hs] at h
    cases h
  | cons current u =>
    rw [List.dropWhile_append, hs, if_neg (by simp), List.cons_append] at h'
    rw [hs] at h
    rcases scanToken_cases current with ⟨token, hfixed, hscan⟩ | ⟨literal, token, hfixed, hscan⟩ |
      ⟨-, hscan⟩ | hscan | ⟨-, hscan⟩ | hscan <;> rw [hscan] at h h'
    · cases h
      exact hfixed.elim
    · cases (scanLiteral_some h).1
      exact hfixed.elim
    · obtain ⟨_, _, he⟩ := Option.map_eq_some_iff.mp h
      cases he
    · obtain ⟨_, _, he⟩ := Option.map_eq_some_iff.mp h'
      cases he
      exact ⟨_, rfl⟩
    · cases h
    · cases h

/-- `token_type::end_of_input` comes next. -/
def AtEnd (s : Str) : Prop := ∃ rest, scan s = some (none, rest)

/-- The input ends in white space, or at a NUL. -/
theorem AtEnd.cases {s : Str} (h : AtEnd s) : (∀ b ∈ s, isWhitespace b = true) ∨ 0 ∈ s := by
  obtain ⟨rest, h⟩ := h
  unfold scan at h
  cases hs : s.dropWhile isWhitespace with
  | nil => exact Or.inl fun b hb => List.dropWhile_eq_nil_iff.mp hs b hb
  | cons current t =>
    rw [hs] at h
    have hmem : current ∈ s := (List.dropWhile_suffix _).subset (hs ▸ List.mem_cons_self)
    rcases scanToken_cases current with ⟨token, -, hscan⟩ | ⟨literal, token, -, hscan⟩ |
      ⟨-, hscan⟩ | hscan | ⟨rfl, -⟩ | hscan
    · rw [hscan] at h; cases h
    · rw [hscan] at h
      cases (scanLiteral_some h).1
    · rw [hscan] at h
      obtain ⟨_, _, he⟩ := Option.map_eq_some_iff.mp h
      cases he
    · rw [hscan] at h
      obtain ⟨_, _, he⟩ := Option.map_eq_some_iff.mp h
      cases he
    · exact Or.inr hmem
    · rw [hscan] at h; cases h

theorem numberFrom_split {label : NumberLabel} {s text rest : Str}
    (h : numberFrom label s = some (text, rest)) : s = text ++ rest := by
  induction s generalizing label text with
  | nil =>
    rw [numberFrom] at h
    split_ifs at h
    cases h
    rfl
  | cons b s ih =>
    rw [numberFrom] at h
    cases hjump : numberJump b label with
    | goto label' =>
      rw [hjump] at h
      obtain ⟨⟨text', rest'⟩, hread, he⟩ := Option.map_eq_some_iff.mp h
      cases he
      rw [List.cons_append, ← ih hread]
    | done =>
      rw [hjump] at h
      cases h
      rfl
    | error =>
      rw [hjump] at h
      cases h

theorem scanToken_suffix {current : UInt8} {s rest : Str} {t : Option Token}
    (h : scanToken (current :: s) = some (t, rest)) : rest <:+ s := by
  rcases scanToken_cases current with ⟨token, -, hscan⟩ | ⟨literal, token, -, hscan⟩ |
    ⟨-, hscan⟩ | hscan | ⟨-, hscan⟩ | hscan <;> rw [hscan] at h
  · cases h
    exact List.suffix_rfl
  · rw [(scanLiteral_some h).2]
    exact List.suffix_append ..
  · obtain ⟨⟨v, rest'⟩, hread, he⟩ := Option.map_eq_some_iff.mp h
    cases he
    obtain ⟨l, -, rfl, -⟩ := scanString_iff.mp hread
    exact (List.suffix_cons ..).trans (List.suffix_append ..)
  · obtain ⟨⟨text, rest'⟩, hread, he⟩ := Option.map_eq_some_iff.mp h
    cases he
    obtain ⟨⟨text', rest''⟩, hfrom, he'⟩ := Option.map_eq_some_iff.mp hread
    cases he'
    rw [numberFrom_split hfrom]
    exact List.suffix_append ..
  · cases h
    exact List.suffix_rfl
  · cases h

theorem scan_suffix {s rest : Str} {t : Token} (h : scan s = some (some t, rest)) :
    rest <:+ s ∧ rest.length < s.length := by
  unfold scan at h
  have hdrop : s.dropWhile isWhitespace <:+ s := List.dropWhile_suffix _
  cases hs : s.dropWhile isWhitespace with
  | nil =>
    rw [hs] at h
    cases h
  | cons current u =>
    rw [hs] at h hdrop
    have hrest := scanToken_suffix h
    exact ⟨(hrest.trans (List.suffix_cons ..)).trans hdrop,
      Nat.lt_of_lt_of_le (Nat.lt_succ_of_le hrest.length_le) hdrop.length_le⟩

theorem consumes_scan : Scan.Consumes scan := fun _ _ _ h => (scan_suffix h).2

/-- The tokens that are read up to the end of the input. -/
def ReadsTokens (s : Str) (ts : List Token) : Prop := ∃ rest, Scan.Reads scan s ts rest

theorem tokens_iff {text s : Str} (hbom : skipBom text = some s) {ts : List Token} :
    tokens text = some ts ↔ ReadsTokens s ts := by
  have hall : tokens text = (Scan.all scan s).map Prod.fst := by
    rw [tokens, hbom, Option.bind_some]
  rw [hall, Option.map_eq_some_iff]
  constructor
  · rintro ⟨⟨ts, rest⟩, hread, rfl⟩
    exact ⟨rest, (Scan.all_eq_some_iff consumes_scan).mp hread⟩
  · rintro ⟨rest, hread⟩
    exact ⟨(ts, rest), (Scan.all_eq_some_iff consumes_scan).mpr hread, rfl⟩

theorem ReadsTokens.cons {s rest : Str} {t : Token} {ts : List Token}
    (h : scan s = some (some t, rest)) (more : ReadsTokens rest ts) : ReadsTokens s (t :: ts) := by
  obtain ⟨last, more⟩ := more
  exact ⟨last, .item h more⟩

theorem ReadsTokens.congr {s s' : Str} (hs : scan s = scan s') {ts : List Token}
    (h : ReadsTokens s ts) : ReadsTokens s' ts := by
  obtain ⟨rest, h⟩ := h
  cases h with
  | stop hstop => exact ⟨rest, .stop (hs ▸ hstop)⟩
  | item hstep more => exact ⟨rest, .item (hs ▸ hstep) more⟩

/-- White space in front of a token is skipped. -/
theorem scan_whitespace {s : Str} (hs : ∀ b ∈ s, isWhitespace b = true) (q : Str) :
    scan (s ++ q) = scan q := by
  rw [scan, scan, List.dropWhile_append_of_pos hs]

/-- More input behind an input that was read is read on, unless there is a NUL or a number
goes on. -/
theorem ReadsTokens.append {s : Str} {ts : List Token} (h : ReadsTokens s ts)
    (hlast : ∀ t, ts.getLast? = some t → Closed t) (hzero : 0 ∉ s) {q : Str} {us : List Token}
    (hq : ReadsTokens (s ++ q) us) : ∃ vs, us = ts ++ vs ∧ ReadsTokens q vs := by
  obtain ⟨rest, h⟩ := h
  induction h generalizing us with
  | stop hstop =>
    have hspace := (AtEnd.cases ⟨_, hstop⟩).resolve_right hzero
    exact ⟨us, rfl, hq.congr (scan_whitespace hspace q)⟩
  | @item s t rest b bs hstep more ih =>
    have hlast' : ∀ c, bs.getLast? = some c → Closed c := by
      intro c hc
      refine hlast c ?_
      rw [List.getLast?_cons, hc]
      rfl
    have hclosed : Closed b ∨ t ≠ [] := by
      by_cases ht : t = []
      · subst ht
        cases more with
        | stop => exact Or.inl (hlast b rfl)
        | item hnil => cases hnil
      · exact Or.inr ht
    obtain ⟨last, hq⟩ := hq
    have hstep' := scan_append hstep hclosed q
    cases hq with
    | stop hstop => cases hstep'.symm.trans hstop
    | item hitem hmore =>
      cases hstep'.symm.trans hitem
      have hzero' : 0 ∉ t := fun h0 => hzero ((scan_suffix hstep).1.subset h0)
      obtain ⟨vs, rfl, hvs⟩ := ih hlast' hzero' ⟨last, hmore⟩
      exact ⟨vs, rfl, hvs⟩

/-- A string token is UTF-8. -/
theorem ReadsTokens.utf8 {s v : Str} {ts : List Token} (h : ReadsTokens s ts)
    (hv : Token.valueString v ∈ ts) : utf8Accepts v = true := by
  obtain ⟨rest, h⟩ := h
  induction h with
  | stop => cases hv
  | item hstep _ ih =>
    rcases List.mem_cons.mp hv with rfl | hv
    · unfold scan at hstep
      generalize List.dropWhile isWhitespace _ = u at hstep
      cases u with
      | nil => cases hstep
      | cons current u =>
        rcases scanToken_cases current with ⟨token, hfixed, hscan⟩ |
          ⟨literal, token, hfixed, hscan⟩ | ⟨-, hscan⟩ | hscan |
          ⟨-, hscan⟩ | hscan <;> rw [hscan] at hstep
        · cases hstep
          exact hfixed.elim
        · cases (scanLiteral_some hstep).1
          exact hfixed.elim
        · obtain ⟨⟨v', rest'⟩, hread, he⟩ := Option.map_eq_some_iff.mp hstep
          cases he
          obtain ⟨l, -, -, rfl⟩ := scanString_iff.mp hread
          exact utf8Accepts_iff_wellFormed.mpr ⟨_, rfl⟩
        · obtain ⟨_, _, he⟩ := Option.map_eq_some_iff.mp hstep
          cases he
        · cases hstep
        · cases hstep
    · exact ih hv

end Lexer

end ParkManager
