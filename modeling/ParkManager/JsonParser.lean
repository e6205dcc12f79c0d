import ParkManager.JsonLexer

/-!
# The parser of `nlohmann::json`

`sax_parse_internal` with the values that `json_sax_dom_parser` builds.  The parser is
what it keeps between two calls of `get_token`: the open arrays and objects (`states`
and `ref_stack`), and what it takes the next token for.  It returns nothing where the
library throws.

Proved here:

* `isRead`: wherever a value is expected, the tokens of a text are read as its value;
* `after_step`, `after_run`: what was read to get to a state are the tokens of a text as
  far as the state says;
* `parseTokens_iff`: so the texts that are read are those of JSON.
-/

namespace ParkManager

/-- Assignment to the element of a key of a `std::map`. -/
def assign (key : Str) (j : Json) : List (Str × Json) → List (Str × Json)
  | [] => [(key, j)]
  | m :: members =>
    if key = m.1 then (key, j) :: members
    else if key < m.1 then (key, j) :: m :: members
    else m :: assign key j members

namespace JsonParser

open Token

/-! ## Numbers -/

/-- The digits of a number without its point, and the power of ten they are a multiple of. -/
def mantissa (text : Str) : ℕ × ℤ :=
  let (_, text) := takeSign text
  let whole := text.takeWhile isDigit
  let rest := text.drop whole.length
  let fraction := if rest.head? = some (ch '.') then rest.tail.takeWhile isDigit else []
  let rest := if rest.head? = some (ch '.') then rest.tail.drop fraction.length else rest
  let (negative, exponent) := takeSign rest.tail
  let e : ℤ := digitsValue (exponent.takeWhile isDigit)
  (digitsValue (whole ++ fraction), (if negative then -e else e) - fraction.length)

/-- `strtod` gives a finite number: what is at least this large is rounded to infinity. -/
def isfinite (text : Str) : Bool :=
  let (n, e) := mantissa text
  n * 10 ^ e.toNat < (2 ^ 1024 - 2 ^ 970) * 10 ^ (-e).toNat

/-! ## The parser -/

/-- An open array, or an open object and the last key read in it. -/
inductive Frame
  | array (elements : List Json)
  | object (members : List (Str × Json)) (key : Str)

/-- What the next token is taken for. -/
inductive Expected
  | value
  /-- A value, or the end of an array. -/
  | firstElement
  /-- A key, or the end of an object. -/
  | firstKey
  | key
  | nameSeparator
  /-- The end of the array or object on top, or one more element or member. -/
  | separator
  | endOfInput (root : Json)

structure State where
  stack : List Frame
  expected : Expected

/-- The value of a token that is one by itself. -/
def scalar : Token → Option Json
  | literalNull => some .null
  | literalTrue => some (.boolean true)
  | literalFalse => some (.boolean false)
  | valueString s => some (.string s)
  | valueNumber text => if isfinite text then some (.number text) else none
  | _ => none

/-- `handle_value`, for a value that is complete. -/
def put (stack : List Frame) (j : Json) : State :=
  match stack with
  | [] => ⟨[], .endOfInput j⟩
  | .array elements :: stack => ⟨.array (elements ++ [j]) :: stack, .separator⟩
  | .object members key :: stack => ⟨.object (assign key j members) key :: stack, .separator⟩

/-- The token at the top of the loop. -/
def beginValue (stack : List Frame) : Token → Option State
  | beginObject => some ⟨.object [] [] :: stack, .firstKey⟩
  | beginArray => some ⟨.array [] :: stack, .firstElement⟩
  | t => (scalar t).map (put stack)

/-- `get_token`, and what the parser does with the token. -/
def step : State → Token → Option State
  | ⟨stack, .value⟩, t => beginValue stack t
  | ⟨.array elements :: stack, .firstElement⟩, endArray => some (put stack (.array elements))
  | ⟨stack, .firstElement⟩, t => beginValue stack t
  | ⟨.object members _ :: stack, .firstKey⟩, endObject => some (put stack (.object members))
  | ⟨.object members _ :: stack, .firstKey⟩, valueString key =>
    some ⟨.object members key :: stack, .nameSeparator⟩
  | ⟨.object members _ :: stack, .key⟩, valueString key =>
    some ⟨.object members key :: stack, .nameSeparator⟩
  | ⟨stack, .nameSeparator⟩, nameSeparator => some ⟨stack, .value⟩
  | ⟨.array elements :: stack, .separator⟩, valueSeparator =>
    some ⟨.array elements :: stack, .value⟩
  | ⟨.array elements :: stack, .separator⟩, endArray => some (put stack (.array elements))
  | ⟨.object members key :: stack, .separator⟩, valueSeparator =>
    some ⟨.object members key :: stack, .key⟩
  | ⟨.object members _ :: stack, .separator⟩, endObject => some (put stack (.object members))
  | _, _ => none

def run (st : State) (ts : List Token) : Option State := ts.foldlM step st

/-- `parse` on the tokens up to the end of the input. -/
def parseTokens (ts : List Token) : Option Json :=
  match run ⟨[], .value⟩ ts with
  | some ⟨[], .endOfInput j⟩ => some j
  | _ => none

/-! ## JSON texts -/

/-- A JSON text, token by token. -/
inductive Doc
  | scalar (token : Token) (j : Json) (h : scalar token = some j)
  | array (elements : List Doc)
  | object (members : List (Str × Doc))

namespace Doc

/-- The value that is written: of members with the same key the last one counts. -/
def assignAll (members : List (Str × Json)) : List (Str × Json) :=
  members.foldl (fun ms m => assign m.1 m.2 ms) []

mutual

def value : Doc → Json
  | scalar _ j _ => j
  | array elements => .array (values elements)
  | object members => .object (assignAll (memberValues members))

def values : List Doc → List Json
  | [] => []
  | d :: ds => d.value :: values ds

def memberValues : List (Str × Doc) → List (Str × Json)
  | [] => []
  | (key, d) :: ms => (key, d.value) :: memberValues ms

end

mutual

/-- The tokens it is written with. -/
def tokens : Doc → List Token
  | scalar token _ _ => [token]
  | array elements =>
    beginArray :: (List.intercalate [valueSeparator] (elementTokens elements) ++ [endArray])
  | object members =>
    beginObject :: (List.intercalate [valueSeparator] (memberTokens members) ++ [endObject])

def elementTokens : List Doc → List (List Token)
  | [] => []
  | d :: ds => d.tokens :: elementTokens ds

def memberTokens : List (Str × Doc) → List (List Token)
  | [] => []
  | (key, d) :: ms => (valueString key :: nameSeparator :: d.tokens) :: memberTokens ms

end

theorem values_eq (ds : List Doc) : values ds = ds.map value := by
  induction ds with
  | nil => rfl
  | cons d ds ih => rw [values, ih, List.map_cons]

theorem memberValues_eq (ms : List (Str × Doc)) :
    memberValues ms = ms.map fun m => (m.1, m.2.value) := by
  induction ms with
  | nil => rfl
  | cons m ms ih => rw [memberValues, ih, List.map_cons]

theorem elementTokens_eq (ds : List Doc) : elementTokens ds = ds.map tokens := by
  induction ds with
  | nil => rfl
  | cons d ds ih => rw [elementTokens, ih, List.map_cons]

/-- The tokens of a member. -/
def ofMember (m : Str × Doc) : List Token := valueString m.1 :: nameSeparator :: m.2.tokens

theorem memberTokens_eq (ms : List (Str × Doc)) : memberTokens ms = ms.map ofMember := by
  induction ms with
  | nil => rfl
  | cons m ms ih =>
    rw [memberTokens, ih, List.map_cons]
    rfl

/-- Induction over a text. -/
theorem induct {P : Doc → Prop} (hscalar : ∀ token j h, P (scalar token j h))
    (harray : ∀ ds, (∀ d ∈ ds, P d) → P (array ds))
    (hobject : ∀ ms, (∀ m ∈ ms, P m.2) → P (object ms)) (d : Doc) : P d :=
  @Doc.rec P (fun ds => ∀ d ∈ ds, P d) (fun ms => ∀ m ∈ ms, P m.2) (fun m => P m.2)
    hscalar harray hobject
    (fun _ h => (List.not_mem_nil h).elim) (fun _ _ h hs => List.forall_mem_cons.mpr ⟨h, hs⟩)
    (fun _ h => (List.not_mem_nil h).elim) (fun _ _ h hs => List.forall_mem_cons.mpr ⟨h, hs⟩)
    (fun _ _ h => h) d

theorem value_array (ds : List Doc) : (array ds).value = .array (ds.map value) := by
  rw [value, values_eq]

theorem value_object (ms : List (Str × Doc)) : (object ms).value =
    .object (ms.foldl (fun members m => assign m.1 m.2.value members) []) := by
  rw [value, memberValues_eq, assignAll, List.foldl_map]

theorem tokens_array (ds : List Doc) : (array ds).tokens =
    beginArray :: (List.intercalate [valueSeparator] (ds.map tokens) ++ [endArray]) := by
  rw [tokens, elementTokens_eq]

theorem tokens_object (ms : List (Str × Doc)) : (object ms).tokens =
    beginObject :: (List.intercalate [valueSeparator] (ms.map ofMember) ++ [endObject]) := by
  rw [tokens, memberTokens_eq]

end Doc

/-! ## Every text is read -/

theorem run_append (st : State) (ts us : List Token) :
    run st (ts ++ us) = (run st ts).bind fun st => run st us := List.foldlM_append

theorem run_cons (st : State) (t : Token) (ts : List Token) :
    run st (t :: ts) = (step st t).bind fun st => run st ts := List.foldlM_cons

theorem run_singleton (st : State) (t : Token) : run st [t] = step st t := by
  rw [run_cons]
  exact Option.bind_fun_some _

/-- Where a value is expected. -/
def TakesValue (e : Expected) : Prop := e = .value ∨ e = .firstElement

theorem step_takesValue {e : Expected} (he : TakesValue e) (stack : List Frame) {t : Token}
    (ht : t ≠ endArray) : step ⟨stack, e⟩ t = beginValue stack t := by
  rcases he with rfl | rfl
  · rfl
  · unfold step
    split <;> simp_all

/-- The text is read wherever a value is expected. -/
def IsRead (d : Doc) : Prop :=
  ∀ stack e, TakesValue e → run ⟨stack, e⟩ d.tokens = some (put stack d.value)

theorem run_elements {ds : List Doc} (hds : ∀ d ∈ ds, IsRead d) (hne : ds ≠ [])
    (stack : List Frame) (es : List Json) {e : Expected} (he : TakesValue e) :
    run ⟨.array es :: stack, e⟩ (List.intercalate [valueSeparator] (ds.map Doc.tokens)) =
      some ⟨.array (es ++ ds.map Doc.value) :: stack, .separator⟩ := by
  induction ds generalizing es e with
  | nil => exact absurd rfl hne
  | cons d ds ih =>
    obtain ⟨hd, hds⟩ := List.forall_mem_cons.mp hds
    have hread := hd (.array es :: stack) e he
    by_cases hds' : ds = []
    · rw [hds', List.map_cons, List.map_nil, List.intercalate_singleton, hread]
      rfl
    · have hne' : ds.map Doc.tokens ≠ [] := fun h => hds' (List.map_eq_nil_iff.mp h)
      have hcomma : step (put (.array es :: stack) d.value) valueSeparator =
          some ⟨.array (es ++ [d.value]) :: stack, .value⟩ := rfl
      rw [List.map_cons, List.intercalate_cons_of_ne_nil hne', List.append_assoc, run_append, hread,
        Option.bind_some, List.singleton_append, run_cons, hcomma, Option.bind_some,
        ih hds hds' _ (Or.inl rfl), List.append_assoc, List.singleton_append, List.map_cons]

theorem run_members {ms : List (Str × Doc)} (hms : ∀ m ∈ ms, IsRead m.2) (hne : ms ≠ [])
    (stack : List Frame) (members : List (Str × Json)) (key₀ : Str) {e : Expected}
    (he : e = .firstKey ∨ e = .key) :
    ∃ key, run ⟨.object members key₀ :: stack, e⟩
        (List.intercalate [valueSeparator] (ms.map Doc.ofMember)) =
      some ⟨.object (ms.foldl (fun members m => assign m.1 m.2.value members) members) key :: stack,
        .separator⟩ := by
  induction ms generalizing members key₀ e with
  | nil => exact absurd rfl hne
  | cons m ms ih =>
    obtain ⟨hm, hms⟩ := List.forall_mem_cons.mp hms
    have hread : run ⟨.object members key₀ :: stack, e⟩ (Doc.ofMember m) =
        some ⟨.object (assign m.1 m.2.value members) m.1 :: stack, .separator⟩ := by
      have hkey : step ⟨.object members key₀ :: stack, e⟩ (valueString m.1) =
          some ⟨.object members m.1 :: stack, .nameSeparator⟩ := by
        rcases he with rfl | rfl <;> rfl
      have hcolon : step ⟨.object members m.1 :: stack, .nameSeparator⟩ nameSeparator =
          some ⟨.object members m.1 :: stack, .value⟩ := rfl
      rw [Doc.ofMember, run_cons, hkey, Option.bind_some, run_cons, hcolon, Option.bind_some,
        hm _ _ (Or.inl rfl)]
      rfl
    by_cases hms' : ms = []
    · subst hms'
      exact ⟨m.1, by rw [List.map_cons, List.map_nil, List.intercalate_singleton, hread]; rfl⟩
    · have hne' : ms.map Doc.ofMember ≠ [] := fun h => hms' (List.map_eq_nil_iff.mp h)
      obtain ⟨key, hrest⟩ := ih hms hms' (assign m.1 m.2.value members) m.1 (Or.inr rfl)
      have hcomma : step ⟨.object (assign m.1 m.2.value members) m.1 :: stack, .separator⟩
          valueSeparator = some ⟨.object (assign m.1 m.2.value members) m.1 :: stack, .key⟩ := rfl
      refine ⟨key, ?_⟩
      rw [List.map_cons, List.intercalate_cons_of_ne_nil hne', List.append_assoc, run_append, hread,
        Option.bind_some, List.singleton_append, run_cons, hcomma, Option.bind_some, hrest,
        List.foldl_cons]

theorem scalar_ne {token : Token} {j : Json} (h : scalar token = some j) :
    token ≠ endArray ∧ token ≠ beginObject ∧ token ≠ beginArray := by
  refine ⟨?_, ?_, ?_⟩ <;> rintro rfl <;> cases h

theorem beginValue_scalar {token : Token} {j : Json} (h : scalar token = some j)
    (stack : List Frame) : beginValue stack token = some (put stack j) := by
  obtain ⟨-, hobject, harray⟩ := scalar_ne h
  unfold beginValue
  split
  · exact absurd rfl hobject
  · exact absurd rfl harray
  · rw [h, Option.map_some]

theorem isRead (d : Doc) : IsRead d := by
  induction d using Doc.induct with
  | hscalar token j h =>
    intro stack e he
    rw [Doc.tokens, run_singleton, step_takesValue he stack (scalar_ne h).1, beginValue_scalar h,
      Doc.value]
  | harray ds ih =>
    intro stack e he
    have hopen : step ⟨stack, e⟩ beginArray = some ⟨.array [] :: stack, .firstElement⟩ :=
      step_takesValue he stack (by decide)
    rw [Doc.tokens_array, Doc.value_array, run_cons, hopen, Option.bind_some, run_append]
    by_cases hds : ds = []
    · subst hds
      rfl
    · rw [run_elements ih hds stack [] (Or.inr rfl), Option.bind_some, run_singleton]
      rfl
  | hobject ms ih =>
    intro stack e he
    have hopen : step ⟨stack, e⟩ beginObject = some ⟨.object [] [] :: stack, .firstKey⟩ :=
      step_takesValue he stack (by decide)
    rw [Doc.tokens_object, Doc.value_object, run_cons, hopen, Option.bind_some, run_append]
    by_cases hms : ms = []
    · subst hms
      rfl
    · obtain ⟨key, hrun⟩ := run_members ih hms stack [] [] (Or.inl rfl)
      rw [hrun, Option.bind_some, run_singleton]
      rfl

/-! ## Nothing else is read -/

/-- Elements or members, each with a comma behind it. -/
def opened (parts : List (List Token)) : List Token := parts.flatMap (· ++ [valueSeparator])

theorem opened_append (parts : List (List Token)) (ts : List Token) :
    opened parts ++ ts = List.intercalate [valueSeparator] (parts ++ [ts]) := by
  induction parts with
  | nil => exact (List.intercalate_singleton).symm
  | cons p parts ih =>
    have hne : parts ++ [ts] ≠ [] := List.append_ne_nil_of_right_ne_nil _ (List.cons_ne_nil _ _)
    rw [List.cons_append, List.intercalate_cons_of_ne_nil hne, ← ih, opened, List.flatMap_cons,
      opened, List.append_assoc]

theorem opened_eq {parts : List (List Token)} (hne : parts ≠ []) :
    opened parts = List.intercalate [valueSeparator] parts ++ [valueSeparator] := by
  obtain ⟨init, last, rfl⟩ := (List.eq_nil_or_concat parts).resolve_left hne
  rw [List.concat_eq_append, ← opened_append, opened, List.flatMap_append, List.append_assoc,
    List.flatMap_singleton]
  rfl

/-- The members of a text, as the parser keeps them. -/
def membersOf (ms : List (Str × Doc)) : List (Str × Json) :=
  ms.foldl (fun members m => assign m.1 m.2.value members) []

theorem membersOf_append (ms : List (Str × Doc)) (m : Str × Doc) :
    membersOf (ms ++ [m]) = assign m.1 m.2.value (membersOf ms) := List.foldl_append

/-- The tokens of an open array or object, up to where a value is expected. -/
inductive Opens : Frame → List Token → Prop
  | array (ds : List Doc) :
    Opens (.array (ds.map Doc.value)) (beginArray :: opened (ds.map Doc.tokens))
  | object (ms : List (Str × Doc)) (key : Str) :
    Opens (.object (membersOf ms) key)
      (beginObject :: (opened (ms.map Doc.ofMember) ++ [valueString key, nameSeparator]))

inductive OpensAll : List Frame → List Token → Prop
  | nil : OpensAll [] []
  | cons {frame : Frame} {stack : List Frame} {ts us : List Token} (h : OpensAll stack ts)
    (hframe : Opens frame us) : OpensAll (frame :: stack) (ts ++ us)

/-- The tokens after which the parser is in a state. -/
inductive After : State → List Token → Prop
  | value {stack ts} (h : OpensAll stack ts) : After ⟨stack, .value⟩ ts
  | firstElement {stack ts} (h : OpensAll stack ts) :
    After ⟨.array [] :: stack, .firstElement⟩ (ts ++ [beginArray])
  | firstKey {stack ts} (h : OpensAll stack ts) (key : Str) :
    After ⟨.object [] key :: stack, .firstKey⟩ (ts ++ [beginObject])
  | key {stack ts} (h : OpensAll stack ts) (ms : List (Str × Doc)) (key : Str) :
    After ⟨.object (membersOf ms) key :: stack, .key⟩
      (ts ++ beginObject :: opened (ms.map Doc.ofMember))
  | nameSeparator {stack ts} (h : OpensAll stack ts) (ms : List (Str × Doc)) (key : Str) :
    After ⟨.object (membersOf ms) key :: stack, .nameSeparator⟩
      (ts ++ beginObject :: (opened (ms.map Doc.ofMember) ++ [valueString key]))
  | elements {stack ts} (h : OpensAll stack ts) {ds : List Doc} (hne : ds ≠ []) :
    After ⟨.array (ds.map Doc.value) :: stack, .separator⟩
      (ts ++ beginArray :: List.intercalate [valueSeparator] (ds.map Doc.tokens))
  | members {stack ts} (h : OpensAll stack ts) {ms : List (Str × Doc)} (hne : ms ≠ [])
    (key : Str) : After ⟨.object (membersOf ms) key :: stack, .separator⟩
      (ts ++ beginObject :: List.intercalate [valueSeparator] (ms.map Doc.ofMember))
  | endOfInput (d : Doc) : After ⟨[], .endOfInput d.value⟩ d.tokens

theorem after_put {stack : List Frame} {ts : List Token} (h : OpensAll stack ts) (d : Doc) :
    After (put stack d.value) (ts ++ d.tokens) := by
  cases h with
  | nil => exact .endOfInput d
  | cons h hframe =>
    cases hframe with
    | array ds =>
      have hne : ds ++ [d] ≠ [] := List.append_ne_nil_of_right_ne_nil _ (List.cons_ne_nil _ _)
      have hafter := After.elements h hne
      rw [List.map_append, List.map_append, List.map_singleton, List.map_singleton,
        ← opened_append] at hafter
      simpa only [put, List.append_assoc, List.cons_append] using hafter
    | object ms key =>
      have hne : ms ++ [(key, d)] ≠ [] :=
        List.append_ne_nil_of_right_ne_nil _ (List.cons_ne_nil _ _)
      have hafter := After.members h hne key
      rw [List.map_append, List.map_singleton, ← opened_append, membersOf_append] at hafter
      simpa only [put, List.append_assoc, List.cons_append, List.nil_append,
        Doc.ofMember] using hafter

theorem after_beginValue {stack : List Frame} {ts : List Token} (h : OpensAll stack ts)
    {t : Token} {st : State} (hst : beginValue stack t = some st) : After st (ts ++ [t]) := by
  unfold beginValue at hst
  split at hst
  · obtain rfl := Option.some.inj hst
    exact .firstKey h []
  · obtain rfl := Option.some.inj hst
    exact .firstElement h
  · obtain ⟨j, hj, rfl⟩ := Option.map_eq_some_iff.mp hst
    have hafter := after_put h (.scalar _ j hj)
    rwa [Doc.value, Doc.tokens] at hafter

theorem after_step {st st' : State} {ts : List Token} {t : Token} (h : After st ts)
    (hst : step st t = some st') : After st' (ts ++ [t]) := by
  cases h with
  | value h => exact after_beginValue h hst
  | firstElement h =>
    by_cases ht : t = endArray
    · subst ht
      obtain rfl := Option.some.inj hst
      have hafter := after_put h (.array [])
      rw [Doc.value_array, Doc.tokens_array] at hafter
      simpa using hafter
    · rw [step_takesValue (Or.inr rfl) _ ht] at hst
      have hopens : OpensAll (.array [] :: _) (_ ++ [beginArray]) := .cons h (.array [])
      exact after_beginValue hopens hst
  | firstKey h key =>
    cases t with
    | endObject =>
      obtain rfl := Option.some.inj hst
      have hafter := after_put h (.object [])
      rw [Doc.value_object, Doc.tokens_object] at hafter
      simpa using hafter
    | valueString key' =>
      obtain rfl := Option.some.inj hst
      simpa [opened, membersOf] using After.nameSeparator h [] key'
    | _ => cases hst
  | key h ms key =>
    cases t with
    | valueString key' =>
      obtain rfl := Option.some.inj hst
      simpa using After.nameSeparator h ms key'
    | _ => cases hst
  | nameSeparator h ms key =>
    cases t with
    | nameSeparator =>
      obtain rfl := Option.some.inj hst
      simpa using After.value (.cons h (.object ms key))
    | _ => cases hst
  | elements h hne =>
    rename_i ds
    cases t with
    | valueSeparator =>
      obtain rfl := Option.some.inj hst
      have hparts : ds.map Doc.tokens ≠ [] := by simpa using hne
      have hopened := opened_eq hparts
      simpa [hopened] using After.value (.cons h (.array ds))
    | endArray =>
      obtain rfl := Option.some.inj hst
      have hafter := after_put h (.array ds)
      rw [Doc.value_array, Doc.tokens_array] at hafter
      simpa using hafter
    | _ => cases hst
  | members h hne key =>
    rename_i ms
    cases t with
    | valueSeparator =>
      obtain rfl := Option.some.inj hst
      have hparts : ms.map Doc.ofMember ≠ [] := by simpa using hne
      have hopened := opened_eq hparts
      simpa [hopened] using After.key h ms key
    | endObject =>
      obtain rfl := Option.some.inj hst
      have hafter := after_put h (.object ms)
      rw [Doc.value_object, Doc.tokens_object] at hafter
      simpa [membersOf] using hafter
    | _ => cases hst
  | endOfInput d => cases t <;> cases hst

theorem after_run {ts us : List Token} {st st' : State} (h : After st ts)
    (hrun : run st us = some st') : After st' (ts ++ us) := by
  induction us generalizing st ts with
  | nil =>
    obtain rfl := Option.some.inj hrun
    rwa [List.append_nil]
  | cons t us ih =>
    rw [run_cons] at hrun
    obtain ⟨st₁, hstep, hrun⟩ := Option.bind_eq_some_iff.mp hrun
    have hafter := ih (after_step h hstep) hrun
    rwa [List.append_assoc, List.singleton_append] at hafter

/-- **The parser reads the texts of JSON**, each as the value it writes, and nothing else. -/
theorem parseTokens_iff {ts : List Token} {j : Json} :
    parseTokens ts = some j ↔ ∃ d : Doc, d.tokens = ts ∧ d.value = j := by
  constructor
  · intro h
    unfold parseTokens at h
    split at h
    · rename_i j' hrun
      obtain rfl := Option.some.inj h
      have hafter := after_run (.value .nil) hrun
      rw [List.nil_append] at hafter
      generalize hst : (⟨[], .endOfInput j'⟩ : State) = st at hafter
      cases hafter with
      | endOfInput d =>
        cases hst
        exact ⟨d, rfl, rfl⟩
      | _ => cases hst
    · cases h
  · rintro ⟨d, rfl, rfl⟩
    rw [parseTokens, isRead d [] .value (Or.inl rfl)]
    rfl

end JsonParser

/-- `nlohmann::json::parse`; `none` when it throws. -/
def parseText (text : Str) : Option Json := (Lexer.tokens text).bind JsonParser.parseTokens

end ParkManager
