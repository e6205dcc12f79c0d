import ParkManager.Cpp
import ParkManager.Lib.Split

/-!
# Message framing

`addBase` writes a message, `[0,"id","Action",body]` for a request and
`[1,"id",body]` for a response; `handleIncomingMsg` reads the id and the body
back out of the comma-separated fields.

Proved here, for every body (with any commas, quotes and brackets in it):

* `Framed kind id text`: the first two comma fields of `text` are `[kind` and
  `id`; `framed_request` and `framed_response` say so of what `addBase` writes,
  `Framed.takeWhile` that cutting the text off later keeps it so;
* `handleIncomingMsg_request`, `handleIncomingMsg_response`: reading returns the
  id field and exactly the body.
-/

namespace ParkManager

/-- `messageType`. -/
inductive MessageType
  | call
  | respond
  deriving DecidableEq, Repr

def MessageType.toNat : MessageType → ℕ
  | call => 0
  | respond => 1

/-- `handleIncomingMsg`: the id field and the body of a message. -/
def handleIncomingMsg (JM : Str) (mT : MessageType) : Except Fault (Str × Str) := do
  let requestItems := JM.splitOn (ch ',')
  let messageId ← vectorAt requestItems 1
  let offset := if mT = .call then 3 else 2
  let items ← vectorFrom requestItems offset
  let joined := items.flatMap (· ++ str ",")
  let jsonString ← substr joined 0 (sizeSub joined.length 2)
  return (messageId, jsonString)

/-- `"s"` -/
def quoted (s : Str) : Str := str "\"" ++ s ++ str "\""

/-- `AddBase`.  A request carries the next value of `random()` as its id, a
response the id it is given; both are put in quotes. -/
def addBase (JM : Str) (mT : MessageType) (action messageId : Str) (random : ℕ) : Str :=
  match mT with
  | .call => str "[" ++ decimal mT.toNat ++ str "," ++ quoted (decimal random) ++ str "," ++
      quoted action ++ str "," ++ JM ++ str "]"
  | .respond => str "[" ++ decimal mT.toNat ++ str "," ++ quoted messageId ++ str "," ++ JM ++
      str "]"

/-! ## Comma fields -/

/-- The text starts with the fields `[kind` and `id`. -/
def Framed (kind id text : Str) : Prop :=
  ∃ rest, text = ch '[' :: kind ++ ch ',' :: (id ++ ch ',' :: rest)

theorem Framed.split {kind id text : Str} (h : Framed kind id text) (hk : ch ',' ∉ kind)
    (hi : ch ',' ∉ id) :
    ∃ fields, text.splitOn (ch ',') = (ch '[' :: kind) :: id :: fields := by
  obtain ⟨rest, rfl⟩ := h
  refine ⟨rest.splitOn (ch ','), Split.splitOn_two ?_ hi rest⟩
  rw [List.mem_cons, not_or]
  exact ⟨by decide, hk⟩

/-- The second comma field of a framed text. -/
theorem Framed.id_field {kind id text : Str} (h : Framed kind id text) (hk : ch ',' ∉ kind)
    (hi : ch ',' ∉ id) : vectorAt (text.splitOn (ch ',')) 1 = .ok id := by
  obtain ⟨fields, hf⟩ := h.split hk hi
  rw [hf]
  rfl

/-- Cutting a framed text off after its first two fields leaves it framed. -/
theorem Framed.takeWhile {kind id text : Str} (h : Framed kind id text) (p : UInt8 → Bool)
    (hp : p (ch '[') = true ∧ p (ch ',') = true) (hk : ∀ b ∈ kind, p b = true)
    (hi : ∀ b ∈ id, p b = true) : Framed kind id (text.takeWhile p) := by
  obtain ⟨rest, rfl⟩ := h
  refine ⟨rest.takeWhile p, ?_⟩
  have hhead : ∀ b ∈ ch '[' :: kind ++ ch ',' :: (id ++ [ch ',']), p b = true := by
    intro b hb
    simp only [List.cons_append, List.mem_cons, List.mem_append, List.not_mem_nil, or_false] at hb
    rcases hb with rfl | hb | rfl | hb | rfl
    · exact hp.1
    · exact hk b hb
    · exact hp.2
    · exact hi b hb
    · exact hp.2
  have happ : (ch '[' :: kind ++ ch ',' :: (id ++ [ch ',']) ++ rest).takeWhile p = _ :=
    List.takeWhile_append_of_pos hhead
  simpa only [List.cons_append, List.append_assoc, List.nil_append] using happ

/-- What `AddMessage` looks at: the first field once the first and the last
character are gone. -/
theorem Framed.kind_field {kind id text : Str} (h : Framed kind id text) (hk : ch ',' ∉ kind) :
    ∃ incoming, stripEnds text = .ok incoming ∧
      vectorAt (incoming.splitOn (ch ',')) 0 = .ok kind := by
  obtain ⟨rest, rfl⟩ := h
  have hne : id ++ ch ',' :: rest ≠ [] := by simp
  obtain ⟨init, last, hinit⟩ := (List.eq_nil_or_concat (id ++ ch ',' :: rest)).resolve_left hne
  refine ⟨kind ++ ch ',' :: init, ?_, ?_⟩
  · have he : ch '[' :: kind ++ ch ',' :: (id ++ ch ',' :: rest) =
        ch '[' :: (kind ++ ch ',' :: init ++ [last]) := by
      rw [hinit]
      simp
    rw [he]
    exact stripEnds_append _ _ _
  · rw [List.splitOn_append_cons_self_of_not_mem hk]
    rfl

/-! ## What `addBase` writes -/

theorem mem_quoted {b : UInt8} {s : Str} : b ∈ quoted s ↔ b = ch '"' ∨ b ∈ s := by
  simp only [quoted, show str "\"" = [ch '"'] by decide, List.mem_append, List.mem_singleton]
  tauto

theorem comma_notMem_quoted {s : Str} (h : ch ',' ∉ s) : ch ',' ∉ quoted s := by
  rw [mem_quoted, not_or]
  exact ⟨by decide, h⟩

theorem comma_notMem_decimal (n : ℕ) : ch ',' ∉ decimal n := notMem_decimal (by decide)

theorem addBase_call (JM action messageId : Str) (random : ℕ) :
    addBase JM .call action messageId random =
      ch '[' :: str "0" ++ ch ',' :: (quoted (decimal random) ++ ch ',' ::
        (quoted action ++ ch ',' :: (JM ++ [ch ']']))) := by
  have h0 : decimal MessageType.call.toNat = str "0" := by decide
  simp [addBase, h0, show str "[" = [ch '['] by decide, show str "," = [ch ','] by decide,
    show str "]" = [ch ']'] by decide]

theorem addBase_respond (JM action messageId : Str) (random : ℕ) :
    addBase JM .respond action messageId random =
      ch '[' :: str "1" ++ ch ',' :: (quoted messageId ++ ch ',' :: (JM ++ [ch ']'])) := by
  have h1 : decimal MessageType.respond.toNat = str "1" := by decide
  simp [addBase, h1, show str "[" = [ch '['] by decide, show str "," = [ch ','] by decide,
    show str "]" = [ch ']'] by decide]

theorem framed_request (JM action messageId : Str) (random : ℕ) :
    Framed (str "0") (quoted (decimal random)) (addBase JM .call action messageId random) :=
  ⟨_, addBase_call JM action messageId random⟩

theorem framed_response (JM action messageId : Str) (random : ℕ) :
    Framed (str "1") (quoted messageId) (addBase JM .respond action messageId random) :=
  ⟨_, addBase_respond JM action messageId random⟩

/-! ## Reading a message back -/

/-- Re-joining the fields of `JM]` with commas and dropping the last two
characters gives `JM`. -/
theorem rejoin (JM : Str) :
    let joined := ((JM ++ [ch ']']).splitOn (ch ',')).flatMap (· ++ str ",")
    substr joined 0 (sizeSub joined.length 2) = .ok JM := by
  have hj : ((JM ++ [ch ']']).splitOn (ch ',')).flatMap (· ++ str ",") =
      JM ++ [ch ']', ch ','] := by
    have h := Split.flatMap_splitOn (ch ',') (JM ++ [ch ']'])
    rw [show str "," = [ch ','] by decide, h]
    simp
  simp only [hj]
  have hl : (JM ++ [ch ']', ch ',']).length = JM.length + 2 := by simp
  unfold substr
  rw [if_pos (Nat.zero_le _), hl, sizeSub, if_pos (by omega)]
  simp

theorem request_fields (JM action messageId : Str) (random : ℕ) (ha : ch ',' ∉ action) :
    (addBase JM .call action messageId random).splitOn (ch ',') =
      (ch '[' :: str "0") :: quoted (decimal random) :: quoted action ::
        (JM ++ [ch ']']).splitOn (ch ',') := by
  have hid := comma_notMem_quoted (comma_notMem_decimal random)
  rw [addBase_call, Split.splitOn_two (by decide) hid,
    List.splitOn_append_cons_self_of_not_mem (comma_notMem_quoted ha)]

theorem response_fields (JM action messageId : Str) (random : ℕ) (hi : ch ',' ∉ messageId) :
    (addBase JM .respond action messageId random).splitOn (ch ',') =
      (ch '[' :: str "1") :: quoted messageId :: (JM ++ [ch ']']).splitOn (ch ',') := by
  rw [addBase_respond, Split.splitOn_two (by decide) (comma_notMem_quoted hi)]

theorem handleIncomingMsg_request (JM action messageId : Str) (random : ℕ)
    (ha : ch ',' ∉ action) :
    handleIncomingMsg (addBase JM .call action messageId random) .call =
      .ok (quoted (decimal random), JM) := by
  have hr := rejoin JM
  simp only at hr
  unfold handleIncomingMsg
  rw [request_fields JM action messageId random ha]
  simp only [vectorAt, List.getElem?_cons_succ, List.getElem?_cons_zero, vectorFrom, ↓reduceIte,
    List.length_cons, List.drop_succ_cons, List.drop_zero, Nat.le_add_left]
  simp only [bind, Except.bind, hr, pure, Except.pure]

theorem handleIncomingMsg_response (JM action messageId : Str) (random : ℕ)
    (hi : ch ',' ∉ messageId) :
    handleIncomingMsg (addBase JM .respond action messageId random) .respond =
      .ok (quoted messageId, JM) := by
  have hr := rejoin JM
  simp only at hr
  unfold handleIncomingMsg
  rw [response_fields JM action messageId random hi]
  simp only [vectorAt, List.getElem?_cons_succ, List.getElem?_cons_zero, vectorFrom, reduceCtorEq,
    ↓reduceIte, List.length_cons, List.drop_succ_cons, List.drop_zero, Nat.le_add_left]
  simp only [bind, Except.bind, hr, pure, Except.pure]

end ParkManager
