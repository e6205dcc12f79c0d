import ParkManager.Utf8
import ParkManager.Wire

/-!
# Requests that fail

When an exception leaves one of the three handlers, and what it leaves behind.
Everything up to the decoding of the body throws before the state is touched; the
`dump()` of the answer throws behind it.

Proved here, for every state and every raw request:

* `utf8Accepts_welcomeText`: the welcome text is UTF-8 before it is cut off;
* `answerable_carEnterence_iff`: the answer of an entrance can be dumped exactly when
  the cut goes through no character;
* `failing_request_iff`: a failing request changes nothing exactly when this is the
  case;
* `lost_slot`: an entrance that takes a slot and is never answered.
-/

namespace ParkManager

open ParkManagerServer

/-- Counters, gate sets and car maps are as they were. -/
structure Unchanged (s s' : ParkManagerServer) : Prop extends SameCars s s' where
  enternceGates : s'.enternceGates = s.enternceGates
  exitingGates : s'.exitingGates = s.exitingGates

theorem Unchanged.refl (s : ParkManagerServer) : Unchanged s s := ⟨SameCars.refl s, rfl, rfl⟩

/-- The configured texts that go into an answer are UTF-8. -/
structure ConfigText (env : Env) : Prop where
  currency : utf8Accepts (env.getValueFromConfigFile (str "Currency")) = true
  pricePerMin : utf8Accepts (env.getValueFromConfigFile (str "PricePerMin")) = true
  freeDuration : utf8Accepts (env.getValueFromConfigFile (str "FreeDurationinMin")) = true

/-- The entrance takes a slot, and its welcome text is cut off inside a character. -/
def SplitsWelcome (env : Env) (s : ParkManagerServer) (r : CarEnterence) : Prop :=
  ∃ p, s.takesFrom r = some p ∧ s.slotNumber p ≠ 0 ∧
    CutsCharacter (welcomeText env r (s.slotNumber p)) 249

/-! ## The welcome text -/

theorem utf8Accepts_welcomeText {env : Env} (hc : ConfigText env) {r : CarEnterence}
    (hplate : utf8Accepts r.carPlate = true) (hgate : utf8Accepts r.enterenceGate = true)
    (htime : utf8Accepts r.enteranceTime = true) (slot : Int32) :
    utf8Accepts (welcomeText env r slot) = true := by
  have hlit : ∀ t ∈ [str "Welcome ", str " ,Gate ", str " will be opened for you, first ",
      str " minutes of your stay is free of charge then its only ",
      str " per min proceed to slot number ", str " entering time "], utf8Accepts t = true := by
    decide +kernel
  simp only [List.forall_mem_cons, List.not_mem_nil, false_imp_iff, implies_true, and_true] at hlit
  obtain ⟨l₁, l₂, l₃, l₄, l₅, l₆⟩ := hlit
  unfold welcomeText
  refine utf8Accepts_append ?_ (utf8Accepts_cstr htime)
  refine utf8Accepts_append (utf8Accepts_append ?_ (utf8Accepts_decimalInt _)) l₆
  refine utf8Accepts_append (utf8Accepts_append ?_ (utf8Accepts_cstr hc.currency)) l₅
  refine utf8Accepts_append (utf8Accepts_append ?_ l₄) (utf8Accepts_cstr hc.pricePerMin)
  refine utf8Accepts_append (utf8Accepts_append ?_ l₃) (utf8Accepts_cstr hc.freeDuration)
  refine utf8Accepts_append (utf8Accepts_append ?_ l₂) (utf8Accepts_cstr hgate)
  exact utf8Accepts_append l₁ (utf8Accepts_cstr hplate)

/-- The answer of an entrance is dumped unless its text is cut inside a character. -/
theorem answerable_carEnterence_iff {env : Env} (hc : ConfigText env) {s : ParkManagerServer}
    {r : CarEnterence} (hplate : utf8Accepts r.carPlate = true)
    (hgate : utf8Accepts r.enterenceGate = true) (htime : utf8Accepts r.enteranceTime = true) :
    Answerable env s (.carEnterence r) ↔ ¬ SplitsWelcome env s r := by
  have hcut : ∀ slot, utf8Accepts (welcome env r slot) = true ↔
      ¬ CutsCharacter (welcomeText env r slot) 249 :=
    fun slot => utf8Accepts_take_iff (utf8Accepts_welcomeText hc hplate hgate htime slot) 249
  simp only [Answerable, hcut, SplitsWelcome, not_exists, not_and]

/-! ## The throwing points -/

/-- What was decoded was read off a value of the parser. -/
theorem decodeRequest_ok {action : Action} {env : Env} {input id : Str} {req : Request}
    (h : decodeRequest action env input = .ok (id, req)) :
    ∃ body j, env.parse body = some j ∧ Decodes j action req := by
  obtain ⟨⟨messageId, body⟩, -, h⟩ := bind_ok_iff.mp h
  obtain ⟨j, hj, h⟩ := bind_ok_iff.mp h
  obtain ⟨req', hreq, h⟩ := bind_ok_iff.mp h
  obtain ⟨-, rfl⟩ := Prod.mk.inj (Except.ok.inj h)
  exact ⟨body, j, parseJson_ok_iff.mp hj, requestFromJson_iff.mp hreq⟩

/-- A handler that has decoded its request throws in the middle of it, with the
state as it was, or when it dumps the answer. -/
theorem onRequest_decoded {action : Action} {env : Env} (a : Ambient) (s : ParkManagerServer)
    (uri : Str) {input id : Str} {req : Request}
    (hd : decodeRequest action env input = .ok (id, req)) :
    ((∃ e, handle env s (req, a) = .error e) ∧ (onRequest action env a s uri input).1 = s) ∨
    ∃ resp s', handle env s (req, a) = .ok (resp, s') ∧
      (onRequest action env a s uri input).1 = s' ∧
      ((∃ e, (onRequest action env a s uri input).2 = .error e) ↔
        ¬ ∃ text, dumpObject resp.toJson = .ok text) := by
  unfold onRequest
  simp only [hd]
  cases hh : handle env s (req, a) with
  | error e => exact Or.inl ⟨⟨e, rfl⟩, rfl⟩
  | ok r =>
    obtain ⟨resp, s'⟩ := r
    refine Or.inr ⟨resp, s', rfl, rfl, ?_⟩
    simp only
    cases dumpObject resp.toJson <;> simp [Except.map]

/-- Once its request is handled, the answer is dumped exactly when there is one. -/
theorem dumps_iff_answers {env : Env} {a : Ambient} {s s' : ParkManagerServer} {req : Request}
    {resp : Response} (hh : handle env s (req, a) = .ok (resp, s')) :
    (∃ text, dumpObject resp.toJson = .ok text) ↔ Answerable env s req := by
  rw [← answers_iff env a]
  constructor
  · rintro ⟨text, ht⟩
    exact ⟨resp, s', text, hh, ht⟩
  · rintro ⟨resp', s'', text, hh', ht⟩
    rw [hh] at hh'
    obtain ⟨rfl, -⟩ := Prod.mk.inj (Except.ok.inj hh')
    exact ⟨text, ht⟩

/-- An exit that returns has an answer. -/
theorem answerable_of_checkOut {env : Env} (hc : ConfigText env) {a : Ambient}
    {s s' : ParkManagerServer} {r : CarStatusUpdate} {resp : Response}
    (hh : handle env s (.carStatusUpdate r, a) = .ok (resp, s')) :
    Answerable env s (.carStatusUpdate r) := by
  cases handled hh with
  | unknown hl =>
    refine ⟨by rw [hl]; exact (Option.some_ne_none _).symm, ?_, hc.currency⟩
    rintro ⟨car, hcar⟩
    rw [hl] at hcar
    cases hcar
  | @released _ _ _ _ free hl hf => exact ⟨by rw [hl]; simp, fun _ => ⟨free, hf⟩, hc.currency⟩

/-- An entrance that takes a slot changes a counter. -/
theorem not_unchanged_of_takesFrom {env : Env} {a : Ambient} {s : ParkManagerServer}
    {r : CarEnterence} {p : Pool} (hp : s.takesFrom r = some p) :
    ¬ Unchanged s (admitCar env a s r).1 := by
  have hdrop : (admitCar env a s r).1.slotCount p = s.slotCount p - 1 := by
    rcases admitCar_cases env a s r with ⟨hgate, -⟩ | ⟨hgate, hc, -⟩ | ⟨q, hq, -, e⟩ |
      ⟨q, hq, -, e⟩
    · rw [takesFrom_none_of_gate hgate] at hp
      cases hp
    · rw [takesFrom_none_of_full hgate hc] at hp
      cases hp
    · rw [hq] at hp
      cases hp
      rw [e, slotCount_setCount, if_pos rfl]
    · rw [hq] at hp
      cases hp
      rw [e, slotCount_setCar, slotCount_setCount, if_pos rfl]
  intro h
  have hsame := h.slotCount p
  rw [hdrop] at hsame
  have hsucc := Wrap.succ_ne (s.slotCount p - 1)
  rw [UInt32.sub_add_cancel, hsame] at hsucc
  exact hsucc rfl

/-- **A failing request changes nothing**, unless it is an entrance that takes a
slot and whose welcome text is cut off inside a character. -/
theorem failing_request_iff {env : Env} (hp : ParsesText env.parse) (hc : ConfigText env)
    (action : Action) (a : Ambient) (s : ParkManagerServer) (uri input : Str) :
    ((∃ e, (onRequest action env a s uri input).2 = .error e) →
      Unchanged s (onRequest action env a s uri input).1) ↔
    ∀ id r, decodeRequest action env input = .ok (id, .carEnterence r) →
      ¬ SplitsWelcome env s r := by
  cases hd : decodeRequest action env input with
  | error e =>
    have hs : (onRequest action env a s uri input).1 = s := by simp only [onRequest, hd]
    refine iff_of_true (fun _ => by rw [hs]; exact Unchanged.refl s) fun id r h => by cases h
  | ok d =>
    obtain ⟨id, req⟩ := d
    simp only [Except.ok.injEq, Prod.mk.injEq]
    rcases onRequest_decoded a s uri hd with ⟨⟨e, he⟩, hs⟩ |
      ⟨resp, s', hh, hs, hthrow⟩
    · refine iff_of_true (fun _ => by rw [hs]; exact Unchanged.refl s) ?_
      rintro _ r ⟨-, rfl⟩
      cases he
    · rw [hthrow, hs, dumps_iff_answers hh]
      cases req with
      | gateRegistration r =>
        exact iff_of_true (fun hn => absurd trivial hn) fun _ _ h => by cases h.2
      | carStatusUpdate r =>
        exact iff_of_true (fun hn => absurd (answerable_of_checkOut hc hh) hn)
          fun _ _ h => by cases h.2
      | carEnterence r =>
        obtain ⟨body, j, hj, hdec⟩ := decodeRequest_ok hd
        have haction : action = .carEnterence := by
          cases action with
          | gateRegistration => exact hdec.elim
          | carStatusUpdate => exact hdec.elim
          | carEnterence => rfl
        subst haction
        obtain ⟨hplate, hhandicap, htime, hgate⟩ := hdec
        rw [answerable_carEnterence_iff hc (hp.utf8 _ _ _ _ hj hplate) (hp.utf8 _ _ _ _ hj hgate)
          (hp.utf8 _ _ _ _ hj htime), not_not]
        constructor
        · rintro h id' r' ⟨-, hr⟩ hsplit
          cases hr
          have hsame := h hsplit
          obtain ⟨p, hpool, -⟩ := hsplit
          have hs' : (admitCar env a s r).1 = s' := congrArg Prod.snd (Except.ok.inj hh)
          exact not_unchanged_of_takesFrom hpool (hs' ▸ hsame)
        · exact fun h hsplit => absurd hsplit (h id r ⟨rfl, rfl⟩)

theorem configText_packagedReader : ConfigText packagedReader :=
  ⟨by decide, by decide, by decide⟩

/-- An entrance without its keys is refused before anything is changed. -/
theorem failing_request_no_keys :
    ∃ o, onRequest .carEnterence packagedReader morning packagedStart (str "/Gate1")
        (str "[0,\"7\",\"CarEnterence\",\x7b\"CarPlate\":\"A\"\x7d]") = o ∧
      o.2 = .error .jsonOutOfRange ∧ Unchanged packagedStart o.1 := by
  have hd : decodeRequest .carEnterence packagedReader
      (str "[0,\"7\",\"CarEnterence\",\x7b\"CarPlate\":\"A\"\x7d]") =
      .error .jsonOutOfRange := rfl
  refine ⟨_, rfl, rfl, (failing_request_iff parsesText_readObject configText_packagedReader
    .carEnterence morning packagedStart (str "/Gate1") _).mpr ?_ ⟨_, rfl⟩⟩
  intro id r h
  rw [hd] at h
  cases h

/-- 240 letters and one of two bytes, of which the second is the byte 249 of the
welcome text. -/
def longPlate : Str := List.replicate 240 (ch 'A') ++ [0xC3, 0xA9]

def longEntrance : CarEnterence :=
  ⟨longPlate, str "No", str "2022-07-01T08:00:00Z", str "EntGate1"⟩

/-- The server with its entrance gate registered. -/
def oneGate : ParkManagerServer := { packagedStart with enternceGates := {str "EntGate1"} }

/-- The entrance takes a slot and stores the car, but ends with an exception, so
that the gate is not told. -/
theorem lost_slot :
    ParsesText packagedReader.parse ∧ ConfigText packagedReader ∧
    StartUp packagedReader packagedStart ∧
    (∃ h, ServerRun packagedReader packagedStart h oneGate) ∧
    ∃ body o, dumpObject longEntrance.toJson = .ok body ∧
      onRequest .carEnterence packagedReader morning oneGate (str "/Gate1")
        (addBase body .call Action.carEnterence.name [] 1804289383) = o ∧
      (∃ e, o.2 = .error e) ∧ ¬ Unchanged oneGate o.1 := by
  have htexts : utf8Accepts longEntrance.carPlate = true ∧
      utf8Accepts longEntrance.enterenceGate = true ∧
      utf8Accepts longEntrance.enteranceTime = true := by decide +kernel
  obtain ⟨hplate, hgate, htime⟩ := htexts
  have hsplit : SplitsWelcome packagedReader oneGate longEntrance :=
    ⟨.normal, by decide, by decide, 0xA9, by decide +kernel, by decide, by decide⟩
  obtain ⟨body, hbody⟩ : ∃ body, dumpObject longEntrance.toJson = .ok body := by
    refine (dumpObject_isOk_iff _).mpr ?_
    have hkeys : ∀ k ∈ [str "CarPlate", str "enteranceTime", str "enterenceGate", str "handicap"],
        utf8Accepts k = true := by decide
    simp only [List.forall_mem_cons, List.not_mem_nil, false_imp_iff, implies_true,
      and_true] at hkeys
    simp only [CarEnterence.toJson, List.forall_mem_cons, hplate, hgate, htime, hkeys, and_self,
      true_and, List.not_mem_nil, false_imp_iff, implies_true, and_true]
    decide
  have hd := decodeRequest_written packagedReader parsesText_readObject
    (.carEnterence longEntrance) hbody 1804289383
  refine ⟨parsesText_readObject, configText_packagedReader, startUp_packagedReader, ?_, body, _,
    hbody, rfl, ?_, ?_⟩
  · exact ⟨_, .next .start (i := (entranceGate, morning)) rfl⟩
  · rcases onRequest_decoded morning oneGate (str "/Gate1") hd with
      ⟨⟨e, he⟩, -⟩ | ⟨resp, s', hh, -, hthrow⟩
    · cases he
    · refine hthrow.mpr ?_
      rw [dumps_iff_answers hh, answerable_carEnterence_iff configText_packagedReader hplate hgate
        htime, not_not]
      exact hsplit
  · have hs : (onRequest .carEnterence packagedReader morning oneGate (str "/Gate1")
        (addBase body .call Action.carEnterence.name [] 1804289383)).1 =
        (admitCar packagedReader morning oneGate longEntrance).1 := by
      have hd' : decodeRequest .carEnterence packagedReader
          (addBase body .call Action.carEnterence.name [] 1804289383) = _ := hd
      simp only [onRequest, hd', handle]
    rw [hs]
    exact not_unchanged_of_takesFrom (p := .normal) (by decide)

end ParkManager
