import ParkManager.ExitAnswer
import ParkManager.EntranceTimes
import ParkManager.Fee
import ParkManager.Ledger

/-!
# A stay from gate to gate

A driver is let in at one gate and let out at another, through the texts, the queues
of the server and its handlers; what happens in between is any run of the server
without another visit of the plate.

Proved here:

* `carRegistration_answer`, `carStatusUpdate_answer`: a gate whose request is answered
  returns what the handler has worked out;
* `entrance_answer`: an entrance returns `SUCCESS` exactly if the server has taken a
  slot for the car, with the welcome text and the car stored;
* `stay_charged`: at the exit the driver is asked for the time between the two gates.
-/

namespace ParkManager

open ParkManagerServer

/-! ## What the gates return -/

/-- A gate reads the response to an entrance as it was written. -/
theorem readResponse_carEnterence {env : Env} (hp : ParsesText env.parse)
    {o : CarEnterenceResponse} {body : Str} (hbody : dumpObject o.toJson = .ok body)
    (random : ℕ) :
    readResponse env CarEnterenceResponse.fromJson
      (cstr (addBase body .respond [] (quoted (decimal random)) 0)) = .ok o := by
  have hn : (o.toJson.map Prod.fst).Nodup :=
    (by decide : [str "comment", str "result"].Nodup)
  rw [cstr_response hbody]
  refine readResponse_written hp hn (fun j hj => ?_) hbody (comma_notMem_id random) 0
  simp only [CarEnterenceResponse.toJson, List.forall_mem_cons] at hj
  exact CarEnterenceResponse.decode_iff.mpr ⟨hj.2.1, hj.1⟩

/-- The server in the state `s` answers the request, which leaves it in `s'`, and the
answer reaches the gate in time. -/
def AnsweredBy (env : Env) (a : Ambient) (s s' : ParkManagerServer) (request : Request)
    (random : ℕ) (exchange : Str → Exchange) : Prop :=
  ∃ text uri uri' resp, requestText request random = .ok text ∧
    gateHanlder env a s ⟨uri, str "Server", uptoHash text⟩ = (s', .ok (some (uri', resp))) ∧
    exchange text = .answered resp

/-- The request an entrance gate sends. -/
def Gate.entrance (g : Gate) (timeUTC carPlate : Str) (handicap : Bool) : CarEnterence :=
  ⟨carPlate, if handicap then HandicapStatus.yes else HandicapStatus.no, timeUTC, g.gateName⟩

theorem cstr_respond_ne_nil (body messageId : Str) :
    cstr (addBase body .respond [] messageId 0) ≠ [] := by
  rw [addBase_respond]
  exact List.cons_ne_nil _ _

/-- An entrance that the server has answered returns what the handler has worked out. -/
theorem carRegistration_answer {env : Env} (hp : ParsesText env.parse) {a : Ambient}
    {s s' : ParkManagerServer} (g : Gate) (hg : g.gateType = GateType.enterence.toInt)
    {timeUTC plate : Str} {handicap : Bool} {random : ℕ} {exchange : Str → Exchange}
    (h : AnsweredBy env a s s' (.carEnterence (g.entrance timeUTC plate handicap)) random
      exchange) :
    ∃ o, admitCar env a s (g.entrance timeUTC plate handicap) = (s', o) ∧
      g.carRegistration env random exchange timeUTC plate handicap =
        .ok (if o.result = RegistrationStatus.accept then (.success, o.comment)
          else (.failed, [])) := by
  obtain ⟨text, uri, uri', resp, ht, hserve, hx⟩ := h
  obtain ⟨resp', body, hh, hbody, hresp⟩ := served hp ht hserve
  obtain ⟨-, rfl⟩ := Prod.mk.inj (Option.some.inj hresp)
  rcases handle_cases hh with ⟨_, _, _, e, -⟩ | ⟨r, a', o, e, hout, rfl⟩ | ⟨_, _, _, e, -⟩
  · cases e
  · cases e
    have hread := readResponse_carEnterence hp hbody random
    have hask := ask_answered ht hx (cstr_respond_ne_nil _ _) hread
    refine ⟨o, hout, ?_⟩
    unfold Gate.carRegistration
    rw [if_neg (not_not.mpr hg)]
    simp only [Gate.entrance] at hask
    simp only [hask, bind, Except.bind, pure, Except.pure, ne_eq]
    split_ifs <;> rfl
  · cases e

/-- An exit that the server has answered returns what the handler has worked out. -/
theorem carStatusUpdate_answer {env : Env} (hp : ParsesText env.parse) {a : Ambient}
    {s s' : ParkManagerServer} (g : Gate) (hg : g.gateType = GateType.exiting.toInt) {plate : Str}
    {random : ℕ} {exchange : Str → Exchange}
    (h : AnsweredBy env a s s' (.carStatusUpdate ⟨g.gateName, plate⟩) random exchange) :
    ∃ o, checkOut env a s ⟨g.gateName, plate⟩ = .ok (s', o) ∧
      g.carStatusUpdate env random exchange plate =
        .ok (.success, ⟨o.comment, o.payable, o.status⟩) := by
  obtain ⟨text, uri, uri', resp, ht, hserve, hx⟩ := h
  obtain ⟨resp', body, hh, hbody, hresp⟩ := served hp ht hserve
  obtain ⟨-, rfl⟩ := Prod.mk.inj (Option.some.inj hresp)
  rcases handle_cases hh with ⟨_, _, _, e, -⟩ | ⟨_, _, _, e, -⟩ | ⟨r, a', o, e, hout, rfl⟩
  · cases e
  · cases e
  · cases e
    have hread := readResponse_carStatusUpdate hp hbody random
    have hask := ask_answered ht hx (cstr_respond_ne_nil _ _) hread
    refine ⟨o, hout, ?_⟩
    unfold Gate.carStatusUpdate
    rw [if_neg (not_not.mpr hg)]
    simp only [hask, bind, Except.bind, checkOut_status hout, ne_eq, not_true_eq_false,
      ↓reduceIte, pure, Except.pure]

/-! ## The entrance -/

/-- An entrance that is answered, and takes a slot whose number is not 0. -/
theorem carRegistration_letIn {env : Env} (hp : ParsesText env.parse) {a : Ambient}
    {s s' : ParkManagerServer} (g : Gate) (hg : g.gateType = GateType.enterence.toInt)
    {timeUTC plate : Str} {handicap : Bool} {random : ℕ} {exchange : Str → Exchange}
    (h : AnsweredBy env a s s' (.carEnterence (g.entrance timeUTC plate handicap)) random
      exchange) {p : Pool} (hpool : s.takesFrom (g.entrance timeUTC plate handicap) = some p)
    (h0 : s.slotNumber p ≠ 0) :
    g.carRegistration env random exchange timeUTC plate handicap =
      .ok (.success, welcome env (g.entrance timeUTC plate handicap) (s.slotNumber p)) ∧
    s' = (s.setCount p (s.slotCount p - 1)).setCar plate
      (some (newCar a (g.entrance timeUTC plate handicap) p)) := by
  obtain ⟨o, hout, hcall⟩ := carRegistration_answer hp g hg h
  rcases admitCar_cases env a s (g.entrance timeUTC plate handicap) with ⟨hgate, -⟩ |
    ⟨hgate, hnone, -⟩ | ⟨q, hq, hq0, -⟩ | ⟨q, hq, -, e⟩
  · rw [takesFrom_none_of_gate hgate] at hpool
    cases hpool
  · rw [takesFrom_none_of_full hgate hnone] at hpool
    cases hpool
  · cases hpool.symm.trans hq
    exact absurd hq0 h0
  · cases hpool.symm.trans hq
    obtain ⟨rfl, rfl⟩ := Prod.mk.inj (hout.symm.trans e)
    exact ⟨hcall, rfl⟩

/-- An entrance that is answered, and finds no slot. -/
theorem carRegistration_turnedAway {env : Env} (hp : ParsesText env.parse) {a : Ambient}
    {s s' : ParkManagerServer} (g : Gate) (hg : g.gateType = GateType.enterence.toInt)
    {timeUTC plate : Str} {handicap : Bool} {random : ℕ} {exchange : Str → Exchange}
    (h : AnsweredBy env a s s' (.carEnterence (g.entrance timeUTC plate handicap)) random
      exchange) (hpool : s.takesFrom (g.entrance timeUTC plate handicap) = none) :
    g.carRegistration env random exchange timeUTC plate handicap = .ok (.failed, []) ∧
      s' = s := by
  obtain ⟨o, hout, hcall⟩ := carRegistration_answer hp g hg h
  have hfull : parkingFull.result ≠ RegistrationStatus.accept := by decide
  have hreject : notRegisteredGate.result ≠ RegistrationStatus.accept := by decide
  rcases admitCar_cases env a s (g.entrance timeUTC plate handicap) with ⟨-, e⟩ |
    ⟨-, -, e⟩ | ⟨q, hq, -, -⟩ | ⟨q, hq, -, -⟩
  · obtain ⟨rfl, rfl⟩ := Prod.mk.inj (hout.symm.trans e)
    exact ⟨by rw [hcall, if_neg hreject], rfl⟩
  · obtain ⟨rfl, rfl⟩ := Prod.mk.inj (hout.symm.trans e)
    exact ⟨by rw [hcall, if_neg hfull], rfl⟩
  · cases hpool.symm.trans hq
  · cases hpool.symm.trans hq

/-- **The entrance answer.**  While the counters are those of fewer than 2^31 slots, an
entrance that is answered returns `SUCCESS` exactly if its gate is registered and a slot is
free for it.  Then the server has taken the slot and stored the car, and the driver reads
the welcome text with the number of the slot; otherwise nothing has changed. -/
theorem entrance_answer {env : Env} (hp : ParsesText env.parse) {a : Ambient}
    {s s' : ParkManagerServer} (hmax : (s.slotMax .normal).toNat < 2 ^ 31)
    (hcount : ∀ p, (s.slotCount p).toNat < 2 ^ 31) (g : Gate)
    (hg : g.gateType = GateType.enterence.toInt) {timeUTC plate : Str} {handicap : Bool}
    {random : ℕ} {exchange : Str → Exchange}
    (h : AnsweredBy env a s s' (.carEnterence (g.entrance timeUTC plate handicap)) random
      exchange) :
    ((∃ msg, g.carRegistration env random exchange timeUTC plate handicap = .ok (.success, msg)) ↔
      g.gateName ∈ s.enternceGates ∧
        (handicap = true ∧ s.handicapSlotCount ≠ 0 ∨ s.normalSlotCount ≠ 0)) ∧
    (∀ msg, g.carRegistration env random exchange timeUTC plate handicap = .ok (.success, msg) →
      ∃ p, s.takesFrom (g.entrance timeUTC plate handicap) = some p ∧
        msg = welcome env (g.entrance timeUTC plate handicap) (s.slotNumber p) ∧
        s' = (s.setCount p (s.slotCount p - 1)).setCar plate
          (some (newCar a (g.entrance timeUTC plate handicap) p))) ∧
    ((¬ ∃ msg, g.carRegistration env random exchange timeUTC plate handicap =
        .ok (.success, msg)) →
      g.carRegistration env random exchange timeUTC plate handicap = .ok (.failed, []) ∧
        s' = s) := by
  have hfree : (∃ p, s.takesFrom (g.entrance timeUTC plate handicap) = some p) ↔
      g.gateName ∈ s.enternceGates ∧
        (handicap = true ∧ s.handicapSlotCount ≠ 0 ∨ s.normalSlotCount ≠ 0) := by
    have hyes : HandicapStatus.no ≠ HandicapStatus.yes := by decide
    unfold takesFrom choosePool Gate.entrance
    cases handicap <;> by_cases hgate : g.gateName ∈ s.enternceGates <;>
      by_cases hn : s.normalSlotCount = 0 <;> by_cases hh : s.handicapSlotCount = 0 <;>
      simp [hgate, hn, hh, hyes]
  rw [← hfree]
  cases hpool : s.takesFrom (g.entrance timeUTC plate handicap) with
  | none =>
    obtain ⟨hcall, rfl⟩ := carRegistration_turnedAway hp g hg h hpool
    simp [hcall]
  | some p =>
    -- a free slot has a number
    have h0 : s.slotNumber p ≠ 0 := slotNumber_ne_zero_of_lt hmax (hcount p)
      (choosePool_count (takesFrom_eq_some hpool).2)
    obtain ⟨hcall, hs'⟩ := carRegistration_letIn hp g hg h hpool h0
    simp only [hcall, Except.ok.injEq, Prod.mk.injEq, true_and, Option.some.injEq, exists_eq',
      forall_eq', not_true_eq_false, false_imp_iff, and_true]
    exact ⟨p, rfl, rfl, hs'⟩

/-! ## The stay -/

/-- Without another visit of the plate its entries stay as they are. -/
theorem entry_of_no_visits {env : Env} {s₁ s₂ : ParkManagerServer} {mid : List ServerStep}
    (hr : ServerRun env s₁ mid s₂) {plate : Str} (hmid : visits plate mid = []) :
    s₂.entry plate = s₁.entry plate := by
  rw [entry_run hr plate, hmid]
  rfl

/-- An entrance that returns `SUCCESS` has stored the car under its plate. -/
theorem entered {env : Env} (hp : ParsesText env.parse) {a : Ambient} {s s' : ParkManagerServer}
    (g : Gate) (hg : g.gateType = GateType.enterence.toInt) {timeUTC plate : Str} {handicap : Bool}
    {random : ℕ} {exchange : Str → Exchange} {msg : Str}
    (h : AnsweredBy env a s s' (.carEnterence (g.entrance timeUTC plate handicap)) random
      exchange)
    (hin : g.carRegistration env random exchange timeUTC plate handicap = .ok (.success, msg)) :
    ∃ car, s'.registeredCars.lookup plate = some (some car) ∧ car.enterenceTime = timeUTC := by
  obtain ⟨o, hout, hcall⟩ := carRegistration_answer hp g hg h
  have hres : o.result = RegistrationStatus.accept := by
    by_contra hne
    rw [hcall, if_neg hne] at hin
    cases (Prod.mk.inj (Except.ok.inj hin)).1
  have hparked : parkingFull.result ≠ RegistrationStatus.accept := by decide
  have hreject : notRegisteredGate.result ≠ RegistrationStatus.accept := by decide
  rcases admitCar_cases env a s (g.entrance timeUTC plate handicap) with ⟨-, e⟩ |
    ⟨-, -, e⟩ | ⟨p, -, -, e⟩ | ⟨p, -, -, e⟩ <;>
    (rw [e] at hout; obtain ⟨rfl, rfl⟩ := Prod.mk.inj hout)
  · exact absurd hres hreject
  · exact absurd hres hparked
  · exact absurd hres hparked
  · exact ⟨_, AList.lookup_insert _, rfl⟩

/-- **The charge of a stay.**  A driver who is let in at one gate at the time `t₁` and
lets himself out at another at the time `t₂` is asked for the minutes between the two,
whatever the server has served in between, if its clock keeps to one offset. -/
theorem stay_charged {env : Env} (hp : ParsesText env.parse) {zone : Zone} {o : ℤ}
    (hzone : ∀ t, zone.offset t = o)
    (hclock : ∀ timeUTC, ∃ isdst,
      env.getTimeinSeconds timeUTC = getTimeinSeconds zone isdst timeUTC)
    {free : ℤ} (hfree : stoi (env.getValueFromConfigFile (str "FreeDurationinMin")) = .ok free)
    (hf : 0 ≤ free) (hint : 60 * free < 2 ^ 31) {t₁ t₂ : ℤ} (h₁ : FourDigitYear t₁)
    (h₂ : FourDigitYear t₂) {plate : Str}
    {s₀ s₁ s₂ s₃ : ParkManagerServer} {a₁ a₂ : Ambient} {random₁ random₂ : ℕ}
    {exchange₁ exchange₂ : Str → Exchange} {handicap : Bool} {msg : Str} {mid : List ServerStep}
    (g₁ : Gate) (hg₁ : g₁.gateType = GateType.enterence.toInt)
    (henter : AnsweredBy env a₁ s₀ s₁
      (.carEnterence (g₁.entrance (getCurrentUTCTime t₁) plate handicap)) random₁ exchange₁)
    (hin : g₁.carRegistration env random₁ exchange₁ (getCurrentUTCTime t₁) plate handicap =
      .ok (.success, msg))
    (hr : ServerRun env s₁ mid s₂) (hmid : visits plate mid = [])
    (g₂ : Gate) (hg₂ : g₂.gateType = GateType.exiting.toInt)
    (hnow : a₂.timeUTC = getCurrentUTCTime t₂)
    (hleave : AnsweredBy env a₂ s₂ s₃ (.carStatusUpdate ⟨g₂.gateName, plate⟩) random₂
      exchange₂) :
    g₂.carStatusUpdate env random₂ exchange₂ plate = .ok (.success,
      ⟨byeByeComment, decimalInt (toInt32
        (stdRound (env.atof (env.getValueFromConfigFile (str "PricePerMin")) *
          billedMinutes (t₂ - t₁) free))), RegistrationStatus.exist⟩) := by
  obtain ⟨car, hcar, htime⟩ := entered hp g₁ hg₁ henter hin
  have hparked : s₂.registeredCars.lookup plate = some (some car) :=
    (congrArg Entry.registered (entry_of_no_visits hr hmid)).trans hcar
  obtain ⟨answer, hout, hcall⟩ := carStatusUpdate_answer hp g₂ hg₂ hleave
  have hpay := checkOut_payable hparked hfree hf hint hout
  obtain ⟨isdst₁, hd₁⟩ := hclock (getCurrentUTCTime t₁)
  obtain ⟨isdst₂, hd₂⟩ := hclock (getCurrentUTCTime t₂)
  rw [htime, hnow, hd₁, hd₂, duration_of_fixed hzone isdst₁ isdst₂ h₁ h₂] at hpay
  have hcomment : answer.comment = byeByeComment := by
    rcases checkOut_cases hout with ⟨hnone, -, -⟩ | ⟨_, _, _, -, -, -, rfl⟩
    · rw [hparked] at hnone
      cases hnone
    · rfl
  rw [hcall, hcomment, hpay, checkOut_status hout]

/-! ## A stay of 45 minutes -/

/-- The packaged server with a clock in UTC. -/
def packagedClock : Env :=
  { packagedReader with getTimeinSeconds := getTimeinSeconds (.fixed 0) 0 }

/-- The server with both gates registered. -/
def twoGates : ParkManagerServer := { oneExit with enternceGates := {str "EntGate1"} }

/-- The entrance gate of the example package. -/
def entGate1 : Gate := ⟨str "EntGate1", 0, str "0"⟩

theorem tenOClock : getCurrentUTCTime 1656669600 = str "2022-07-01T10:00:00Z" := by
  rw [getCurrentUTCTime_eq (by decide)]
  decide

def entranceOfA : Request :=
  .carEnterence (entGate1.entrance (str "2022-07-01T10:00:00Z") (str "A") false)

/-- A request that can be answered, over a network that delivers the answer. -/
theorem exists_answeredBy (env : Env) (hp : ParsesText env.parse) (a : Ambient)
    (s : ParkManagerServer) (request : Request) {body : Str}
    (hbody : dumpObject request.toJson = .ok body) (hhash : ch '#' ∉ body)
    (hans : Answerable env s request) (random : ℕ) :
    ∃ s' exchange, AnsweredBy env a s s' request random exchange := by
  obtain ⟨s', resp, hserve⟩ := served_of_answerable env hp a s (str "/Gate") request hbody hhash
    hans random
  exact ⟨s', fun _ => .answered resp, _, _, _, resp, requestText_eq hbody random, hserve, rfl⟩

theorem entranceOfA_answered :
    ∃ s' exchange,
      AnsweredBy packagedClock morning twoGates s' entranceOfA 1804289383 exchange := by
  have hbody : dumpObject entranceOfA.toJson = .ok (str ("\x7b\"CarPlate\":\"A\"," ++
      "\"enteranceTime\":\"2022-07-01T10:00:00Z\",\"enterenceGate\":\"EntGate1\"," ++
      "\"handicap\":\"No\"\x7d")) := by decide
  have hpool : twoGates.takesFrom
      (entGate1.entrance (str "2022-07-01T10:00:00Z") (str "A") false) = some .normal := by decide
  refine exists_answeredBy packagedClock parsesText_readObject morning twoGates entranceOfA hbody
    (by decide) (fun p hp _ => ?_) 1804289383
  rw [hpool] at hp
  cases hp
  decide +kernel

/-- The entrance of plate A. -/
theorem entrance_answer_ofA :
    ∃ s' exchange msg, AnsweredBy packagedClock morning twoGates s' entranceOfA 1804289383
        exchange ∧
      entGate1.carRegistration packagedClock 1804289383 exchange (str "2022-07-01T10:00:00Z")
        (str "A") false = .ok (.success, msg) := by
  obtain ⟨s', exchange, hans⟩ := entranceOfA_answered
  obtain ⟨msg, hmsg⟩ := (entrance_answer parsesText_readObject (by decide)
    (fun p => by cases p <;> decide) entGate1 rfl hans).1.mpr ⟨by decide, Or.inr (by decide)⟩
  exact ⟨s', exchange, msg, hans, hmsg⟩

/-- Three quarters of an hour later. -/
def quarterToEleven : Ambient := ⟨846930886, getCurrentUTCTime 1656672300⟩

/-- Plate A stays for 45 minutes, in which plate B comes in, and pays for 15. -/
theorem stay_charged_ofA :
    ∃ s₁ s₂ s₃ mid exchange₁ exchange₂,
      AnsweredBy packagedClock morning twoGates s₁ entranceOfA 1804289383 exchange₁ ∧
      ServerRun packagedClock s₁ mid s₂ ∧ mid ≠ [] ∧
      AnsweredBy packagedClock quarterToEleven s₂ s₃ exitOfA 1804289383 exchange₂ ∧
      entGate2.carStatusUpdate packagedClock 1804289383 exchange₂ (str "A") =
        .ok (.success, ⟨byeByeComment, str "15", RegistrationStatus.exist⟩) := by
  obtain ⟨s₁, exchange₁, hin⟩ := entranceOfA_answered
  obtain ⟨hmsg, -⟩ := carRegistration_letIn parsesText_readObject entGate1 rfl hin
    (p := .normal) (by decide) (by decide)
  rw [← tenOClock] at hmsg
  have hin' := hin
  rw [entranceOfA, ← tenOClock] at hin'
  obtain ⟨car, hcar, -⟩ := entered parsesText_readObject entGate1 rfl hin' hmsg
  obtain ⟨mid, s₂, hr, hmid, hne⟩ : ∃ mid s₂, ServerRun packagedClock s₁ mid s₂ ∧
      visits (str "A") mid = [] ∧ mid ≠ [] := by
    refine ⟨_, _, .next .start (i := (enter (str "B") (str "No"), morning)) rfl, ?_,
      List.cons_ne_nil _ _⟩
    rw [visits_cons, visit_other (fun r hr => ?_) (fun r hr => by cases hr)]
    · rfl
    · cases hr
      decide
  have hparked : s₂.registeredCars.lookup (str "A") = some (some car) :=
    (congrArg Entry.registered (entry_of_no_visits hr hmid)).trans hcar
  have hanswerable : Answerable packagedClock s₂ exitOfA :=
    ⟨by rw [hparked]; simp, fun _ => ⟨30, rfl⟩, by decide⟩
  obtain ⟨s₃, exchange₂, hout⟩ := exists_answeredBy packagedClock parsesText_readObject
    quarterToEleven s₂ exitOfA dumpObject_exitOfA (by decide) hanswerable 1804289383
  refine ⟨s₁, s₂, s₃, mid, exchange₁, exchange₂, hin, hr, hne, hout, ?_⟩
  have hzone : ∀ t, (Zone.fixed 0).offset t = 0 := fun _ => rfl
  have hfree : stoi (packagedClock.getValueFromConfigFile (str "FreeDurationinMin")) = .ok 30 := rfl
  have h₁ : FourDigitYear 1656669600 := by decide
  have h₂ : FourDigitYear 1656672300 := by decide
  rw [stay_charged parsesText_readObject hzone (fun _ => ⟨0, rfl⟩) hfree (by decide) (by decide)
    h₁ h₂ entGate1 rfl hin' hmsg hr hmid entGate2 rfl rfl hout]
  decide +kernel

end ParkManager
