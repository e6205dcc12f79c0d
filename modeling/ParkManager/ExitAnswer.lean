import ParkManager.Gate

/-!
# The answer at the exit

What an exit gate is told, against what has happened to the plate.

Proved here:

* `isParked_of_parkedBy`: a plate that was let in and has not left since has its
  car in the map;
* `carStatusUpdate_served`: whatever the plate, an answered exit returns `SUCCESS`;
* `exit_answer_iff`: so the answer is right exactly for the plates that are parked;
* `unknown_plate_leaves`: a plate that never came in.
-/

namespace ParkManager

open History ParkManagerServer

/-- The plate was let in, and has not left since. -/
def ParkedBy (plate : Str) (past : List ServerStep) : Prop :=
  ∃ mid e pre, past = mid ++ e :: pre ∧ IsEntranceOf plate e ∧ ∀ st ∈ mid, ¬ IsExitOf plate st

/-! ## The car of a parked plate -/

/-- **Step lemma.**  Only its own exit takes a car out of the map. -/
theorem isParked_step {env : Env} (st : ServerStep) {plate : Str}
    (h : handle env st.pre st.input = .ok (st.output, st.post)) (hne : ¬ IsExitOf plate st)
    (hs : st.pre.IsParked plate) : st.post.IsParked plate := by
  obtain ⟨s, i, o, s'⟩ := st
  dsimp only at h hs ⊢
  cases handled h with
  | gate hg =>
    unfold IsParked
    rwa [(registerGate_cars hg).2.2.1]
  | turnedAway => exact hs
  | lostSlot =>
    unfold IsParked
    rwa [registeredCars_setCount]
  | letIn =>
    obtain ⟨car, hcar⟩ := hs
    unfold IsParked
    rw [setCar, MapCount.lookup_insert_eq_if, registeredCars_setCount]
    split_ifs
    · exact ⟨_, rfl⟩
    · exact ⟨car, hcar⟩
  | unknown => exact hs
  | @released r _ car =>
    have hplate : plate ≠ r.carPlate := fun e => hne e.symm
    obtain ⟨car', hcar'⟩ := hs
    refine ⟨car', ?_⟩
    rw [release_registeredCars]
    cases car.pool with
    | normal => exact (AList.lookup_insert_ne hplate).trans hcar'
    | handicap => exact hcar'

theorem isParked_run {env : Env} {t s : ParkManagerServer} {h : List ServerStep}
    (hr : ServerRun env t h s) {plate : Str} (ht : t.IsParked plate)
    (hno : ∀ st ∈ h, ¬ IsExitOf plate st) : s.IsParked plate := by
  induction hr with
  | start => exact ht
  | next hr hs ih =>
    obtain ⟨hhead, hpast⟩ := List.forall_mem_cons.mp hno
    exact isParked_step ⟨_, _, _, _⟩ hs hhead (ih hpast)

/-- A plate that was let in and has not left since has its car in the map. -/
theorem isParked_of_parkedBy {env : Env} {s₀ s : ParkManagerServer} {h : List ServerStep}
    (hr : ServerRun env s₀ h s) {plate : Str} (hp : ParkedBy plate h) : s.IsParked plate := by
  obtain ⟨mid, e, pre, rfl, ⟨r, hadm, rfl⟩, hmid⟩ := hp
  obtain ⟨-, hst, hlater⟩ := hr.split
  obtain ⟨p, hin⟩ := (admitted_iff hst).mp hadm
  have hpost : e.post.IsParked r.carPlate := by
    rw [hin.post_eq hst]
    exact ⟨_, AList.lookup_insert _⟩
  exact isParked_run hlater hpost hmid

/-! ## What the gate is told -/

theorem checkOut_status {env : Env} {a : Ambient} {s s' : ParkManagerServer} {r : CarStatusUpdate}
    {o : CarStatusUpdateResponse} (h : checkOut env a s r = .ok (s', o)) :
    o.status = RegistrationStatus.exist := by
  rcases checkOut_cases h with ⟨-, -, rfl⟩ | ⟨car, d, f, -, -, -, rfl⟩
  · rfl
  · rfl

/-- A gate reads the response to an exit as it was written. -/
theorem readResponse_carStatusUpdate {env : Env} (hp : ParsesText env.parse)
    {o : CarStatusUpdateResponse} {body : Str} (hbody : dumpObject o.toJson = .ok body)
    (random : ℕ) :
    readResponse env CarStatusUpdateResponse.fromJson
      (cstr (addBase body .respond [] (quoted (decimal random)) 0)) = .ok o := by
  have hn : (o.toJson.map Prod.fst).Nodup :=
    (by decide : [str "comment", str "curreny", str "payable", str "status"].Nodup)
  rw [cstr_response hbody]
  refine readResponse_written hp hn (fun j hj => ?_) hbody (comma_notMem_id random) 0
  simp only [CarStatusUpdateResponse.toJson, List.forall_mem_cons] at hj
  exact CarStatusUpdateResponse.decode_iff.mpr ⟨hj.2.2.2.1, hj.2.2.1, hj.2.1, hj.1⟩

/-- An exit that the server has answered returns `SUCCESS`. -/
theorem carStatusUpdate_served {env : Env} (hp : ParsesText env.parse) {a : Ambient}
    {s s' : ParkManagerServer} (g : Gate) (hg : g.gateType = GateType.exiting.toInt) {plate : Str}
    {random : ℕ} (exchange : Str → Exchange) {text uri uri' resp : Str}
    (ht : requestText (.carStatusUpdate ⟨g.gateName, plate⟩) random = .ok text)
    (hserve : gateHanlder env a s ⟨uri, str "Server", uptoHash text⟩ =
      (s', .ok (some (uri', resp))))
    (hx : exchange text = .answered resp) :
    ∃ msg, g.carStatusUpdate env random exchange plate = .ok (.success, msg) ∧
      msg.status = RegistrationStatus.exist := by
  obtain ⟨o, body, hh, hbody, hresp⟩ := served hp ht hserve
  obtain ⟨-, rfl⟩ := Prod.mk.inj (Option.some.inj hresp)
  rcases handle_cases hh with ⟨_, _, _, e, -⟩ | ⟨_, _, _, e, -⟩ | ⟨r, a', o', e, hout, rfl⟩
  · cases e
  · cases e
  · cases e
    have hstatus := checkOut_status hout
    have hread := readResponse_carStatusUpdate hp hbody random
    have hne : cstr (addBase body .respond [] (quoted (decimal random)) 0) ≠ [] := by
      rw [addBase_respond]
      exact List.cons_ne_nil _ _
    have hask := ask_answered ht hx hne hread
    refine ⟨⟨o'.comment, o'.payable, o'.status⟩, ?_, hstatus⟩
    unfold Gate.carStatusUpdate
    rw [if_neg (not_not.mpr hg)]
    simp only [hask, bind, Except.bind, hstatus, ne_eq, not_true_eq_false, ↓reduceIte, pure,
      Except.pure]

/-- **The exit answer.**  After any run of the server, an exit that is answered is
answered truthfully exactly if the plate is that of a parked car, whose car the
server then holds. -/
theorem exit_answer_iff {env : Env} (hp : ParsesText env.parse) {s₀ s s' : ParkManagerServer}
    {h : List ServerStep} (hr : ServerRun env s₀ h s) {a : Ambient} (g : Gate)
    (hg : g.gateType = GateType.exiting.toInt) {plate : Str} {random : ℕ}
    (exchange : Str → Exchange) {text uri uri' resp : Str}
    (ht : requestText (.carStatusUpdate ⟨g.gateName, plate⟩) random = .ok text)
    (hserve : gateHanlder env a s ⟨uri, str "Server", uptoHash text⟩ =
      (s', .ok (some (uri', resp))))
    (hx : exchange text = .answered resp) :
    ((((∃ msg, g.carStatusUpdate env random exchange plate = .ok (.success, msg)) ↔
          ParkedBy plate h) ∧
        (¬ ParkedBy plate h →
          ∃ msg, g.carStatusUpdate env random exchange plate = .ok (.failed, msg))) ↔
      ParkedBy plate h) ∧
    (ParkedBy plate h → s.IsParked plate) := by
  obtain ⟨msg, hcall, -⟩ := carStatusUpdate_served hp g hg exchange ht hserve hx
  refine ⟨⟨fun hclaim => hclaim.1.mp ⟨msg, hcall⟩, fun hpark => ?_⟩,
    fun hpark => isParked_of_parkedBy hr hpark⟩
  exact ⟨iff_of_true ⟨msg, hcall⟩ hpark, fun hn => absurd hpark hn⟩

/-! ## Two exits -/

/-- The exit gate of the example package. -/
def entGate2 : Gate := ⟨str "EntGate2", 1, str "0"⟩

/-- The body of the request of an exit of plate A. -/
def exitBodyOfA : Str := str "\x7b\"CarPlate\":\"A\",\"exitingGate\":\"EntGate2\"\x7d"

def exitOfA : Request := .carStatusUpdate ⟨entGate2.gateName, str "A"⟩

theorem dumpObject_exitOfA : dumpObject exitOfA.toJson = .ok exitBodyOfA := by decide

def exitText : Str := cstr (addBase exitBodyOfA .call exitOfA.action.name [] 1804289383)

theorem requestText_exitOfA : requestText exitOfA 1804289383 = .ok exitText :=
  requestText_eq dumpObject_exitOfA 1804289383

/-- The server with its exit gate registered. -/
def oneExit : ParkManagerServer := { packagedStart with exitingGates := {str "EntGate2"} }

/-- A plate that never came in: its exit is answered, and succeeds. -/
theorem unknown_plate_leaves :
    ParsesText packagedReader.parse ∧ StartUp packagedReader packagedStart ∧
    ∃ h s' resp, ServerRun packagedReader packagedStart h oneExit ∧ ¬ ParkedBy (str "A") h ∧
      gateHanlder packagedReader morning oneExit ⟨str "/Gate2", str "Server", uptoHash exitText⟩ =
        (s', .ok (some (str "/Gate2", resp))) ∧
      ∃ msg, entGate2.carStatusUpdate packagedReader 1804289383 (fun _ => .answered resp)
        (str "A") = .ok (.success, msg) := by
  have hr : ServerRun packagedReader packagedStart _ oneExit :=
    .next .start (i := (exitGate, morning)) rfl
  have hnot : ¬ oneExit.IsParked (str "A") := by decide
  have hans : Answerable packagedReader oneExit exitOfA :=
    ⟨by decide, fun hpark => absurd hpark hnot, by decide⟩
  obtain ⟨s', resp, hserve⟩ := served_of_answerable packagedReader parsesText_readObject morning
    oneExit (str "/Gate2") exitOfA dumpObject_exitOfA (by decide) hans 1804289383
  obtain ⟨msg, hcall, -⟩ := carStatusUpdate_served parsesText_readObject entGate2 rfl
    (fun _ => .answered resp) requestText_exitOfA hserve rfl
  exact ⟨parsesText_readObject, startUp_packagedReader, _, s', resp, hr,
    fun hpark => hnot (isParked_of_parkedBy hr hpark), hserve, msg, hcall⟩

/-- The server with plate A parked. -/
def parkedA : ParkManagerServer :=
  (admitCar packagedReader morning { oneExit with enternceGates := {str "EntGate1"} }
    ⟨str "A", str "No", str "2022-07-01T08:00:00Z", str "EntGate1"⟩).1

/-- The exit of a parked car. -/
theorem exit_answer_iff_parked :
    ∃ h resp, ServerRun packagedReader packagedStart h parkedA ∧ ParkedBy (str "A") h ∧
      ∃ msg, entGate2.carStatusUpdate packagedReader 1804289383 (fun _ => .answered resp)
        (str "A") = .ok (.success, msg) := by
  obtain ⟨h, hr, hpark⟩ : ∃ h, ServerRun packagedReader packagedStart h parkedA ∧
      ParkedBy (str "A") h :=
    ⟨_, .next (.next (.next .start (i := (exitGate, morning)) rfl)
        (i := (entranceGate, morning)) rfl) (i := (enter (str "A") (str "No"), morning)) rfl,
      [], _, _, rfl, ⟨⟨str "A", str "No", str "2022-07-01T08:00:00Z", str "EntGate1"⟩, rfl, rfl⟩,
      fun _ hst => by cases hst⟩
  have hans : Answerable packagedReader parkedA exitOfA :=
    ⟨by decide, fun _ => ⟨30, rfl⟩, by decide⟩
  obtain ⟨s', resp, hserve⟩ := served_of_answerable packagedReader parsesText_readObject morning
    parkedA (str "/Gate2") exitOfA dumpObject_exitOfA (by decide) hans 1804289383
  obtain ⟨hiff, -⟩ := exit_answer_iff parsesText_readObject hr entGate2 rfl
    (fun _ => .answered resp) requestText_exitOfA hserve rfl
  exact ⟨h, resp, hr, hpark, (hiff.mpr hpark).1.mpr hpark⟩

end ParkManager
