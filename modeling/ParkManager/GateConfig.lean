import ParkManager.Agreement
import ParkManager.ConfigFile

/-!
# The configuration of a gate

`GateRegistration` reads `RegistratinResult` from the configuration and sets it there.  In
the model of the gate it is a variable that outlives the process.

Proved here:

* `step_gate`: a call, or a restart, does to the file what it does to the variable;
* `restarts_unnoticed`: so does every run.
-/

namespace ParkManager

open SimpleIni

/-- A `Gate` with its configuration: the name and the type are read once. -/
structure ConfiguredGate where
  gateName : Str
  gateType : ℤ
  config : Config

/-- What comes to a gate: one of its calls, or the end of its process and a new one. -/
inductive GateEvent
  | call (c : GateCall) (random : ℕ) (exchange : Str → Exchange)
  | restart

namespace ConfiguredGate

/-- The constructor of `Gate`. -/
def construct (file : Option Str) : Except Fault ConfiguredGate := do
  let config := Config.start file
  let gateType ← stoi (config.utils.getValueFromConfigFile (str "GateType"))
  return ⟨config.utils.getValueFromConfigFile (str "GateName"), gateType, config⟩

/-- `RegistratinResult` is read from the configuration at each call. -/
def gate (g : ConfiguredGate) : Gate :=
  ⟨g.gateName, g.gateType, g.config.utils.getValueFromConfigFile (str "RegistratinResult")⟩

theorem gate_registratinResult (g : ConfiguredGate) : g.gate.registratinResult =
    g.config.utils.getValueFromConfigFile (str "RegistratinResult") := rfl

/-- `GateRegistration`, with a file that can be written. -/
def gateRegistration (env : Env) (random : ℕ) (exchange : Str → Exchange) (g : ConfiguredGate) :
    Except Fault (ReturnValue × ConfiguredGate) :=
  if g.gateType = GateType.notSet.toInt then .ok (.failed, g)
  else if g.config.utils.getValueFromConfigFile (str "RegistratinResult") = Gate.registered then
    .ok (.success, g)
  else do
    let request := Request.gateRegistration ⟨g.gateName, decimalInt g.gateType⟩
    match ← ask env random exchange request GateRegistrationResponse.fromJson with
    | none => return (.failed, g)
    | some response =>
      if response.result ≠ RegistrationStatus.accept then return (.failed, g)
      else return (.success, { g with
        config := g.config.step (.set (str "RegistratinResult") Gate.registered true) })

def step (env : Env) (g : ConfiguredGate) :
    GateEvent → Except Fault (Option ReturnValue × ConfiguredGate)
  | .call .gateRegistration random exchange =>
    (g.gateRegistration env random exchange).map fun r => (some r.1, r.2)
  | .call c random exchange => (c.run env random exchange g.gate).map fun r => (some r.1, g)
  | .restart => (construct g.config.file).map fun g' => (none, g')

end ConfiguredGate

/-- The gate for which `RegistratinResult` is a variable that outlives the process. -/
def Gate.step (env : Env) (g : Gate) : GateEvent → Except Fault (Option ReturnValue × Gate)
  | .call c random exchange => (c.run env random exchange g).map fun r => (some r.1, r.2)
  | .restart => .ok (none, g)

/-- Memory and file agree, and the gate has its name and its type from them. -/
structure ConfiguredGate.Kept (g : ConfiguredGate) (values : Str → Option Str) : Prop where
  config : Config.Represents g.config ⟨some values, some values⟩
  gateName : (values (str "GateName")).getD [] = g.gateName
  gateType : stoi ((values (str "GateType")).getD []) = .ok g.gateType

namespace ConfiguredGate

variable {env : Env} {g g' : ConfiguredGate} {values : Str → Option Str}

theorem kept_construct {file : Option Str} (hfile : RegularFile file)
    (h : construct file = .ok g) : ∃ values, g.Kept values := by
  obtain ⟨gateType, htype, h⟩ := bind_ok_iff.mp h
  cases h
  have hstart := Config.represents_start hfile
  cases file with
  | none => cases htype
  | some data =>
    refine ⟨(loadData data).getValue [], hstart, ?_, ?_⟩
    · exact (hstart.memory.getValueFromConfigFile (str "GateName")).symm
    · have := hstart.memory.getValueFromConfigFile (str "GateType")
      rw [this] at htype
      exact htype

/-- A new process finds what the old one left. -/
theorem construct_kept (h : g.Kept values) :
    ∃ g', construct g.config.file = .ok g' ∧ g'.Kept values ∧ g'.gate = g.gate := by
  have hread := h.config.disk.getValueFromConfigFile
  refine ⟨⟨g.gateName, g.gateType, Config.start g.config.file⟩, ?_, ?_, ?_⟩
  · have htype : stoi ((Config.start g.config.file).utils.getValueFromConfigFile
        (str "GateType")) = .ok g.gateType := (congrArg stoi (hread _)).trans h.gateType
    have hname : (Config.start g.config.file).utils.getValueFromConfigFile (str "GateName") =
        g.gateName := (hread _).trans h.gateName
    simp only [construct, htype, hname]
    rfl
  · exact ⟨⟨h.config.disk, h.config.disk⟩, h.gateName, h.gateType⟩
  · have hflag := (hread (str "RegistratinResult")).trans
      (h.config.memory.getValueFromConfigFile (str "RegistratinResult")).symm
    simp only [gate, Gate.mk.injEq, true_and]
    exact hflag

/-- The flag is set, and nothing else of the gate. -/
theorem kept_registered (h : g.Kept values) :
    let g' : ConfiguredGate := { g with
      config := g.config.step (.set (str "RegistratinResult") Gate.registered true) }
    g'.Kept (put values (str "RegistratinResult") Gate.registered) ∧
      g'.gate = { g.gate with registratinResult := Gate.registered } := by
  have hplain : (ConfigEvent.set (str "RegistratinResult") Gate.registered true).Plain := by
    decide +kernel
  have hconfig := Config.represents_step h.config hplain
  have hother : ∀ key, fold (str "RegistratinResult") ≠ fold key →
      put values (str "RegistratinResult") Gate.registered key = values key :=
    fun key hne => if_neg hne
  refine ⟨⟨hconfig, ?_, ?_⟩, ?_⟩
  · rw [hother _ (by decide)]
    exact h.gateName
  · rw [hother _ (by decide)]
    exact h.gateType
  · simp only [gate, Gate.mk.injEq, true_and]
    rw [hconfig.memory.getValueFromConfigFile]
    rfl

/-- The registration that goes through the file does what the variable does. -/
theorem gateRegistration_gate {random : ℕ} {exchange : Str → Exchange} {value : ReturnValue}
    (h : g.Kept values) (hs : g.gateRegistration env random exchange = .ok (value, g')) :
    g.gate.gateRegistration env random exchange = .ok (value, g'.gate) ∧
      ∃ values', g'.Kept values' := by
  unfold gateRegistration at hs
  unfold Gate.gateRegistration
  by_cases htype : g.gateType = GateType.notSet.toInt
  · rw [if_pos htype] at hs
    cases hs
    exact ⟨if_pos htype, values, h⟩
  rw [if_neg htype] at hs
  rw [if_neg (show ¬ g.gate.gateType = GateType.notSet.toInt from htype)]
  by_cases hflag : g.gate.registratinResult = Gate.registered
  · rw [if_pos hflag]
    rw [← gate_registratinResult, if_pos hflag] at hs
    cases hs
    exact ⟨rfl, values, h⟩
  rw [if_neg hflag]
  rw [← gate_registratinResult, if_neg hflag] at hs
  obtain ⟨answer, hask, hs⟩ := bind_ok_iff.mp hs
  have hask' : ask env random exchange
      (.gateRegistration ⟨g.gate.gateName, decimalInt g.gate.gateType⟩)
      GateRegistrationResponse.fromJson = .ok answer := hask
  simp only [hask', bind, Except.bind]
  cases answer with
  | none =>
    cases hs
    exact ⟨rfl, values, h⟩
  | some response =>
    simp only at hs ⊢
    by_cases haccept : response.result ≠ RegistrationStatus.accept
    · rw [if_pos haccept] at hs ⊢
      cases hs
      exact ⟨rfl, values, h⟩
    · rw [if_neg haccept] at hs ⊢
      cases hs
      obtain ⟨hkept, hgate⟩ := kept_registered h
      exact ⟨by rw [hgate]; rfl, _, hkept⟩

/-- **Step lemma.** -/
theorem step_gate {e : GateEvent} {o : Option ReturnValue} (h : g.Kept values)
    (hs : g.step env e = .ok (o, g')) :
    g.gate.step env e = .ok (o, g'.gate) ∧ ∃ values', g'.Kept values' := by
  cases e with
  | restart =>
    obtain ⟨g'', hg, hkept, hgate⟩ := construct_kept h
    simp only [step, hg, Except.map] at hs
    cases hs
    exact ⟨by rw [hgate]; rfl, values, hkept⟩
  | call c random exchange =>
    cases c with
    | gateRegistration =>
      simp only [step] at hs
      cases hreg : g.gateRegistration env random exchange with
      | error e =>
        rw [hreg] at hs
        cases hs
      | ok r =>
        rw [hreg] at hs
        cases hs
        obtain ⟨hrun, hkept⟩ := gateRegistration_gate h hreg
        refine ⟨?_, hkept⟩
        simp only [Gate.step, GateCall.run, hrun]
        rfl
    | carRegistration timeUTC carPlate handicap =>
      simp only [step, Gate.step, GateCall.run] at hs ⊢
      cases hcar : g.gate.carRegistration env random exchange timeUTC carPlate handicap with
      | error e =>
        rw [hcar] at hs
        cases hs
      | ok r =>
        rw [hcar] at hs
        cases hs
        exact ⟨rfl, values, h⟩
    | carStatusUpdate carPlate =>
      simp only [step, Gate.step, GateCall.run] at hs ⊢
      cases hcar : g.gate.carStatusUpdate env random exchange carPlate with
      | error e =>
        rw [hcar] at hs
        cases hs
      | ok r =>
        rw [hcar] at hs
        cases hs
        exact ⟨rfl, values, h⟩

/-- **The flag outlives the process.**  A gate that is started from its file, calls and is
started again does what a gate does whose `RegistratinResult` is a variable. -/
theorem restarts_unnoticed {file : Option Str} (hfile : RegularFile file)
    (h₀ : construct file = .ok g) {h : List (History.Step ConfiguredGate GateEvent _)}
    (hr : History.Run (History.Graph (step env)) g h g') :
    ∃ h', History.Run (History.Graph (Gate.step env)) g.gate h' g'.gate ∧
      History.trace h' = History.trace h := by
  obtain ⟨h', t, hr', ⟨-, rfl⟩, htrace⟩ := hr.simulation
    (S := History.Graph (Gate.step env)) (Q := fun s t => (∃ values, s.Kept values) ∧ t = s.gate)
    ⟨kept_construct hfile h₀, rfl⟩ (by
      rintro s i o s' _ ⟨⟨values, hkept⟩, rfl⟩ hs
      obtain ⟨hstep, hkept'⟩ := step_gate hkept hs
      exact ⟨s'.gate, hstep, hkept', rfl⟩)
  exact ⟨h', hr', htrace⟩

/-- The entrance gate of the example package. -/
def packagedGate : ConfiguredGate := ⟨str "EntGate1", 0, Config.start (some clientConfigIni)⟩

theorem construct_packagedGate : construct (some clientConfigIni) = .ok packagedGate := by
  have htype : stoi ((Config.start (some clientConfigIni)).utils.getValueFromConfigFile
      (str "GateType")) = .ok 0 := by decide +kernel
  have hname : (Config.start (some clientConfigIni)).utils.getValueFromConfigFile
      (str "GateName") = str "EntGate1" := by decide +kernel
  simp only [construct, htype, hname]
  rfl

/-- The answer to the registration. -/
def acceptedText : Str :=
  addBase (str "\x7b\"Result\":\"Accept\"\x7d") .respond [] (str "\"1804289383\"") 0

/-- A gate registers, is started again, and does not ask again. -/
theorem restarts_unnoticed_client :
    ∃ g h h', History.Run (History.Graph (step packagedReader)) packagedGate h g ∧
      h.map (·.output) = [some .success, none, some .success] ∧
      History.Run (History.Graph (Gate.step packagedReader)) packagedGate.gate h' g.gate ∧
      History.trace h' = History.trace h := by
  obtain ⟨h, g, hr, hout⟩ : ∃ h g,
      History.Run (History.Graph (step packagedReader)) packagedGate h g ∧
      h.map (·.output) = [some .success, none, some .success] := by
    refine History.exists_run_of_execute [.call .gateRegistration 1804289383 fun _ =>
      .answered acceptedText, .restart, .call .gateRegistration 1 fun _ => .notSent] _ ?_
    decide +kernel
  have hfile : RegularFile (some clientConfigIni) := by decide +kernel
  obtain ⟨h', hr', htrace⟩ := restarts_unnoticed hfile construct_packagedGate hr
  exact ⟨g, h, h', hr, hout, hr', htrace⟩

end ConfiguredGate

end ParkManager
