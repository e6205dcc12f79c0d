import ParkManager.IniRoundTrip
import ParkManager.Server

/-!
# The configuration file

`utils` holds the values of a configuration file in memory and writes the whole file
whenever a value is set.  A file that cannot be opened for writing stays as it is.

Proved here:

* `config_refines`: over any sets, failed writes and restarts the file is a map that
  survives the process;
* `survives_iff`: which values come back after a restart.
-/

namespace ParkManager

open SimpleIni

/-- `utils`. -/
structure Utils where
  configValid : Bool
  ini : Ini

namespace Utils

/-- The constructor. -/
def load (file : Option Str) : Utils := ⟨(loadFile file).1, (loadFile file).2⟩

def getValueFromConfigFile (u : Utils) (key : Str) : Str :=
  if u.configValid then (u.ini.getValue [] (cstr key)).getD [] else []

/-- `SetValueFromConfigFile`: the object and the file after it. -/
def setValueFromConfigFile (u : Utils) (key value : Str) (writable : Bool) (file : Option Str) :
    Utils × Option Str :=
  if u.configValid then
    let ini := u.ini.addEntry [] (some (cstr key, cstr value)) none
    (⟨u.configValid, ini⟩, if writable then some ini.save else file)
  else (u, file)

end Utils

/-- A process with its object, and the file. -/
structure Config where
  utils : Utils
  file : Option Str

inductive ConfigEvent
  /-- The file may not be `writable`. -/
  | set (key value : Str) (writable : Bool)
  | restart

namespace Config

def start (file : Option Str) : Config := ⟨.load file, file⟩

def step (c : Config) : ConfigEvent → Config
  | .set key value writable =>
    let (utils, file) := c.utils.setValueFromConfigFile key value writable c.file
    ⟨utils, file⟩
  | .restart => start c.file

end Config

/-! ## A map that survives -/

/-- What is in memory and what is on disk; there may be no file. -/
structure Persisted where
  memory : Option (Str → Option Str)
  disk : Option (Str → Option Str)

/-- Keys are set without regard to case. -/
def put (values : Str → Option Str) (key value : Str) : Str → Option Str :=
  fun k => if fold key = fold k then some value else values k

def Persisted.step (p : Persisted) : ConfigEvent → Persisted
  | .set key value writable =>
    match p.memory with
    | none => p
    | some values =>
      let values' := put values (cstr key) (cstr value)
      ⟨some values', if writable then some values' else p.disk⟩
  | .restart => ⟨p.disk, p.disk⟩

/-- The object has these values, and can be written. -/
def Utils.Shows (u : Utils) (values : Option (Str → Option Str)) : Prop :=
  u.configValid = values.isSome ∧ ∀ v ∈ values, u.ini.Plain ∧ u.ini.getValue [] = v

structure Config.Represents (c : Config) (p : Persisted) : Prop where
  memory : c.utils.Shows p.memory
  disk : (Utils.load c.file).Shows p.disk

/-- What is set is read as it is written. -/
def ConfigEvent.Plain : ConfigEvent → Prop
  | .set key value _ => PlainKey (cstr key) ∧ PlainValue (cstr value)
  | .restart => True

instance : DecidablePred ConfigEvent.Plain := fun e => by
  cases e <;> unfold ConfigEvent.Plain <;> infer_instance

theorem loadData_nil : loadData [] = Ini.empty := rfl

theorem loadFile_some (data : Str) : loadFile (some data) = (true, loadData data) := by
  simp only [loadFile]
  split_ifs with h
  · rw [h, loadData_nil]
  · rfl

/-- A file that was written shows what was in memory. -/
theorem load_saved {ini : Ini} (h : ini.Plain) :
    (Utils.load (some ini.save)).Shows (some (ini.getValue [])) := by
  obtain ⟨hvalues, hplain, -⟩ := load_save h
  rw [Utils.load, loadFile_some]
  refine ⟨rfl, fun v hv => ⟨hplain, ?_⟩⟩
  obtain rfl := Option.some.inj hv
  rw [hvalues]

theorem getValue_set (ini : Ini) (key value : Str) :
    (ini.addEntry [] (some (key, value)) none).getValue [] = put (ini.getValue []) key value := by
  funext k
  rw [getValue_addEntry]
  simp [put]

/-- **Step lemma.** -/
theorem Config.represents_step {c : Config} {p : Persisted} (h : Config.Represents c p)
    {e : ConfigEvent} (he : e.Plain) : Config.Represents (c.step e) (p.step e) := by
  cases e with
  | restart => exact ⟨h.disk, h.disk⟩
  | set key value writable =>
    cases hm : p.memory with
    | none =>
      have hinvalid : c.utils.configValid = false := by rw [h.memory.1, hm]; rfl
      simp only [Config.step, Utils.setValueFromConfigFile, hinvalid, Bool.false_eq_true, if_false,
        Persisted.step, hm]
      exact h
    | some values =>
      have hvalid : c.utils.configValid = true := by rw [h.memory.1, hm]; rfl
      obtain ⟨hplain, rfl⟩ := h.memory.2 values hm
      have hini : (c.utils.ini.addEntry [] (some (cstr key, cstr value)) none).Plain :=
        hplain.addEntry plainName_nil (by simpa [ConfigEvent.Plain] using he) commentText_none
      have hset := getValue_set c.utils.ini (cstr key) (cstr value)
      simp only [Config.step, Utils.setValueFromConfigFile, hvalid, if_true, Persisted.step, hm]
      refine ⟨⟨rfl, fun v hv => ?_⟩, ?_⟩
      · obtain rfl := Option.some.inj hv
        exact ⟨hini, hset⟩
      · cases writable with
        | true =>
          have hsaved := load_saved hini
          rw [hset] at hsaved
          exact hsaved
        | false => exact h.disk

theorem Config.represents_run {c : Config} {p : Persisted} (h : Config.Represents c p)
    {events : List ConfigEvent} (hplain : ∀ e ∈ events, e.Plain) :
    Config.Represents (events.foldl Config.step c) (events.foldl Persisted.step p) := by
  induction events generalizing c p with
  | nil => exact h
  | cons e events ih =>
    obtain ⟨he, hrest⟩ := List.forall_mem_cons.mp hplain
    exact ih (Config.represents_step h he) hrest

/-! ## Configurations over a run -/

/-- Every section of the file is closed on its line, and no key looks like the signature. -/
def RegularFile (file : Option Str) : Prop :=
  ∀ data ∈ file, ∀ e ∈ entries (parsedText data), e.Regular

instance (file : Option Str) : Decidable (RegularFile file) :=
  inferInstanceAs (Decidable (∀ data ∈ file, ∀ e ∈ entries (parsedText data), e.Regular))

def Persisted.start (file : Option Str) : Persisted :=
  let values := file.map fun data => (loadData data).getValue []
  ⟨values, values⟩

theorem shows_load {file : Option Str} (h : RegularFile file) :
    (Utils.load file).Shows (Persisted.start file).memory := by
  cases file with
  | none => exact ⟨rfl, fun v hv => by cases hv⟩
  | some data =>
    rw [Utils.load, loadFile_some]
    refine ⟨rfl, fun v hv => ⟨plain_loadData (h data rfl), ?_⟩⟩
    exact Option.some.inj hv

theorem Config.represents_start {file : Option Str} (h : RegularFile file) :
    Config.Represents (Config.start file) (Persisted.start file) := ⟨shows_load h, shows_load h⟩

theorem Utils.Shows.getValueFromConfigFile {u : Utils} {values : Option (Str → Option Str)}
    (h : u.Shows values) (key : Str) :
    u.getValueFromConfigFile key = (values.bind fun v => v (cstr key)).getD [] := by
  obtain ⟨hvalid, hvalues⟩ := h
  unfold Utils.getValueFromConfigFile
  cases values with
  | none => rw [hvalid]; rfl
  | some v =>
    rw [hvalid, (hvalues v rfl).2]
    rfl

/-- **The configuration is a map that survives.** -/
theorem config_refines {file : Option Str} (hfile : RegularFile file)
    {events : List ConfigEvent} (hplain : ∀ e ∈ events, e.Plain) (key : Str) :
    (events.foldl Config.step (Config.start file)).utils.getValueFromConfigFile key =
      ((events.foldl Persisted.step (Persisted.start file)).memory.bind
        fun v => v (cstr key)).getD [] :=
  (Config.represents_run (Config.represents_start hfile) hplain).memory.getValueFromConfigFile key

/-- **What comes back.**  A value that was set and written is read after a restart exactly if
it is plain. -/
theorem survives_iff {u : Utils} (hvalid : u.configValid = true) (hplain : u.ini.Plain)
    {key : Str} (hk : PlainKey (cstr key)) (value : Str) (file : Option Str) :
    (Utils.load (u.setValueFromConfigFile key value true file).2).getValueFromConfigFile key =
      cstr value ↔ PlainValue (cstr value) := by
  have hfile : (u.setValueFromConfigFile key value true file).2 =
      some (u.ini.addEntry [] (some (cstr key, cstr value)) none).save := by
    simp [Utils.setValueFromConfigFile, hvalid]
  rw [hfile]
  constructor
  · intro hread
    by_cases hnil : cstr value = []
    · rw [hnil]
      exact plainName_nil.toPlainValue
    · rw [Utils.load, loadFile_some] at hread
      simp only [Utils.getValueFromConfigFile, if_true] at hread
      refine plainValue_loadData (Option.getD_eq_iff.mp hread |>.resolve_right ?_)
      exact fun h => hnil h.2.symm
  · intro hv
    have hini : (u.ini.addEntry [] (some (cstr key, cstr value)) none).Plain :=
      hplain.addEntry plainName_nil (by simpa using ⟨hk, hv⟩) commentText_none
    rw [(load_saved hini).getValueFromConfigFile, getValue_set]
    simp [put]

/-! ## The files of the example package -/

/-- `ServerConfig.ini`; there is no newline at its end. -/
def serverConfigIni : Str :=
  str "WebSocketPort = 1884\nHandicapSlotCount = 5\nNormalSlotCount = 20\n" ++
    str "Currency = $\nPricePerMin = 1\nFreeDurationinMin = 30"

/-- `ClientConfig.ini`, before the gate has registered. -/
def clientConfigIni : Str :=
  str "WebsocketURL = ws://127.0.0.1:1884\nClientURI = Gate1\nGateName = EntGate1\n" ++
    str "GateType = 0\nRegistratinResult = -1\n"

/-- The configuration of the packaged server is what its file says. -/
example : ∀ key ∈ [str "WebSocketPort", str "HandicapSlotCount", str "NormalSlotCount",
      str "Currency", str "PricePerMin", str "FreeDurationinMin"],
    (Utils.load (some serverConfigIni)).getValueFromConfigFile key = serverConfig key := by
  decide +kernel

theorem load_save_serverConfig :
    (loadData (loadData serverConfigIni).save).getValue = (loadData serverConfigIni).getValue :=
  (load_save (plain_loadData (by decide +kernel))).1

/-- The last write fails. -/
theorem config_refines_client :
    ([.set (str "REGISTRATINRESULT") (str "0") true, .set (str "GateName") (str "Gate") false,
        .restart].foldl Config.step
      (Config.start (some clientConfigIni))).utils.getValueFromConfigFile
      (str "RegistratinResult") = str "0" := by
  rw [config_refines (by decide +kernel) (by decide +kernel)]
  decide +kernel

/-- A value with a space at its end comes back without it. -/
theorem survives_iff_space :
    (Utils.load ((Utils.load (some clientConfigIni)).setValueFromConfigFile (str "GateName")
      (str "Gate ") true none).2).getValueFromConfigFile (str "GateName") ≠ str "Gate " := by
  have hplain : (loadData clientConfigIni).Plain := plain_loadData (by decide +kernel)
  have hload : Utils.load (some clientConfigIni) = ⟨true, loadData clientConfigIni⟩ := by
    rw [Utils.load, loadFile_some]
  have hkey : PlainKey (cstr (str "GateName")) := by decide +kernel
  generalize loadData clientConfigIni = ini at hplain hload
  have hiff := survives_iff (u := ⟨true, ini⟩) rfl hplain hkey (str "Gate ") none
  rw [hload]
  intro h
  exact absurd (hiff.mp h) (by decide +kernel)

end ParkManager
