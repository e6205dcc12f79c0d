import ParkManager.Cpp

/-!
# The shared-memory store

`C_BoostShmObj`: 50 elements, each a name of 50 and a value of 5000 bytes, one
after the other in memory.  A string is read up to the first NUL, past the end of
its field where the field holds none.  The semaphore is assumed to work.

Proved here: `strncpy_length`, `setElement_length`, that writing keeps the layout;
`cstr_strncpy`, that a string that fits its field is read back.
-/

namespace ParkManager

def maxlenName : ℕ := 50

def maxlenValue : ℕ := 5000

def maxnumberObjects : ℕ := 50

/-- What `strncpy` leaves in a field of `n` bytes. -/
def strncpy (source : Str) (n : ℕ) : Str :=
  (cstr source).take n ++ List.replicate (n - (cstr source).length) 0

theorem strncpy_length (source : Str) (n : ℕ) : (strncpy source n).length = n := by
  simp only [strncpy, List.length_append, List.length_take, List.length_replicate]
  omega

/-- A string shorter than its field is read back, whatever follows the field. -/
theorem cstr_strncpy {source : Str} {n : ℕ} (h0 : 0 ∉ source) (hn : source.length < n)
    (rest : Str) : cstr (strncpy source n ++ rest) = source := by
  have hs := cstr_eq_self h0
  obtain ⟨k, hk⟩ : ∃ k, n - source.length = k + 1 := ⟨n - source.length - 1, by omega⟩
  unfold strncpy
  rw [hs, List.take_of_length_le hn.le, hk, List.replicate_succ, List.append_assoc,
    List.cons_append, cstr_append_zero h0]

structure SharedObjectElement where
  name : Str
  value : Str
  name_length : name.length = maxlenName
  value_length : value.length = maxlenValue

/-- The bytes of a stretch of elements. -/
def elementBytes (elements : List SharedObjectElement) : Str :=
  elements.flatMap fun e => e.name ++ e.value

/-- `element[i].name` as `strcmp` reads it, with the elements behind it. -/
def SharedObjectElement.readName (e : SharedObjectElement) (rest : List SharedObjectElement) :
    Str :=
  cstr (e.name ++ e.value ++ elementBytes rest)

def SharedObjectElement.readValue (e : SharedObjectElement) (rest : List SharedObjectElement) :
    Str :=
  cstr (e.value ++ elementBytes rest)

/-- The loop of `SetValue`: the first element that is free or has the name. -/
def setElement (valueName newValue : Str) :
    List SharedObjectElement → Option (List SharedObjectElement)
  | [] => none
  | e :: rest =>
    if e.name.head? = some 0 ∨ e.readName rest = cstr valueName then
      some (⟨strncpy valueName maxlenName, strncpy newValue maxlenValue, strncpy_length ..,
        strncpy_length ..⟩ :: rest)
    else (setElement valueName newValue rest).map (e :: ·)

/-- The loop of `GetValue`. -/
def getElement (valueName : Str) : List SharedObjectElement → Option Str
  | [] => none
  | e :: rest =>
    if e.readName rest = cstr valueName then some (e.readValue rest)
    else getElement valueName rest

theorem setElement_length {valueName newValue : Str} {es es' : List SharedObjectElement}
    (h : setElement valueName newValue es = some es') : es'.length = es.length := by
  induction es generalizing es' with
  | nil => cases h
  | cons e rest ih =>
    unfold setElement at h
    split_ifs at h
    · cases h
      rfl
    · obtain ⟨rest', hr, rfl⟩ := Option.map_eq_some_iff.mp h
      rw [List.length_cons, List.length_cons, ih hr]

/-- The store, mapped with its 50 elements. -/
structure BoostShmObj where
  element : List SharedObjectElement
  element_length : element.length = maxnumberObjects

namespace BoostShmObj

/-- The store after `memset`. -/
def zeroed : BoostShmObj where
  element := List.replicate maxnumberObjects ⟨List.replicate maxlenName 0,
    List.replicate maxlenValue 0, List.length_replicate, List.length_replicate⟩
  element_length := List.length_replicate

/-- `SetValue`, and whether it returned `SETVALUE_OK`. -/
def setValue (o : BoostShmObj) (valueName newValue : Str) : BoostShmObj × Bool :=
  match h : setElement valueName newValue o.element with
  | some es => (⟨es, (setElement_length h).trans o.element_length⟩, true)
  | none => (o, false)

/-- `GetValue`: the value, empty where it returned `SETVALUE_FAIL`. -/
def getValue (o : BoostShmObj) (valueName : Str) : Str × Bool :=
  match getElement valueName o.element with
  | some v => (v, true)
  | none => ([], false)

end BoostShmObj

end ParkManager
