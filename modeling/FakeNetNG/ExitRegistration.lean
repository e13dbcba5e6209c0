import FakeNetNG.FaultInjection
import Mathlib.Logic.Function.Basic
import Mathlib.Data.List.Sort

/-!
# The exit monitor in the registry

Installing the monitor writes four values, and a record of what stood before them. Every step on
the registry and on the record may raise or be the last one before a crash, with its effect or
without.
-/

namespace FakeNetNG

/-- The keys above and at the image. -/
inductive RegKey
  | ifeoParent
  | speParent
  | ifeo
  | spe
  deriving DecidableEq

namespace RegKey

/-- The managed key that holds a key. The keys above `CurrentVersion` always stand. -/
def parent : RegKey → Option RegKey
  | ifeo => some ifeoParent
  | spe => some speParent
  | _ => none

def image : String := "fakenetng-mcp-managed.exe"

def ifeoParentPath : String :=
  "SOFTWARE\\Microsoft\\Windows NT\\CurrentVersion\\Image File Execution Options"

def speParentPath : String := "SOFTWARE\\Microsoft\\Windows NT\\CurrentVersion\\SilentProcessExit"

def path : RegKey → String
  | ifeoParent => ifeoParentPath
  | speParent => speParentPath
  | ifeo => ifeoParentPath++"\\"++image
  | spe => speParentPath++"\\"++image

theorem length_parent_lt {k p : RegKey} (h : k.parent = some p) : p.path.length < k.path.length := by
  have hslash : "\\".length = 1 := rfl
  cases k <;> cases h <;> simp only [path,String.length_append] <;> omega

def all : List RegKey := [ifeoParent,speParent,ifeo,spe]

theorem mem_all (k : RegKey) : k ∈ all := by cases k <;> decide

end RegKey

/-- `SLOTS`. -/
inductive Slot
  | globalFlag
  | reportingMode
  | ignoreSelfExits
  | monitorProcess
  deriving DecidableEq

namespace Slot

def key : Slot → RegKey
  | globalFlag => .ifeo
  | _ => .spe

def name : Slot → String
  | globalFlag => "GlobalFlag"
  | reportingMode => "ReportingMode"
  | ignoreSelfExits => "IgnoreSelfExits"
  | monitorProcess => "MonitorProcess"

def all : List Slot := [globalFlag,reportingMode,ignoreSelfExits,monitorProcess]

theorem mem_all (slot : Slot) : slot ∈ all := by cases slot <;> decide

end Slot

inductive RegData
  | int (n : ℕ)
  | text (s : String)
  | bytes (b : List UInt8)
  | texts (l : List String)
  deriving DecidableEq

/-- A value as `read` returns it. -/
structure RegValue where
  kind : ℕ
  data : RegData
  deriving DecidableEq

/-- The keys and values that matter here, and whether a key holds anything else. -/
@[ext]
structure Registry where
  keys : RegKey → Bool
  values : Slot → Option RegValue
  other : RegKey → Bool
  parents : ∀ k p, k.parent = some p → keys k = true → keys p = true
  owned : ∀ slot, values slot ≠ none → keys slot.key = true
  occupied : ∀ k, other k = true → keys k = true

namespace Registry

/-- `CreateKeyEx` makes the keys above too. -/
def createKey (k : RegKey) (r : Registry) : Registry where
  keys := fun j => r.keys j || j = k || k.parent = some j
  values := r.values
  other := r.other
  parents := by
    intro j p hp hj
    simp only [Bool.or_eq_true,decide_eq_true_eq] at hj ⊢
    rcases hj with (hj | rfl) | hj
    · exact Or.inl (Or.inl (r.parents j p hp hj))
    · exact Or.inr hp
    · cases k <;> cases hj <;> cases hp
  owned := by
    intro slot hslot
    simp [r.owned slot hslot]
  occupied := by
    intro j hj
    simp [r.occupied j hj]

/-- `SetValueEx` on an open key. -/
def setValue (slot : Slot) (v : RegValue) (r : Registry) : Registry :=
  if h : r.keys slot.key = true then
    { r with
      values := Function.update r.values slot (some v)
      owned := by
        intro j hj
        by_cases hjs : j = slot
        · rw [hjs]
          exact h
        · rw [Function.update_of_ne hjs] at hj
          exact r.owned j hj }
  else
    r

def deleteValue (slot : Slot) (r : Registry) : Registry :=
  { r with
    values := Function.update r.values slot none
    owned := by
      intro j hj
      by_cases hjs : j = slot
      · rw [hjs,Function.update_self] at hj
        exact absurd rfl hj
      · rw [Function.update_of_ne hjs] at hj
        exact r.owned j hj }

/-- `QueryInfoKey` counts no subkeys and no values. -/
def isEmpty (k : RegKey) (r : Registry) : Bool :=
  !r.other k && Slot.all.all (fun slot => slot.key ≠ k || r.values slot = none) &&
    RegKey.all.all fun j => j.parent ≠ some k || !r.keys j

theorem isEmpty_iff {k : RegKey} {r : Registry} :
    r.isEmpty k = true ↔ r.other k = false ∧ (∀ slot, slot.key = k → r.values slot = none) ∧
      ∀ j, j.parent = some k → r.keys j = false := by
  have hslots : ∀ p : Slot → Bool, Slot.all.all p = true ↔ ∀ slot, p slot = true := fun p =>
    List.all_eq_true.trans ⟨fun h slot => h slot (Slot.mem_all slot),fun h slot _ => h slot⟩
  have hkeys : ∀ p : RegKey → Bool, RegKey.all.all p = true ↔ ∀ j, p j = true := fun p =>
    List.all_eq_true.trans ⟨fun h j => h j (RegKey.mem_all j),fun h j _ => h j⟩
  simp [isEmpty,hslots,hkeys,and_assoc,or_iff_not_imp_left]

def deleteKey (k : RegKey) (r : Registry) : Registry :=
  if h : r.isEmpty k = true then
    { r with
      keys := Function.update r.keys k false
      parents := by
        intro j p hp hj
        obtain ⟨-,-,hchildren⟩ := isEmpty_iff.mp h
        have hjk : j ≠ k := by
          rintro rfl
          simp at hj
        rw [Function.update_of_ne hjk] at hj
        by_cases hpk : p = k
        · rw [hchildren j (hpk ▸ hp)] at hj
          cases hj
        · rw [Function.update_of_ne hpk]
          exact r.parents j p hp hj
      owned := by
        intro slot hslot
        obtain ⟨-,hvalues,-⟩ := isEmpty_iff.mp h
        have hk : slot.key ≠ k := fun hk => hslot (hvalues slot hk)
        rw [Function.update_of_ne hk]
        exact r.owned slot hslot
      occupied := by
        intro j hj
        obtain ⟨hother,-,-⟩ := isEmpty_iff.mp h
        have hk : j ≠ k := by
          rintro rfl
          rw [hother] at hj
          cases hj
        rw [Function.update_of_ne hk]
        exact r.occupied j hj }
  else
    r

end Registry

structure RegistrationEntry where
  slot : Slot
  before : Option RegValue
  after : Option RegValue

/-- The ownership record. -/
structure Registration where
  schema : String
  phase : String
  createdKeys : List RegKey
  entries : List RegistrationEntry

/-- What a crash leaves. -/
structure ExitScene where
  registry : Registry
  record : Option Registration

abbrev Managed := Faulty ExitScene

namespace ExitRegistration

open Fallible Faulty

def onRegistry (f : Registry → Registry) : Managed Unit :=
  attempt fun s => ((),{ s with registry := f s.registry })

def read (slot : Slot) : Managed (Option RegValue) := attempt fun s => (s.registry.values slot,s)

def write (slot : Slot) (value : RegValue) : Managed Unit := do
  -- the two keys of the path are created one after the other
  match slot.key.parent with
  | some p => onRegistry (Registry.createKey p)
  | none => pure ()
  onRegistry (Registry.createKey slot.key)
  onRegistry (Registry.setValue slot value)

def deleteValue (slot : Slot) : Managed Unit := do
  if (← state).registry.values slot = none then
    raise (.raised "FileNotFoundError")
  onRegistry (Registry.deleteValue slot)

def missing (r : Registry) : List RegKey := RegKey.all.filter fun k => !r.keys k

def missingKeys : Managed (List RegKey) := attempt fun s => (missing s.registry,s)

def deleteEmptyKey (k : RegKey) : Managed Unit := do
  if ← attempt fun s => (s.registry.keys k && s.registry.isEmpty k,s) then
    onRegistry (Registry.deleteKey k)

/-- `_save` publishes the whole record in one step. -/
def save (record : Registration) : Managed Unit := attempt fun s => ((),{ s with record := some record })

def readRecord : Managed (Option Registration) := attempt fun s => (s.record,s)

def schemaText : String := "fakenet.exit-registration.v1"

/-- The checks of `_load`. Every key of a record is one of the four. -/
def load (record : Registration) : Managed Registration :=
  if record.schema ≠ schemaText then
    raise (.raised "invalid exit registration ownership record")
  else if record.entries.map (·.slot) ≠ Slot.all then
    raise (.raised "invalid exit registration owned slots")
  else
    pure record

def preflight : List RegistrationEntry → Managed Unit
  | [] => pure ()
  | entry :: entries => do
      let actual ← read entry.slot
      if actual ≠ entry.before ∧ actual ≠ entry.after then
        raise (.raised "exit registration drift; preserve external values")
      preflight entries

/-- The step for a slot that does not hold its original. -/
def putBack (entry : RegistrationEntry) : Managed Unit :=
  match entry.before with
  | none => deleteValue entry.slot
  | some value => write entry.slot value

def restoreSlot (entry : RegistrationEntry) : Managed Unit := do
  let actual ← read entry.slot
  if actual ≠ entry.before then
    if actual ≠ entry.after then
      raise (.raised "exit registration drift during restore")
    putBack entry
    if (← read entry.slot) ≠ entry.before then
      raise (.raised "exit registration restore did not persist")

def restoreSlots : List RegistrationEntry → Managed Unit
  | [] => pure ()
  | entry :: entries => do
      restoreSlot entry
      restoreSlots entries

def deleteKeys : List RegKey → Managed Unit
  | [] => pure ()
  | k :: keys => do
      deleteEmptyKey k
      deleteKeys keys

def deepestFirst (keys : List RegKey) : List RegKey :=
  keys.insertionSort fun a b => b.path.length ≤ a.path.length

def restore : Managed Unit := do
  match ← readRecord with
  | none => pure ()
  | some stored =>
      let record ← load stored
      preflight record.entries
      -- the image flag goes first
      restoreSlots (record.entries.take 1++(record.entries.drop 1).reverse)
      deleteKeys (deepestFirst record.createdKeys)
      save { record with phase := "restored" }

def checkInstalled : List RegistrationEntry → Managed Unit
  | [] => pure ()
  | entry :: entries => do
      if (← read entry.slot) ≠ entry.after then
        raise (.raised "exit registration drift")
      checkInstalled entries

def putAfter (entry : RegistrationEntry) : Managed Unit :=
  match entry.after with
  | none => pure ()
  | some value => write entry.slot value

def writeEntry (entry : RegistrationEntry) : Managed Unit := do
  if (← read entry.slot) ≠ entry.before then
    raise (.raised "exit registration drift before write")
  else
    putAfter entry
    if (← read entry.slot) ≠ entry.after then
      raise (.raised "exit registration write did not persist")

def writeEntries : List RegistrationEntry → Managed Unit
  | [] => pure ()
  | entry :: entries => do
      writeEntry entry
      writeEntries entries

def flagMask : ℕ := 0x200

/-- The value of the flag before, when its type is the expected one. -/
def flagsOf : Option RegValue → Option ℕ
  | none => some 0
  | some ⟨4,.int n⟩ => some n
  | some _ => none

def entriesFor (before : Slot → Option RegValue) (flags : ℕ) (command : String) :
    List RegistrationEntry :=
  [⟨.globalFlag,before .globalFlag,some ⟨4,.int (flags ||| flagMask)⟩⟩,
    ⟨.reportingMode,before .reportingMode,some ⟨4,.int 1⟩⟩,
    ⟨.ignoreSelfExits,before .ignoreSelfExits,some ⟨4,.int 0⟩⟩,
    ⟨.monitorProcess,before .monitorProcess,some ⟨1,.text command⟩⟩]

/-- The handler of an install. A crash runs no handler. -/
def undo : Halt → Managed Unit
  | .crashed => raise .crashed
  | .raised message => do
      restore
      raise (.raised message)

def installFresh (command : String) : Managed Unit := do
  let flag ← read .globalFlag
  let mode ← read .reportingMode
  let selfExits ← read .ignoreSelfExits
  let monitor ← read .monitorProcess
  match flagsOf flag with
  | none => raise (.raised "external GlobalFlag type is incompatible")
  | some flags =>
      if flags &&& flagMask ≠ 0 ∨ mode ≠ none ∨ selfExits ≠ none ∨ monitor ≠ none then
        raise (.raised "external exit monitor registration conflicts")
      let before : Slot → Option RegValue
        | .globalFlag => flag
        | .reportingMode => mode
        | .ignoreSelfExits => selfExits
        | .monitorProcess => monitor
      let createdKeys ← missingKeys
      let record : Registration :=
        ⟨schemaText,"prepared",createdKeys,entriesFor before flags command⟩
      save record
      -- the image flag comes last
      tryExcept (do
        writeEntries (record.entries.drop 1++record.entries.take 1)
        save { record with phase := "installed" }) undo

def commandFor (monitorExe : String) : String := "\""++monitorExe++"\" %e %i %t %c"

def install (monitorExe : String) : Managed Unit := do
  if monitorExe.toList.any (['"','\r','\n','%'].contains ·) then
    raise (.raised "invalid fixed exit monitor path")
  let command := commandFor monitorExe
  match ← readRecord with
  | none => installFresh command
  | some stored =>
      let previous ← load stored
      if previous.phase = "installed" then
        if previous.entries.getLast?.bind (·.after) ≠ some ⟨1,.text command⟩ then
          raise (.raised "exit monitor path changed; restore old owner first")
        checkInstalled previous.entries
      else
        if previous.phase ≠ "restored" then
          restore
        installFresh command

end ExitRegistration
end FakeNetNG
