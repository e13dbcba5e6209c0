import FakeNetNG.ConfigStore
import FakeNetNG.OsCalls

/-!
# Configurations under failing calls

An operation appends to the audit log, writes a staging file next to the configuration, replaces the
configuration by it and unlinks files, and the system may refuse each of these calls. The programs here
follow the operations through the handlers of what is then raised.
-/

namespace FakeNetNG
namespace Config

open Fallible OsProgram

inductive Raised
  | mcp (e : McpError)
  /-- `OSError`, which only the handlers of an operation see. -/
  | os
  | unicodeEncode
  deriving DecidableEq

/-- A refused write leaves the staging file with some content or none. A refused append leaves the line
in the log if there is some content. -/
abbrev Program (α : Type) := OsProgram ConfigStore (Option (List UInt8)) Raised α

variable (p : Platform)

def require {α : Type} (m : Except McpError α) : Program α := check (m.mapError .mcp)

def audit (line : AuditLine) : Program Unit :=
  tryExcept (call .os (ConfigStore.log line) fun left s => if left.isSome then s.log line else s) fun _ =>
    raise (.mcp ⟨"audit_write_failed","config audit log unavailable; refusing commit"⟩)

def stagingName (pid : ℕ) (name : String) : String := "."++p.fold name++"."++toString pid++".tmp"

def stage (tmp : String) (raw : List UInt8) : Program Unit :=
  call .os (ConfigStore.store p tmp (some ⟨raw,1⟩)) fun left =>
    ConfigStore.store p tmp (left.map fun raw => ⟨raw,1⟩)

/-- `os.replace`. -/
def replaceFile (source target : String) : Program Unit :=
  call .os (fun s => (s.store p target (s.custom (p.fold source))).store p source none) fun _ s => s

def unlink (name : String) : Program Unit := call .os (ConfigStore.store p name none) fun _ s => s

def discard (tmp : String) : Program Unit := tryExcept (unlink p tmp) fun _ => pure ()

/-- `refuse`, and the raise. -/
def refuseLogged (caller : Caller) (name : String) (operation : Operation) (before : Option String)
    (e : McpError) : Program ConfigReply := do
  audit ⟨caller,name,operation,before,none,.refused e.code⟩
  raise (.mcp e)

/-- The last part of `_commit`. -/
def commitStaged (pid : ℕ) (caller : Caller) (operation : Operation) (name : String) (before : Option String)
    (raw : List UInt8) : Program ConfigReply :=
  let after := some (p.sha raw)
  let tmp := stagingName p pid name
  if before = after then do
    audit ⟨caller,name,operation,before,after,.noChange⟩
    pure ⟨name,after,false⟩
  else do
    tryExcept (do
      stage p tmp raw
      audit ⟨caller,name,operation,before,after,.ok⟩
      replaceFile p tmp name) fun e =>
        match e with
        | .os => do
          discard p tmp
          audit ⟨caller,name,operation,before,after,.commitFailed⟩
          raise (.mcp ⟨"internal_error","commit failed"⟩)
        | e => do
          discard p tmp
          raise e
    pure ⟨name,after,true⟩

def encodeContent (content : Option (List UInt8)) : Program (List UInt8) :=
  check (content.elim (.error .unicodeEncode) .ok)

/-- `_commit`. -/
def commitFile (pid : ℕ) (caller : Caller) (operation : Operation) (name : String)
    (content : Option (List UInt8)) (expected : Option String) (allowCreate : Bool) : Program ConfigReply := do
  let s ← look
  require (s.customPath p name)
  match s.custom (p.fold name) with
  | none =>
    if !allowCreate then
      if s.shadows p name then
        refuseLogged caller name operation none ⟨"builtin_readonly","builtin configs are read-only"⟩
      else
        refuseLogged caller name operation none ⟨"config_not_found","config not found"⟩
    else if s.shadows p name then
      refuseLogged caller name operation none ⟨"name_conflict","name is reserved by a builtin config"⟩
    else do
      let raw ← encodeContent content
      commitStaged p pid caller operation name none raw
  | some file => do
    require (ConfigStore.checkNotHardlink file)
    require (s.guardWritable name)
    let before := some (p.sha file.raw)
    if allowCreate then
      refuseLogged caller name operation before ⟨"name_conflict","config already exists"⟩
    else if expected.isSome && expected ≠ before then
      refuseLogged caller name operation before
        ⟨"version_conflict","expected_sha256 does not match current content"⟩
    else do
      let raw ← encodeContent content
      commitStaged p pid caller operation name before raw

def createFile (pid : ℕ) (caller : Caller) (name : String) (content : Option (List UInt8)) :
    Program ConfigReply := do
  require (validateName name)
  commitFile p pid caller .create name content none true

def editFile (pid : ℕ) (caller : Caller) (name : String) (content : Option (List UInt8))
    (expected : Option String) : Program ConfigReply :=
  commitFile p pid caller .edit name content expected false

def renameFile (caller : Caller) (name newName : String) (expected : Option String) : Program ConfigReply := do
  require (validateName newName)
  let s ← look
  require (s.customPath p name)
  require (s.guardWritable name)
  let record ← require (s.read p name)
  let sha := some record.sha
  if record.builtin then
    raise (.mcp ⟨"builtin_readonly","builtin configs are read-only"⟩)
  else if s.shadows p newName then
    refuseLogged caller name .rename sha ⟨"name_conflict","name is reserved by a builtin config"⟩
  else do
    require (s.customPath p newName)
    if (s.custom (p.fold newName)).isSome then
      refuseLogged caller name .rename sha ⟨"name_conflict","target name already exists"⟩
    else if expected.isSome && expected ≠ sha then
      refuseLogged caller name .rename sha
        ⟨"version_conflict","expected_sha256 does not match current content"⟩
    else do
      audit ⟨caller,name,.rename,sha,sha,.okAs newName⟩
      tryExcept (replaceFile p name newName) fun _ => do
        audit ⟨caller,name,.rename,sha,sha,.commitFailed⟩
        raise (.mcp ⟨"internal_error","rename failed"⟩)
      assign fun s => if s.activeName = some name then { s with activeName := some newName } else s
      pure ⟨newName,sha,true⟩

def deleteFile (caller : Caller) (name : String) (expected : Option String) : Program ConfigReply := do
  let s ← look
  require (s.customPath p name)
  let record ← require (s.read p name)
  let sha := some record.sha
  if record.builtin then
    raise (.mcp ⟨"builtin_readonly","builtin configs are read-only"⟩)
  else do
    require (s.guardWritable name)
    if expected.isSome && expected ≠ sha then
      refuseLogged caller name .delete sha
        ⟨"version_conflict","expected_sha256 does not match current content"⟩
    else do
      audit ⟨caller,name,.delete,sha,none,.ok⟩
      tryExcept (unlink p name) fun _ => raise (.mcp ⟨"internal_error","delete failed"⟩)
      pure ⟨name,none,true⟩

inductive Request
  | create (name : String) (content : Option (List UInt8))
  | edit (name : String) (content : Option (List UInt8)) (expected : Option String)
  | rename (name newName : String) (expected : Option String)
  | delete (name : String) (expected : Option String)
  deriving DecidableEq

namespace Request

def run (pid : ℕ) (caller : Caller) : Request → Program ConfigReply
  | create name content => createFile p pid caller name content
  | edit name content expected => editFile p pid caller name content expected
  | rename name newName expected => renameFile p caller name newName expected
  | delete name expected => deleteFile p caller name expected

def name : Request → String
  | create name _ => name
  | edit name _ _ => name
  | rename name _ _ => name
  | delete name _ => name

def expected : Request → Option String
  | create _ _ => none
  | edit _ _ expected => expected
  | rename _ _ expected => expected
  | delete _ expected => expected

end Request

abbrev Contents := String → Option (List UInt8)

def ConfigStore.contents (s : ConfigStore) : Contents := fun name => (s.custom name).map ConfigFile.raw

namespace Request

/-- The one intended change, for the bytes that the configuration of the request has. -/
def change (bytes : Option (List UInt8)) (f : Contents) : Request → Contents
  | create name content => Function.update f (p.fold name) content
  | edit name content _ => Function.update f (p.fold name) content
  | rename name newName _ => Function.update (Function.update f (p.fold newName) bytes) (p.fold name) none
  | delete name _ => Function.update f (p.fold name) none

/-- The hash that the caller expects is that of the file. -/
def Matches (expected : Option String) (file : ConfigFile) : Prop := ∀ h ∈ expected, h = p.sha file.raw

def Admitted (s : ConfigStore) : Request → Prop
  | create name content => validateName name = .ok () ∧ s.customPath p name = .ok () ∧
      s.custom (p.fold name) = none ∧ s.shadows p name = false ∧ content.isSome = true
  | edit name content expected => s.customPath p name = .ok () ∧ s.guardWritable name = .ok () ∧
      ∃ file raw, s.custom (p.fold name) = some file ∧ ConfigStore.checkNotHardlink file = .ok () ∧
        Matches p expected file ∧ content = some raw ∧ p.sha file.raw ≠ p.sha raw
  | rename name newName expected => validateName newName = .ok () ∧ s.customPath p name = .ok () ∧
      s.guardWritable name = .ok () ∧ s.shadows p newName = false ∧ s.customPath p newName = .ok () ∧
      s.custom (p.fold newName) = none ∧
      ∃ file, s.custom (p.fold name) = some file ∧ s.read p name = .ok ⟨false,p.sha file.raw⟩ ∧
        Matches p expected file
  | delete name expected => s.customPath p name = .ok () ∧ s.guardWritable name = .ok () ∧
      ∃ file, s.custom (p.fold name) = some file ∧ s.read p name = .ok ⟨false,p.sha file.raw⟩ ∧
        Matches p expected file

end Request

end Config
end FakeNetNG
