import Mathlib.Logic.Function.Basic
import Mathlib.Tactic

/-!
# The store of configurations

Custom configurations are created, edited, renamed and deleted, and each operation writes to the
audit log before it touches the file.
-/

namespace FakeNetNG
namespace Config

structure McpError where
  code : String
  message : String
  deriving DecidableEq

def allowed (c : Char) : Bool := c.isAlphanum || c = '.' || c = '_' || c = '-'

/-- `NAME_PATTERN`. Its `$` also matches before a final newline. -/
def matchesPattern (name : String) : Bool :=
  let chars := name.toList
  let body := if chars.getLast? = some '\n' then chars.dropLast else chars
  let stem := body.take (body.length-4)
  stem ≠ [] && stem.all allowed && body.drop (body.length-4) = ".ini".toList

def reservedDeviceNames : List String :=
  ["CON","PRN","AUX","NUL","COM1","COM2","COM3","COM4","COM5","COM6","COM7","COM8","COM9",
    "LPT1","LPT2","LPT3","LPT4","LPT5","LPT6","LPT7","LPT8","LPT9"]

def stemOf (name : String) : String :=
  String.ofList ((name.toList.takeWhile (· ≠ '.')).map Char.toUpper)

def validateName (name : String) : Except McpError Unit :=
  if !matchesPattern name then
    .error ⟨"path_escape_blocked","config name must match [A-Za-z0-9._-]+.ini"⟩
  else if reservedDeviceNames.contains (stemOf name) then
    .error ⟨"path_escape_blocked","config name uses a reserved device name"⟩
  else
    .ok ()

def hasDots : List Char → Bool
  | '.' :: '.' :: _ => true
  | _ :: rest => hasDots rest
  | [] => false

def isBuiltinCandidate (name : String) : Bool := !name.toList.contains '/' && !hasDots name.toList

inductive Operation
  | create
  | edit
  | rename
  | delete
  deriving DecidableEq

inductive AuditResult
  | ok
  /-- `ok:` and the new name. -/
  | okAs (name : String)
  | noChange
  | commitFailed
  | refused (code : String)
  deriving DecidableEq

structure Caller where
  controller : String
  commandId : String
  deriving DecidableEq

structure AuditLine where
  caller : Caller
  target : String
  operation : Operation
  beforeSha : Option String
  afterSha : Option String
  result : AuditResult
  deriving DecidableEq

structure ConfigFile where
  raw : List UInt8
  links : ℕ

/-- The directories of the store, by the names that the file system tells apart, its active name
and the audit log. -/
structure ConfigStore where
  builtin : String → Bool
  custom : String → Option ConfigFile
  symlinks : String → Bool
  activeName : Option String
  audit : List AuditLine

/-- The file system and the digest: `fold` is the name of the file that a path names, which differs
from it where letter case does not count. -/
structure Platform where
  fold : String → String
  sha : List UInt8 → String

def maxConfigBytes : ℕ := 1024*1024

structure ConfigReply where
  name : String
  sha : Option String
  changed : Bool
  deriving DecidableEq

structure ConfigRecord where
  builtin : Bool
  sha : String

inductive CommitFault
  | none
  | staging
  | replace
  deriving DecidableEq

namespace ConfigStore

variable (p : Platform)

def log (line : AuditLine) (s : ConfigStore) : ConfigStore := { s with audit := s.audit++[line] }

def store (name : String) (file : Option ConfigFile) (s : ConfigStore) : ConfigStore :=
  { s with custom := Function.update s.custom (p.fold name) file }

def guardWritable (name : String) (s : ConfigStore) : Except McpError Unit :=
  if s.activeName = some name then
    .error ⟨"config_in_use","config is active for the running FakeNet-NG"⟩
  else
    .ok ()

/-- `_custom_path`. A plain name resolves to an entry of the directory. -/
def customPath (name : String) (s : ConfigStore) : Except McpError Unit := do
  validateName name
  if s.symlinks (p.fold name) then
    .error ⟨"path_escape_blocked","symlink rejected"⟩
  else
    .ok ()

def checkNotHardlink (file : ConfigFile) : Except McpError Unit :=
  if 1 < file.links then .error ⟨"path_escape_blocked","hard link rejected"⟩ else .ok ()

/-- There is a builtin configuration that `read` prefers. -/
def shadows (name : String) (s : ConfigStore) : Bool :=
  isBuiltinCandidate name && s.builtin (p.fold name)

/-- `read`, as far as the operations use it. -/
def read (name : String) (s : ConfigStore) : Except McpError ConfigRecord := do
  if shadows p name s then
    .ok ⟨true,""⟩
  else
    customPath p name s
    match s.custom (p.fold name) with
    | none => .error ⟨"config_not_found","config not found"⟩
    | some file =>
        checkNotHardlink file
        if maxConfigBytes < file.raw.length then
          .error ⟨"invalid_request","config exceeds size limit"⟩
        else
          .ok ⟨false,p.sha file.raw⟩

def guarded {α : Type} (check : Except McpError α) (s : ConfigStore)
    (k : α → Except McpError ConfigReply × ConfigStore) : Except McpError ConfigReply × ConfigStore :=
  match check with
  | .error e => (.error e,s)
  | .ok a => k a

/-- `refuse`: an error that is logged. -/
def refuse (caller : Caller) (name : String) (operation : Operation) (before : Option String)
    (e : McpError) (s : ConfigStore) : Except McpError ConfigReply × ConfigStore :=
  (.error e,s.log ⟨caller,name,operation,before,none,.refused e.code⟩)

/-- The last part of `_commit`. The content that has no encoding raises before the first line. -/
def commitRaw (caller : Caller) (operation : Operation) (name : String) (before : Option String)
    (raw : List UInt8) (fault : CommitFault) (s : ConfigStore) :
    Except McpError ConfigReply × ConfigStore :=
  let after := some (p.sha raw)
  if before = after then
    (.ok ⟨name,after,false⟩,s.log ⟨caller,name,operation,before,after,.noChange⟩)
  else
    match fault with
    | .staging =>
        (.error ⟨"internal_error","commit failed"⟩,
          s.log ⟨caller,name,operation,before,after,.commitFailed⟩)
    | .replace =>
        (.error ⟨"internal_error","commit failed"⟩,
          (s.log ⟨caller,name,operation,before,after,.ok⟩).log
            ⟨caller,name,operation,before,after,.commitFailed⟩)
    | .none =>
        (.ok ⟨name,after,true⟩,
          (s.log ⟨caller,name,operation,before,after,.ok⟩).store p name (some ⟨raw,1⟩))

/-- `_commit`, which creates or edits. -/
def commit (caller : Caller) (operation : Operation) (name : String) (content : Option (List UInt8))
    (expected : Option String) (allowCreate : Bool) (fault : CommitFault) (s : ConfigStore) :
    Except McpError ConfigReply × ConfigStore :=
  guarded (customPath p name s) s fun _ =>
    match s.custom (p.fold name) with
    | none =>
        if !allowCreate then
          if shadows p name s then
            refuse caller name operation none ⟨"builtin_readonly","builtin configs are read-only"⟩ s
          else
            refuse caller name operation none ⟨"config_not_found","config not found"⟩ s
        else if shadows p name s then
          refuse caller name operation none
            ⟨"name_conflict","name is reserved by a builtin config"⟩ s
        else
          guarded (content.elim (.error ⟨"","UnicodeEncodeError"⟩) .ok) s fun raw =>
            commitRaw p caller operation name none raw fault s
    | some file =>
        guarded (checkNotHardlink file) s fun _ =>
          guarded (s.guardWritable name) s fun _ =>
            let before := some (p.sha file.raw)
            if allowCreate then
              refuse caller name operation before ⟨"name_conflict","config already exists"⟩ s
            else if expected.isSome && expected ≠ before then
              refuse caller name operation before
                ⟨"version_conflict","expected_sha256 does not match current content"⟩ s
            else
              guarded (content.elim (.error ⟨"","UnicodeEncodeError"⟩) .ok) s fun raw =>
                commitRaw p caller operation name before raw fault s

def create (caller : Caller) (name : String) (content : Option (List UInt8)) (fault : CommitFault)
    (s : ConfigStore) : Except McpError ConfigReply × ConfigStore :=
  guarded (validateName name) s fun _ => commit p caller .create name content none true fault s

def edit (caller : Caller) (name : String) (content : Option (List UInt8)) (expected : Option String)
    (fault : CommitFault) (s : ConfigStore) : Except McpError ConfigReply × ConfigStore :=
  commit p caller .edit name content expected false fault s

def rename (caller : Caller) (name newName : String) (expected : Option String) (replaceFails : Bool)
    (s : ConfigStore) : Except McpError ConfigReply × ConfigStore :=
  guarded (validateName newName) s fun _ =>
    guarded (customPath p name s) s fun _ =>
      guarded (s.guardWritable name) s fun _ =>
        guarded (read p name s) s fun record =>
          if record.builtin then
            (.error ⟨"builtin_readonly","builtin configs are read-only"⟩,s)
          else if shadows p newName s then
            refuse caller name .rename (some record.sha)
              ⟨"name_conflict","name is reserved by a builtin config"⟩ s
          else
            guarded (customPath p newName s) s fun _ =>
              if (s.custom (p.fold newName)).isSome then
                refuse caller name .rename (some record.sha)
                  ⟨"name_conflict","target name already exists"⟩ s
              else if expected.isSome && expected ≠ some record.sha then
                refuse caller name .rename (some record.sha)
                  ⟨"version_conflict","expected_sha256 does not match current content"⟩ s
              else
                let sha := some record.sha
                let logged := s.log ⟨caller,name,.rename,sha,sha,.okAs newName⟩
                if replaceFails then
                  (.error ⟨"internal_error","rename failed"⟩,
                    logged.log ⟨caller,name,.rename,sha,sha,.commitFailed⟩)
                else
                  let moved := (logged.store p newName (s.custom (p.fold name))).store p name none
                  (.ok ⟨newName,sha,true⟩,
                    if s.activeName = some name then { moved with activeName := some newName }
                    else moved)

def delete (caller : Caller) (name : String) (expected : Option String) (unlinkFails : Bool)
    (s : ConfigStore) : Except McpError ConfigReply × ConfigStore :=
  guarded (customPath p name s) s fun _ =>
    guarded (read p name s) s fun record =>
      if record.builtin then
        (.error ⟨"builtin_readonly","builtin configs are read-only"⟩,s)
      else
        guarded (s.guardWritable name) s fun _ =>
          if expected.isSome && expected ≠ some record.sha then
            refuse caller name .delete (some record.sha)
              ⟨"version_conflict","expected_sha256 does not match current content"⟩ s
          else
            let logged := s.log ⟨caller,name,.delete,some record.sha,none,.ok⟩
            if unlinkFails then
              -- no line takes the one above back
              (.error ⟨"internal_error","delete failed"⟩,logged)
            else
              (.ok ⟨name,none,true⟩,logged.store p name none)

end ConfigStore

/-- The operations, with what the system refuses of them. -/
inductive ConfigCall
  | create (caller : Caller) (name : String) (content : Option (List UInt8)) (fault : CommitFault)
  | edit (caller : Caller) (name : String) (content : Option (List UInt8)) (expected : Option String)
      (fault : CommitFault)
  | rename (caller : Caller) (name newName : String) (expected : Option String) (replaceFails : Bool)
  | delete (caller : Caller) (name : String) (expected : Option String) (unlinkFails : Bool)
  | setActive (name : Option String)

def ConfigCall.run (p : Platform) : ConfigCall → ConfigStore → Except McpError ConfigReply × ConfigStore
  | create caller name content fault, s => s.create p caller name content fault
  | edit caller name content expected fault, s => s.edit p caller name content expected fault
  | rename caller name newName expected replaceFails, s =>
      s.rename p caller name newName expected replaceFails
  | delete caller name expected unlinkFails, s => s.delete p caller name expected unlinkFails
  | setActive name, s => (.ok ⟨"",none,false⟩,{ s with activeName := name })

def runCalls (p : Platform) (s : ConfigStore) (calls : List ConfigCall) : ConfigStore :=
  calls.foldl (fun s call => (call.run p s).2) s

end Config
end FakeNetNG
