import FakeNetNG.Interleaving

/-!
# The authority to exit

The supervisor publishes an intent to stop the managed process, and a normal exit of that process
is accepted once against the live intent. The memory and the file change in separate steps, and
each step on the file may fail.
-/

namespace FakeNetNG

structure ExitIdentity where
  runId : String
  pid : ℕ
  creationTime : ℤ
  supervisorPid : ℕ
  supervisorCreationTime : ℤ
  supervisorInstance : String
  deriving DecidableEq

structure Intent where
  schema : String
  identity : ExitIdentity
  sequence : ℕ
  nonce : List Char
  issuedMonotonic : ℚ
  issuedTime : ℚ
  expiresMonotonic : ℚ
  deriving DecidableEq

inductive FileFault
  | none
  | before
  | after
  deriving DecidableEq

def FileFault.applies : FileFault → Bool
  | .before => false
  | _ => true

def FileFault.raises : FileFault → Bool
  | .none => false
  | _ => true

structure ObservedExit where
  targetPid : Option ℕ
  initiatorPid : Option ℕ
  exitStatus : Option ℕ
  deriving DecidableEq

/-- A claim that is no intent, and a deadline that is not finite, are `none`. -/
inductive ExitRequest
  | publish (graceDeadline : Option ℚ) (nonce : List Char) (issuedTime : ℚ) (save : FileFault)
      (readBack : Bool)
  | invalidate (remove : FileFault)
  | invalidateLocal (remove : FileFault)
  | acceptNormal (claim : Option Intent) (observed : ObservedExit) (remove : FileFault)
  | normalIsValid (claim : Option Intent)
  deriving DecidableEq

structure ExitCall where
  thread : ℕ
  request : ExitRequest
  deriving DecidableEq

inductive ExitReply
  | intent (intent : Intent)
  | none
  | verdict (value : Bool)
  | raised (message : String)
  deriving DecidableEq

inductive ExitEvent
  | published (intent : Intent)
  | invalidated
  | revoked
  | accepted (intent : Intent)
  | confirmed (intent : Intent) (now : ℚ)
  | returned (call : ExitCall) (reply : ExitReply)
  deriving DecidableEq

/-- The object, with the file of the intent, the clock, and two history variables: the events, and
the calls whose check has passed and that have not returned. -/
structure StopIntent where
  identity : ExitIdentity
  clock : Clock
  sequence : ℕ
  current : Option Intent
  consumed : Bool
  publishing : Option Intent
  file : Option Intent
  log : List ExitEvent
  owed : List (ℕ × Intent)

namespace StopIntent

def init (identity : ExitIdentity) (clock : Clock) : StopIntent :=
  ⟨identity,clock,0,none,false,none,none,[],[]⟩

def ticked (s : StopIntent) : StopIntent := { s with clock := s.clock.next }

def record (s : StopIntent) (e : ExitEvent) : StopIntent := { s with log := s.log++[e] }

def schemaText : String := "fakenet.exit-stop-intent.v1"

def isHex (c : Char) : Bool := c.isDigit || ['a','b','c','d','e','f'].contains c

def isLive (intent : Intent) (identity : ExitIdentity) (now : ℚ) : Bool :=
  intent.schema = schemaText && intent.identity = identity && 0 < intent.sequence &&
    intent.nonce.length = 64 && intent.nonce.all isHex && intent.issuedMonotonic ≤ now &&
    now < intent.expiresMonotonic

def beginPublish (graceDeadline : Option ℚ) (nonce : List Char) (issuedTime : ℚ) (s : StopIntent) :
    Except String Intent × StopIntent :=
  if s.current.isSome || s.publishing.isSome then
    (.error "stop intent already active",s)
  else
    match graceDeadline with
    | none => (.error "stop intent requires current grace deadline",s.ticked)
    | some deadline =>
        if deadline ≤ s.clock.now then
          (.error "stop intent requires current grace deadline",s.ticked)
        else
          let intent : Intent := ⟨schemaText,s.identity,s.sequence+1,nonce,s.clock.now,issuedTime,deadline⟩
          (.ok intent,{ s.ticked with sequence := s.sequence+1, publishing := some intent })

def finishPublish (intent : Intent) (s : StopIntent) : Except String Intent × StopIntent :=
  if s.publishing ≠ some intent then
    (.error "stop intent publication revoked/expired",s)
  else if intent.expiresMonotonic ≤ s.clock.now then
    (.error "stop intent publication revoked/expired",s.ticked)
  else
    (.ok intent,{ s.ticked.record (.published intent) with
      current := some intent, publishing := none, consumed := false })

/-- The handler of `publish`. -/
def abandon (intent : Intent) (s : StopIntent) : StopIntent :=
  { s.record .revoked with
    publishing := if s.publishing = some intent then none else s.publishing, current := none }

def revoke (s : StopIntent) : StopIntent :=
  { s.record .invalidated with current := none, publishing := none, consumed := false }

/-- The check of `accept_normal`. The clock is read when the claim is the unused intent. -/
def checkClaim (thread : ℕ) (claim : Option Intent) (observed : ObservedExit) (s : StopIntent) :
    Option Intent × StopIntent :=
  match s.current with
  | none => (none,s)
  | some intent =>
      if s.consumed || claim ≠ some intent then
        (none,s)
      else if isLive intent s.identity s.clock.now && observed.targetPid = some s.identity.pid &&
          observed.initiatorPid = some s.identity.pid && observed.exitStatus = some 0 then
        (some intent,{ s.ticked.record (.accepted intent) with
          consumed := true, owed := (thread,intent) :: s.owed })
      else
        (none,s.ticked)

/-- What `accept_normal` does when the file could not be removed. -/
def withdraw (thread : ℕ) (s : StopIntent) : StopIntent :=
  { s.record .revoked with
    current := none, consumed := false, owed := s.owed.filter (·.1 ≠ thread) }

/-- The section of `normal_is_valid`, which returns inside of it. -/
def confirmClaim (call : ExitCall) (claim : Option Intent) (s : StopIntent) :
    ExitReply × StopIntent :=
  if s.consumed && s.current = claim then
    match s.current with
    | none => (.verdict false,s.ticked.record (.returned call (.verdict false)))
    | some intent =>
        if isLive intent s.identity s.clock.now then
          (.verdict true,(s.ticked.record (.confirmed intent s.clock.now)).record
            (.returned call (.verdict true)))
        else
          (.verdict false,s.ticked.record (.returned call (.verdict false)))
  else
    (.verdict false,s.record (.returned call (.verdict false)))

def answer (call : ExitCall) (reply : ExitReply) (s : StopIntent) : ExitReply × StopIntent :=
  (reply,{ s.record (.returned call reply) with owed := s.owed.filter (·.1 ≠ call.thread) })

def saveFile (intent : Intent) (fault : FileFault) (s : StopIntent) : Bool × StopIntent :=
  (fault.raises,if fault.applies then { s with file := some intent } else s)

def removeFile (fault : FileFault) (s : StopIntent) : Bool × StopIntent :=
  (fault.raises,if fault.applies then { s with file := none } else s)

/-- With an `io` the file is written by a helper, without it here and read back. Returns what is
raised. -/
def writeIntent (io : Bool) (intent : Intent) (save : FileFault) (readBack : Bool) :
    Prog StopIntent (Option String) := do
  let raised ← Prog.locked (saveFile intent save)
  if raised then
    return some "stop intent not written"
  else if io then
    return none
  else
    let file ← Prog.read StopIntent.file
    if readBack then
      return some "stop intent not read"
    else if file ≠ some intent then
      return some "stop intent read-back mismatch"
    else
      return none

/-- `_remove`, with whether it raised. The helper gets a deadline from the clock. -/
def remove (io : Bool) (fault : FileFault) : Prog StopIntent Bool := do
  if io then
    Prog.locked fun s => ((),s.ticked)
  Prog.locked (removeFile fault)

def publish (io : Bool) (graceDeadline : Option ℚ) (nonce : List Char) (issuedTime : ℚ)
    (save : FileFault) (readBack : Bool) : Prog StopIntent ExitReply := do
  match ← Prog.locked (beginPublish graceDeadline nonce issuedTime) with
  | .error message => return .raised message
  | .ok intent =>
      match ← writeIntent io intent save readBack with
      | some message =>
          Prog.locked fun s => ((),abandon intent s)
          return .raised message
      | none =>
          match ← Prog.locked (finishPublish intent) with
          | .ok intent => return .intent intent
          | .error message =>
              Prog.locked fun s => ((),abandon intent s)
              return .raised message

/-- `invalidate`, and `invalidate_local`, which never uses the helper. -/
def invalidate (io : Bool) (fault : FileFault) : Prog StopIntent ExitReply := do
  Prog.locked fun s => ((),revoke s)
  let _ ← remove io fault
  return .none

def acceptNormal (io : Bool) (thread : ℕ) (claim : Option Intent) (observed : ObservedExit)
    (fault : FileFault) : Prog StopIntent ExitReply := do
  let granted ← Prog.locked (checkClaim thread claim observed)
  if ← remove io fault then
    Prog.locked fun s => ((),withdraw thread s)
    return .verdict false
  else
    return .verdict granted.isSome

def answered (call : ExitCall) (p : Prog StopIntent ExitReply) : Prog StopIntent ExitReply := do
  let reply ← p
  Prog.locked (answer call reply)

def body (io : Bool) (call : ExitCall) : Prog StopIntent ExitReply :=
  match call.request with
  | .publish graceDeadline nonce issuedTime save readBack =>
      answered call (publish io graceDeadline nonce issuedTime save readBack)
  | .invalidate fault => answered call (invalidate io fault)
  | .invalidateLocal fault => answered call (invalidate false fault)
  | .acceptNormal claim observed fault =>
      answered call (acceptNormal io call.thread claim observed fault)
  | .normalIsValid claim => Prog.locked (confirmClaim call claim)

def oneCall (P : Pool StopIntent ExitCall ExitReply) (call : ExitCall) : Prop :=
  ∀ t d q, P.threads t = some (d,q) → d.thread ≠ call.thread

end StopIntent
end FakeNetNG
