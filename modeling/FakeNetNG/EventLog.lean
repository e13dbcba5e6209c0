import FakeNetNG.OrderedDict
import FakeNetNG.Base64
import Mathlib.Data.Rat.Defs

/-!
# The event log and its pages

The log keeps the last entries of all that were recorded. A page is computed over one
snapshot of the log, and its cursor is a token that encodes the epoch and the last scanned
sequence number. The JSON codec is given from outside.
-/

namespace FakeNetNG
namespace Events

inductive Json
  | null
  | bool (b : Bool)
  | int (n : ℤ)
  | num (q : ℚ)
  | str (s : String)
  | arr (items : List Json)
  | obj (items : List (String × Json))

namespace Json

def get? (payload : Json) (key : String) : Option Json :=
  match payload with
  | .obj items => (items.find? fun item => item.1 = key).map Prod.snd
  | _ => none

def isOne : Json → Bool
  | .int n => n = 1
  | .bool b => b
  | .num q => q = 1
  | _ => false

end Json

/-- `json.dumps` and `json.loads`, to and from bytes. -/
structure JsonCodec where
  dumps : Json → List UInt8
  loads : List UInt8 → Option Json

/-- The keyword arguments of `record`. No caller names one of the log's own fields. -/
structure Fields where
  items : Dict String Json
  plain : ∀ key ∈ ["timestamp","kind","epoch","seq"], items.get? key = none

structure Entry where
  timestamp : ℚ
  kind : String
  epoch : String
  seq : ℤ
  fields : Fields

def eventBufferLimit : ℕ := 500

/-- The deque holds at most `limit` entries. -/
structure EventLog where
  epoch : String
  epochNonempty : epoch ≠ ""
  limit : ℕ
  limitPositive : 0 < limit
  entries : List Entry
  seq : ℤ

namespace EventLog

def new (epoch : String) (epochNonempty : epoch ≠ "") (limit : ℕ) (limitPositive : 0 < limit) :
    EventLog :=
  ⟨epoch,epochNonempty,limit,limitPositive,[],0⟩

def nextEntry (log : EventLog) (timestamp : ℚ) (kind : String) (fields : Fields) : Entry :=
  ⟨timestamp,kind,log.epoch,log.seq+1,fields⟩

def record (log : EventLog) (timestamp : ℚ) (kind : String) (fields : Fields) : EventLog :=
  let entries := log.entries++[log.nextEntry timestamp kind fields]
  { log with seq := log.seq+1, entries := entries.drop (entries.length-log.limit) }

end EventLog

/-- A snapshot. An empty log reports no oldest number and the floor as its latest. -/
structure Window where
  epoch : String
  entries : List Entry
  oldestSeq : Option ℤ
  latestSeq : Option ℤ

def EventLog.window (log : EventLog) : Window where
  epoch := log.epoch
  entries := log.entries
  oldestSeq := log.entries.head?.map Entry.seq
  latestSeq := some ((log.entries.getLast?.map Entry.seq).getD 0)

inductive Fault
  | invalidCursor (message : String)
  | valueError (message : String)

def cursorPrefix : String := "fnev1."

def payload (epoch : String) (seq : ℤ) : Json :=
  .obj [("v",.int 1),("epoch",.str epoch),("seq",.int seq)]

section Codec

variable (json : JsonCodec)

def encodeCursor (epoch : String) (seq : ℤ) : Except Fault String :=
  if epoch = "" then
    .error (.valueError "cursor epoch must be a non-empty string")
  else if seq < 0 then
    .error (.valueError "cursor seq must be a non-negative integer")
  else
    .ok (cursorPrefix++
      String.ofList (Base64.strip (Base64.encode (json.dumps (payload epoch seq)))))

def readPayload (content : Json) : Except Fault (String × ℤ) :=
  if ¬ (content.get? "v").any Json.isOne then
    .error (.invalidCursor "cursor version is not supported")
  else
    match content.get? "epoch" with
    | some (.str epoch) =>
        if epoch = "" then
          .error (.invalidCursor "cursor epoch is malformed")
        else
          match content.get? "seq" with
          | some (.int seq) =>
              if seq < 0 then
                .error (.invalidCursor "cursor seq is malformed")
              else
                .ok (epoch,seq)
          | _ => .error (.invalidCursor "cursor seq is malformed")
    | _ => .error (.invalidCursor "cursor epoch is malformed")

def decodeCursor (token : String) : Except Fault (String × ℤ) :=
  if ¬ cursorPrefix.toList <+: token.toList then
    .error (.invalidCursor "cursor must be an opaque event token")
  else
    let body := token.toList.drop cursorPrefix.toList.length
    match (Base64.decode (Base64.pad body)).bind json.loads with
    | none => .error (.invalidCursor "cursor is not a decodable token")
    | some content => readPayload content

structure Page where
  events : List Entry
  epoch : String
  nextCursor : Option String
  hasMore : Bool
  gap : Bool
  resetRequired : Bool
  oldestSeq : Option ℤ
  latestSeq : Option ℤ

/-- Only the event's own `run_id` decides. -/
def matchesRun (runId : Option String) (entry : Entry) : Bool :=
  match runId with
  | none => true
  | some runId =>
      match entry.fields.items.get? "run_id" with
      | some (.str other) => other = runId
      | _ => false

def pageLimit (limit : Option ℤ) : ℕ :=
  match limit with
  | none => 100
  | some limit => if limit < 1 then 100 else limit.toNat

def pageResponse (page : List Entry) (window : Window) (nextSeq : ℤ) (hasMore gap : Bool)
    (resetRequired : Bool) : Except Fault Page := do
  let nextCursor ← encodeCursor json window.epoch nextSeq
  .ok ⟨page,window.epoch,some nextCursor,hasMore,gap,resetRequired,window.oldestSeq,
    window.latestSeq⟩

/-- The cursor belongs to another log: from the earliest retained match on. -/
def resetPage (window : Window) (limit : ℕ) (runId : Option String) : Except Fault Page :=
  let matched := window.entries.filter (matchesRun runId)
  let page := matched.take limit
  let nextSeq :=
    match page.getLast? with
    | some entry => entry.seq
    | none => window.latestSeq.getD 0
  pageResponse json page window nextSeq (matched.length > limit) false true

/-- The entries after the cursor. With none left beyond the page the cursor moves to the
tail, over entries of other runs as well. -/
def resumePage (window : Window) (limit : ℕ) (runId : Option String) (cursorSeq : ℤ) :
    Except Fault Page :=
  let gap : Bool := window.oldestSeq.any fun oldest => cursorSeq < oldest-1
  let matched := window.entries.filter fun entry => entry.seq > cursorSeq ∧ matchesRun runId entry
  let page := matched.take limit
  if matched.length > limit then
    pageResponse json page window ((page.getLast?.map Entry.seq).getD 0) true gap false
  else
    pageResponse json page window (window.latestSeq.getD cursorSeq) false gap false

def initialPage (window : Window) (limit : ℕ) (runId : Option String) : Except Fault Page :=
  let matched := window.entries.filter (matchesRun runId)
  let page := matched.drop (matched.length-limit)
  pageResponse json page window (window.latestSeq.getD 0) false false false

def eventsPage (window : Window) (limit : Option ℤ) (cursorToken : Option String)
    (runId : Option String) : Except Fault Page :=
  match cursorToken with
  | none => initialPage json window (pageLimit limit) runId
  | some token => do
      let (cursorEpoch,cursorSeq) ← decodeCursor json token
      if cursorEpoch ≠ window.epoch then
        resetPage json window (pageLimit limit) runId
      else if window.latestSeq.any fun latest => cursorSeq > latest then
        .error (.invalidCursor "cursor seq is beyond the current tail")
      else
        resumePage json window (pageLimit limit) runId cursorSeq

end Codec
end Events
end FakeNetNG
