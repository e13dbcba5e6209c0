import FakeNetNG.FutureWindow
import Mathlib.Data.Rat.Cast.Order

/-!
# The rows of the artifact registry

Few files are verified in a serial loop, many by workers that each read and hash one file while the registry
keeps the rows in the order of the paths. The directory entry carries the size of a file since the directory was
listed. The workers' way refines the loop: it ends with the same rows, or with the failure of the first file.
-/

namespace FakeNetNG

structure ArtifactPath where
  text : String
  parent : String
  name : String

structure ArtifactFile where
  path : ArtifactPath
  size : ℕ

/-- The entry of a file in `published.json`, an object: its size if that is a number, and its digest if that is
a text. -/
structure PublishedEntry where
  size : Option ℚ
  sha256 : Option String

/-- What reading a whole file comes to. `OSError` is any but its subclass `TimeoutError`. -/
inductive ReadResult (ε : Type)
  | content (bytes : List UInt8)
  | osError
  | raised (e : ε)

abbrev Publications := List (String × (String → Option PublishedEntry))

structure RowContext where
  path : ArtifactPath
  type : String
  size : ℕ
  published : Option PublishedEntry

structure ArtifactRow where
  path : String
  type : String
  size : ℕ
  complete : Bool
  sha256 : Option String
  deriving DecidableEq

structure ArtifactStore (ε : Type) where
  publicationRecord : String → String → Option PublishedEntry
  read : String → ReadResult ε
  hexdigest : List UInt8 → String
  lower : String → String

namespace ArtifactStore

variable {ε : Type} (store : ArtifactStore ε)

def hashWorkerLimit : ℕ := 4

def suffix (name : String) : String :=
  let tail := (name.toList.reverse.takeWhile fun c => decide (c ≠ '.')).reverse
  if tail ≠ [] ∧ tail.length+1 < name.toList.length then String.ofList tail else ""

def itemType (path : ArtifactPath) : String :=
  let suffix := store.lower (suffix path.name)
  if "egress-verification-".toList <+: path.name.toList ∧ suffix = "json" then "egress_verification"
  else
    match suffix with
    | "pcap" => "pcap"
    | "log" => "log"
    | "html" => "report"
    | "dmp" => "userdump"
    | "ini" => "config"
    | "" => "file"
    | other => other

/-- The producer index of a directory is read once in an enumeration. There is always a row: on Windows
`entry.stat()` needs no call of the system, elsewhere it may raise for a file that is gone by then. -/
def rowContext (file : ArtifactFile) (publications : Publications) : RowContext × Publications :=
  let path := file.path
  let publications :=
    match publications.lookup path.parent with
    | none => (path.parent,store.publicationRecord path.parent)::publications
    | some _ => publications
  (⟨path,store.itemType path,file.size,(publications.lookup path.parent).bind fun record => record path.name⟩,publications)

/-- `_completion_from_entry` without a deadline. -/
def completionFromEntry (path : ArtifactPath) (entry : Option PublishedEntry) : Except ε (Option String) :=
  match entry with
  | none => .ok none
  | some published =>
    match store.read path.text with
    | .osError => .ok none
    | .raised e => .error e
    | .content bytes =>
      if published.size ≠ some (bytes.length : ℚ) then .ok none
      else
        let hexdigest := store.hexdigest bytes
        .ok (if published.sha256 = some hexdigest then some hexdigest else none)

def row (context : RowContext) (digest : Option String) : ArtifactRow :=
  ⟨context.path.text,context.type,context.size,digest.isSome,digest⟩

@[grind] def metadataLoop : List ArtifactFile → Publications → List ArtifactRow → Except ε (List ArtifactRow)
  | [], _, items => .ok items
  | file::rest, publications, items =>
    let (context,publications) := store.rowContext file publications
    match store.completionFromEntry context.path context.published with
    | .error e => .error e
    | .ok digest => metadataLoop rest publications (items++[row context digest])

/-- What `_metadata_bounded` does in the main thread and in the workers. -/
def plan : FutureWindow.Plan ArtifactFile Publications RowContext (Option String) ArtifactRow ε where
  context := store.rowContext
  work := fun context => store.completionFromEntry context.path context.published
  row := row

abbrev BoundedState (ε : Type) := FutureWindow.State ArtifactFile Publications RowContext ArtifactRow ε

/-- The steps of `_metadata_bounded`, of the pool and of its workers. -/
abbrev BoundedStep : BoundedState ε → BoundedState ε → Prop := FutureWindow.Step store.plan hashWorkerLimit

def metadataBounded (ordered : List ArtifactFile) (publications : Publications) : BoundedState ε :=
  .start ordered publications

variable {store : ArtifactStore ε}

theorem metadataLoop_eq (files : List ArtifactFile) (publications : Publications) (items : List ArtifactRow) :
    store.metadataLoop files publications items = (store.plan.serial files publications).map (items++·) := by
  induction files generalizing publications items with
  | nil => simp [metadataLoop,FutureWindow.Plan.serial,Except.map]
  | cons file rest ih =>
    cases hdigest : store.completionFromEntry (store.rowContext file publications).1.path
      (store.rowContext file publications).1.published with
    | error e =>
      have hwork : store.plan.work (store.plan.context file publications).1 = .error e := hdigest
      simp only [metadataLoop,FutureWindow.Plan.serial,hdigest,hwork]
      rfl
    | ok digest =>
      have hwork : store.plan.work (store.plan.context file publications).1 = .ok digest := hdigest
      simp only [metadataLoop,FutureWindow.Plan.serial,hdigest,hwork,ih,FutureWindow.map_append_cons]
      rfl

def published (store : ArtifactStore ε) (publications : Publications) (file : ArtifactFile) : Option PublishedEntry :=
  ((publications.lookup file.path.parent).getD (store.publicationRecord file.path.parent)) file.path.name

def verify (store : ArtifactStore ε) (publications : Publications) (file : ArtifactFile) : Except ε (Option String) :=
  store.completionFromEntry file.path (store.published publications file)

theorem published_rowContext (publications : Publications) (file other : ArtifactFile) :
    store.published (store.rowContext file publications).2 other = store.published publications other := by
  rw [published,published,rowContext]
  cases hlookup : publications.lookup file.path.parent with
  | some record => rfl
  | none =>
    dsimp only
    rw [List.lookup_cons]
    by_cases hparent : other.path.parent = file.path.parent
    · have hnone : publications.lookup other.path.parent = none := by rw [hparent,hlookup]
      have hkey : (other.path.parent == file.path.parent) = true := by simpa using hparent
      rw [hkey,hnone,hparent]
      rfl
    · have hkey : (other.path.parent == file.path.parent) = false := by simpa using hparent
      rw [hkey]

theorem rowContext_published (publications : Publications) (file : ArtifactFile) :
    (store.rowContext file publications).1.published = store.published publications file := by
  rw [published,rowContext]
  cases hlookup : publications.lookup file.path.parent with
  | some record => simp [hlookup]
  | none => simp

theorem metadataLoop_error {files : List ArtifactFile} {publications : Publications} {items : List ArtifactRow} {e : ε}
    (h : store.metadataLoop files publications items = .error e) : ∃ before file after, files = before++file::after ∧
      (∀ earlier ∈ before, ∃ digest, store.verify publications earlier = .ok digest) ∧
      store.verify publications file = .error e := by
  induction files generalizing publications items with
  | nil => cases h
  | cons file rest ih =>
    have hverify : store.verify publications file = store.completionFromEntry (store.rowContext file publications).1.path
        (store.rowContext file publications).1.published := by
      rw [rowContext_published]
      rfl
    cases hdigest : store.completionFromEntry (store.rowContext file publications).1.path
      (store.rowContext file publications).1.published with
    | error e' =>
      simp only [metadataLoop,hdigest] at h
      cases h
      exact ⟨[],file,rest,rfl,by simp,hverify.trans hdigest⟩
    | ok digest =>
      simp only [metadataLoop,hdigest] at h
      obtain ⟨before,failing,after,rfl,hbefore,hfailing⟩ := ih h
      have hsame : ∀ other, store.verify (store.rowContext file publications).2 other = store.verify publications other := by
        intro other
        rw [verify,verify,published_rowContext]
      refine ⟨file::before,failing,after,rfl,?_,(hsame failing).symm.trans hfailing⟩
      intro earlier hearlier
      obtain rfl | hlater := List.mem_cons.mp hearlier
      · exact ⟨digest,hverify.trans hdigest⟩
      · obtain ⟨other,hother⟩ := hbefore earlier hlater
        exact ⟨other,(hsame earlier).symm.trans hother⟩

/-- A state of `_metadata_bounded` on its way to what the serial loop gives. -/
structure RefinesLoop (store : ArtifactStore ε) (ordered : List ArtifactFile) (publications : Publications)
    (s : BoundedState ε) : Prop where
  bounded : s.unconsumed.length ≤ hashWorkerLimit
  result : ∀ r, s.phase = .finished r → r = store.metadataLoop ordered publications []
  first : ∀ e, s.phase = .finished (.error e) → ∃ before file after, ordered = before++file::after ∧
    (∀ earlier ∈ before, ∃ digest, store.verify publications earlier = .ok digest) ∧
    store.verify publications file = .error e
  progress : (∃ r, s.phase = .finished r) ∨ ∃ s', store.BoundedStep s s'
  ends : Acc (fun s' s => store.BoundedStep s s') s

theorem boundedStep_acc (s : BoundedState ε) : Acc (fun s' s => store.BoundedStep s s') s := by
  induction hleft : s.left using Nat.strong_induction_on generalizing s with
  | _ n ih => exact .intro s fun s' hstep => ih s'.left (hleft ▸ FutureWindow.step_left hstep) s' rfl

/-- Whatever the workers do, the rows come as in the serial loop, or the failure of the first file does. -/
theorem metadataBounded_refinesLoop (store : ArtifactStore ε) (ordered : List ArtifactFile) (publications : Publications)
    (s : BoundedState ε) (h : FutureWindow.Steps store.plan hashWorkerLimit (metadataBounded ordered publications) s) :
    store.RefinesLoop ordered publications s := by
  have hlimit : 0 < hashWorkerLimit := by decide
  have hinv := FutureWindow.steps_inv hlimit (FutureWindow.start_inv ordered publications) h
  have hserial : store.metadataLoop ordered publications [] = store.plan.serial ordered publications := by
    rw [metadataLoop_eq]
    cases store.plan.serial ordered publications <;> rfl
  have hresult : ∀ r, s.phase = .finished r → r = store.metadataLoop ordered publications [] := by
    intro r hphase
    have hrest := hinv.result
    simp only [FutureWindow.Plan.rest,hphase] at hrest
    rw [hrest,hserial]
  refine ⟨hinv.bounded,hresult,fun e hphase => ?_,?_,boundedStep_acc s⟩
  · exact metadataLoop_error (hresult _ hphase).symm
  · exact (hinv.progress hlimit).imp_left fun hfinished => ⟨_,hfinished⟩

def sample : ArtifactStore String where
  publicationRecord := fun _ name => if name = "raw.log" then none else some ⟨some 2,some "ff"⟩
  read := fun path => if path = "run/b.pcap" then .raised "TimeoutError" else .content [1,2]
  hexdigest := fun _ => "ff"
  lower := String.toLower

def sampleFiles : List ArtifactFile := [⟨⟨"run/a.pcap","run","a.pcap"⟩,2⟩,⟨⟨"run/b.pcap","run","b.pcap"⟩,7⟩]

theorem metadataBounded_refinesLoop_sample : ∃ s, s.phase = .finished (.error "TimeoutError") ∧
    sample.RefinesLoop sampleFiles [] s := by
  have hserial : sample.plan.serial sampleFiles [] = .error "TimeoutError" := by decide
  have hstart : FutureWindow.Inv sample.plan hashWorkerLimit _ _ := FutureWindow.start_inv sampleFiles []
  obtain ⟨s,hsteps,hphase⟩ := hstart.finishes (by decide)
  rw [hserial] at hphase
  exact ⟨s,hphase,metadataBounded_refinesLoop sample sampleFiles [] s hsteps⟩

end ArtifactStore
end FakeNetNG
