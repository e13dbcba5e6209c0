import FakeNetNG.ConfigStore

/-!
# The audit log as a journal

Replaying the log gives the digests of the custom configurations, as long as no deletion is stopped
after its line was written.
-/

namespace FakeNetNG
namespace Config

abbrev Hashes := String → Option String

def ConfigStore.hashes (p : Platform) (s : ConfigStore) : Hashes :=
  fun name => (s.custom name).map fun file => p.sha file.raw

def AuditLine.apply (p : Platform) (line : AuditLine) (h : Hashes) : Hashes :=
  match line.operation,line.result with
  | .create,.ok => Function.update h (p.fold line.target) line.afterSha
  | .edit,.ok => Function.update h (p.fold line.target) line.afterSha
  | .delete,.ok => Function.update h (p.fold line.target) none
  | .rename,.okAs name =>
      Function.update (Function.update h (p.fold name) line.afterSha) (p.fold line.target) none
  | _,_ => h

def AuditResult.isOk : AuditResult → Bool
  | .ok => true
  | .okAs _ => true
  | _ => false

def sameOperation (a b : AuditLine) : Prop :=
  a.caller = b.caller ∧ a.target = b.target ∧ a.operation = b.operation ∧
    a.beforeSha = b.beforeSha ∧ a.afterSha = b.afterSha

instance (a b : AuditLine) : Decidable (sameOperation a b) := by
  unfold sameOperation
  infer_instance

/-- The digests, and the last operation that counts as done with what was there before it. -/
structure Replay where
  hashes : Hashes
  last : Option (AuditLine × Hashes)

/-- A line of a failed commit takes back what the same operation logged as done. -/
def Replay.takeBack (r : Replay) (line : AuditLine) : Replay :=
  match r.last with
  | some (first,before) => if sameOperation first line then ⟨before,none⟩ else r
  | none => r

/-- A line that says ok counts until a line of the same operation takes it back. -/
def Replay.step (p : Platform) (r : Replay) (line : AuditLine) : Replay :=
  match line.result with
  | .ok => ⟨line.apply p r.hashes,some (line,r.hashes)⟩
  | .okAs _ => ⟨line.apply p r.hashes,some (line,r.hashes)⟩
  | .commitFailed => r.takeBack line
  | _ => r

theorem Replay.step_of_isOk (p : Platform) (r : Replay) {line : AuditLine}
    (h : line.result.isOk = true) : r.step p line = ⟨line.apply p r.hashes,some (line,r.hashes)⟩ := by
  unfold Replay.step
  cases hresult : line.result with
  | ok => rfl
  | okAs name => rfl
  | noChange => simp [hresult,AuditResult.isOk] at h
  | commitFailed => simp [hresult,AuditResult.isOk] at h
  | refused code => simp [hresult,AuditResult.isOk] at h

theorem Replay.step_of_commitFailed (p : Platform) (r : Replay) {line : AuditLine}
    (h : line.result = .commitFailed) : r.step p line = r.takeBack line := by
  simp [Replay.step,h]

def replay (p : Platform) (h : Hashes) (lines : List AuditLine) : Replay :=
  lines.foldl (Replay.step p) ⟨h,none⟩

@[simp] theorem replay_snoc (p : Platform) (h : Hashes) (lines : List AuditLine) (line : AuditLine) :
    replay p h (lines++[line]) = (replay p h lines).step p line := by
  simp [replay]

def Faithful (p : Platform) (h : Hashes) (s : ConfigStore) : Prop :=
  (replay p h s.audit).hashes = s.hashes p

variable {p : Platform} {h : Hashes} {s : ConfigStore}

/-- A later line of a failed commit is none of the last operation that was done. -/
def Closed (p : Platform) (line : AuditLine) (h : Hashes) : Prop :=
  match line.operation with
  | .create => h (p.fold line.target) ≠ none
  | .edit => h (p.fold line.target) = line.afterSha ∧ line.beforeSha ≠ line.afterSha
  | _ => True

structure Journal (p : Platform) (h : Hashes) (s : ConfigStore) : Prop where
  faithful : Faithful p h s
  closed : ∀ line before, (replay p h s.audit).last = some (line,before) → Closed p line (s.hashes p)

theorem journal_init (p : Platform) (s : ConfigStore) (hs : s.audit = []) :
    Journal p (s.hashes p) s := by
  constructor
  · unfold Faithful
    rw [hs]
    rfl
  · rw [hs]
    rintro line before ⟨⟩

theorem Journal.quiet (hj : Journal p h s) {line : AuditLine}
    (hline : (replay p h s.audit).step p line = replay p h s.audit) : Journal p h (s.log line) := by
  have hreplay : replay p h (s.log line).audit = replay p h s.audit :=
    (replay_snoc p h s.audit line).trans hline
  constructor
  · unfold Faithful
    rw [hreplay]
    exact hj.faithful
  · rw [hreplay]
    exact hj.closed

theorem Journal.refuse (hj : Journal p h s) (caller : Caller) (name : String) (operation : Operation)
    (before : Option String) (e : McpError) :
    Journal p h (ConfigStore.refuse caller name operation before e s).2 := hj.quiet rfl

theorem Journal.guarded {α : Type} (hj : Journal p h s) {check : Except McpError α}
    {k : α → Except McpError ConfigReply × ConfigStore} (hk : ∀ a, check = .ok a → Journal p h (k a).2) :
    Journal p h (ConfigStore.guarded check s k).2 := by
  unfold ConfigStore.guarded
  cases check with
  | error e => exact hj
  | ok a => exact hk a rfl

theorem Journal.done (hj : Journal p h s) {l : AuditLine} {s' : ConfigStore}
    (hok : l.result.isOk = true) (haudit : s'.audit = s.audit++[l])
    (hhashes : s'.hashes p = l.apply p (s.hashes p)) (hclosed : Closed p l (s'.hashes p)) :
    Journal p h s' := by
  have hreplay : replay p h s'.audit = ⟨s'.hashes p,some (l,s.hashes p)⟩ := by
    rw [haudit,replay_snoc,Replay.step_of_isOk p _ hok,hhashes,hj.faithful]
  constructor
  · unfold Faithful
    rw [hreplay]
  · rw [hreplay]
    rintro _ _ ⟨⟩
    exact hclosed

theorem Journal.undone (hj : Journal p h s) {line failed : AuditLine} (hok : line.result.isOk = true)
    (hfailed : failed.result = .commitFailed) (hsame : sameOperation line failed) :
    Journal p h ((s.log line).log failed) := by
  have hreplay : replay p h ((s.log line).log failed).audit = ⟨s.hashes p,none⟩ := by
    change replay p h (s.audit++[line]++[failed]) = _
    rw [replay_snoc,replay_snoc,Replay.step_of_isOk p _ hok,Replay.step_of_commitFailed p _ hfailed,
      hj.faithful]
    exact if_pos hsame
  constructor
  · unfold Faithful
    rw [hreplay]
    rfl
  · rw [hreplay]
    rintro _ _ ⟨⟩

theorem Journal.unstaged (hj : Journal p h s) {caller : Caller} {name : String} {operation : Operation}
    {after : Option String}
    (hoperation : operation = .create ∧ s.hashes p (p.fold name) = none ∨ operation = .edit) :
    Journal p h (s.log ⟨caller,name,operation,s.hashes p (p.fold name),after,.commitFailed⟩) := by
  refine hj.quiet ?_
  rw [Replay.step_of_commitFailed p _ rfl,Replay.takeBack]
  cases hlast : (replay p h s.audit).last with
  | none => rfl
  | some pair =>
    obtain ⟨first,before⟩ := pair
    have hclosed : Closed p first (s.hashes p) := hj.closed first before hlast
    refine if_neg ?_
    rintro ⟨-,htarget,hop,hbefore,-⟩
    dsimp only at htarget hop hbefore
    unfold Closed at hclosed
    rcases hoperation with ⟨hcreate,hnone⟩ | hedit
    · rw [hop,hcreate,htarget] at hclosed
      exact hclosed hnone
    · rw [hop,hedit,htarget] at hclosed
      exact hclosed.2 (hbefore.trans hclosed.1)

@[simp] theorem hashes_log (line : AuditLine) (s : ConfigStore) :
    (s.log line).hashes p = s.hashes p := rfl

@[simp] theorem hashes_store (name : String) (file : Option ConfigFile) (s : ConfigStore) :
    (s.store p name file).hashes p =
      Function.update (s.hashes p) (p.fold name) (file.map fun f => p.sha f.raw) := by
  funext key
  by_cases hkey : key = p.fold name
  · subst hkey
    simp [ConfigStore.hashes,ConfigStore.store]
  · simp [ConfigStore.hashes,ConfigStore.store,Function.update_of_ne hkey]

theorem commitRaw_journal (hj : Journal p h s) {caller : Caller} {name : String}
    {operation : Operation} {before : Option String} {raw : List UInt8} {fault : CommitFault}
    (hbefore : before = s.hashes p (p.fold name))
    (hoperation : operation = .create ∧ before = none ∨ operation = .edit) :
    Journal p h (s.commitRaw p caller operation name before raw fault).2 := by
  unfold ConfigStore.commitRaw
  dsimp only
  split
  · exact hj.quiet rfl
  · rename_i hchanged
    cases fault with
    | staging =>
      subst hbefore
      exact hj.unstaged hoperation
    | replace => exact hj.undone rfl rfl ⟨rfl,rfl,rfl,rfl,rfl⟩
    | none =>
      refine hj.done (l:=⟨caller,name,operation,before,some (p.sha raw),.ok⟩) rfl rfl ?_ ?_
      · rcases hoperation with ⟨rfl,-⟩ | rfl <;> simp [AuditLine.apply]
      · rcases hoperation with ⟨rfl,-⟩ | rfl <;> simp [Closed,hchanged]

theorem commit_journal (hj : Journal p h s) {caller : Caller} {name : String} {operation : Operation}
    {content : Option (List UInt8)} {expected : Option String} {allowCreate : Bool}
    {fault : CommitFault}
    (hoperation : operation = .create ∧ allowCreate = true ∨ operation = .edit ∧ allowCreate = false) :
    Journal p h (s.commit p caller operation name content expected allowCreate fault).2 := by
  refine hj.guarded fun _ _ => ?_
  split
  · rename_i hnone
    have habsent : none = s.hashes p (p.fold name) := by simp [ConfigStore.hashes,hnone]
    split
    · split
      · exact hj.refuse _ _ _ _ _
      · exact hj.refuse _ _ _ _ _
    · rename_i hallow
      split
      · exact hj.refuse _ _ _ _ _
      · have hcreate : operation = .create := by
          rcases hoperation with ⟨hcreate,-⟩ | ⟨-,hfalse⟩
          · exact hcreate
          · exact absurd (by simp [hfalse]) hallow
        exact hj.guarded fun raw _ => commitRaw_journal hj habsent (Or.inl ⟨hcreate,rfl⟩)
  · rename_i file hfile
    have hpresent : some (p.sha file.raw) = s.hashes p (p.fold name) := by
      simp [ConfigStore.hashes,hfile]
    refine hj.guarded fun _ _ => hj.guarded fun _ _ => ?_
    dsimp only
    split
    · exact hj.refuse _ _ _ _ _
    · rename_i hallow
      have hedit : operation = .edit := by
        rcases hoperation with ⟨-,htrue⟩ | ⟨hedit,-⟩
        · exact absurd htrue hallow
        · exact hedit
      split
      · exact hj.refuse _ _ _ _ _
      · exact hj.guarded fun raw _ => commitRaw_journal hj hpresent (Or.inr hedit)

theorem hash_of_read {name : String} {record : ConfigRecord} (hread : s.read p name = .ok record)
    (hcustom : ¬record.builtin = true) : s.hashes p (p.fold name) = some record.sha := by
  unfold ConfigStore.read at hread
  split at hread
  · cases hread
    exact absurd rfl hcustom
  · cases hpath : s.customPath p name with
    | error e =>
      rw [hpath] at hread
      cases hread
    | ok u =>
      rw [hpath] at hread
      cases hfile : s.custom (p.fold name) with
      | none =>
        rw [hfile] at hread
        cases hread
      | some file =>
        rw [hfile] at hread
        change (ConfigStore.checkNotHardlink file).bind _ = _ at hread
        cases hlink : ConfigStore.checkNotHardlink file with
        | error e =>
          rw [hlink] at hread
          cases hread
        | ok u =>
          rw [hlink] at hread
          simp only [Except.bind] at hread
          split at hread
          · cases hread
          · cases hread
            simp [ConfigStore.hashes,hfile]

theorem rename_journal (hj : Journal p h s) (caller : Caller) (name newName : String)
    (expected : Option String) (replaceFails : Bool) :
    Journal p h (s.rename p caller name newName expected replaceFails).2 := by
  refine hj.guarded fun _ _ => hj.guarded fun _ _ => hj.guarded fun _ _ =>
    hj.guarded fun record hread => ?_
  split
  · exact hj
  · rename_i hcustom
    have hsha : s.hashes p (p.fold name) = some record.sha := hash_of_read hread hcustom
    split
    · exact hj.refuse _ _ _ _ _
    · refine hj.guarded fun _ _ => ?_
      split
      · exact hj.refuse _ _ _ _ _
      · split
        · exact hj.refuse _ _ _ _ _
        · dsimp only
          split
          · exact hj.undone rfl rfl ⟨rfl,rfl,rfl,rfl,rfl⟩
          · have hmoved : Journal p h
                (((s.log ⟨caller,name,.rename,some record.sha,some record.sha,.okAs newName⟩).store p
                  newName (s.custom (p.fold name))).store p name none) := by
              refine hj.done rfl rfl ?_ trivial
              rw [hashes_store,hashes_store,hashes_log,← hsha]
              rfl
            dsimp only
            split
            · exact ⟨hmoved.faithful,hmoved.closed⟩
            · exact hmoved

def reachesUnlink (p : Platform) (name : String) (expected : Option String) (s : ConfigStore) : Bool :=
  match s.customPath p name,s.read p name,s.guardWritable name with
  | .ok _,.ok record,.ok _ => !record.builtin && !(expected.isSome && expected ≠ some record.sha)
  | _,_,_ => false

theorem delete_journal (hj : Journal p h s) (caller : Caller) {name : String}
    {expected : Option String} {unlinkFails : Bool}
    (hunlink : unlinkFails = true → reachesUnlink p name expected s = false) :
    Journal p h (s.delete p caller name expected unlinkFails).2 := by
  refine hj.guarded fun _ hpath => hj.guarded fun record hread => ?_
  split
  · exact hj
  · rename_i hcustom
    refine hj.guarded fun _ hguard => ?_
    split
    · exact hj.refuse _ _ _ _ _
    · rename_i hexpected
      dsimp only
      split
      · rename_i hfails
        have hreaches : reachesUnlink p name expected s = true := by
          unfold reachesUnlink
          rw [hpath,hread,hguard]
          dsimp only
          rw [Bool.not_eq_true] at hcustom hexpected
          rw [hcustom,hexpected]
          rfl
        rw [hunlink hfails] at hreaches
        cases hreaches
      · have hgone : Journal p h
            ((s.log ⟨caller,name,.delete,some record.sha,none,.ok⟩).store p name none) := by
          refine hj.done rfl rfl ?_ trivial
          rw [hashes_store,hashes_log]
          rfl
        exact hgone

/-- No step of the run is a deletion that is stopped at its last step. -/
def Careful (p : Platform) (s : ConfigStore) : ConfigCall → Prop
  | .delete _ name expected unlinkFails => unlinkFails = true → reachesUnlink p name expected s = false
  | _ => True

theorem run_journal (hj : Journal p h s) {call : ConfigCall} (hcareful : Careful p s call) :
    Journal p h (call.run p s).2 := by
  cases call with
  | create caller name content fault =>
    exact hj.guarded fun _ _ => commit_journal hj (Or.inl ⟨rfl,rfl⟩)
  | edit caller name content expected fault => exact commit_journal hj (Or.inr ⟨rfl,rfl⟩)
  | rename caller name newName expected replaceFails => exact rename_journal hj _ _ _ _ _
  | delete caller name expected unlinkFails => exact delete_journal hj caller hcareful
  | setActive name => exact ⟨hj.faithful,hj.closed⟩

/-- Every call of the run is careful in the state that it finds. -/
def CarefulRun (p : Platform) : ConfigStore → List ConfigCall → Prop
  | _, [] => True
  | s, call :: calls => Careful p s call ∧ CarefulRun p (call.run p s).2 calls

theorem runCalls_journal (hj : Journal p h s) {calls : List ConfigCall} (hcareful : CarefulRun p s calls) :
    Journal p h (runCalls p s calls) := by
  induction calls generalizing s with
  | nil => exact hj
  | cons call calls ih => exact ih (run_journal hj hcareful.1) hcareful.2

theorem not_faithful_of_unlinkFails (hj : Journal p h s) (caller : Caller) {name : String}
    {expected : Option String} (hreaches : reachesUnlink p name expected s = true) :
    ¬Faithful p h (s.delete p caller name expected true).2 := by
  unfold reachesUnlink at hreaches
  split at hreaches
  · rename_i hpath hread hguard
    rename_i record _
    simp only [Bool.and_eq_true,Bool.not_eq_true'] at hreaches
    obtain ⟨hcustom,hexpected⟩ := hreaches
    have hsha : s.hashes p (p.fold name) = some record.sha := hash_of_read hread (by simp [hcustom])
    have hresult : (s.delete p caller name expected true).2 =
        s.log ⟨caller,name,.delete,some record.sha,none,.ok⟩ := by
      unfold ConfigStore.delete
      rw [hpath,hread,hguard]
      simp only [ConfigStore.guarded,hcustom,hexpected,if_true,if_false,Bool.false_eq_true]
    intro hfaithful
    rw [hresult] at hfaithful
    have hreplayed : (replay p h (s.audit++[⟨caller,name,.delete,some record.sha,none,.ok⟩])).hashes =
        Function.update (s.hashes p) (p.fold name) none := by
      rw [replay_snoc,Replay.step_of_isOk p _ rfl,hj.faithful]
      rfl
    have hgone : none = some record.sha := by
      have hname := congrFun (hreplayed.symm.trans hfaithful) (p.fold name)
      rw [Function.update_self,hashes_log,hsha] at hname
      exact hname
    cases hgone
  · cases hreaches

/-- Replaying the log of a careful run gives the digests that the store holds, and the first call
that is not careful ends that. -/
theorem audit_faithful_of_carefulRun (p : Platform) (s : ConfigStore) (hs : s.audit = [])
    (calls : List ConfigCall) (hcareful : CarefulRun p s calls) :
    Faithful p (s.hashes p) (runCalls p s calls) ∧
      ∀ call, ¬Careful p (runCalls p s calls) call →
        ¬Faithful p (s.hashes p) (call.run p (runCalls p s calls)).2 := by
  have hj : Journal p (s.hashes p) (runCalls p s calls) :=
    runCalls_journal (journal_init p s hs) hcareful
  refine ⟨hj.faithful,fun call hcareless => ?_⟩
  cases call with
  | create caller name content fault => exact absurd trivial hcareless
  | edit caller name content expected fault => exact absurd trivial hcareless
  | rename caller name newName expected replaceFails => exact absurd trivial hcareless
  | setActive name => exact absurd trivial hcareless
  | delete caller name expected unlinkFails =>
    obtain ⟨hfails,hreaches⟩ := Classical.not_imp.mp hcareless
    rw [hfails]
    exact not_faithful_of_unlinkFails hj caller (Bool.not_eq_false _ ▸ hreaches)

/-- The text of a configuration that only names a section. -/
def sampleRaw : List UInt8 := [91,70,97,107,101,78,101,116,93,10]

/-- Letter case counts, and the digest is given for one text. -/
def samplePlatform : Platform where
  fold := id
  sha := fun raw => if raw = sampleRaw then
    "cf762d62a8dea12328ba9f7a8764d986bfdca29ba6bac21d13357df6047eeec0" else ""

def emptyStore : ConfigStore := ⟨fun _ => false,fun _ => none,fun _ => false,none,[]⟩

def sampleCaller : Caller := ⟨"A","c1"⟩

/-- A commit that fails, one that succeeds, and a rename that fails. -/
def sampleCalls : List ConfigCall :=
  [.create sampleCaller "a.ini" (some sampleRaw) .replace,
    .create sampleCaller "a.ini" (some sampleRaw) .none,
    .rename sampleCaller "a.ini" "b.ini" none true]

theorem audit_faithful_of_carefulRun_commits :
    CarefulRun samplePlatform emptyStore sampleCalls ∧
      Faithful samplePlatform (emptyStore.hashes samplePlatform)
        (runCalls samplePlatform emptyStore sampleCalls) ∧
      (runCalls samplePlatform emptyStore sampleCalls).audit.length = 5 := by
  have hcareful : CarefulRun samplePlatform emptyStore sampleCalls :=
    ⟨trivial,trivial,trivial,trivial⟩
  exact ⟨hcareful,(audit_faithful_of_carefulRun samplePlatform emptyStore rfl sampleCalls hcareful).1,
    by decide⟩

/-- The configuration stands, and the log says that it was deleted. -/
theorem failed_unlink_not_faithful :
    ¬Faithful samplePlatform (emptyStore.hashes samplePlatform)
      (runCalls samplePlatform emptyStore
        [.create sampleCaller "a.ini" (some sampleRaw) .none,
          .delete sampleCaller "a.ini" none true]) := by
  intro h
  have hname := congrFun h "a.ini"
  revert hname
  decide

end Config
end FakeNetNG
