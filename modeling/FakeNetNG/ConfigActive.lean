import FakeNetNG.ConfigAtomic

/-!
# The active configuration

The guard of the active configuration compares names, and the file system may take two names for one
file. An operation changes the files exactly if its request is admitted and no call is refused
(`run_effect`), so the active file is lost to the requests that are admitted under another spelling.
-/

namespace FakeNetNG
namespace Config

variable {p : Platform} {s : ConfigStore} {caller : Caller}

namespace ConfigCall

/-- The operation of a call, and whether no step of it is refused. -/
def operation : ConfigCall → Option (Request × Bool)
  | create _ name content fault => some (.create name content,decide (fault = .none))
  | edit _ name content expected fault => some (.edit name content expected,decide (fault = .none))
  | rename _ name newName expected replaceFails => some (.rename name newName expected,!replaceFails)
  | delete _ name expected unlinkFails => some (.delete name expected,!unlinkFails)
  | setActive _ => none

end ConfigCall

def Request.effect (p : Platform) (s : ConfigStore) : Request → String → Option ConfigFile
  | .create name content => Function.update s.custom (p.fold name) (content.map fun raw => ⟨raw,1⟩)
  | .edit name content _ => Function.update s.custom (p.fold name) (content.map fun raw => ⟨raw,1⟩)
  | .rename name newName _ =>
    Function.update (Function.update s.custom (p.fold newName) (s.custom (p.fold name))) (p.fold name) none
  | .delete name _ => Function.update s.custom (p.fold name) none

/-- An operation that started in `s` ends in `t`. -/
structure Effect (p : Platform) (request : Request) (smooth : Bool) (s t : ConfigStore) : Prop where
  builtin : t.builtin = s.builtin
  active : t.activeName = s.activeName
  custom : t.custom = s.custom ∧ ¬(request.Admitted p s ∧ smooth = true) ∨
    t.custom = request.effect p s ∧ request.Admitted p s ∧ smooth = true

variable {request : Request} {smooth : Bool}

theorem effect_none {t : ConfigStore} (hbuiltin : t.builtin = s.builtin) (hactive : t.activeName = s.activeName)
    (hcustom : t.custom = s.custom) (h : ¬(request.Admitted p s ∧ smooth = true)) : Effect p request smooth s t :=
  ⟨hbuiltin,hactive,.inl ⟨hcustom,h⟩⟩

theorem effect_guarded {α : Type} {check : Except McpError α} {k : α → Except McpError ConfigReply × ConfigStore}
    (herror : request.Admitted p s → ∃ a, check = .ok a)
    (hok : ∀ a, check = .ok a → Effect p request smooth s (k a).2) :
    Effect p request smooth s (ConfigStore.guarded check s k).2 := by
  cases check with
  | error e =>
    refine effect_none rfl rfl rfl fun h => ?_
    obtain ⟨a,ha⟩ := herror h.1
    cases ha
  | ok a => exact hok a rfl

theorem effect_refuse {name : String} {operation : Operation} {before : Option String} {e : McpError}
    (h : ¬request.Admitted p s) : Effect p request smooth s (s.refuse caller name operation before e).2 :=
  effect_none rfl rfl rfl fun h' => h h'.1

theorem commitRaw_effect {operation : Operation} {name : String} {before : Option String} {raw : List UInt8}
    {fault : CommitFault} (hadmitted : request.Admitted p s ↔ before ≠ some (p.sha raw))
    (heffect : request.effect p s = Function.update s.custom (p.fold name) (some ⟨raw,1⟩)) :
    Effect p request (decide (fault = .none)) s (s.commitRaw p caller operation name before raw fault).2 := by
  unfold ConfigStore.commitRaw
  by_cases hsame : before = some (p.sha raw)
  · rw [if_pos hsame]
    exact effect_none rfl rfl rfl fun h => hadmitted.mp h.1 hsame
  · rw [if_neg hsame]
    cases fault with
    | none => exact ⟨rfl,rfl,.inr ⟨heffect.symm,hadmitted.mpr hsame,rfl⟩⟩
    | staging => exact effect_none rfl rfl rfl fun h => by cases h.2
    | replace => exact effect_none rfl rfl rfl fun h => by cases h.2

theorem encodes_of_isSome {content : Option (List UInt8)} (h : content.isSome = true) :
    ∃ raw, content.elim (.error ⟨"","UnicodeEncodeError"⟩) .ok = (.ok raw : Except McpError _) := by
  obtain ⟨raw,rfl⟩ := Option.isSome_iff_exists.mp h
  exact ⟨raw,rfl⟩

theorem content_of_encodes {content : Option (List UInt8)} {raw : List UInt8}
    (h : content.elim (.error ⟨"","UnicodeEncodeError"⟩) .ok = (.ok raw : Except McpError _)) :
    content = some raw := by
  cases content with
  | none => cases h
  | some raw' =>
    obtain rfl : raw' = raw := Except.ok.inj h
    rfl

theorem create_effect (name : String) (content : Option (List UInt8)) (fault : CommitFault) :
    Effect p (.create name content) (decide (fault = .none)) s (s.create p caller name content fault).2 := by
  refine effect_guarded (fun h => ⟨_,h.1⟩) fun _ hvalid => effect_guarded (fun h => ⟨_,h.2.1⟩) fun _ hpath => ?_
  cases hfile : s.custom (p.fold name) with
  | none =>
    dsimp only
    rw [if_neg (by simp)]
    by_cases hshadow : s.shadows p name = true
    · rw [if_pos hshadow]
      refine effect_refuse fun h => ?_
      rw [h.2.2.2.1] at hshadow
      cases hshadow
    · rw [if_neg hshadow]
      refine effect_guarded (fun h => encodes_of_isSome h.2.2.2.2) fun raw hraw => ?_
      obtain rfl := content_of_encodes hraw
      refine commitRaw_effect ⟨fun _ => by simp,fun _ => ?_⟩ rfl
      exact ⟨hvalid,hpath,hfile,by simpa using hshadow,rfl⟩
  | some file =>
    have hrefused : ¬(Request.create name content).Admitted p s := by
      intro h
      cases hfile.symm.trans h.2.2.1
    refine effect_guarded (fun h => absurd h hrefused) fun _ _ => ?_
    refine effect_guarded (fun h => absurd h hrefused) fun _ _ => ?_
    exact effect_refuse hrefused

theorem edit_effect (name : String) (content : Option (List UInt8)) (expected : Option String)
    (fault : CommitFault) :
    Effect p (.edit name content expected) (decide (fault = .none)) s
      (s.edit p caller name content expected fault).2 := by
  refine effect_guarded (fun h => ⟨_,h.1⟩) fun _ hpath => ?_
  cases hfile : s.custom (p.fold name) with
  | none =>
    have hrefused : ¬(Request.edit name content expected).Admitted p s := by
      rintro ⟨-,-,file,-,hfile',-⟩
      cases hfile.symm.trans hfile'
    dsimp only
    rw [if_pos (by simp)]
    split
    · exact effect_refuse hrefused
    · exact effect_refuse hrefused
  | some file =>
    have hsame : ∀ {file'}, s.custom (p.fold name) = some file' → file' = file := fun h =>
      Option.some.inj (h.symm.trans hfile)
    refine effect_guarded (fun h => ?_) fun _ hlink => effect_guarded (fun h => ⟨_,h.2.1⟩) fun _ hguard => ?_
    · obtain ⟨-,-,file',-,hfile',hlink,-⟩ := h
      rw [← hsame hfile']
      exact ⟨_,hlink⟩
    · dsimp only
      rw [if_neg (by simp)]
      by_cases hexpected : (expected.isSome && expected ≠ some (p.sha file.raw)) = true
      · rw [if_pos hexpected]
        refine effect_refuse fun h => ?_
        obtain ⟨-,-,file',-,hfile',-,hmatches,-⟩ := h
        rw [hsame hfile'] at hmatches
        exact not_check_of_matches hmatches hexpected
      · rw [if_neg hexpected]
        refine effect_guarded (fun h => ?_) fun raw hraw => ?_
        · obtain ⟨-,-,-,raw,-,-,-,rfl,-⟩ := h
          exact encodes_of_isSome rfl
        · obtain rfl := content_of_encodes hraw
          refine commitRaw_effect ⟨fun h => ?_,fun h => ?_⟩ rfl
          · obtain ⟨-,-,file',raw',hfile',-,-,hraw,hne⟩ := h
            obtain rfl := Option.some.inj hraw
            rw [hsame hfile'] at hne
            exact fun h => hne (Option.some.inj h)
          · exact ⟨hpath,hguard,file,raw,hfile,hlink,matches_of_check hexpected,rfl,fun h' => h (congrArg some h')⟩

theorem read_of_admitted {name : String} {record : ConfigRecord} {expected : Option String} {file : ConfigFile}
    (hread : s.read p name = .ok record) (hread' : s.read p name = .ok ⟨false,p.sha file.raw⟩)
    (hmatches : Request.Matches p expected file) :
    record.builtin = false ∧ ¬(expected.isSome && expected ≠ some record.sha) = true := by
  obtain rfl : record = ⟨false,p.sha file.raw⟩ := Except.ok.inj (hread.symm.trans hread')
  exact ⟨rfl,not_check_of_matches hmatches⟩

theorem rename_effect (name newName : String) (expected : Option String) (replaceFails : Bool) :
    Effect p (.rename name newName expected) (!replaceFails) s
      (s.rename p caller name newName expected replaceFails).2 := by
  refine effect_guarded (fun h => ⟨_,h.1⟩) fun _ hvalid => effect_guarded (fun h => ⟨_,h.2.1⟩) fun _ hpath =>
    effect_guarded (fun h => ⟨_,h.2.2.1⟩) fun _ hguard => effect_guarded (fun h => ?_) fun record hread => ?_
  · obtain ⟨-,-,-,-,-,-,file,-,hread,-⟩ := h
    exact ⟨_,hread⟩
  by_cases hbuiltin : record.builtin = true
  · rw [if_pos hbuiltin]
    refine effect_none rfl rfl rfl fun h => ?_
    obtain ⟨⟨-,-,-,-,-,-,file,-,hread',hmatches⟩,-⟩ := h
    rw [(read_of_admitted hread hread' hmatches).1] at hbuiltin
    cases hbuiltin
  rw [if_neg hbuiltin]
  by_cases hshadow : s.shadows p newName = true
  · rw [if_pos hshadow]
    refine effect_refuse fun h => ?_
    rw [h.2.2.2.1] at hshadow
    cases hshadow
  rw [if_neg hshadow]
  refine effect_guarded (fun h => ⟨_,h.2.2.2.2.1⟩) fun _ hpath' => ?_
  by_cases hpresent : (s.custom (p.fold newName)).isSome = true
  · rw [if_pos hpresent]
    refine effect_refuse fun h => ?_
    rw [h.2.2.2.2.2.1] at hpresent
    cases hpresent
  rw [if_neg hpresent]
  by_cases hexpected : (expected.isSome && expected ≠ some record.sha) = true
  · rw [if_pos hexpected]
    refine effect_refuse fun h => ?_
    obtain ⟨-,-,-,-,-,-,file,-,hread',hmatches⟩ := h
    exact (read_of_admitted hread hread' hmatches).2 hexpected
  rw [if_neg hexpected]
  obtain ⟨file,hfile,rfl⟩ := file_of_read hread hbuiltin
  have hadmitted : (Request.rename name newName expected).Admitted p s :=
    ⟨hvalid,hpath,hguard,by simpa using hshadow,hpath',by simpa using hpresent,file,hfile,hread,
      matches_of_check hexpected⟩
  have hactive : s.activeName ≠ some name := by
    intro h
    rw [ConfigStore.guardWritable,if_pos h] at hguard
    cases hguard
  cases replaceFails with
  | true => exact effect_none rfl rfl rfl fun h => by cases h.2
  | false =>
    dsimp only
    rw [if_neg (by simp),if_neg hactive]
    exact ⟨rfl,rfl,.inr ⟨rfl,hadmitted,rfl⟩⟩

theorem delete_effect (name : String) (expected : Option String) (unlinkFails : Bool) :
    Effect p (.delete name expected) (!unlinkFails) s (s.delete p caller name expected unlinkFails).2 := by
  refine effect_guarded (fun h => ⟨_,h.1⟩) fun _ hpath => effect_guarded (fun h => ?_) fun record hread => ?_
  · obtain ⟨-,-,file,-,hread,-⟩ := h
    exact ⟨_,hread⟩
  by_cases hbuiltin : record.builtin = true
  · rw [if_pos hbuiltin]
    refine effect_none rfl rfl rfl fun h => ?_
    obtain ⟨⟨-,-,file,-,hread',hmatches⟩,-⟩ := h
    rw [(read_of_admitted hread hread' hmatches).1] at hbuiltin
    cases hbuiltin
  rw [if_neg hbuiltin]
  refine effect_guarded (fun h => ⟨_,h.2.1⟩) fun _ hguard => ?_
  by_cases hexpected : (expected.isSome && expected ≠ some record.sha) = true
  · rw [if_pos hexpected]
    refine effect_refuse fun h => ?_
    obtain ⟨-,-,file,-,hread',hmatches⟩ := h
    exact (read_of_admitted hread hread' hmatches).2 hexpected
  rw [if_neg hexpected]
  obtain ⟨file,hfile,rfl⟩ := file_of_read hread hbuiltin
  cases unlinkFails with
  | true => exact effect_none rfl rfl rfl fun h => by cases h.2
  | false => exact ⟨rfl,rfl,.inr ⟨rfl,⟨hpath,hguard,file,hfile,hread,matches_of_check hexpected⟩,rfl⟩⟩

theorem run_effect {call : ConfigCall} (hcall : call.operation = some (request,smooth)) :
    Effect p request smooth s (call.run p s).2 := by
  cases call with
  | create caller name content fault =>
    cases hcall
    exact create_effect name content fault
  | edit caller name content expected fault =>
    cases hcall
    exact edit_effect name content expected fault
  | rename caller name newName expected replaceFails =>
    cases hcall
    exact rename_effect name newName expected _
  | delete caller name expected unlinkFails =>
    cases hcall
    exact delete_effect name expected _
  | setActive name => cases hcall

/-- A builtin, or a file of the store with its bytes. No operation writes a builtin. -/
inductive Source
  | builtin
  | custom (raw : List UInt8)
  deriving DecidableEq

def ConfigStore.resolve (p : Platform) (name : String) (s : ConfigStore) : Option Source :=
  if s.shadows p name then some .builtin else (s.contents (p.fold name)).map .custom

def Request.isCreate : Request → Bool
  | .create _ _ => true
  | _ => false

/-- A request that the guard lets through although it is for the file of the active name. -/
def Evades (p : Platform) (active : String) (s : ConfigStore) (call : ConfigCall) : Prop :=
  s.shadows p active = false ∧ ∃ request, call.operation = some (request,true) ∧ request.isCreate = false ∧
    p.fold request.name = p.fold active ∧ request.Admitted p s

theorem Request.Admitted.found (h : request.Admitted p s) (hcreate : request.isCreate = false) :
    ∃ file, s.custom (p.fold request.name) = some file := by
  cases request with
  | create name content => cases hcreate
  | edit name content expected =>
    obtain ⟨-,-,file,-,hfile,-⟩ := h
    exact ⟨file,hfile⟩
  | rename name newName expected =>
    obtain ⟨-,-,-,-,-,-,file,hfile,-⟩ := h
    exact ⟨file,hfile⟩
  | delete name expected =>
    obtain ⟨-,-,file,hfile,-⟩ := h
    exact ⟨file,hfile⟩

theorem effect_of_ne {name : String} {file : ConfigFile} (h : request.Admitted p s) (hfile : s.custom name = some file)
    (hname : request.isCreate = false → p.fold request.name ≠ name) : request.effect p s name = some file := by
  cases request with
  | create name' content =>
    have hne : name ≠ p.fold name' := by
      rintro rfl
      cases hfile.symm.trans h.2.2.1
    exact (Function.update_of_ne hne _ _).trans hfile
  | edit name' content expected => exact (Function.update_of_ne (hname rfl).symm _ _).trans hfile
  | rename name' newName expected =>
    have hne : name ≠ p.fold newName := by
      rintro rfl
      cases hfile.symm.trans h.2.2.2.2.2.1
    exact (Function.update_of_ne (hname rfl).symm _ _).trans ((Function.update_of_ne hne _ _).trans hfile)
  | delete name' expected => exact (Function.update_of_ne (hname rfl).symm _ _).trans hfile

theorem effect_changes {file : ConfigFile} (h : request.Admitted p s) (hcreate : request.isCreate = false)
    (hfile : s.custom (p.fold request.name) = some file) :
    (request.effect p s (p.fold request.name)).map ConfigFile.raw ≠ some file.raw := by
  have hgone : ∀ (g : String → Option ConfigFile) (name : String),
      Option.map ConfigFile.raw (Function.update g name none name) ≠ some file.raw := by
    intro g name
    rw [Function.update_self]
    simp
  cases request with
  | create name content => cases hcreate
  | edit name content expected =>
    obtain ⟨-,-,file',raw,hfile',-,-,rfl,hne⟩ := h
    obtain rfl : file' = file := Option.some.inj (hfile'.symm.trans hfile)
    show (Function.update s.custom (p.fold name) (some ⟨raw,1⟩) (p.fold name)).map ConfigFile.raw ≠ _
    rw [Function.update_self]
    exact fun heq => hne (congrArg p.sha (Option.some.inj heq).symm)
  | rename name newName expected =>
    exact hgone _ _
  | delete name expected =>
    exact hgone _ _

variable {active : String} {call : ConfigCall}

theorem shadows_of_builtin {t : ConfigStore} (h : t.builtin = s.builtin) (name : String) :
    t.shadows p name = s.shadows p name := by
  rw [ConfigStore.shadows,ConfigStore.shadows,h]

theorem resolve_of_custom {t : ConfigStore} (hbuiltin : t.builtin = s.builtin) (hcustom : t.custom = s.custom) :
    t.resolve p active = s.resolve p active := by
  rw [ConfigStore.resolve,ConfigStore.resolve,shadows_of_builtin hbuiltin,ConfigStore.contents,hcustom]
  rfl

theorem run_keeps_iff (hcall : call.operation = some (request,smooth)) :
    (∀ source, s.resolve p active = some source → (call.run p s).2.resolve p active = some source) ↔
      ¬Evades p active s call := by
  have heffect := run_effect (p:=p) (s:=s) hcall
  obtain ⟨hcustom,hstopped⟩ | ⟨hcustom,hadmitted,rfl⟩ := heffect.custom
  · refine iff_of_true (fun source h => ?_) ?_
    · rw [resolve_of_custom heffect.builtin hcustom]
      exact h
    · rintro ⟨-,request',hcall',-,-,hadmitted⟩
      obtain ⟨rfl,rfl⟩ : request = request' ∧ smooth = true := by simpa [hcall] using hcall'
      exact hstopped ⟨hadmitted,rfl⟩
  · constructor
    · rintro hkeeps ⟨hshadow,request',hcall',hcreate,hname,-⟩
      obtain rfl : request = request' := by simpa [hcall] using hcall'
      obtain ⟨file,hfile⟩ := hadmitted.found hcreate
      have hresolve : s.resolve p active = some (.custom file.raw) := by
        rw [ConfigStore.resolve,hshadow,if_neg (by simp),ConfigStore.contents,← hname,hfile]
        rfl
      have hafter := hkeeps _ hresolve
      rw [ConfigStore.resolve,shadows_of_builtin heffect.builtin,hshadow,if_neg (by simp),ConfigStore.contents,
        hcustom,← hname] at hafter
      obtain ⟨raw,hraw,hsame⟩ := Option.map_eq_some_iff.mp hafter
      obtain rfl : raw = file.raw := by simpa using hsame
      exact effect_changes hadmitted hcreate hfile hraw
    · intro hguarded source hsource
      rw [ConfigStore.resolve] at hsource ⊢
      rw [shadows_of_builtin heffect.builtin]
      by_cases hshadow : s.shadows p active = true
      · rw [if_pos hshadow] at hsource ⊢
        exact hsource
      · rw [if_neg hshadow] at hsource ⊢
        obtain ⟨raw,hraw,rfl⟩ := Option.map_eq_some_iff.mp hsource
        obtain ⟨file,hfile,rfl⟩ := Option.map_eq_some_iff.mp hraw
        have hother : request.isCreate = false → p.fold request.name ≠ p.fold active := fun hcreate hname =>
          hguarded ⟨by simpa using hshadow,request,hcall,hcreate,hname,hadmitted⟩
        rw [ConfigStore.contents,hcustom,effect_of_ne hadmitted hfile hother]
        rfl

def GuardedRun (p : Platform) (active : String) : ConfigStore → List ConfigCall → Prop
  | _,[] => True
  | s,call :: calls => ¬Evades p active s call ∧ GuardedRun p active (call.run p s).2 calls

/-- Each state of the run resolves the active name as the states before it do. -/
def KeepsActive (p : Platform) (active : String) (s : ConfigStore) (calls : List ConfigCall) : Prop :=
  ∀ i j, i ≤ j → ∀ source, (runCalls p s (calls.take i)).resolve p active = some source →
    (runCalls p s (calls.take j)).resolve p active = some source

theorem keepsActive_cons {calls : List ConfigCall} : KeepsActive p active s (call :: calls) ↔
    (∀ source, s.resolve p active = some source → (call.run p s).2.resolve p active = some source) ∧
      KeepsActive p active (call.run p s).2 calls := by
  constructor
  · intro h
    refine ⟨h 0 1 (Nat.zero_le 1),fun i j hij => ?_⟩
    exact h (i+1) (j+1) (Nat.succ_le_succ hij)
  · rintro ⟨hstep,hrest⟩ i j hij source hsource
    cases j with
    | zero =>
      obtain rfl := Nat.le_zero.mp hij
      exact hsource
    | succ j =>
      cases i with
      | zero => exact hrest 0 j (Nat.zero_le j) source (hstep source hsource)
      | succ i => exact hrest i j (Nat.le_of_succ_le_succ hij) source hsource

theorem active_of_run (hcall : call.operation.isSome = true) : (call.run p s).2.activeName = s.activeName := by
  obtain ⟨⟨request,smooth⟩,h⟩ := Option.isSome_iff_exists.mp hcall
  exact (run_effect h).active

/-- The active name stays, and its file keeps its bytes and its existence in exactly the runs in which no
operation gets past the guard under another spelling. -/
theorem active_file_immutable_iff (p : Platform) (active : String) (s : ConfigStore) (calls : List ConfigCall)
    (hactive : s.activeName = some active) (hcalls : ∀ call ∈ calls, call.operation.isSome = true) :
    (∀ i, (runCalls p s (calls.take i)).activeName = some active) ∧
      (KeepsActive p active s calls ↔ GuardedRun p active s calls) := by
  induction calls generalizing s with
  | nil =>
    refine ⟨fun i => by simpa [runCalls] using hactive,iff_of_true (fun i j _ source h => ?_) trivial⟩
    simpa [runCalls] using h
  | cons call calls ih =>
    have hstep := hcalls call (by simp)
    obtain ⟨hstays,hiff⟩ := ih (call.run p s).2 ((active_of_run hstep).trans hactive) fun c hc => hcalls c (by simp [hc])
    obtain ⟨⟨request,smooth⟩,hcall⟩ := Option.isSome_iff_exists.mp hstep
    refine ⟨fun i => ?_,?_⟩
    · cases i with
      | zero => exact hactive
      | succ i => exact hstays i
    · rw [keepsActive_cons,GuardedRun,run_keeps_iff hcall,hiff]

theorem spelling_of_evades (hactive : s.activeName = some active) (h : Evades p active s call) :
    ∃ request smooth, call.operation = some (request,smooth) ∧ request.name ≠ active ∧
      p.fold request.name = p.fold active := by
  obtain ⟨-,request,hcall,hcreate,hname,hadmitted⟩ := h
  have hguard : s.guardWritable request.name = .ok () := by
    cases request with
    | create name content => cases hcreate
    | edit name content expected => exact hadmitted.2.1
    | rename name newName expected => exact hadmitted.2.2.1
    | delete name expected => exact hadmitted.2.1
  refine ⟨request,true,hcall,?_,hname⟩
  rintro rfl
  rw [ConfigStore.guardWritable,if_pos hactive] at hguard
  cases hguard

/-- Names that differ in letter case only are those of one file. -/
def caseInsensitive (sha : List UInt8 → String) : Platform :=
  ⟨fun name => String.ofList (name.toList.map Char.toLower),sha⟩

def activeStore : ConfigStore :=
  ⟨fun _ => false,fun name => if name = "a.ini" then some ⟨sampleRaw,1⟩ else none,fun _ => false,some "a.ini",[]⟩

/-- Calls that leave the active file alone: by its own name they are refused. -/
def guardedCalls : List ConfigCall :=
  [.delete sampleCaller "a.ini" none false,.create sampleCaller "A.ini" (some []) .none]

theorem active_file_immutable_guarded :
    KeepsActive (caseInsensitive samplePlatform.sha) "a.ini" activeStore guardedCalls := by
  refine (active_file_immutable_iff _ _ _ _ rfl (by decide)).2.mpr ⟨?_,?_,trivial⟩
  · intro h
    obtain ⟨request,smooth,hcall,hne,-⟩ := spelling_of_evades rfl h
    cases hcall
    exact hne rfl
  · rintro ⟨-,request,hcall,hcreate,-⟩
    cases hcall
    cases hcreate

/-- The active configuration is deleted under another spelling. -/
theorem active_file_deleted : ¬KeepsActive (caseInsensitive samplePlatform.sha) "a.ini" activeStore
    [.delete sampleCaller "A.ini" none false] := by
  intro h
  have hafter := h 0 1 (by simp) (.custom sampleRaw) (by decide)
  revert hafter
  decide

end Config
end FakeNetNG
