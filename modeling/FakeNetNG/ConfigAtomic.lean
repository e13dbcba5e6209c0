import FakeNetNG.ConfigFaults
import FakeNetNG.ConfigJournal

/-!
# Operations on configurations are atomic

Whatever the system refuses, an operation leaves the files as they were, staging file aside, or makes its
one change (`Request.run_spec`), and when nothing is refused it is the operation of the store
(`Request.run_agrees`). The configurations that the store lists keep this unless a name gets past the
checks that is not listed, or that a builtin has.
-/

namespace FakeNetNG
namespace Config

open Fallible OsProgram

variable {p : Platform} {s t : ConfigStore} {pid : ℕ} {caller : Caller}

/-- Only the staging file is another. -/
def Beside (tmp : String) (s t : ConfigStore) : Prop := ∀ name, name ≠ tmp → t.custom name = s.custom name

theorem beside_of_eq {tmp : String} (h : t.custom = s.custom) : Beside tmp s t := fun name _ => by rw [h]

theorem Beside.trans {tmp : String} {u : ConfigStore} (h : Beside tmp s t) (h' : Beside tmp t u) :
    Beside tmp s u := fun name hname => (h' name hname).trans (h name hname)

theorem beside_store (name : String) (file : Option ConfigFile) (s : ConfigStore) :
    Beside (p.fold name) s (s.store p name file) := fun _ hname => Function.update_of_ne hname _ _

variable {α : Type} {E : Raised → ConfigStore → Prop}

theorem spec_require {Q : α → ConfigStore → Prop} {m : Except McpError α} (hok : ∀ a, m = .ok a → Q a s)
    (herror : ∀ e, E e s) : Spec (require m) Q E s := by
  refine spec_check (fun a ha => hok a ?_) fun e _ => herror e
  cases m with
  | error e => cases ha
  | ok b =>
    obtain rfl : b = a := Except.ok.inj ha
    rfl

theorem spec_audit {Q : Unit → ConfigStore → Prop} {line : AuditLine} (hok : ∀ t, t.custom = s.custom → Q () t)
    (herror : ∀ e t, t.custom = s.custom → E e t) : Spec (audit line) Q E s := by
  refine spec_tryExcept (P:=fun _ t => t.custom = s.custom) (spec_call (hok _ rfl) fun left => ?_) fun e t ht => ?_
  · cases left with
    | none => rfl
    | some raw => rfl
  · exact spec_raise (herror _ t ht)

theorem spec_refuseLogged {Q : ConfigReply → ConfigStore → Prop} {name : String} {operation : Operation}
    {before : Option String} {error : McpError} (herror : ∀ e t, t.custom = s.custom → E e t) :
    Spec (refuseLogged caller name operation before error) Q E s :=
  Spec.bind (P:=fun _ t => t.custom = s.custom) (spec_audit (fun _ h => h) herror) fun _ t ht =>
    spec_raise (herror _ t ht)

theorem spec_discard {tmp : String} {Q : Unit → ConfigStore → Prop}
    (h : ∀ t, Beside (p.fold tmp) s t → Q () t) : Spec (discard p tmp) Q E s := by
  refine spec_tryExcept (P:=fun _ t => t = s) (spec_call (h _ (beside_store tmp none s)) fun _ => rfl) ?_
  rintro e _ rfl
  exact spec_pure (h _ (beside_of_eq rfl))

/-- The file that a commit makes. -/
def Written (tmp name : String) (raw : List UInt8) (s t : ConfigStore) : Prop :=
  ∀ n, n ≠ tmp → t.custom n = Function.update s.custom name (some ⟨raw,1⟩) n

theorem spec_commitStaged {operation : Operation} {name : String} {before : Option String} {raw : List UInt8} :
    Spec (commitStaged p pid caller operation name before raw)
      (fun reply t => reply.changed = false ∧ t.custom = s.custom ∨
        before ≠ some (p.sha raw) ∧ Written (p.fold (stagingName p pid name)) (p.fold name) raw s t)
      (fun _ t => Beside (p.fold (stagingName p pid name)) s t) s := by
  unfold commitStaged
  by_cases hsame : before = some (p.sha raw)
  · rw [if_pos hsame]
    refine Spec.bind (P:=fun _ t => t.custom = s.custom) (spec_audit (fun _ h => h) ?_) fun _ t ht => ?_
    · exact fun _ t ht => beside_of_eq ht
    · exact spec_pure (.inl ⟨rfl,ht⟩)
  · rw [if_neg hsame]
    refine Spec.bind (P:=fun _ t => Written (p.fold (stagingName p pid name)) (p.fold name) raw s t)
      (spec_tryExcept (P:=fun _ t => Beside (p.fold (stagingName p pid name)) s t) ?_ ?_) fun _ t ht => ?_
    · -- the staging file is written and the log appended before the configuration is replaced
      refine Spec.bind (P:=fun _ t => Beside (p.fold (stagingName p pid name)) s t ∧
        t.custom (p.fold (stagingName p pid name)) = some ⟨raw,1⟩) (spec_call ?_ fun left => ?_) fun _ t ht => ?_
      · exact ⟨beside_store _ _ s,Function.update_self _ _ _⟩
      · exact beside_store _ _ s
      · refine Spec.bind (P:=fun _ u => u.custom = t.custom) (spec_audit (fun _ h => h) ?_) fun _ u hu => ?_
        · exact fun _ u hu => ht.1.trans (beside_of_eq hu)
        · refine spec_call (fun n hn => ?_) fun _ => ht.1.trans (beside_of_eq hu)
          show Function.update (Function.update u.custom _ _) _ _ n = _
          rw [Function.update_of_ne hn,hu,ht.2]
          by_cases hname : n = p.fold name
          · rw [hname,Function.update_self,Function.update_self]
          · rw [Function.update_of_ne hname,Function.update_of_ne hname]
            exact ht.1 n hn
    · intro e t ht
      have hdiscarded : ∀ k : Program Unit,
          (∀ u, Beside (p.fold (stagingName p pid name)) s u → Spec k (fun _ _ => False)
            (fun _ t => Beside (p.fold (stagingName p pid name)) s t) u) →
          Spec (discard p (stagingName p pid name) >>= fun _ => k)
            (fun _ t => Written (p.fold (stagingName p pid name)) (p.fold name) raw s t)
            (fun _ t => Beside (p.fold (stagingName p pid name)) s t) t := by
        intro k hk
        refine Spec.bind (P:=fun _ u => Beside (p.fold (stagingName p pid name)) s u)
          (spec_discard fun u hu => ht.trans hu) fun _ u hu => ?_
        exact (hk u hu).mono (fun _ _ h => h.elim) fun _ _ h => h
      cases e with
      | os =>
        refine hdiscarded _ fun u hu => ?_
        refine Spec.bind (P:=fun _ v => v.custom = u.custom) (spec_audit (fun _ h => h) ?_) fun _ v hv => ?_
        · exact fun _ v hv => hu.trans (beside_of_eq hv)
        · exact spec_raise (hu.trans (beside_of_eq hv))
      | mcp e => exact hdiscarded _ fun u hu => spec_raise hu
      | unicodeEncode => exact hdiscarded _ fun u hu => spec_raise hu
    · exact spec_pure (.inr ⟨hsame,ht⟩)

/-- What a request does to the files besides the staging file. -/
def Request.Done (p : Platform) (pid : ℕ) (s : ConfigStore) (request : Request) (reply : ConfigReply)
    (t : ConfigStore) : Prop :=
  reply.changed = false ∧ t.custom = s.custom ∨
    request.Admitted p s ∧ ∀ n, n ≠ p.fold (stagingName p pid request.name) →
      t.contents n = request.change p (s.contents (p.fold request.name)) s.contents n

theorem contents_update (f : String → Option ConfigFile) (name : String) (file : Option ConfigFile) (n : String) :
    (Function.update f name file n).map ConfigFile.raw =
      Function.update (fun n => (f n).map ConfigFile.raw) name (file.map ConfigFile.raw) n := by
  by_cases h : n = name
  · rw [h,Function.update_self,Function.update_self]
  · rw [Function.update_of_ne h,Function.update_of_ne h]

theorem Written.contents {tmp name : String} {raw : List UInt8} (h : Written tmp name raw s t) {n : String}
    (hn : n ≠ tmp) : t.contents n = Function.update s.contents name (some raw) n := by
  rw [ConfigStore.contents,h n hn,contents_update]
  rfl

theorem matches_of_check {expected : Option String} {file : ConfigFile}
    (h : ¬(expected.isSome && expected ≠ some (p.sha file.raw)) = true) : Request.Matches p expected file := by
  rintro e rfl
  simpa using h

theorem spec_commitFile {operation : Operation} {name : String} {content : Option (List UInt8)}
    {expected : Option String} {allowCreate : Bool} {request : Request} (hname : request.name = name)
    (hcreate : s.customPath p name = .ok () → s.custom (p.fold name) = none → allowCreate = true →
      s.shadows p name = false → content.isSome = true → request.Admitted p s)
    (hedit : ∀ file raw, s.customPath p name = .ok () → s.guardWritable name = .ok () →
      s.custom (p.fold name) = some file → ConfigStore.checkNotHardlink file = .ok () → allowCreate = false →
      Request.Matches p expected file → content = some raw → p.sha file.raw ≠ p.sha raw → request.Admitted p s)
    (hchange : request.change p (s.contents (p.fold request.name)) s.contents =
      Function.update s.contents (p.fold name) content) :
    Spec (commitFile p pid caller operation name content expected allowCreate) (request.Done p pid s)
      (fun _ t => Beside (p.fold (stagingName p pid request.name)) s t) s := by
  have hkept : ∀ (e : Raised) (t : ConfigStore), t.custom = s.custom →
      Beside (p.fold (stagingName p pid request.name)) s t := fun _ _ ht => beside_of_eq ht
  -- what is written is the content, and the checks before it admit the request
  have hcommit : ∀ before, (∀ raw, content = some raw → before ≠ some (p.sha raw) → request.Admitted p s) →
      Spec (do let raw ← encodeContent content; commitStaged p pid caller operation name before raw)
        (request.Done p pid s) (fun _ t => Beside (p.fold (stagingName p pid request.name)) s t) s := by
    intro before hadmitted
    refine Spec.bind (P:=fun raw t => content = some raw ∧ t = s) (spec_check ?_ fun e _ => hkept e s rfl) ?_
    · intro raw hraw
      cases content with
      | none => cases hraw
      | some raw' =>
        obtain rfl : raw' = raw := Except.ok.inj hraw
        exact ⟨rfl,rfl⟩
    · rintro raw t ⟨hraw,rfl⟩
      rw [hname]
      refine spec_commitStaged.mono (fun reply u hu => ?_) fun _ _ h => h
      obtain hsame | ⟨hbefore,hwritten⟩ := hu
      · exact .inl hsame
      · refine .inr ⟨hadmitted raw hraw hbefore,fun n hn => ?_⟩
        rw [hname] at hn
        rw [hwritten.contents hn,hchange,hraw]
  unfold commitFile
  refine Spec.bind (P:=fun a t => a = s ∧ t = s) (spec_look ⟨rfl,rfl⟩) ?_
  rintro _ t ⟨rfl,rfl⟩
  refine Spec.bind (P:=fun _ t' => t.customPath p name = .ok () ∧ t' = t)
    (spec_require (fun _ h => ⟨h,rfl⟩) fun e => hkept e t rfl) ?_
  rintro _ t ⟨hpath,rfl⟩
  cases hfile : t.custom (p.fold name) with
  | none =>
    dsimp only
    by_cases hallow : allowCreate = true
    · rw [if_neg (by simp [hallow])]
      by_cases hshadow : t.shadows p name = true
      · rw [if_pos hshadow]
        exact spec_refuseLogged hkept
      · rw [if_neg hshadow]
        refine hcommit none fun raw hraw _ => ?_
        exact hcreate hpath hfile hallow (by simpa using hshadow) (by rw [hraw]; rfl)
    · rw [if_pos (by simpa using hallow)]
      split
      · exact spec_refuseLogged hkept
      · exact spec_refuseLogged hkept
  | some file =>
    dsimp only
    refine Spec.bind (P:=fun _ t' => ConfigStore.checkNotHardlink file = .ok () ∧ t' = t)
      (spec_require (fun _ h => ⟨h,rfl⟩) fun e => hkept e t rfl) ?_
    rintro _ t ⟨hlink,rfl⟩
    refine Spec.bind (P:=fun _ t' => t.guardWritable name = .ok () ∧ t' = t)
      (spec_require (fun _ h => ⟨h,rfl⟩) fun e => hkept e t rfl) ?_
    rintro _ t ⟨hguard,rfl⟩
    by_cases hallow : allowCreate = true
    · rw [if_pos hallow]
      exact spec_refuseLogged hkept
    · rw [if_neg hallow]
      by_cases hexpected : (expected.isSome && expected ≠ some (p.sha file.raw)) = true
      · rw [if_pos hexpected]
        exact spec_refuseLogged hkept
      · rw [if_neg hexpected]
        refine hcommit _ fun raw hraw hne => ?_
        exact hedit file raw hpath hguard hfile hlink (by simpa using hallow) (matches_of_check hexpected) hraw
          fun h => hne (congrArg some h)

theorem file_of_read {name : String} {record : ConfigRecord} (hread : s.read p name = .ok record)
    (hcustom : ¬record.builtin = true) :
    ∃ file, s.custom (p.fold name) = some file ∧ record = ⟨false,p.sha file.raw⟩ := by
  obtain ⟨file,hfile,hsha⟩ := Option.map_eq_some_iff.mp (hash_of_read hread hcustom)
  refine ⟨file,hfile,?_⟩
  obtain ⟨builtin,sha⟩ := record
  obtain rfl : builtin = false := by simpa using hcustom
  rw [hsha]

theorem spec_renameFile {name newName : String} {expected : Option String} :
    Spec (renameFile p caller name newName expected) (Request.Done p pid s (.rename name newName expected))
      (fun _ t => Beside (p.fold (stagingName p pid name)) s t) s := by
  have hkept : ∀ (e : Raised) (t : ConfigStore), t.custom = s.custom →
      Beside (p.fold (stagingName p pid name)) s t := fun _ _ ht => beside_of_eq ht
  unfold renameFile
  refine Spec.bind (P:=fun _ t => validateName newName = .ok () ∧ t = s)
    (spec_require (fun _ h => ⟨h,rfl⟩) fun e => hkept (.mcp ⟨"",""⟩) s rfl) ?_
  rintro _ t ⟨hvalid,rfl⟩
  refine Spec.bind (P:=fun a t' => a = t ∧ t' = t) (spec_look ⟨rfl,rfl⟩) ?_
  rintro _ t ⟨rfl,rfl⟩
  refine Spec.bind (P:=fun _ t' => t.customPath p name = .ok () ∧ t' = t)
    (spec_require (fun _ h => ⟨h,rfl⟩) fun e => hkept e t rfl) ?_
  rintro _ t ⟨hpath,rfl⟩
  refine Spec.bind (P:=fun _ t' => t.guardWritable name = .ok () ∧ t' = t)
    (spec_require (fun _ h => ⟨h,rfl⟩) fun e => hkept e t rfl) ?_
  rintro _ t ⟨hguard,rfl⟩
  refine Spec.bind (P:=fun record t' => t.read p name = .ok record ∧ t' = t)
    (spec_require (fun _ h => ⟨h,rfl⟩) fun e => hkept e t rfl) ?_
  rintro record t ⟨hread,rfl⟩
  by_cases hbuiltin : record.builtin = true
  · rw [if_pos hbuiltin]
    exact spec_raise (beside_of_eq rfl)
  rw [if_neg hbuiltin]
  obtain ⟨file,hfile,rfl⟩ := file_of_read hread hbuiltin
  by_cases hshadow : t.shadows p newName = true
  · rw [if_pos hshadow]
    exact spec_refuseLogged hkept
  rw [if_neg hshadow]
  refine Spec.bind (P:=fun _ t' => t.customPath p newName = .ok () ∧ t' = t)
    (spec_require (fun _ h => ⟨h,rfl⟩) fun e => hkept e t rfl) ?_
  rintro _ t ⟨hpath',rfl⟩
  by_cases hpresent : (t.custom (p.fold newName)).isSome = true
  · rw [if_pos hpresent]
    exact spec_refuseLogged hkept
  rw [if_neg hpresent]
  by_cases hexpected : (expected.isSome && expected ≠ some (p.sha file.raw)) = true
  · rw [if_pos hexpected]
    exact spec_refuseLogged hkept
  rw [if_neg hexpected]
  have hadmitted : (Request.rename name newName expected).Admitted p t :=
    ⟨hvalid,hpath,hguard,by simpa using hshadow,hpath',by simpa using hpresent,file,hfile,hread,
      matches_of_check hexpected⟩
  refine Spec.bind (P:=fun _ u => u.custom = t.custom) (spec_audit (fun _ h => h) hkept) fun _ u hu => ?_
  refine Spec.bind (P:=fun _ v => v.custom = Function.update (Function.update t.custom (p.fold newName)
    (t.custom (p.fold name))) (p.fold name) none)
    (spec_tryExcept (P:=fun _ v => v.custom = t.custom) (spec_call ?_ fun _ => hu) fun e v hv => ?_) fun _ v hv => ?_
  · show Function.update (Function.update u.custom _ _) _ _ = _
    rw [hu]
  · exact Spec.bind (P:=fun _ w => w.custom = v.custom)
      (spec_audit (fun _ h => h) fun e w hw => hkept e w (hw.trans hv)) fun _ w hw =>
        spec_raise (beside_of_eq (hw.trans hv))
  · refine Spec.bind (P:=fun _ w => w.custom = v.custom) (spec_assign ?_) fun _ w hw => spec_pure ?_
    · split
      · rfl
      · rfl
    · refine .inr ⟨hadmitted,fun n _ => ?_⟩
      rw [ConfigStore.contents,hw,hv,contents_update]
      show Function.update (fun n => (Function.update t.custom _ _ n).map ConfigFile.raw) _ _ n = _
      simp only [contents_update]
      rfl

theorem spec_deleteFile {name : String} {expected : Option String} :
    Spec (deleteFile p caller name expected) (Request.Done p pid s (.delete name expected))
      (fun _ t => Beside (p.fold (stagingName p pid name)) s t) s := by
  have hkept : ∀ (e : Raised) (t : ConfigStore), t.custom = s.custom →
      Beside (p.fold (stagingName p pid name)) s t := fun _ _ ht => beside_of_eq ht
  unfold deleteFile
  refine Spec.bind (P:=fun a t => a = s ∧ t = s) (spec_look ⟨rfl,rfl⟩) ?_
  rintro _ t ⟨rfl,rfl⟩
  refine Spec.bind (P:=fun _ t' => t.customPath p name = .ok () ∧ t' = t)
    (spec_require (fun _ h => ⟨h,rfl⟩) fun e => hkept e t rfl) ?_
  rintro _ t ⟨hpath,rfl⟩
  refine Spec.bind (P:=fun record t' => t.read p name = .ok record ∧ t' = t)
    (spec_require (fun _ h => ⟨h,rfl⟩) fun e => hkept e t rfl) ?_
  rintro record t ⟨hread,rfl⟩
  by_cases hbuiltin : record.builtin = true
  · rw [if_pos hbuiltin]
    exact spec_raise (beside_of_eq rfl)
  rw [if_neg hbuiltin]
  obtain ⟨file,hfile,rfl⟩ := file_of_read hread hbuiltin
  refine Spec.bind (P:=fun _ t' => t.guardWritable name = .ok () ∧ t' = t)
    (spec_require (fun _ h => ⟨h,rfl⟩) fun e => hkept e t rfl) ?_
  rintro _ t ⟨hguard,rfl⟩
  by_cases hexpected : (expected.isSome && expected ≠ some (p.sha file.raw)) = true
  · rw [if_pos hexpected]
    exact spec_refuseLogged hkept
  rw [if_neg hexpected]
  have hadmitted : (Request.delete name expected).Admitted p t :=
    ⟨hpath,hguard,file,hfile,hread,matches_of_check hexpected⟩
  refine Spec.bind (P:=fun _ u => u.custom = t.custom) (spec_audit (fun _ h => h) hkept) fun _ u hu => ?_
  refine Spec.bind (P:=fun _ v => v.custom = Function.update t.custom (p.fold name) none)
    (spec_tryExcept (P:=fun _ v => v.custom = t.custom) (spec_call ?_ fun _ => hu) fun e v hv => ?_) fun _ v hv => ?_
  · show Function.update u.custom _ _ = _
    rw [hu]
  · exact spec_raise (beside_of_eq hv)
  · refine spec_pure (.inr ⟨hadmitted,fun n _ => ?_⟩)
    rw [ConfigStore.contents,hv,contents_update]
    rfl

/-- A request that returns makes its change or says that there is none, and one that raises makes none. -/
theorem Request.run_spec (request : Request) :
    Spec (request.run p pid caller) (request.Done p pid s)
      (fun _ t => Beside (p.fold (stagingName p pid request.name)) s t) s := by
  cases request with
  | create name content =>
    refine Spec.bind (P:=fun _ t => validateName name = .ok () ∧ t = s)
      (spec_require (fun _ h => ⟨h,rfl⟩) fun e => beside_of_eq rfl) ?_
    rintro _ t ⟨hvalid,rfl⟩
    refine spec_commitFile rfl (fun hpath hfile _ hshadow hcontent => ?_) (fun _ _ _ _ _ _ hcreate => ?_) rfl
    · exact ⟨hvalid,hpath,hfile,hshadow,hcontent⟩
    · cases hcreate
  | edit name content expected =>
    refine spec_commitFile rfl (fun _ _ hcreate => ?_) (fun file raw hpath hguard hfile hlink _ hmatches hraw hne => ?_)
      rfl
    · cases hcreate
    · exact ⟨hpath,hguard,file,raw,hfile,hlink,hmatches,hraw,hne⟩
  | rename name newName expected => exact spec_renameFile
  | delete name expected => exact spec_deleteFile

theorem smooth_require {m : Except McpError α} {a : α} (h : m = .ok a) : Smooth (require m) a s s := by
  refine smooth_check ?_
  rw [h]
  rfl

theorem smooth_audit (line : AuditLine) : Smooth (audit line) () s (s.log line) :=
  Smooth.tryExcept (smooth_call _ _ _)

theorem smooth_stage (tmp : String) (raw : List UInt8) :
    Smooth (stage p tmp raw) () s (s.store p tmp (some ⟨raw,1⟩)) := rfl

theorem smooth_replaceFile (source target : String) : Smooth (replaceFile p source target) () s
    ((s.store p target (s.custom (p.fold source))).store p source none) := rfl

theorem smooth_unlink (name : String) : Smooth (unlink p name) () s (s.store p name none) := rfl

theorem smooth_commitStaged {operation : Operation} {name : String} {before : Option String} {raw : List UInt8}
    (h : before ≠ some (p.sha raw)) :
    ∃ t, Smooth (commitStaged p pid caller operation name before raw) ⟨name,some (p.sha raw),true⟩ s t := by
  unfold commitStaged
  rw [if_neg h]
  exact ⟨_,Smooth.bind (Smooth.tryExcept (Smooth.bind (smooth_stage _ _) (Smooth.bind (smooth_audit _)
    (smooth_replaceFile _ _)))) (smooth_pure _)⟩

theorem not_check_of_matches {expected : Option String} {file : ConfigFile}
    (h : Request.Matches p expected file) : ¬(expected.isSome && expected ≠ some (p.sha file.raw)) = true := by
  cases expected with
  | none => simp
  | some e => simp [h e rfl]

theorem Request.smooth_of_admitted {request : Request} (h : request.Admitted p s) :
    ∃ reply, reply.changed = true ∧ ∃ t, Smooth (request.run p pid caller) reply s t := by
  cases request with
  | create name content =>
    obtain ⟨hvalid,hpath,hfile,hshadow,hcontent⟩ := h
    obtain ⟨raw,rfl⟩ := Option.isSome_iff_exists.mp hcontent
    refine ⟨⟨name,some (p.sha raw),true⟩,rfl,?_⟩
    refine Smooth.bind_exists (smooth_require hvalid) (Smooth.bind_exists smooth_look ?_)
    refine Smooth.bind_exists (smooth_require hpath) ?_
    rw [hfile]
    dsimp only
    rw [if_neg (by simp),if_neg (by simp [hshadow])]
    exact Smooth.bind_exists (smooth_check rfl) (smooth_commitStaged (by simp))
  | edit name content expected =>
    obtain ⟨hpath,hguard,file,raw,hfile,hlink,hmatches,rfl,hne⟩ := h
    refine ⟨⟨name,some (p.sha raw),true⟩,rfl,?_⟩
    refine Smooth.bind_exists smooth_look (Smooth.bind_exists (smooth_require hpath) ?_)
    rw [hfile]
    refine Smooth.bind_exists (smooth_require hlink) (Smooth.bind_exists (smooth_require hguard) ?_)
    rw [if_neg (by simp),if_neg (not_check_of_matches hmatches)]
    exact Smooth.bind_exists (smooth_check rfl) (smooth_commitStaged (by simpa using hne))
  | rename name newName expected =>
    obtain ⟨hvalid,hpath,hguard,hshadow,hpath',habsent,file,hfile,hread,hmatches⟩ := h
    refine ⟨⟨newName,some (p.sha file.raw),true⟩,rfl,?_⟩
    refine Smooth.bind_exists (smooth_require hvalid) (Smooth.bind_exists smooth_look ?_)
    refine Smooth.bind_exists (smooth_require hpath) (Smooth.bind_exists (smooth_require hguard) ?_)
    refine Smooth.bind_exists (smooth_require hread) ?_
    rw [if_neg (by simp),if_neg (by simp [hshadow])]
    refine Smooth.bind_exists (smooth_require hpath') ?_
    rw [if_neg (by simp [habsent]),if_neg (not_check_of_matches hmatches)]
    refine Smooth.bind_exists (smooth_audit _) ?_
    refine Smooth.bind_exists (Smooth.tryExcept (smooth_replaceFile _ _)) ?_
    exact Smooth.bind_exists (smooth_assign _) ⟨_,smooth_pure _⟩
  | delete name expected =>
    obtain ⟨hpath,hguard,file,hfile,hread,hmatches⟩ := h
    refine ⟨⟨name,none,true⟩,rfl,?_⟩
    refine Smooth.bind_exists smooth_look (Smooth.bind_exists (smooth_require hpath) ?_)
    refine Smooth.bind_exists (smooth_require hread) ?_
    rw [if_neg (by simp)]
    refine Smooth.bind_exists (smooth_require hguard) ?_
    rw [if_neg (not_check_of_matches hmatches)]
    refine Smooth.bind_exists (smooth_audit _) ?_
    exact Smooth.bind_exists (Smooth.tryExcept (smooth_unlink _)) ⟨_,smooth_pure _⟩

/-- The call of the store in which the system refuses nothing. -/
def Request.call (caller : Caller) : Request → ConfigCall
  | create name content => .create caller name content .none
  | edit name content expected => .edit caller name content expected .none
  | rename name newName expected => .rename caller name newName expected false
  | delete name expected => .delete caller name expected false

def SameResult : Except Raised ConfigReply → Except McpError ConfigReply → Prop
  | .ok reply,.ok reply' => reply = reply'
  | .error (.mcp e),.error e' => e = e'
  | .error .unicodeEncode,.error e => e = ⟨"","UnicodeEncodeError"⟩
  | _,_ => False

/-- A program ends as an operation of the store does, staging file aside. -/
def Agrees (tmp : String) (m : Program ConfigReply) (s : ConfigStore)
    (r : Except McpError ConfigReply × ConfigStore) : Prop :=
  ∃ result t, m (s,[]) = (result,t,[]) ∧ SameResult result r.1 ∧ t.audit = r.2.audit ∧
    t.activeName = r.2.activeName ∧ Beside tmp r.2 t

variable {tmp : String}

theorem agrees_require {m : Except McpError α} {k : α → Program ConfigReply}
    {k' : α → Except McpError ConfigReply × ConfigStore} (h : ∀ a, m = .ok a → Agrees tmp (k a) s (k' a)) :
    Agrees tmp (require m >>= k) s (ConfigStore.guarded m s k') := by
  cases m with
  | error e => exact ⟨.error (.mcp e),s,rfl,rfl,rfl,rfl,beside_of_eq rfl⟩
  | ok a => exact h a rfl

theorem agrees_encode {content : Option (List UInt8)} {k : List UInt8 → Program ConfigReply}
    {k' : List UInt8 → Except McpError ConfigReply × ConfigStore} (h : ∀ raw, Agrees tmp (k raw) s (k' raw)) :
    Agrees tmp (encodeContent content >>= k) s
      (ConfigStore.guarded (content.elim (.error ⟨"","UnicodeEncodeError"⟩) .ok) s k') := by
  cases content with
  | none => exact ⟨.error .unicodeEncode,s,rfl,rfl,rfl,rfl,beside_of_eq rfl⟩
  | some raw => exact h raw

theorem agrees_raise (e : McpError) : Agrees tmp (raise (.mcp e)) s (.error e,s) :=
  ⟨.error (.mcp e),s,rfl,rfl,rfl,rfl,beside_of_eq rfl⟩

theorem agrees_refuse (name : String) (operation : Operation) (before : Option String) (e : McpError) :
    Agrees tmp (refuseLogged caller name operation before e) s (s.refuse caller name operation before e) :=
  ⟨.error (.mcp e),s.log ⟨caller,name,operation,before,none,.refused e.code⟩,rfl,rfl,rfl,rfl,beside_of_eq rfl⟩

theorem agrees_commit (operation : Operation) (name : String) (before : Option String) (raw : List UInt8) :
    Agrees (p.fold (stagingName p pid name)) (commitStaged p pid caller operation name before raw) s
      (s.commitRaw p caller operation name before raw .none) := by
  unfold commitStaged ConfigStore.commitRaw
  by_cases hsame : before = some (p.sha raw)
  · rw [if_pos hsame,if_pos hsame]
    exact ⟨_,_,rfl,rfl,rfl,rfl,beside_of_eq rfl⟩
  · rw [if_neg hsame,if_neg hsame]
    refine ⟨.ok ⟨name,some (p.sha raw),true⟩,_,rfl,rfl,rfl,rfl,fun n hn => ?_⟩
    show Function.update (Function.update (Function.update s.custom _ _) (p.fold name) _) _ _ n =
      Function.update s.custom (p.fold name) _ n
    rw [Function.update_of_ne hn]
    by_cases hname : n = p.fold name
    · rw [hname,Function.update_self,Function.update_self]
      exact Function.update_self _ _ _
    · rw [Function.update_of_ne hname,Function.update_of_ne hname,Function.update_of_ne hn]

theorem agrees_commitFile {operation : Operation} {name : String} {content : Option (List UInt8)}
    {expected : Option String} {allowCreate : Bool} :
    Agrees (p.fold (stagingName p pid name))
      (commitFile p pid caller operation name content expected allowCreate) s
      (s.commit p caller operation name content expected allowCreate .none) := by
  unfold commitFile ConfigStore.commit
  refine agrees_require fun _ _ => ?_
  cases s.custom (p.fold name) with
  | none =>
    dsimp only
    split
    · split
      · exact agrees_refuse _ _ _ _
      · exact agrees_refuse _ _ _ _
    · split
      · exact agrees_refuse _ _ _ _
      · exact agrees_encode fun raw => agrees_commit _ _ _ _
  | some file =>
    refine agrees_require fun _ _ => agrees_require fun _ _ => ?_
    dsimp only
    split
    · exact agrees_refuse _ _ _ _
    · split
      · exact agrees_refuse _ _ _ _
      · exact agrees_encode fun raw => agrees_commit _ _ _ _

theorem Request.run_agrees (request : Request) :
    Agrees (p.fold (stagingName p pid request.name)) (request.run p pid caller) s
      ((request.call caller).run p s) := by
  cases request with
  | create name content => exact agrees_require fun _ _ => agrees_commitFile
  | edit name content expected => exact agrees_commitFile
  | rename name newName expected =>
    refine agrees_require fun _ _ => agrees_require fun _ _ => agrees_require fun _ hguard =>
      agrees_require fun record _ => ?_
    dsimp only
    split
    · exact agrees_raise _
    · split
      · exact agrees_refuse _ _ _ _
      · refine agrees_require fun _ _ => ?_
        split
        · exact agrees_refuse _ _ _ _
        · split
          · exact agrees_refuse _ _ _ _
          · -- the guard has ruled out that the name is active
            have hactive : s.activeName ≠ some name := by
              intro h
              rw [ConfigStore.guardWritable,if_pos h] at hguard
              cases hguard
            refine ⟨.ok ⟨newName,some record.sha,true⟩,_,rfl,rfl,?_⟩
            rw [if_neg (by simp),if_neg hactive]
            show ConfigStore.audit (if s.activeName = some name then _ else _) = _ ∧
              ConfigStore.activeName (if s.activeName = some name then _ else _) = _ ∧
              Beside _ _ (if s.activeName = some name then _ else _)
            rw [if_neg hactive]
            exact ⟨rfl,rfl,beside_of_eq rfl⟩
  | delete name expected =>
    refine agrees_require fun _ _ => agrees_require fun record _ => ?_
    dsimp only
    split
    · exact agrees_raise _
    · refine agrees_require fun _ _ => ?_
      split
      · exact agrees_refuse _ _ _ _
      · exact ⟨.ok ⟨name,none,true⟩,_,rfl,rfl,rfl,rfl,beside_of_eq rfl⟩

/-- The pattern `*.ini` of the listing. -/
def listed (name : String) : Bool := ".ini".toList.isSuffixOf name.toList

def visible (s : ConfigStore) : Contents := fun name => if listed name then s.contents name else none

/-- A platform whose file system tells all names apart. -/
def caseSensitive (sha : List UInt8 → String) : Platform := ⟨fun name => name,sha⟩

def endsInBreak (name : String) : Bool := name.toList.getLast? = some '\n'

theorem listed_iff (name : String) : listed name = true ↔ ∃ front, name.toList = front++".ini".toList := by
  rw [listed,List.isSuffixOf_iff_suffix]
  exact ⟨fun ⟨front,h⟩ => ⟨front,h.symm⟩,fun ⟨front,h⟩ => ⟨front,h.symm⟩⟩

theorem not_listed_of_last {name : String} {c : Char} (hlast : name.toList.getLast? = some c) (hc : c ≠ 'i') :
    listed name = false := by
  refine Bool.eq_false_iff.mpr fun hlisted => hc ?_
  obtain ⟨front,hfront⟩ := (listed_iff name).mp hlisted
  rw [hfront,show ".ini".toList = ['.','i','n']++['i'] from rfl,← List.append_assoc,List.getLast?_concat] at hlast
  exact (Option.some.inj hlast).symm

theorem staging_not_listed (name : String) : listed (stagingName p pid name) = false := by
  refine not_listed_of_last (c:= 'p') ?_ (by decide)
  have htext : (stagingName p pid name).toList =
      (".".toList++(p.fold name).toList++".".toList++(toString pid).toList++['.','t','m'])++['p'] := by
    simp [stagingName]
  rw [htext,List.getLast?_concat]

/-- What the pattern takes: the text before the final line break, and the break if there is one. -/
theorem text_of_matchesPattern {name : String} (h : matchesPattern name = true) :
    ∃ stem, stem.all allowed = true ∧ name.toList = stem++".ini".toList++(if endsInBreak name then ['\n'] else []) := by
  have hbody : ∀ body : List Char, (let stem := body.take (body.length-4)
      stem ≠ [] && stem.all allowed && body.drop (body.length-4) = ".ini".toList) = true →
      ∃ stem, stem.all allowed = true ∧ body = stem++".ini".toList := by
    intro body hbody
    simp only [Bool.and_eq_true,decide_eq_true_eq] at hbody
    refine ⟨_,hbody.1.2,?_⟩
    rw [← hbody.2,List.take_append_drop]
  unfold matchesPattern at h
  by_cases hbreak : name.toList.getLast? = some '\n'
  · simp only [hbreak,if_true] at h
    obtain ⟨stem,hstem,htext⟩ := hbody _ h
    refine ⟨stem,hstem,?_⟩
    have hends : endsInBreak name = true := decide_eq_true hbreak
    rw [if_pos hends,← htext]
    exact (List.dropLast_append_getLast? _ hbreak).symm
  · simp only [if_neg hbreak] at h
    obtain ⟨stem,hstem,htext⟩ := hbody _ h
    refine ⟨stem,hstem,?_⟩
    rw [if_neg (by simpa [endsInBreak] using hbreak),List.append_nil,htext]

theorem matchesPattern_of_valid {name : String} (h : validateName name = .ok ()) : matchesPattern name = true := by
  unfold validateName at h
  split at h
  · cases h
  · rename_i hpattern
    simpa using hpattern

theorem valid_of_customPath {name : String} (h : s.customPath p name = .ok ()) : validateName name = .ok () := by
  obtain ⟨_,hvalid,-⟩ := ok_of_bind h
  exact hvalid

theorem listed_of_valid {name : String} (h : validateName name = .ok ()) (hbreak : endsInBreak name = false) :
    listed name = true := by
  obtain ⟨stem,-,htext⟩ := text_of_matchesPattern (matchesPattern_of_valid h)
  rw [hbreak] at htext
  exact (listed_iff name).mpr ⟨stem,by simpa using htext⟩

theorem not_listed_of_break {name : String} (hbreak : endsInBreak name = true) : listed name = false :=
  not_listed_of_last (of_decide_eq_true hbreak) (by decide)

theorem dots_of_not_shadows {name : String} (hvalid : validateName name = .ok ())
    (hshadow : s.shadows p name = false) (hbuiltin : s.builtin (p.fold name) = true) :
    hasDots name.toList = true := by
  obtain ⟨stem,hstem,htext⟩ := text_of_matchesPattern (matchesPattern_of_valid hvalid)
  have hslash : '/' ∉ name.toList := by
    rw [htext]
    intro hmem
    obtain hmem | hmem := List.mem_append.mp hmem
    · obtain hmem | hmem := List.mem_append.mp hmem
      · exact absurd (List.all_eq_true.mp hstem _ hmem) (by decide)
      · exact absurd hmem (by decide)
    · split at hmem
      · exact absurd hmem (by decide)
      · cases hmem
  have hcandidate : isBuiltinCandidate name = false := by simpa [ConfigStore.shadows,hbuiltin] using hshadow
  simpa [isBuiltinCandidate,hslash] using hcandidate

namespace Request

/-- The names that a request writes. -/
def written : Request → Option String
  | create name _ => some name
  | edit name _ _ => some name
  | rename _ newName _ => some newName
  | delete _ _ => none

/-- The names that a request adds. -/
def added : Request → Option String
  | create name _ => some name
  | rename _ newName _ => some newName
  | _ => none

/-- The request writes a name with a final line break, or adds one with two dots that a builtin has. -/
def Misnamed (s : ConfigStore) (request : Request) : Prop :=
  (∃ name ∈ request.written, endsInBreak name = true) ∨
    ∃ name ∈ request.added, hasDots name.toList = true ∧ s.builtin name = true

end Request

/-- What an operation that started in `s` leaves behind. -/
structure Atomic (sha : List UInt8 → String) (request : Request) (s : ConfigStore)
    (result : Except Raised ConfigReply) (t : ConfigStore) : Prop where
  either : visible t = visible s ∨
    visible t = request.change (caseSensitive sha) (s.contents request.name) (visible s)
  applied : ∀ reply, result = .ok reply → reply.changed = true →
    visible t = request.change (caseSensitive sha) (s.contents request.name) (visible s)
  kept : ∀ e, result = .error e → visible t = visible s
  checked : ∀ reply, result = .ok reply → reply.changed = true → ∀ expected ∈ request.expected,
    ∃ raw, s.contents request.name = some raw ∧ expected = sha raw
  unshadowed : ∀ name, visible s name = none → visible t name ≠ none → s.builtin name = false

variable {sha : List UInt8 → String} {request : Request}

theorem change_visible (f : Contents) (bytes : Option (List UInt8))
    (hwritten : ∀ name ∈ request.written, listed name = true) :
    request.change (caseSensitive sha) bytes (fun name => if listed name then f name else none) =
      fun name => if listed name then request.change (caseSensitive sha) bytes f name else none := by
  have hupdate : ∀ (g : Contents) (name : String) (file : Option (List UInt8)),
      (listed name = true ∨ file = none) →
      Function.update (fun name => if listed name then g name else none) name file =
        fun n => if listed n then Function.update g name file n else none := by
    intro g name file hname
    funext n
    by_cases hn : n = name
    · subst hn
      rw [Function.update_self,Function.update_self]
      obtain hlisted | rfl := hname
      · rw [if_pos hlisted]
      · rw [ite_self]
    · rw [Function.update_of_ne hn,Function.update_of_ne hn]
  cases request with
  | create name content => exact hupdate f name content (.inl (hwritten name rfl))
  | edit name content expected => exact hupdate f name content (.inl (hwritten name rfl))
  | rename name newName expected =>
    show Function.update (Function.update (fun name => if listed name then f name else none : Contents) newName
      bytes) name none = _
    rw [hupdate f newName bytes (.inl (hwritten newName rfl)),hupdate _ name none (.inr rfl)]
    rfl
  | delete name expected => exact hupdate f name none (.inr rfl)

theorem visible_of_beside {name : String} (h : Beside (stagingName (caseSensitive sha) pid name) s t) :
    visible t = visible s := by
  funext n
  by_cases hn : listed n = true
  · have hne : n ≠ stagingName (caseSensitive sha) pid name := by
      rintro rfl
      rw [staging_not_listed] at hn
      cases hn
    rw [visible,visible,if_pos hn,if_pos hn,ConfigStore.contents,h n hne]
    rfl
  · rw [visible,visible,if_neg hn,if_neg hn]

theorem visible_of_change {name : String}
    (h : ∀ n, n ≠ stagingName (caseSensitive sha) pid name →
      t.contents n = request.change (caseSensitive sha) (s.contents request.name) s.contents n)
    (hwritten : ∀ name ∈ request.written, listed name = true) :
    visible t = request.change (caseSensitive sha) (s.contents request.name) (visible s) := by
  refine Eq.trans ?_ (change_visible s.contents _ hwritten).symm
  funext n
  by_cases hn : listed n = true
  · have hne : n ≠ stagingName (caseSensitive sha) pid name := by
      rintro rfl
      rw [staging_not_listed] at hn
      cases hn
    rw [visible,if_pos hn,if_pos hn,h n hne]
  · rw [visible,if_neg hn,if_neg hn]

/-- A request that is admitted and well named writes names that are listed. -/
theorem listed_of_admitted (h : request.Admitted (caseSensitive sha) s) (hnamed : ¬request.Misnamed s) :
    ∀ name ∈ request.written, listed name = true := by
  intro name hname
  have hbreak : endsInBreak name = false :=
    Bool.eq_false_iff.mpr fun hbreak => hnamed (.inl ⟨name,hname,hbreak⟩)
  cases request with
  | create name' content =>
    obtain rfl := Option.some.inj hname
    exact listed_of_valid h.1 hbreak
  | edit name' content expected =>
    obtain rfl := Option.some.inj hname
    exact listed_of_valid (valid_of_customPath h.1) hbreak
  | rename name' newName expected =>
    obtain rfl := Option.some.inj hname
    exact listed_of_valid h.1 hbreak
  | delete name' expected => cases hname

/-- A configuration that was not there before has a name that the request adds. -/
theorem added_of_change (f : Contents) (bytes : Option (List UInt8)) {name : String}
    (hedit : ∀ content expected, request = .edit name content expected → f name ≠ none) (hbefore : f name = none)
    (hafter : request.change (caseSensitive sha) bytes f name ≠ none) : name ∈ request.added := by
  have hupdate : ∀ (g : Contents) (name' : String) (file : Option (List UInt8)), g name = none →
      Function.update g name' file name ≠ none → name = name' ∧ file ≠ none := by
    intro g name' file hg hne
    by_cases heq : name = name'
    · subst heq
      rw [Function.update_self] at hne
      exact ⟨rfl,hne⟩
    · rw [Function.update_of_ne heq] at hne
      exact absurd hg hne
  cases request with
  | create name' content =>
    obtain ⟨rfl,-⟩ := hupdate f name' content hbefore hafter
    rfl
  | edit name' content expected =>
    obtain ⟨rfl,-⟩ := hupdate f name' content hbefore hafter
    exact absurd hbefore (hedit content expected rfl)
  | rename name' newName expected =>
    by_cases heq : name = newName
    · subst heq
      rfl
    · have hkept : Function.update f newName bytes name = none := by rwa [Function.update_of_ne heq]
      obtain ⟨-,hne⟩ := hupdate _ name' none hkept hafter
      exact absurd rfl hne
  | delete name' expected =>
    obtain ⟨-,hne⟩ := hupdate f name' none hbefore hafter
    exact absurd rfl hne

theorem checked_of_admitted (h : request.Admitted (caseSensitive sha) s) :
    ∀ expected ∈ request.expected, ∃ raw, s.contents request.name = some raw ∧ expected = sha raw := by
  have hfound : ∀ {name : String} {file : ConfigFile}, s.custom name = some file → s.contents name = some file.raw := by
    intro name file hfile
    rw [ConfigStore.contents,hfile]
    rfl
  intro expected hexpected
  cases request with
  | create name content => cases hexpected
  | edit name content e =>
    obtain ⟨-,-,file,raw,hfile,-,hmatches,-,-⟩ := h
    exact ⟨file.raw,hfound hfile,hmatches expected hexpected⟩
  | rename name newName e =>
    obtain ⟨-,-,-,-,-,-,file,hfile,-,hmatches⟩ := h
    exact ⟨file.raw,hfound hfile,hmatches expected hexpected⟩
  | delete name e =>
    obtain ⟨-,-,file,hfile,-,hmatches⟩ := h
    exact ⟨file.raw,hfound hfile,hmatches expected hexpected⟩

theorem not_builtin_of_added (h : request.Admitted (caseSensitive sha) s) (hnamed : ¬request.Misnamed s)
    {name : String} (hname : name ∈ request.added) : s.builtin name = false := by
  refine Bool.eq_false_iff.mpr fun hbuiltin => hnamed (.inr ⟨name,hname,?_,hbuiltin⟩)
  cases request with
  | create name' content =>
    obtain rfl := Option.some.inj hname
    exact dots_of_not_shadows h.1 h.2.2.2.1 hbuiltin
  | edit name' content expected => cases hname
  | rename name' newName expected =>
    obtain rfl := Option.some.inj hname
    exact dots_of_not_shadows h.1 h.2.2.2.1 hbuiltin
  | delete name' expected => cases hname

theorem atomic_of_named (hnamed : ¬(request.Admitted (caseSensitive sha) s ∧ request.Misnamed s))
    (later : List (Outcome (Option (List UInt8)))) :
    Atomic sha request s (request.run (caseSensitive sha) pid caller (s,later)).1
      (request.run (caseSensitive sha) pid caller (s,later)).2.1 := by
  have hspec : Spec (request.run (caseSensitive sha) pid caller) (request.Done (caseSensitive sha) pid s)
      (fun _ t => Beside (stagingName (caseSensitive sha) pid request.name) s t) s := request.run_spec
  generalize hrun : request.run (caseSensitive sha) pid caller (s,later) = r
  obtain ⟨result,t,rest⟩ := r
  cases result with
  | error e =>
    have hbeside := hspec.of_error (show (request.run _ pid caller (s,later)).1 = .error e by rw [hrun])
    rw [hrun] at hbeside
    have hkept := visible_of_beside hbeside
    refine ⟨.inl hkept,?_,fun _ _ => hkept,?_,fun n hbefore hafter => ?_⟩
    · rintro reply ⟨⟩
    · rintro reply ⟨⟩
    · rw [hkept] at hafter
      exact absurd hbefore hafter
  | ok reply =>
    have hdone := hspec.of_ok (show (request.run _ pid caller (s,later)).1 = .ok reply by rw [hrun])
    rw [hrun] at hdone
    obtain ⟨hunchanged,hcustom⟩ | ⟨hadmitted,hchange⟩ := hdone
    · have hbeside : Beside (stagingName (caseSensitive sha) pid request.name) s t := beside_of_eq hcustom
      have hkept := visible_of_beside hbeside
      refine ⟨.inl hkept,?_,?_,?_,fun n hbefore hafter => ?_⟩
      · rintro _ ⟨⟩ hchanged
        rw [hunchanged] at hchanged
        cases hchanged
      · rintro e ⟨⟩
      · rintro _ ⟨⟩ hchanged
        rw [hunchanged] at hchanged
        cases hchanged
      · rw [hkept] at hafter
        exact absurd hbefore hafter
    · have hwell : ¬request.Misnamed s := fun h => hnamed ⟨hadmitted,h⟩
      have hlisted := listed_of_admitted hadmitted hwell
      have hintended := visible_of_change hchange hlisted
      refine ⟨.inr hintended,fun _ _ _ => hintended,?_,fun _ _ _ => checked_of_admitted hadmitted,
        fun n hbefore hafter => ?_⟩
      · rintro e ⟨⟩
      · rw [hintended] at hafter
        refine not_builtin_of_added hadmitted hwell (added_of_change (visible s) _ ?_ hbefore hafter)
        rintro content expected rfl
        obtain ⟨-,-,file,-,hfile,-⟩ := hadmitted
        rw [visible,if_pos (hlisted n rfl),ConfigStore.contents,show s.custom n = _ from hfile]
        simp

theorem change_written (hadmitted : request.Admitted (caseSensitive sha) s) {name : String}
    (hname : name ∈ request.written) :
    request.change (caseSensitive sha) (s.contents request.name) (visible s) name ≠ none := by
  cases request with
  | create name' content =>
    obtain rfl := Option.some.inj hname
    obtain ⟨raw,rfl⟩ := Option.isSome_iff_exists.mp hadmitted.2.2.2.2
    show Function.update (visible s) name' (some raw) name' ≠ none
    rw [Function.update_self]
    simp
  | edit name' content expected =>
    obtain rfl := Option.some.inj hname
    obtain ⟨-,-,file,raw,-,-,-,rfl,-⟩ := hadmitted
    show Function.update (visible s) name' (some raw) name' ≠ none
    rw [Function.update_self]
    simp
  | rename name' newName expected =>
    obtain rfl := Option.some.inj hname
    obtain ⟨-,-,-,-,-,habsent,file,hfile,-,-⟩ := hadmitted
    have hfound : s.contents name' = some file.raw := by
      rw [ConfigStore.contents,show s.custom name' = _ from hfile]
      rfl
    have hne : newName ≠ name' := by
      rintro rfl
      cases hfile.symm.trans habsent
    show Function.update (Function.update (visible s) newName (s.contents name')) name' none newName ≠ none
    rw [Function.update_of_ne hne,Function.update_self,hfound]
    simp
  | delete name' expected => cases hname

theorem added_absent (hadmitted : request.Admitted (caseSensitive sha) s) {name : String}
    (hname : name ∈ request.added) : name ∈ request.written ∧ visible s name = none := by
  have hnone : ∀ {n : String}, s.custom n = none → visible s n = none := by
    intro n hn
    rw [visible,ConfigStore.contents,hn]
    exact ite_self _
  cases request with
  | create name' content =>
    obtain rfl := Option.some.inj hname
    exact ⟨rfl,hnone hadmitted.2.2.1⟩
  | edit name' content expected => cases hname
  | rename name' newName expected =>
    obtain rfl := Option.some.inj hname
    exact ⟨rfl,hnone hadmitted.2.2.2.2.2.1⟩
  | delete name' expected => cases hname

/-- Operations are atomic whatever the system refuses, except where a request passes the checks with a
name that is written with a final line break, or added with two dots next to a builtin of that name. -/
theorem operations_atomic_iff (sha : List UInt8 → String) (pid : ℕ) (caller : Caller) (request : Request)
    (s : ConfigStore) :
    (∀ later, Atomic sha request s (request.run (caseSensitive sha) pid caller (s,later)).1
      (request.run (caseSensitive sha) pid caller (s,later)).2.1) ↔
      ¬(request.Admitted (caseSensitive sha) s ∧ request.Misnamed s) := by
  refine ⟨?_,fun h later => atomic_of_named h later⟩
  rintro hatomic ⟨hadmitted,hmisnamed⟩
  obtain ⟨reply,hchanged,t,ht⟩ : ∃ reply, reply.changed = true ∧
      ∃ t, Smooth (request.run (caseSensitive sha) pid caller) reply s t := request.smooth_of_admitted hadmitted
  have h := hatomic []
  rw [show request.run (caseSensitive sha) pid caller (s,[]) = _ from ht] at h
  have hintended := h.applied reply rfl hchanged
  obtain ⟨name,hname,hbreak⟩ | ⟨name,hname,-,hbuiltin⟩ := hmisnamed
  · have hwritten := change_written hadmitted hname
    rw [← hintended,visible,if_neg (by simp [not_listed_of_break hbreak])] at hwritten
    exact hwritten rfl
  · obtain ⟨hwritten,habsent⟩ := added_absent hadmitted hname
    have hpresent := change_written hadmitted hwritten
    rw [← hintended] at hpresent
    rw [h.unshadowed name habsent hpresent] at hbuiltin
    cases hbuiltin

/-- A name with a final line break is created and not listed. -/
theorem created_not_listed : ¬∀ later, Atomic (fun _ => "") (.create "a.ini\n" (some [91])) emptyStore
    ((Request.create "a.ini\n" (some [91])).run (caseSensitive fun _ => "") 1 sampleCaller (emptyStore,later)).1
    ((Request.create "a.ini\n" (some [91])).run (caseSensitive fun _ => "") 1 sampleCaller (emptyStore,later)).2.1 := by
  intro h
  have hlisted := (h []).applied ⟨"a.ini\n",some "",true⟩ (by decide +kernel) rfl
  have hname := congrFun hlisted "a.ini\n"
  have hunlisted : listed "a.ini\n" = false := by decide +kernel
  rw [visible,if_neg (by simp [hunlisted])] at hname
  cases hname

end Config
end FakeNetNG
