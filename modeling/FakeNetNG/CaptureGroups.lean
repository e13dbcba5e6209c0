import Mathlib.Data.List.Infix
import Mathlib.Tactic

/-!
# Publication of capture originals

The side originals of a capture are copied one by one next to their published PCAP, each checked once it has
its name, and what was made is unlinked when a later step fails. A copy goes on the list of what was made only
after its check, so the copy that fails its own check is not unlinked.
-/

namespace FakeNetNG
namespace CaptureGroups

inductive Role
  | raw | observations | nbis | seal | converted
  deriving DecidableEq

def Role.text : Role → String
  | .raw => "raw"
  | .observations => "observations"
  | .nbis => "nbis"
  | .seal => "seal"
  | .converted => "converted"

def sideOriginals : List Role := [.observations,.nbis,.seal]

/-- What a name of the destination directory stands for. Something other than a file cannot be read. -/
inductive DirEntry
  | file (content : List UInt8)
  | link (resolves : Bool)
  | other
  deriving DecidableEq

abbrev Directory := String → Option DirEntry

structure MemberFacts where
  bytes : ℕ
  sha256 : String

/-- What happens to one copy: an `OSError` before it has its name, or the bytes that the source had while it
was copied, and whether the copy can be read for its check. -/
inductive CopyOutcome
  | failed (reason : String)
  | copied (content : List UInt8) (readable : Bool)

/-- A raw capture, and what its group meets: the qualification (is there a converted PCAP, and the first
approval), the copies, and the comparison of the source with the approval afterwards. -/
structure Group where
  raw : String
  qualified : Except String (Bool × (Role → MemberFacts))
  copy : Role → CopyOutcome
  unchangedSinceApproval : Except String Unit

structure Rejection where
  capture : String
  stage : String
  reason : String

/-- A name that `*.pcap` matches, in whatever case. -/
def isPcap (name : String) : Bool :=
  decide (".pcap".toList <:+ name.toList.map Char.toLower)

/-- `str(raw.name)` without `.pcap`. -/
def stem (raw : String) : String :=
  if ".pcap".toList <:+ raw.toList then String.ofList (raw.toList.take (raw.toList.length-5)) else raw

def memberName (raw : String) : Role → String
  | .raw => raw
  | .observations => raw++".observations.ndjson"
  | .nbis => raw++".nbis.ndjson"
  | .seal => raw++".capture-originals.json"
  | .converted => stem raw++"-converted.pcap"

structure Publisher where
  namePrefix : String
  keep : Option (String → Bool)
  sha256 : List UInt8 → String

/-- The raw captures of the source directory. -/
structure Source where
  groups : List Group
  distinct : (groups.map Group.raw).Nodup
  pcap : ∀ group ∈ groups, isPcap group.raw = true

namespace Publisher

variable (publisher : Publisher)

def destination (group : Group) (role : Role) : String := publisher.namePrefix++memberName group.raw role

/-- `_matches_facts` of a file that is not a link. -/
def matchesFacts (entry : DirEntry) (facts : MemberFacts) : Bool :=
  match entry with
  | .file content => decide (content.length = facts.bytes) && decide (publisher.sha256 content = facts.sha256)
  | _ => false

def present (directory : Directory) (name : String) : Bool :=
  match directory name with
  | none => false
  | some (.link resolves) => resolves
  | some _ => true

def members (converted : Bool) : List Role :=
  [.raw,.observations,.nbis,.seal]++if converted then [.converted] else []

def excluded (group : Group) (converted : Bool) : List String :=
  match publisher.keep with
  | none => []
  | some keep => ((members converted).map (memberName group.raw)).filter fun name => !keep name

/-- The destinations of a group that are taken by something else. -/
def conflicts (directory : Directory) (group : Group) (converted : Bool) (facts : Role → MemberFacts) : List String :=
  (members converted).filterMap fun role =>
    let name := publisher.destination group role
    match directory name with
    | none => none
    | some (.link _) => some (name++" (symlink)")
    | some entry => if publisher.matchesFacts entry (facts role) then none else some name

/-- The loop over the side originals: the directory, what was made, and why it stopped early. -/
@[grind] def copySides (group : Group) (facts : Role → MemberFacts) :
    List Role → Directory → List String → Directory × List String × Option String
  | [], directory, created => (directory,created,none)
  | role::rest, directory, created =>
    let name := publisher.destination group role
    if present directory name then copySides group facts rest directory created
    else
      match group.copy role with
      | .failed reason => (directory,created,some reason)
      | .copied content readable =>
        let directory := Function.update directory name (some (.file content))
        if readable && publisher.matchesFacts (.file content) (facts role) then
          copySides group facts rest directory (created++[name])
        else (directory,created,some (role.text++" copy does not match the qualified source"))

def unlinkAll (created : List String) (directory : Directory) : Directory :=
  created.foldl (fun directory name => Function.update directory name none) directory

/-- The copies of a group, and the comparison that follows them. -/
def publishSides (directory : Directory) (group : Group) (facts : Role → MemberFacts) : Directory × Option String :=
  let (copied,created,failure) := publisher.copySides group facts sideOriginals directory []
  match failure, group.unchangedSinceApproval with
  | some reason, _ => (unlinkAll created copied,some reason)
  | none, .error reason => (unlinkAll created copied,some reason)
  | none, .ok () => (copied,none)

def publishGroup (directory : Directory) (group : Group) : Directory × Option Rejection :=
  match group.qualified with
  | .error reason => (directory,some ⟨group.raw,"qualify",reason⟩)
  | .ok (converted,facts) =>
    let excluded := publisher.excluded group converted
    if excluded ≠ [] then
      (directory,some ⟨group.raw,"keep","keep filter excluded group members: "++", ".intercalate excluded⟩)
    else
      let conflicts := publisher.conflicts directory group converted facts
      if conflicts ≠ [] then
        (directory,some ⟨group.raw,"destination",
          "existing destination differs from the qualified source: "++", ".intercalate conflicts⟩)
      else
        let (directory,failure) := publisher.publishSides directory group facts
        (directory,failure.map fun reason => ⟨group.raw,"copy",reason⟩)

structure Outcome where
  directory : Directory
  published : List String
  rejections : List Rejection

def sideDestinations (group : Group) : List String := sideOriginals.map (publisher.destination group)

/-- `_publish_capture_originals_groups`. -/
def publishGroups (directory : Directory) : List Group → Outcome
  | [] => ⟨directory,[],[]⟩
  | group::rest =>
    let (directory,rejection) := publisher.publishGroup directory group
    let outcome := publishGroups directory rest
    match rejection with
    | none => { outcome with published := publisher.sideDestinations group++outcome.published }
    | some rejection => { outcome with rejections := rejection::outcome.rejections }

/-- A copy got its name with other bytes than the approved ones, or cannot be read back. -/
@[grind] def spoilsCopy (directory : Directory) (group : Group) (facts : Role → MemberFacts) : List Role → Bool
  | [] => false
  | role::rest =>
    if present directory (publisher.destination group role) then spoilsCopy directory group facts rest
    else
      match group.copy role with
      | .failed _ => false
      | .copied content readable =>
        if readable && publisher.matchesFacts (.file content) (facts role) then spoilsCopy directory group facts rest
        else true

/-- The group comes to its copies, and one of them is spoilt. -/
def spoils (directory : Directory) (group : Group) : Bool :=
  match group.qualified with
  | .error _ => false
  | .ok (converted,facts) =>
    (publisher.excluded group converted).isEmpty && (publisher.conflicts directory group converted facts).isEmpty &&
      publisher.spoilsCopy directory group facts sideOriginals

def rejected (outcome : Outcome) (group : Group) : Bool :=
  outcome.rejections.any fun rejection => decide (rejection.capture = group.raw)

/-- A rejected group left nothing behind, nothing that was there changed, and the result lists the others. -/
structure TraceFree (before : Directory) (groups : List Group) (outcome : Outcome) : Prop where
  clean : ∀ group ∈ groups, rejected outcome group = true →
    ∀ name ∈ publisher.sideDestinations group, before name = none → outcome.directory name = none
  unchanged : ∀ name entry, before name = some entry → outcome.directory name = some entry
  listed : outcome.published = (groups.filter fun group => !rejected outcome group).flatMap publisher.sideDestinations

variable {publisher : Publisher} {directory : Directory} {group other : Group} {facts : Role → MemberFacts}

def sideSuffix : Role → String
  | .observations => ".observations.ndjson"
  | .nbis => ".nbis.ndjson"
  | _ => ".capture-originals.json"

theorem memberName_side (raw : String) {role : Role} (h : role ∈ sideOriginals) :
    (memberName raw role).toList = raw.toList++(sideSuffix role).toList := by
  simp only [sideOriginals,List.mem_cons,List.not_mem_nil,or_false] at h
  obtain rfl | rfl | rfl := h <;> simp [memberName,sideSuffix]

theorem sideSuffix_inj {role role' : Role} (h : role ∈ sideOriginals) (h' : role' ∈ sideOriginals)
    (hsuffix : (sideSuffix role).toList <:+ (sideSuffix role').toList) : role = role' := by
  have hall : ∀ a ∈ sideOriginals, ∀ b ∈ sideOriginals, (sideSuffix a).toList <:+ (sideSuffix b).toList → a = b := by
    decide
  exact hall role h role' h' hsuffix

/-- No side suffix ends with another, so the raw capture and the role can be read off a name. -/
theorem sideName_inj {raw raw' : String} {role role' : Role} (h : role ∈ sideOriginals) (h' : role' ∈ sideOriginals)
    (heq : memberName raw role = memberName raw' role') : raw = raw' ∧ role = role' := by
  have hlist : raw.toList++(sideSuffix role).toList = raw'.toList++(sideSuffix role').toList := by
    rw [← memberName_side raw h,← memberName_side raw' h',heq]
  have hrole : role = role' := by
    obtain hle | hle := List.suffix_or_suffix_of_suffix (List.suffix_append raw.toList (sideSuffix role).toList)
      (hlist ▸ List.suffix_append raw'.toList (sideSuffix role').toList)
    · exact sideSuffix_inj h h' hle
    · exact (sideSuffix_inj h' h hle).symm
  rw [hrole] at hlist
  exact ⟨String.ext (List.append_cancel_right hlist),hrole⟩

theorem isPcap_last {raw : String} (h : isPcap raw = true) :
    (raw.toList.getLast?.map Char.toLower) = some 'p' := by
  obtain ⟨front,hfront⟩ : ".pcap".toList <:+ raw.toList.map Char.toLower := of_decide_eq_true h
  have hlast : (raw.toList.map Char.toLower).getLast? = some 'p' := by
    have hpcap : ".pcap".toList.getLast? = some 'p' := by decide
    rw [← hfront,List.getLast?_append,hpcap]
    rfl
  rwa [List.getLast?_map] at hlast

theorem memberName_last {raw : String} (hpcap : isPcap raw = true) {role : Role} (h : role ∉ sideOriginals) :
    (memberName raw role).toList.getLast?.map Char.toLower = some 'p' := by
  cases role with
  | raw => exact isPcap_last hpcap
  | converted =>
    have hpcap : "-converted.pcap".toList.getLast? = some 'p' := by decide
    rw [memberName,String.toList_append,List.getLast?_append,hpcap]
    rfl
  | _ => exact absurd (by decide) h

theorem sideName_last (raw : String) {role : Role} (h : role ∈ sideOriginals) :
    (memberName raw role).toList.getLast?.map Char.toLower = some 'n' := by
  have hlast : ∀ role ∈ sideOriginals, (sideSuffix role).toList.getLast? = some 'n' := by decide
  rw [memberName_side raw h,List.getLast?_append,hlast role h]
  rfl

theorem destination_inj {role role' : Role} :
    publisher.destination group role = publisher.destination other role' ↔
      memberName group.raw role = memberName other.raw role' := by
  constructor
  · intro h
    have hlist := congrArg String.toList h
    rw [destination,destination,String.toList_append,String.toList_append] at hlist
    exact String.ext (List.append_cancel_left hlist)
  · intro h
    rw [destination,destination,h]

theorem destination_ne (hpcap : isPcap other.raw = true) (hraw : group.raw ≠ other.raw) {role role' : Role}
    (h : role ∈ sideOriginals) : publisher.destination other role' ≠ publisher.destination group role := by
  intro heq
  have hname := destination_inj.mp heq
  by_cases hside : role' ∈ sideOriginals
  · exact hraw (sideName_inj hside h hname).1.symm
  · have hlast := memberName_last hpcap hside
    rw [hname,sideName_last group.raw h] at hlast
    exact absurd hlast (by decide)

theorem destination_role {role role' : Role} (h : role ∈ sideOriginals) (h' : role' ∈ sideOriginals)
    (heq : publisher.destination group role = publisher.destination group role') : role = role' :=
  (sideName_inj h h' (destination_inj.mp heq)).2

theorem unlinkAll_apply (created : List String) (directory : Directory) (name : String) :
    unlinkAll created directory name = if name ∈ created then none else directory name := by
  induction created generalizing directory with
  | nil => rfl
  | cons first rest ih =>
    show unlinkAll rest (Function.update directory first none) name = _
    rw [ih]
    by_cases hrest : name ∈ rest
    · simp [hrest]
    · by_cases hfirst : name = first
      · simp [hfirst]
      · simp [hrest,hfirst]

/-- Without a link at the destination, what is not present is not there. -/
def NoLinks (publisher : Publisher) (directory : Directory) (group : Group) : Prop :=
  ∀ role ∈ sideOriginals, ∀ resolves, directory (publisher.destination group role) ≠ some (.link resolves)

theorem present_eq (h : NoLinks publisher directory group) {role : Role} (hrole : role ∈ sideOriginals) :
    present directory (publisher.destination group role) = (directory (publisher.destination group role)).isSome := by
  rw [present]
  cases hentry : directory (publisher.destination group role) with
  | none => rfl
  | some entry =>
    cases entry with
    | link resolves => exact absurd hentry (h role hrole resolves)
    | file content => rfl
    | other => rfl

theorem noLinks_update (h : NoLinks publisher directory group) (name : String) (content : List UInt8) :
    NoLinks publisher (Function.update directory name (some (.file content))) group := by
  intro role hrole resolves
  by_cases hname : publisher.destination group role = name
  · simp [hname]
  · rw [Function.update_of_ne hname]
    exact h role hrole resolves

theorem spoilsCopy_congr {directory' : Directory} {roles : List Role}
    (h : ∀ role ∈ roles, directory (publisher.destination group role) = directory' (publisher.destination group role)) :
    publisher.spoilsCopy directory group facts roles = publisher.spoilsCopy directory' group facts roles := by
  induction roles with
  | nil => rfl
  | cons role rest ih =>
    have hrest := ih fun later hlater => h later (List.mem_cons_of_mem _ hlater)
    rw [spoilsCopy,spoilsCopy,present,present,h role (by simp),hrest]

/-- A name that nothing stands for is taken by one copy, which leaves the names of the others. -/
theorem spoilsCopy_update {role : Role} {rest : List Role} (hsides : role::rest ⊆ sideOriginals)
    (hnodup : (role::rest).Nodup) (content : List UInt8) :
    publisher.spoilsCopy (Function.update directory (publisher.destination group role) (some (.file content))) group facts rest =
      publisher.spoilsCopy directory group facts rest := by
  refine spoilsCopy_congr fun later hlater => ?_
  refine Function.update_of_ne ?_ _ _
  intro heq
  have hrole := destination_role (hsides (List.mem_cons_of_mem _ hlater)) (hsides (by simp)) heq
  rw [List.nodup_cons] at hnodup
  exact hnodup.1 (hrole ▸ hlater)

theorem copySides_undone {roles : List Role} (created : List String) (hlinks : NoLinks publisher directory group)
    (hsides : roles ⊆ sideOriginals) (hnodup : roles.Nodup)
    (hspoils : publisher.spoilsCopy directory group facts roles = false) :
    unlinkAll (publisher.copySides group facts roles directory created).2.1
      (publisher.copySides group facts roles directory created).1 = unlinkAll created directory := by
  induction roles generalizing directory created with
  | nil => rfl
  | cons role rest ih =>
    have hrole : role ∈ sideOriginals := hsides (by simp)
    have hrest : rest ⊆ sideOriginals := fun later hlater => hsides (List.mem_cons_of_mem _ hlater)
    rw [spoilsCopy] at hspoils
    rw [copySides]
    by_cases hpresent : present directory (publisher.destination group role) = true
    · rw [if_pos hpresent] at hspoils ⊢
      exact ih created hlinks hrest hnodup.of_cons hspoils
    · rw [if_neg hpresent] at hspoils ⊢
      cases hcopy : group.copy role with
      | failed reason => rfl
      | copied content readable =>
        simp only [hcopy] at hspoils ⊢
        split at hspoils
        · next happroved =>
          rw [if_pos happroved]
          have hnone : directory (publisher.destination group role) = none := by
            rw [present_eq hlinks hrole] at hpresent
            simpa using hpresent
          rw [ih _ (noLinks_update hlinks _ content) hrest hnodup.of_cons
            ((spoilsCopy_update hsides hnodup content).trans hspoils)]
          funext name
          rw [unlinkAll_apply,unlinkAll_apply]
          by_cases hname : name = publisher.destination group role
          · simp [hname,hnone]
          · simp [hname]
        · cases hspoils

theorem copySides_left {roles : List Role} (created : List String) (hlinks : NoLinks publisher directory group)
    (hsides : roles ⊆ sideOriginals) (hnodup : roles.Nodup)
    (hcreated : ∀ role ∈ roles, publisher.destination group role ∉ created)
    (hspoils : publisher.spoilsCopy directory group facts roles = true) :
    ∃ reason, (publisher.copySides group facts roles directory created).2.2 = some reason ∧
      ∃ role ∈ roles, directory (publisher.destination group role) = none ∧
        unlinkAll (publisher.copySides group facts roles directory created).2.1
          (publisher.copySides group facts roles directory created).1 (publisher.destination group role) ≠ none := by
  induction roles generalizing directory created with
  | nil => cases hspoils
  | cons role rest ih =>
    have hrole : role ∈ sideOriginals := hsides (by simp)
    have hrest : rest ⊆ sideOriginals := fun later hlater => hsides (List.mem_cons_of_mem _ hlater)
    rw [spoilsCopy] at hspoils
    rw [copySides]
    by_cases hpresent : present directory (publisher.destination group role) = true
    · rw [if_pos hpresent] at hspoils ⊢
      obtain ⟨reason,hreason,later,hlater,hleft⟩ := ih created hlinks hrest hnodup.of_cons
        (fun later hlater => hcreated later (List.mem_cons_of_mem _ hlater)) hspoils
      exact ⟨reason,hreason,later,List.mem_cons_of_mem _ hlater,hleft⟩
    · rw [if_neg hpresent] at hspoils ⊢
      have hnone : directory (publisher.destination group role) = none := by
        rw [present_eq hlinks hrole] at hpresent
        simpa using hpresent
      cases hcopy : group.copy role with
      | failed reason => simp [hcopy] at hspoils
      | copied content readable =>
        simp only [hcopy] at hspoils ⊢
        split at hspoils
        · next happroved =>
          rw [if_pos happroved]
          rw [← spoilsCopy_update hsides hnodup content] at hspoils
          have hothers : ∀ later ∈ rest, publisher.destination group later ≠ publisher.destination group role := by
            intro later hlater heq
            have hsame := destination_role (hrest hlater) hrole heq
            rw [List.nodup_cons] at hnodup
            exact hnodup.1 (hsame ▸ hlater)
          have hfresh : ∀ later ∈ rest, publisher.destination group later ∉ created++[publisher.destination group role] := by
            intro later hlater
            rw [List.mem_append,List.mem_singleton,not_or]
            exact ⟨hcreated later (List.mem_cons_of_mem _ hlater),hothers later hlater⟩
          obtain ⟨reason,hreason,later,hlater,hnew,hleft⟩ := ih _ (noLinks_update hlinks _ content) hrest hnodup.of_cons
            hfresh hspoils
          rw [Function.update_of_ne (hothers later hlater)] at hnew
          exact ⟨reason,hreason,later,List.mem_cons_of_mem _ hlater,hnew,hleft⟩
        · next hrefused =>
          rw [if_neg hrefused]
          refine ⟨_,rfl,role,by simp,hnone,?_⟩
          rw [unlinkAll_apply,if_neg (hcreated role (by simp))]
          simp

theorem copySides_frame {roles : List Role} {name : String} (created : List String) (hlinks : NoLinks publisher directory group)
    (hsides : roles ⊆ sideOriginals) (hname : directory name ≠ none ∨ ∀ role ∈ roles, publisher.destination group role ≠ name)
    (hcreated : name ∉ created) :
    (publisher.copySides group facts roles directory created).1 name = directory name ∧
      name ∉ (publisher.copySides group facts roles directory created).2.1 := by
  induction roles generalizing directory created with
  | nil => exact ⟨rfl,hcreated⟩
  | cons role rest ih =>
    have hrest : rest ⊆ sideOriginals := fun later hlater => hsides (List.mem_cons_of_mem _ hlater)
    have hlater : directory name ≠ none ∨ ∀ later ∈ rest, publisher.destination group later ≠ name :=
      hname.imp_right fun hall later hlater => hall later (List.mem_cons_of_mem _ hlater)
    rw [copySides]
    by_cases hpresent : present directory (publisher.destination group role) = true
    · rw [if_pos hpresent]
      exact ih created hlinks hrest hlater hcreated
    · rw [if_neg hpresent]
      have hne : name ≠ publisher.destination group role := by
        intro heq
        obtain hthere | hall := hname
        · rw [present_eq hlinks (hsides (by simp)),← heq] at hpresent
          exact hpresent (Option.isSome_iff_ne_none.mpr hthere)
        · exact hall role (by simp) heq.symm
      cases hcopy : group.copy role with
      | failed reason => exact ⟨rfl,hcreated⟩
      | copied content readable =>
        have hsame : Function.update directory (publisher.destination group role) (some (.file content)) name = directory name :=
          Function.update_of_ne hne _ _
        dsimp only
        split
        · have hfresh : name ∉ created++[publisher.destination group role] := by simpa [hne] using hcreated
          obtain ⟨hkept,hlist⟩ := ih _ (noLinks_update hlinks _ content) hrest (hsame ▸ hlater) hfresh
          exact ⟨hkept.trans hsame,hlist⟩
        · exact ⟨hsame,hcreated⟩

theorem publishSides_frame {name : String} (hlinks : NoLinks publisher directory group)
    (hname : directory name ≠ none ∨ name ∉ publisher.sideDestinations group) :
    (publisher.publishSides directory group facts).1 name = directory name := by
  have hroles : directory name ≠ none ∨ ∀ role ∈ sideOriginals, publisher.destination group role ≠ name :=
    hname.imp_right fun hnot role hrole heq => hnot (heq ▸ List.mem_map_of_mem hrole)
  have hframe : _ ∧ name ∉ (publisher.copySides group facts sideOriginals directory []).2.1 :=
    copySides_frame [] hlinks (fun _ h => h) hroles (by simp)
  obtain ⟨hkept,hlist⟩ := hframe
  rw [publishSides]
  generalize publisher.copySides group facts sideOriginals directory [] = result at hkept hlist
  obtain ⟨copied,created,failure⟩ := result
  cases failure with
  | some reason =>
    show unlinkAll created copied name = _
    rw [unlinkAll_apply,if_neg hlist]
    exact hkept
  | none =>
    cases group.unchangedSinceApproval with
    | error reason =>
      show unlinkAll created copied name = _
      rw [unlinkAll_apply,if_neg hlist]
      exact hkept
    | ok _ => exact hkept

theorem sideOriginals_nodup : sideOriginals.Nodup := by decide

theorem publishSides_undone (hlinks : NoLinks publisher directory group)
    (hspoils : publisher.spoilsCopy directory group facts sideOriginals = false) {reason : String}
    (hfailed : (publisher.publishSides directory group facts).2 = some reason) :
    (publisher.publishSides directory group facts).1 = directory := by
  have hundone := copySides_undone [] hlinks (fun _ h => h) sideOriginals_nodup hspoils
  rw [publishSides] at hfailed ⊢
  generalize publisher.copySides group facts sideOriginals directory [] = result at hundone hfailed
  obtain ⟨copied,created,failure⟩ := result
  cases failure with
  | some _ => exact hundone
  | none =>
    cases hunchanged : group.unchangedSinceApproval with
    | error _ => exact hundone
    | ok _ => simp [hunchanged] at hfailed

theorem publishSides_left (hlinks : NoLinks publisher directory group)
    (hspoils : publisher.spoilsCopy directory group facts sideOriginals = true) :
    ∃ reason, (publisher.publishSides directory group facts).2 = some reason ∧ ∃ name ∈ publisher.sideDestinations group,
      directory name = none ∧ (publisher.publishSides directory group facts).1 name ≠ none := by
  obtain ⟨reason,hreason,role,hrole,hnone,hleft⟩ := copySides_left [] hlinks (fun _ h => h) sideOriginals_nodup
    (by simp) hspoils
  rw [publishSides]
  generalize publisher.copySides group facts sideOriginals directory [] = result at hreason hleft
  obtain ⟨copied,created,failure⟩ := result
  cases hreason
  exact ⟨reason,rfl,publisher.destination group role,List.mem_map_of_mem hrole,hnone,hleft⟩

theorem side_mem_members {role : Role} (h : role ∈ sideOriginals) (converted : Bool) : role ∈ members converted := by
  refine List.mem_append_left _ ?_
  revert role
  decide

theorem noLinks_of_conflicts {converted : Bool} (h : publisher.conflicts directory group converted facts = []) :
    NoLinks publisher directory group := by
  intro role hrole resolves hlink
  have hconflict : publisher.destination group role++" (symlink)" ∈ publisher.conflicts directory group converted facts := by
    rw [conflicts,List.mem_filterMap]
    exact ⟨role,side_mem_members hrole converted,by simp [hlink]⟩
  rw [h] at hconflict
  cases hconflict

/-- What a group can come to: a rejection before anything was touched, or its copies. -/
inductive Comes (publisher : Publisher) (directory : Directory) (group : Group) : Directory × Option Rejection → Prop
  | early (stage reason) : publisher.spoils directory group = false →
      Comes publisher directory group (directory,some ⟨group.raw,stage,reason⟩)
  | copies (approval : Role → MemberFacts) : NoLinks publisher directory group →
      publisher.spoils directory group = publisher.spoilsCopy directory group approval sideOriginals →
      Comes publisher directory group ((publisher.publishSides directory group approval).1,
        (publisher.publishSides directory group approval).2.map fun reason => ⟨group.raw,"copy",reason⟩)

theorem publishGroup_comes (publisher : Publisher) (directory : Directory) (group : Group) :
    Comes publisher directory group (publisher.publishGroup directory group) := by
  rw [publishGroup]
  cases hqualified : group.qualified with
  | error reason => exact .early _ _ (by simp [spoils,hqualified])
  | ok result =>
    obtain ⟨converted,facts⟩ := result
    dsimp only
    by_cases hexcluded : publisher.excluded group converted = []
    · rw [if_neg (not_not.mpr hexcluded)]
      by_cases hconflicts : publisher.conflicts directory group converted facts = []
      · rw [if_neg (not_not.mpr hconflicts)]
        exact .copies facts (noLinks_of_conflicts hconflicts) (by simp [spoils,hqualified,hexcluded,hconflicts])
      · rw [if_pos hconflicts]
        exact .early _ _ (by simp [spoils,hqualified,hconflicts])
    · rw [if_pos hexcluded]
      exact .early _ _ (by simp [spoils,hqualified,hexcluded])

theorem publishGroup_frame {name : String} (hname : directory name ≠ none ∨ name ∉ publisher.sideDestinations group) :
    (publisher.publishGroup directory group).1 name = directory name := by
  have hcomes := publishGroup_comes publisher directory group
  generalize publisher.publishGroup directory group = result at hcomes
  cases hcomes with
  | early stage reason _ => rfl
  | copies facts hlinks _ => exact publishSides_frame hlinks hname

theorem publishGroup_rejected {rejection : Rejection} (h : (publisher.publishGroup directory group).2 = some rejection) :
    rejection.capture = group.raw ∧
      (publisher.spoils directory group = false → (publisher.publishGroup directory group).1 = directory) := by
  have hcomes := publishGroup_comes publisher directory group
  generalize publisher.publishGroup directory group = result at hcomes h
  cases hcomes with
  | early stage reason _ =>
    cases h
    exact ⟨rfl,fun _ => rfl⟩
  | copies facts hlinks hspoils =>
    obtain ⟨reason,hreason,rfl⟩ := Option.map_eq_some_iff.mp h
    exact ⟨rfl,fun hclean => publishSides_undone hlinks (hspoils ▸ hclean) hreason⟩

theorem publishGroup_spoilt (h : publisher.spoils directory group = true) :
    (publisher.publishGroup directory group).2.isSome = true ∧ ∃ name ∈ publisher.sideDestinations group,
      directory name = none ∧ (publisher.publishGroup directory group).1 name ≠ none := by
  have hcomes := publishGroup_comes publisher directory group
  generalize publisher.publishGroup directory group = result at hcomes
  cases hcomes with
  | early stage reason hclean =>
    rw [h] at hclean
    cases hclean
  | copies facts hlinks hspoils =>
    obtain ⟨reason,hreason,hleft⟩ := publishSides_left hlinks (hspoils ▸ h)
    exact ⟨by simp [hreason],hleft⟩

theorem spoils_congr {directory' : Directory}
    (h : ∀ role, directory (publisher.destination group role) = directory' (publisher.destination group role)) :
    publisher.spoils directory group = publisher.spoils directory' group := by
  rw [spoils,spoils]
  cases group.qualified with
  | error reason => rfl
  | ok result =>
    have hconflicts : publisher.conflicts directory group result.1 result.2 =
        publisher.conflicts directory' group result.1 result.2 := by
      rw [conflicts,conflicts]
      congr 1
      funext role
      dsimp only
      rw [h role]
    dsimp only
    rw [hconflicts,spoilsCopy_congr fun role _ => h role]

/-- Captures of one directory: their names are those of PCAPs, and distinct. -/
structure Apart (groups : List Group) : Prop where
  distinct : (groups.map Group.raw).Nodup
  pcap : ∀ group ∈ groups, isPcap group.raw = true

variable {groups rest : List Group}

theorem Apart.tail (h : Apart (group::rest)) : Apart rest :=
  ⟨(List.nodup_cons.mp h.distinct).2,fun other hother => h.pcap other (List.mem_cons_of_mem _ hother)⟩

theorem Apart.ne (h : Apart (group::rest)) (hother : other ∈ rest) : group.raw ≠ other.raw :=
  fun heq => (List.nodup_cons.mp h.distinct).1 (heq ▸ List.mem_map_of_mem hother)

theorem Apart.untouched (h : Apart (group::rest)) (hother : other ∈ rest) (role : Role) :
    (publisher.publishGroup directory group).1 (publisher.destination other role) =
      directory (publisher.destination other role) := by
  refine publishGroup_frame (.inr fun hmem => ?_)
  obtain ⟨side,hside,heq⟩ := List.mem_map.mp hmem
  exact destination_ne (h.pcap other (List.mem_cons_of_mem _ hother)) (h.ne hother) hside heq.symm

theorem publishGroups_cons (publisher : Publisher) (directory : Directory) (group : Group) (rest : List Group) :
    (publisher.publishGroups directory (group::rest)).directory =
        (publisher.publishGroups (publisher.publishGroup directory group).1 rest).directory ∧
      (publisher.publishGroups directory (group::rest)).rejections =
        (publisher.publishGroup directory group).2.toList++
          (publisher.publishGroups (publisher.publishGroup directory group).1 rest).rejections ∧
      (publisher.publishGroups directory (group::rest)).published =
        (if (publisher.publishGroup directory group).2.isSome then [] else publisher.sideDestinations group)++
          (publisher.publishGroups (publisher.publishGroup directory group).1 rest).published := by
  rw [publishGroups]
  obtain ⟨after,rejection⟩ := publisher.publishGroup directory group
  cases rejection with
  | none => exact ⟨rfl,rfl,rfl⟩
  | some rejection => exact ⟨rfl,rfl,rfl⟩

theorem publishGroups_frame {name : String}
    (hname : directory name ≠ none ∨ ∀ group ∈ groups, name ∉ publisher.sideDestinations group) :
    (publisher.publishGroups directory groups).directory name = directory name := by
  induction groups generalizing directory with
  | nil => rfl
  | cons group rest ih =>
    have hsame : (publisher.publishGroup directory group).1 name = directory name :=
      publishGroup_frame (hname.imp_right fun hall => hall group (by simp))
    rw [(publishGroups_cons publisher directory group rest).1,ih]
    · exact hsame
    · rw [hsame]
      exact hname.imp_right fun hall later hlater => hall later (List.mem_cons_of_mem _ hlater)

theorem rejections_capture {rejection : Rejection} (h : rejection ∈ (publisher.publishGroups directory groups).rejections) :
    ∃ group ∈ groups, rejection.capture = group.raw := by
  induction groups generalizing directory with
  | nil => cases h
  | cons group rest ih =>
    rw [(publishGroups_cons publisher directory group rest).2.1,List.mem_append,Option.mem_toList] at h
    obtain hthis | hlater := h
    · exact ⟨group,by simp,(publishGroup_rejected hthis).1⟩
    · obtain ⟨later,hmem,hcapture⟩ := ih hlater
      exact ⟨later,List.mem_cons_of_mem _ hmem,hcapture⟩

theorem rejected_head (h : Apart (group::rest)) : rejected (publisher.publishGroups directory (group::rest)) group =
    (publisher.publishGroup directory group).2.isSome := by
  have hlater : (publisher.publishGroups (publisher.publishGroup directory group).1 rest).rejections.any
      (fun rejection => decide (rejection.capture = group.raw)) = false := by
    rw [List.any_eq_false]
    intro rejection hrejection hsame
    obtain ⟨later,hmem,hcapture⟩ := rejections_capture hrejection
    exact h.ne hmem ((of_decide_eq_true hsame).symm.trans hcapture)
  rw [rejected,(publishGroups_cons publisher directory group rest).2.1,List.any_append,hlater,Bool.or_false]
  cases hrejection : (publisher.publishGroup directory group).2 with
  | none => rfl
  | some rejection => simp [(publishGroup_rejected hrejection).1]

theorem rejected_tail (h : Apart (group::rest)) (hother : other ∈ rest) :
    rejected (publisher.publishGroups directory (group::rest)) other =
      rejected (publisher.publishGroups (publisher.publishGroup directory group).1 rest) other := by
  rw [rejected,rejected,(publishGroups_cons publisher directory group rest).2.1,List.any_append]
  cases hrejection : (publisher.publishGroup directory group).2 with
  | none => rfl
  | some rejection => simp [(publishGroup_rejected hrejection).1,h.ne hother]

theorem publishGroups_listed (h : Apart groups) : (publisher.publishGroups directory groups).published =
    (groups.filter fun group => !rejected (publisher.publishGroups directory groups) group).flatMap
      publisher.sideDestinations := by
  induction groups generalizing directory with
  | nil => rfl
  | cons group rest ih =>
    have hrest : (rest.filter fun other => !rejected (publisher.publishGroups directory (group::rest)) other) =
        rest.filter fun other => !rejected (publisher.publishGroups (publisher.publishGroup directory group).1 rest) other :=
      List.filter_congr fun other hother => by rw [rejected_tail h hother]
    rw [(publishGroups_cons publisher directory group rest).2.2,ih h.tail,List.filter_cons,hrest,rejected_head h]
    cases (publisher.publishGroup directory group).2 with
    | none => rfl
    | some rejection => rfl

theorem sideDestination_final (h : Apart (group::rest)) {name : String} (hname : name ∈ publisher.sideDestinations group) :
    (publisher.publishGroups directory (group::rest)).directory name = (publisher.publishGroup directory group).1 name := by
  rw [(publishGroups_cons publisher directory group rest).1]
  refine publishGroups_frame (.inr fun later hlater hmem => ?_)
  obtain ⟨role,hrole,rfl⟩ := List.mem_map.mp hname
  obtain ⟨side,hside,heq⟩ := List.mem_map.mp hmem
  exact destination_ne (h.pcap group (by simp)) (h.ne hlater).symm hside heq.symm

theorem clean_head_iff (h : Apart (group::rest)) :
    (rejected (publisher.publishGroups directory (group::rest)) group = true →
      ∀ name ∈ publisher.sideDestinations group, directory name = none →
        (publisher.publishGroups directory (group::rest)).directory name = none) ↔
      publisher.spoils directory group = false := by
  rw [rejected_head h]
  constructor
  · intro hclean
    by_contra hspoilt
    obtain ⟨hrejected,name,hname,hnone,hleft⟩ := publishGroup_spoilt (Bool.not_eq_false _ ▸ hspoilt)
    rw [← sideDestination_final h hname] at hleft
    exact hleft (hclean hrejected name hname hnone)
  · intro hspoils hrejected name hname hnone
    obtain ⟨rejection,hrejection⟩ := Option.isSome_iff_exists.mp hrejected
    rw [sideDestination_final h hname,(publishGroup_rejected hrejection).2 hspoils,hnone]

theorem clean_iff (h : Apart groups) :
    (∀ group ∈ groups, rejected (publisher.publishGroups directory groups) group = true →
      ∀ name ∈ publisher.sideDestinations group, directory name = none →
        (publisher.publishGroups directory groups).directory name = none) ↔
      ∀ group ∈ groups, publisher.spoils directory group = false := by
  induction groups generalizing directory with
  | nil => simp
  | cons group rest ih =>
    rw [List.forall_mem_cons,List.forall_mem_cons,clean_head_iff h]
    refine and_congr_right fun _ => ?_
    have hspoils : (∀ other ∈ rest, publisher.spoils directory other = false) ↔
        ∀ other ∈ rest, publisher.spoils (publisher.publishGroup directory group).1 other = false := by
      refine forall₂_congr fun other hother => ?_
      rw [spoils_congr fun role => h.untouched hother role]
    rw [hspoils,← ih h.tail]
    refine forall₂_congr fun other hother => ?_
    rw [rejected_tail h hother,(publishGroups_cons publisher directory group rest).1]
    refine imp_congr_right fun _ => forall₂_congr fun name hname => ?_
    obtain ⟨role,-,rfl⟩ := List.mem_map.mp hname
    rw [h.untouched hother role]

/-- The observations journal is rewritten between its qualification and its copy. -/
def sampleGroup : Group where
  raw := "run.pcap"
  qualified := .ok (false,fun _ => ⟨1,"a"⟩)
  copy := fun role => if role = .observations then .copied [1,2] true else .copied [1] true
  unchangedSinceApproval := .ok ()

def samplePublisher : Publisher := ⟨"fakenet-",none,fun bytes => if bytes.length = 1 then "a" else "b"⟩

def sampleSource : Source := ⟨[sampleGroup],by simp,by decide⟩

end Publisher
end CaptureGroups
end FakeNetNG
