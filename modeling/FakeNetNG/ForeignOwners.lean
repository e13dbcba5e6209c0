import FakeNetNG.EndpointOwners
import FakeNetNG.KeyedTable

/-!
# What an accepted change of owners says

The check that accepts a change has looked at the first owner of each changed endpoint. Another process with the
same endpoint goes unseen, also when its row is the one that came or went.
-/

namespace FakeNetNG
namespace EndpointOwners

open BaselineAudit

variable {py : Runtime} {ρ : Type} [DecidableEq ρ]

theorem ensure_eq_ok {message : String} {condition : Bool} : ensure message condition = .ok () ↔ condition = true := by
  cases condition <;> simp [ensure]

theorem field_eq_ok {α : Type} {value : Option α} {a : α} : field value = .ok a ↔ value = some a := by
  cases value <;> simp [field]

/-- The owner that is looked up for a changed row is no managed process and ran before the trace. -/
def Owned (py : Runtime) (owners : Owners) (row : Direction × Text) : Prop := ∃ addressPort owner,
  udpAddress py row.2 = some addressPort ∧ rawOwner py (owners.listing row.1) addressPort = .ok owner ∧
    owner ∉ owners.managed ∧ (owners.started.lookup owner).isSome = true

theorem attributeRow_owned {owners : Owners} (verdict : Verdict) {row : Direction × Text} (h : Owned py owners row) :
    ∃ entry, attributeRow py owners verdict row.1 row.2 = .ok { verdict with attributed := verdict.attributed++[entry] } := by
  obtain ⟨addressPort,owner,haddress,howner,hmanaged,hstarted⟩ := h
  obtain ⟨creationTime,htime⟩ := Option.isSome_iff_exists.mp hstarted
  refine ⟨⟨row.1,row.2,owner,creationTime⟩,?_⟩
  rw [attributeRow,haddress]
  show (rawOwner py (owners.listing row.1) addressPort >>= _) = _
  rw [howner]
  show (if owner ∈ owners.managed then _ else _) = _
  rw [if_neg hmanaged,htime]
  rfl

theorem attributeRow_not_owned {owners : Owners} {verdict verdict' : Verdict} {row : Direction × Text} (h : ¬Owned py owners row)
    (hturn : attributeRow py owners verdict row.1 row.2 = .ok verdict') :
    verdict'.refused ≠ [] ∧ verdict'.accepted = verdict.accepted := by
  obtain ⟨addressPort,haddress,hturn⟩ := ok_of_bind hturn
  obtain ⟨owner,howner,hturn⟩ := ok_of_bind hturn
  by_cases hmanaged : owner ∈ owners.managed
  · rw [if_pos hmanaged] at hturn
    cases hturn
    exact ⟨by simp,rfl⟩
  · rw [if_neg hmanaged] at hturn
    cases hstarted : owners.started.lookup owner with
    | none =>
      rw [hstarted] at hturn
      cases hturn
      exact ⟨by simp,rfl⟩
    | some creationTime =>
      exact absurd ⟨addressPort,owner,field_eq_ok.mp haddress,howner,hmanaged,by rw [hstarted]; rfl⟩ h

theorem attributeRow_refused {owners : Owners} {verdict verdict' : Verdict} {direction : Direction} {line : Text}
    (h : verdict.refused ≠ []) (hturn : attributeRow py owners verdict direction line = .ok verdict') :
    verdict'.refused ≠ [] ∧ verdict'.accepted = verdict.accepted := by
  by_cases howned : Owned py owners (direction,line)
  · obtain ⟨entry,hentry⟩ := attributeRow_owned verdict howned
    rw [hentry] at hturn
    cases hturn
    exact ⟨h,rfl⟩
  · exact attributeRow_not_owned howned hturn

theorem attributeRows_refused {owners : Owners} {verdict : Verdict} {rows : List (Direction × Text)} (h : verdict.refused ≠ [])
    (haccepted : verdict.accepted = false) : (attributeRows py owners verdict rows).accepted = false := by
  induction rows generalizing verdict with
  | nil => simp [attributeRows,h]
  | cons row rest ih =>
    rw [attributeRows]
    cases hturn : attributeRow py owners verdict row.1 row.2 with
    | error fault => exact haccepted
    | ok verdict' =>
      obtain ⟨hrefused,hsame⟩ := attributeRow_refused h hturn
      exact ih hrefused (hsame.trans haccepted)

theorem attributeRows_accepted {owners : Owners} {verdict : Verdict} {rows : List (Direction × Text)} (h : verdict.refused = [])
    (haccepted : verdict.accepted = false) : (attributeRows py owners verdict rows).accepted = true ↔
      (verdict.attributed ≠ [] ∨ rows ≠ []) ∧ ∀ row ∈ rows, Owned py owners row := by
  induction rows generalizing verdict with
  | nil => simp [attributeRows,h]
  | cons row rest ih =>
    rw [List.forall_mem_cons,attributeRows]
    by_cases howned : Owned py owners row
    · obtain ⟨entry,hentry⟩ := attributeRow_owned verdict howned
      rw [hentry]
      dsimp only
      rw [ih]
      · simp [howned]
      · exact h
      · exact haccepted
    · cases hturn : attributeRow py owners verdict row.1 row.2 with
      | error fault =>
        dsimp only
        rw [haccepted]
        simp [howned]
      | ok verdict' =>
        obtain ⟨hrefused,hsame⟩ := attributeRow_not_owned howned hturn
        dsimp only
        rw [attributeRows_refused hrefused (hsame.trans haccepted)]
        simp [howned]

theorem attributeRows_rawEqual {owners : Owners} {verdict : Verdict} {rows : List (Direction × Text)} :
    (attributeRows py owners verdict rows).rawEqual = verdict.rawEqual := by
  induction rows generalizing verdict with
  | nil => rfl
  | cons row rest ih =>
    rw [attributeRows]
    by_cases howned : Owned py owners row
    · obtain ⟨entry,hentry⟩ := attributeRow_owned verdict howned
      rw [hentry]
      exact ih
    · cases hturn : attributeRow py owners verdict row.1 row.2 with
      | error fault => rfl
      | ok verdict' =>
        have hsame : verdict'.rawEqual = verdict.rawEqual := by
          obtain ⟨addressPort,-,hturn⟩ := ok_of_bind hturn
          obtain ⟨owner,-,hturn⟩ := ok_of_bind hturn
          split at hturn
          · cases hturn
            rfl
          · split at hturn <;> cases hturn <;> rfl
        exact ih.trans hsame

section Property

variable (py : Runtime) (baseline : Baseline ρ) (sample : Sample ρ) (proof : Proof ρ)

/-- How many rows of the normalised listing an endpoint has. -/
def endpointCount (text addressPort : Text) : ℕ :=
  (splitlines (normalizeRows py "listen_ports" text)).countP fun line => udpAddress py line = some addressPort

/-- How many raw rows an endpoint has with a process. -/
def ownerCount (text addressPort : Text) (pid : ℤ) : ℕ :=
  (rawRows py text).countP fun row => row.1 = addressPort && Text.readInt row.2 = some pid

/-- The process is in the snapshot at the start of the trace. -/
def PreExisting (pid : ℤ) : Prop := ∃ start rows ids, proof.start = some start ∧ start.processes = some rows ∧
  rows.mapM (startId py) = .ok ids ∧ pid ∈ ids.map Prod.fst

def Managed (pid : ℤ) : Prop := ∃ sections ids, baseline.sections = some sections ∧
  managedProcessIds py (sections "windivert_processes") = .ok ids ∧ pid ∈ ids

/-- A process that may own a changed endpoint. -/
def Environmental (pid : ℤ) : Prop := PreExisting py proof pid ∧ ¬Managed py baseline pid

def Listings (before after : Text) : Prop := ∃ sections current, baseline.sections = some sections ∧
  sample.current = some current ∧ sections "listen_ports" = some before ∧ current "listen_ports" = some after

def listing (before after : Text) : Direction → Text
  | .removed => before
  | .added => after

/-- An accepted change has only environmental processes behind its endpoints. -/
def Sound : Prop := (foreignUdpOwnerChanges py baseline sample proof).accepted = true →
  (foreignUdpOwnerChanges py baseline sample proof).rawEqual = false → ∀ before after, Listings baseline sample before after →
  ∀ addressPort, endpointCount py before addressPort ≠ endpointCount py after addressPort →
  ∀ pid, ownerCount py before addressPort pid ≠ ownerCount py after addressPort pid → Environmental py baseline proof pid

/-- The evidence passes every check: the runs agree, the coverage is complete, the UDP endpoints are all that differs,
the snapshot is not ambiguous, and the first listed owner of each changed row is environmental. -/
structure Passes (before after : Text) : Prop where
  listings : Listings baseline sample before after
  run : ∃ run start, baseline.runId = some run ∧ sample.runId = some run ∧ proof.runId = some run ∧ proof.start = some start ∧
    start.runId = some run ∧ endCovered run proof = true
  differs : ∃ sections current, baseline.sections = some sections ∧ sample.current = some current ∧
    auditCompare py sections current = .ok [("listen_ports",⟨false,some (normalizeRows py "listen_ports" before),
      some (normalizeRows py "listen_ports" after)⟩)]
  window : ∃ start time windowStart, proof.start = some start ∧ start.timeNs = some time ∧
    baseline.windowStartNs = some windowStart ∧ time ≤ windowStart
  changed : changedRows (normalizeRows py "listen_ports" before) (normalizeRows py "listen_ports" after) ≠ []
  managed : ∃ sections ids, baseline.sections = some sections ∧ managedProcessIds py (sections "windivert_processes") = .ok ids
  started : ∃ start rows ids, proof.start = some start ∧ start.processes = some rows ∧ rows.mapM (startId py) = .ok ids ∧
    (ids.map Prod.fst).Nodup
  owners : ∀ row ∈ changedRows (normalizeRows py "listen_ports" before) (normalizeRows py "listen_ports" after),
    ∃ addressPort owner, udpAddress py row.2 = some addressPort ∧
      rawOwner py (listing before after row.1) addressPort = .ok owner ∧ Environmental py baseline proof owner

/-- The processes that the code does not look up: they are not the first owner of a changed row of the endpoint. -/
def Unseen (before after addressPort : Text) (pid : ℤ) : Prop :=
  ∀ row ∈ changedRows (normalizeRows py "listen_ports" before) (normalizeRows py "listen_ports" after),
    udpAddress py row.2 = some addressPort → rawOwner py (listing before after row.1) addressPort ≠ .ok pid

/-- The other owners with changed rows at a changed endpoint are environmental too. -/
def UnseenEnvironmental (before after : Text) : Prop :=
  ∀ addressPort, endpointCount py before addressPort ≠ endpointCount py after addressPort →
  ∀ pid, ownerCount py before addressPort pid ≠ ownerCount py after addressPort pid → Unseen py before after addressPort pid →
    Environmental py baseline proof pid

end Property

variable {baseline : Baseline ρ} {sample : Sample ρ} {proof : Proof ρ} {before after : Text}

theorem compareFrom_mem {sections current : Sections} {names : List String} {differences : List (String × Difference)}
    (h : compareFrom py sections current names = .ok differences) {entry : String × Difference} (hentry : entry ∈ differences) :
    compareSection py sections current entry.1 = .ok (some entry.2) := by
  induction names generalizing differences with
  | nil =>
    cases h
    cases hentry
  | cons name rest ih =>
    obtain ⟨difference,hdifference,h⟩ := ok_of_bind h
    obtain ⟨later,hlater,h⟩ := ok_of_bind h
    cases h
    obtain hhere | hthere := List.mem_append.mp hentry
    · obtain ⟨d,rfl,rfl⟩ := Option.map_eq_some_iff.mp (Option.mem_toList.mp hhere)
      exact hdifference
    · exact ih hlater hthere

theorem compareSection_listen_ports {sections current : Sections} {x y : Text}
    (h : compareSection py sections current "listen_ports" = .ok (some ⟨false,some x,some y⟩)) :
    ∃ before after, sections "listen_ports" = some before ∧ current "listen_ports" = some after ∧
      x = normalizeRows py "listen_ports" before ∧ y = normalizeRows py "listen_ports" after := by
  rw [compareSection] at h
  cases hbefore : sections "listen_ports" with
  | none =>
    rw [hbefore] at h
    cases h
  | some before =>
    cases hafter : current "listen_ports" with
    | none =>
      rw [hbefore,hafter] at h
      cases h
    | some after =>
      rw [hbefore,hafter] at h
      dsimp only at h
      split at h
      · cases h
      · have hplain : ∀ text, BaselineAudit.normalize py "listen_ports" text = .ok (normalizeRows py "listen_ports" text) :=
          fun text => if_neg (by decide)
        rw [hplain,hplain] at h
        change (if _ then _ else _) = _ at h
        split at h
        · cases h
          exact ⟨before,after,rfl,rfl,rfl,rfl⟩
        · cases h

theorem isolated_eq_ok {differences : List (String × Difference)} {x y : Text} :
    isolated differences = .ok (x,y) ↔ differences = [("listen_ports",⟨false,some x,some y⟩)] := by
  constructor
  · intro h
    unfold isolated at h
    split at h
    · split at h
      · next hname =>
        cases h
        rw [hname]
      · cases h
    · cases h
  · rintro rfl
    rfl

/-- What `compared` and `prepare` ask for, before the owners are looked up. -/
structure Prepared (py : Runtime) (baseline : Baseline ρ) (sample : Sample ρ) (proof : Proof ρ) (before after : Text)
    (owners : Owners) : Prop where
  listings : Listings baseline sample before after
  run : ∃ run start, baseline.runId = some run ∧ sample.runId = some run ∧ proof.runId = some run ∧ proof.start = some start ∧
    start.runId = some run ∧ endCovered run proof = true
  differs : ∃ sections current, baseline.sections = some sections ∧ sample.current = some current ∧
    auditCompare py sections current = .ok [("listen_ports",⟨false,some (normalizeRows py "listen_ports" before),
      some (normalizeRows py "listen_ports" after)⟩)]
  window : ∃ start time windowStart, proof.start = some start ∧ start.timeNs = some time ∧
    baseline.windowStartNs = some windowStart ∧ time ≤ windowStart
  changed : changedRows (normalizeRows py "listen_ports" before) (normalizeRows py "listen_ports" after) ≠ []
  udp : ∀ row ∈ changedRows (normalizeRows py "listen_ports" before) (normalizeRows py "listen_ports" after),
    (udpAddress py row.2).isSome = true
  managed : ∃ sections, baseline.sections = some sections ∧
    managedProcessIds py (sections "windivert_processes") = .ok owners.managed
  started : ∃ start rows, proof.start = some start ∧ start.processes = some rows ∧
    rows.mapM (startId py) = .ok owners.started ∧ (owners.started.map Prod.fst).Nodup
  before : owners.before = before
  after : owners.after = after

theorem compared_eq_ok {differences : List (String × Difference)} : compared py baseline sample proof = .ok differences ↔
    (∃ run start, baseline.runId = some run ∧ sample.runId = some run ∧ proof.runId = some run ∧ proof.start = some start ∧
      start.runId = some run ∧ endCovered run proof = true) ∧
    ∃ sections current, baseline.sections = some sections ∧ sample.current = some current ∧
      auditCompare py sections current = .ok differences := by
  constructor
  · intro h
    obtain ⟨run,hrun,h⟩ := ok_of_bind h
    obtain ⟨sampleRun,hsampleRun,h⟩ := ok_of_bind h
    obtain ⟨⟨⟩,hsame,h⟩ := ok_of_bind h
    obtain ⟨proofRun,hproofRun,h⟩ := ok_of_bind h
    obtain ⟨⟨⟩,hproofSame,h⟩ := ok_of_bind h
    obtain ⟨start,hstart,h⟩ := ok_of_bind h
    obtain ⟨⟨⟩,hstartSame,h⟩ := ok_of_bind h
    obtain ⟨⟨⟩,hcovered,h⟩ := ok_of_bind h
    obtain ⟨sections,hsections,h⟩ := ok_of_bind h
    obtain ⟨current,hcurrent,haudit⟩ := ok_of_bind h
    rw [field_eq_ok] at hrun hsampleRun hproofRun hstart hsections hcurrent
    rw [ensure_eq_ok] at hsame hproofSame hstartSame hcovered
    rw [decide_eq_true_eq] at hsame hproofSame hstartSame
    subst hsame
    subst hproofSame
    exact ⟨⟨_,start,hrun,hsampleRun,hproofRun,hstart,hstartSame,hcovered⟩,sections,current,hsections,hcurrent,haudit⟩
  · rintro ⟨⟨run,start,hrun,hsampleRun,hproofRun,hstart,hstartSame,hcovered⟩,sections,current,hsections,hcurrent,h⟩
    simp [compared,hrun,hsampleRun,hproofRun,hstart,hstartSame,hcovered,hsections,hcurrent,field,ensure,h,bind,Except.bind]

theorem prepared_of_ok {differences : List (String × Difference)} {owners : Owners} {changed : List (Direction × Text)}
    (hcompared : compared py baseline sample proof = .ok differences)
    (h : prepare py baseline sample proof differences = .ok (owners,changed)) : ∃ before after,
      Prepared py baseline sample proof before after owners ∧
      changed = changedRows (normalizeRows py "listen_ports" before) (normalizeRows py "listen_ports" after) := by
  obtain ⟨hrun,sections,current,hsections,hcurrent,haudit⟩ := compared_eq_ok.mp hcompared
  obtain ⟨⟨x,y⟩,hisolated,h⟩ := ok_of_bind h
  obtain ⟨windowStart,hwindow,h⟩ := ok_of_bind h
  obtain ⟨start,hstart,h⟩ := ok_of_bind h
  obtain ⟨time,htime,h⟩ := ok_of_bind h
  obtain ⟨⟨⟩,hle,h⟩ := ok_of_bind h
  obtain ⟨⟨⟩,hchanged,h⟩ := ok_of_bind h
  obtain ⟨⟨⟩,hudp,h⟩ := ok_of_bind h
  obtain ⟨sections',hsections',h⟩ := ok_of_bind h
  obtain ⟨current',hcurrent',h⟩ := ok_of_bind h
  obtain ⟨managed,hmanaged,h⟩ := ok_of_bind h
  obtain ⟨rows,hrows,h⟩ := ok_of_bind h
  obtain ⟨started,hstarted,h⟩ := ok_of_bind h
  obtain ⟨rawBefore,hrawBefore,h⟩ := ok_of_bind h
  obtain ⟨rawAfter,hrawAfter,h⟩ := ok_of_bind h
  cases h
  rw [field_eq_ok] at hwindow hstart htime hsections' hcurrent' hrows hrawBefore hrawAfter
  rw [ensure_eq_ok] at hle hchanged hudp
  obtain rfl := isolated_eq_ok.mp hisolated
  obtain rfl : sections = sections' := Option.some.inj (hsections.symm.trans hsections')
  obtain rfl : current = current' := Option.some.inj (hcurrent.symm.trans hcurrent')
  have hsection : compareSection py sections current "listen_ports" = .ok (some ⟨false,some x,some y⟩) :=
    compareFrom_mem haudit List.mem_cons_self
  obtain ⟨before,after,hbefore,hafter,rfl,rfl⟩ := compareSection_listen_ports hsection
  obtain rfl : before = rawBefore := Option.some.inj (hbefore.symm.trans hrawBefore)
  obtain rfl : after = rawAfter := Option.some.inj (hafter.symm.trans hrawAfter)
  obtain ⟨ids,hids,hstarted⟩ := ok_of_bind hstarted
  obtain ⟨⟨⟩,hnodup,hstarted⟩ := ok_of_bind hstarted
  cases hstarted
  rw [ensure_eq_ok,decide_eq_true_eq] at hnodup
  refine ⟨before,after,?_,rfl⟩
  constructor
  · exact ⟨sections,current,hsections,hcurrent,hbefore,hafter⟩
  · exact hrun
  · exact ⟨sections,current,hsections,hcurrent,haudit⟩
  · exact ⟨start,time,windowStart,hstart,htime,hwindow,of_decide_eq_true hle⟩
  · simpa using hchanged
  · exact List.all_eq_true.mp hudp
  · exact ⟨sections,hsections,hmanaged⟩
  · exact ⟨start,rows,hstart,hrows,hids,hnodup⟩
  · rfl
  · rfl

theorem ok_of_prepared {owners : Owners} (h : Prepared py baseline sample proof before after owners) : ∃ differences,
    compared py baseline sample proof = .ok differences ∧ differences ≠ [] ∧
    prepare py baseline sample proof differences =
      .ok (owners,changedRows (normalizeRows py "listen_ports" before) (normalizeRows py "listen_ports" after)) := by
  obtain ⟨sections,current,hsections,hcurrent,haudit⟩ := h.differs
  obtain ⟨sections',current',hsections',hcurrent',hbefore,hafter⟩ := h.listings
  obtain rfl : sections = sections' := Option.some.inj (hsections.symm.trans hsections')
  obtain rfl : current = current' := Option.some.inj (hcurrent.symm.trans hcurrent')
  obtain ⟨start,time,windowStart,hstart,htime,hwindow,hle⟩ := h.window
  obtain ⟨sections',hsections',hmanaged⟩ := h.managed
  obtain rfl : sections = sections' := Option.some.inj (hsections.symm.trans hsections')
  obtain ⟨start',rows,hstart',hrows,hids,hnodup⟩ := h.started
  obtain rfl : start = start' := Option.some.inj (hstart.symm.trans hstart')
  refine ⟨_,compared_eq_ok.mpr ⟨h.run,sections,current,hsections,hcurrent,haudit⟩,List.cons_ne_nil _ _,?_⟩
  have hstarted : startIds py rows = .ok owners.started := by
    rw [startIds,hids]
    show (ensure _ _ >>= _) = _
    rw [ensure_eq_ok.mpr (decide_eq_true hnodup)]
    rfl
  have hnonempty : (changedRows (normalizeRows py "listen_ports" before)
      (normalizeRows py "listen_ports" after)).isEmpty = false := by simpa using h.changed
  have hudp : ((changedRows (normalizeRows py "listen_ports" before) (normalizeRows py "listen_ports" after)).all
      fun row => (udpAddress py row.2).isSome) = true := List.all_eq_true.mpr h.udp
  have howners : owners = ⟨owners.managed,owners.started,before,after⟩ := by
    rw [← h.before,← h.after]
  rw [howners]
  simp [prepare,isolated,hwindow,hstart,htime,hle,hnonempty,hudp,hsections,hcurrent,hmanaged,hrows,hstarted,hbefore,hafter,
    field,ensure,bind,Except.bind,pure,Except.pure]

theorem managed_iff {owners : Owners} (h : Prepared py baseline sample proof before after owners) (pid : ℤ) :
    Managed py baseline pid ↔ pid ∈ owners.managed := by
  obtain ⟨sections,hsections,hmanaged⟩ := h.managed
  constructor
  · rintro ⟨sections',ids,hsections',hids,hmem⟩
    obtain rfl : sections = sections' := Option.some.inj (hsections.symm.trans hsections')
    rw [hmanaged] at hids
    cases hids
    exact hmem
  · exact fun hmem => ⟨sections,owners.managed,hsections,hmanaged,hmem⟩

theorem preExisting_iff {owners : Owners} (h : Prepared py baseline sample proof before after owners) (pid : ℤ) :
    PreExisting py proof pid ↔ (owners.started.lookup pid).isSome = true := by
  obtain ⟨start,rows,hstart,hrows,hids,hnodup⟩ := h.started
  constructor
  · rintro ⟨start',rows',ids,hstart',hrows',hids',hmem⟩
    obtain rfl : start = start' := Option.some.inj (hstart.symm.trans hstart')
    obtain rfl : rows = rows' := Option.some.inj (hrows.symm.trans hrows')
    rw [hids] at hids'
    cases hids'
    obtain ⟨⟨id,creationTime⟩,hentry,rfl⟩ := List.mem_map.mp hmem
    rw [(KeyedTable.lookup_eq_some_iff hnodup).mpr hentry]
    rfl
  · intro hsome
    obtain ⟨creationTime,hlookup⟩ := Option.isSome_iff_exists.mp hsome
    have hentry := (KeyedTable.lookup_eq_some_iff hnodup).mp hlookup
    exact ⟨start,rows,owners.started,hstart,hrows,hids,List.mem_map.mpr ⟨_,hentry,rfl⟩⟩

theorem owned_iff {owners : Owners} (h : Prepared py baseline sample proof before after owners) (row : Direction × Text) :
    Owned py owners row ↔ ∃ addressPort owner, udpAddress py row.2 = some addressPort ∧
      rawOwner py (listing before after row.1) addressPort = .ok owner ∧ Environmental py baseline proof owner := by
  have hlisting : owners.listing row.1 = listing before after row.1 := by
    cases row.1 with
    | removed => exact h.before
    | added => exact h.after
  refine exists_congr fun addressPort => exists_congr fun owner => and_congr_right fun _ => ?_
  rw [hlisting,Environmental,preExisting_iff h,managed_iff h]
  exact and_congr_right fun _ => and_comm

theorem accepted_iff : ((foreignUdpOwnerChanges py baseline sample proof).accepted = true ∧
    (foreignUdpOwnerChanges py baseline sample proof).rawEqual = false) ↔
      ∃ before after, Passes py baseline sample proof before after := by
  constructor
  · rintro ⟨haccepted,hraw⟩
    rw [foreignUdpOwnerChanges] at haccepted hraw
    cases hcompared : compared py baseline sample proof with
    | error fault =>
      rw [hcompared] at haccepted
      cases haccepted
    | ok differences =>
      rw [hcompared] at haccepted hraw
      cases differences with
      | nil => cases hraw
      | cons difference rest =>
        dsimp only at haccepted
        cases hprepare : prepare py baseline sample proof (difference :: rest) with
        | error fault =>
          rw [hprepare] at haccepted
          cases haccepted
        | ok found =>
          obtain ⟨owners,changed⟩ := found
          rw [hprepare] at haccepted
          obtain ⟨before,after,hprepared,rfl⟩ := prepared_of_ok hcompared hprepare
          obtain ⟨-,howned⟩ := (attributeRows_accepted rfl rfl).mp haccepted
          obtain ⟨sections,hsections,hmanaged⟩ := hprepared.managed
          obtain ⟨start,rows,hstart,hrows,hids,hnodup⟩ := hprepared.started
          exact ⟨before,after,hprepared.listings,hprepared.run,hprepared.differs,hprepared.window,hprepared.changed,
            ⟨sections,owners.managed,hsections,hmanaged⟩,⟨start,rows,owners.started,hstart,hrows,hids,hnodup⟩,
            fun row hrow => (owned_iff hprepared row).mp (howned row hrow)⟩
  · rintro ⟨before,after,hpasses⟩
    obtain ⟨sections,managed,hsections,hmanaged⟩ := hpasses.managed
    obtain ⟨start,rows,started,hstart,hrows,hids,hnodup⟩ := hpasses.started
    have hprepared : Prepared py baseline sample proof before after ⟨managed,started,before,after⟩ := by
      refine ⟨hpasses.listings,hpasses.run,hpasses.differs,hpasses.window,hpasses.changed,fun row hrow => ?_,
        ⟨sections,hsections,hmanaged⟩,⟨start,rows,hstart,hrows,hids,hnodup⟩,rfl,rfl⟩
      obtain ⟨addressPort,owner,haddress,-⟩ := hpasses.owners row hrow
      rw [haddress]
      rfl
    obtain ⟨differences,hcompared,hne,hprepare⟩ := ok_of_prepared hprepared
    cases differences with
    | nil => exact absurd rfl hne
    | cons difference rest =>
      have hverdict : foreignUdpOwnerChanges py baseline sample proof = attributeRows py ⟨managed,started,before,after⟩ .start
          (changedRows (normalizeRows py "listen_ports" before) (normalizeRows py "listen_ports" after)) := by
        rw [foreignUdpOwnerChanges,hcompared]
        dsimp only
        rw [hprepare]
      rw [hverdict,attributeRows_rawEqual]
      refine ⟨(attributeRows_accepted rfl rfl).mpr ⟨.inr hpasses.changed,fun row hrow => ?_⟩,rfl⟩
      exact (owned_iff hprepared row).mpr (hpasses.owners row hrow)

omit [DecidableEq ρ] in
theorem listings_functional {before' after' : Text} (h : Listings baseline sample before after)
    (h' : Listings baseline sample before' after') : before = before' ∧ after = after' := by
  obtain ⟨sections,current,hsections,hcurrent,hbefore,hafter⟩ := h
  obtain ⟨sections',current',hsections',hcurrent',hbefore',hafter'⟩ := h'
  obtain rfl : sections = sections' := Option.some.inj (hsections.symm.trans hsections')
  obtain rfl : current = current' := Option.some.inj (hcurrent.symm.trans hcurrent')
  exact ⟨Option.some.inj (hbefore.symm.trans hbefore'),Option.some.inj (hafter.symm.trans hafter')⟩

/-- What the code looks up is environmental as soon as the evidence passes, so only unseen owners can spoil the verdict. -/
theorem sound_of_unseenEnvironmental (hunseen : ∀ before after, Passes py baseline sample proof before after →
    UnseenEnvironmental py baseline proof before after) : Sound py baseline sample proof := by
  intro haccepted hraw before after hlistings addressPort hchanged pid hcount
  obtain ⟨before',after',hpasses⟩ := accepted_iff.mp ⟨haccepted,hraw⟩
  obtain ⟨rfl,rfl⟩ := listings_functional hlistings hpasses.listings
  by_cases hseen : Unseen py before after addressPort pid
  · exact hunseen before after hpasses addressPort hchanged pid hcount hseen
  · rw [Unseen] at hseen
    push Not at hseen
    obtain ⟨row,hrow,haddress,howner⟩ := hseen
    obtain ⟨addressPort',owner,haddress',howner',hgood⟩ := hpasses.owners row hrow
    rw [haddress] at haddress'
    cases haddress'
    rw [howner] at howner'
    cases howner'
    exact hgood

/-- The raw rows of a changed endpoint have one process in both listings. -/
def SingleOwner (py : Runtime) (before after : Text) : Prop :=
  ∀ addressPort, endpointCount py before addressPort ≠ endpointCount py after addressPort → ∃ pid,
    ∀ row ∈ rawRows py before++rawRows py after, row.1 = addressPort → Text.readInt row.2 = some pid

theorem exists_changed {addressPort : Text} (h : endpointCount py before addressPort ≠ endpointCount py after addressPort) :
    ∃ row ∈ changedRows (normalizeRows py "listen_ports" before) (normalizeRows py "listen_ports" after),
      udpAddress py row.2 = some addressPort := by
  obtain ⟨line,hline,hremoved | hadded⟩ := exists_surplus h
  · exact ⟨(.removed,line),List.mem_append_left _ (List.mem_map_of_mem hremoved),of_decide_eq_true hline⟩
  · exact ⟨(.added,line),List.mem_append_right _ (List.mem_map_of_mem hadded),of_decide_eq_true hline⟩

theorem rawOwner_mem {text addressPort : Text} {owner : ℤ} (h : rawOwner py text addressPort = .ok owner) :
    ∃ row ∈ rawRows py text, row.1 = addressPort ∧ Text.readInt row.2 = some owner := by
  rw [rawOwner] at h
  cases hfind : (rawRows py text).find? fun row => row.1 = addressPort with
  | none =>
    rw [hfind] at h
    cases h
  | some row =>
    rw [hfind] at h
    have hkey := List.find?_some hfind
    exact ⟨row,List.mem_of_find?_eq_some hfind,of_decide_eq_true hkey,field_eq_ok.mp h⟩

theorem sound_of_singleOwner (h : ∀ before after, Listings baseline sample before after → SingleOwner py before after) :
    Sound py baseline sample proof := by
  refine sound_of_unseenEnvironmental fun before after hpasses addressPort hchanged pid hcount hunseen => ?_
  obtain ⟨single,hsingle⟩ := h before after hpasses.listings addressPort hchanged
  obtain ⟨row,hrow,haddress⟩ := exists_changed hchanged
  obtain ⟨addressPort',owner,haddress',howner,-⟩ := hpasses.owners row hrow
  obtain rfl : addressPort = addressPort' := Option.some.inj (haddress.symm.trans haddress')
  -- the first listed owner is the only one
  have hfirst : owner = single := by
    obtain ⟨raw,hraw,hkey,hread⟩ := rawOwner_mem howner
    have hmem : raw ∈ rawRows py before++rawRows py after := by
      cases hdirection : row.1 with
      | removed =>
        rw [hdirection] at hraw
        exact List.mem_append_left _ hraw
      | added =>
        rw [hdirection] at hraw
        exact List.mem_append_right _ hraw
    exact Option.some.inj (hread.symm.trans (hsingle raw hmem hkey))
  have hlisted : ∃ raw ∈ rawRows py before++rawRows py after, raw.1 = addressPort ∧ Text.readInt raw.2 = some pid := by
    by_contra hno
    have hzero : ∀ text, (∀ raw ∈ rawRows py text, raw ∈ rawRows py before++rawRows py after) →
        ownerCount py text addressPort pid = 0 := by
      intro text hsub
      refine List.countP_eq_zero.mpr fun raw hraw hself => hno ⟨raw,hsub raw hraw,?_⟩
      simpa using hself
    exact hcount ((hzero before fun _ => List.mem_append_left _).trans (hzero after fun _ => List.mem_append_right _).symm)
  obtain ⟨raw,hmem,hkey,hread⟩ := hlisted
  have hpid : pid = single := Option.some.inj (hread.symm.trans (hsingle raw hmem hkey))
  refine absurd ?_ (hunseen row hrow haddress)
  rw [howner,hfirst,hpid]

section Example

def plainRuntime : Runtime where
  upper text := text.map Char.toUpper
  isdigit text := text.all Char.isDigit
  loads := Json.loads
  truncate _ := none
  normalizeJson _ _ := .ok none

/-- A listing, and four sections that do not change. -/
def capture (listing : Text) : Sections := fun name =>
  if name = "listen_ports" then some listing
  else if name = "windivert_processes" then some "\x7b\"managed\": []\x7d".toList
  else some "same".toList

def mdnsBefore : Text := "UDP 0.0.0.0:5353 *:* 100".toList

def mdnsAfter : Text := "UDP 0.0.0.0:5353 *:* 100\nUDP 0.0.0.0:5353 *:* 999".toList

def mdnsAddress : Text := "0.0.0.0:5353".toList

def mdnsRow : Text := "UDP 0.0.0.0:5353 *:*".toList

def mdnsBaseline : Baseline ℕ := ⟨some 1,some (capture mdnsBefore),some 5⟩

def mdnsSample : Sample ℕ := ⟨some 1,some (capture mdnsAfter)⟩

def mdnsStart : StartMarker ℕ := ⟨some 1,some 0,some [⟨some (.int 100),some "before".toList⟩]⟩

def mdnsProof : Proof ℕ := ⟨some 1,some mdnsStart,none⟩

theorem mdns_evaluated :
    (splitlines mdnsBefore).filterMap (sectionRow plainRuntime "listen_ports") = [mdnsRow] ∧
    (splitlines mdnsAfter).filterMap (sectionRow plainRuntime "listen_ports") = [mdnsRow,mdnsRow] ∧
    managedProcessIds plainRuntime (capture mdnsBefore "windivert_processes") = .ok [] ∧
    changedRows mdnsRow (mdnsRow++ '\n' :: mdnsRow) = [(.added,mdnsRow)] := by
  decide +kernel

theorem normalize_mdnsBefore : normalizeRows plainRuntime "listen_ports" mdnsBefore = mdnsRow := by
  have hrows := mdns_evaluated.1
  rw [normalizeRows,hrows,List.mergeSort_singleton]
  rfl

theorem normalize_mdnsAfter : normalizeRows plainRuntime "listen_ports" mdnsAfter = mdnsRow++ '\n' :: mdnsRow := by
  have hrows := mdns_evaluated.2.1
  rw [normalizeRows,hrows,List.mergeSort_of_pairwise (by simp)]
  decide

theorem capture_same {name : String} {x y : Text} (h : name ≠ "listen_ports") :
    compareSection plainRuntime (capture x) (capture y) name = .ok none := by
  have hsame : capture x name = capture y name := by rw [capture,capture,if_neg h,if_neg h]
  obtain ⟨text,htext,hfailed⟩ : ∃ text, capture y name = some text ∧ text ≠ collectionFailed := by
    rw [capture,if_neg h]
    split
    · exact ⟨_,rfl,by decide⟩
    · exact ⟨_,rfl,by decide⟩
  have hplain : BaselineAudit.normalize plainRuntime name text = .ok (normalizeRows plainRuntime name text) := by
    rw [BaselineAudit.normalize.eq_1]
    split <;> rfl
  rw [compareSection,hsame,htext]
  show (if text = collectionFailed ∨ text = collectionFailed then _ else _) = _
  rw [if_neg (by simpa using hfailed),hplain]
  show (if _ ≠ _ then _ else _) = _
  rw [if_neg (not_not.mpr rfl)]
  rfl

theorem mdns_differs : auditCompare plainRuntime (capture mdnsBefore) (capture mdnsAfter) =
    .ok [("listen_ports",⟨false,some mdnsRow,some (mdnsRow++ '\n' :: mdnsRow)⟩)] := by
  have hports : compareSection plainRuntime (capture mdnsBefore) (capture mdnsAfter) "listen_ports" =
      .ok (some ⟨false,some mdnsRow,some (mdnsRow++ '\n' :: mdnsRow)⟩) := by
    have hplain : ∀ text, BaselineAudit.normalize plainRuntime "listen_ports" text =
        .ok (normalizeRows plainRuntime "listen_ports" text) := fun text => if_neg (by decide)
    have hbefore : capture mdnsBefore "listen_ports" = some mdnsBefore := rfl
    have hafter : capture mdnsAfter "listen_ports" = some mdnsAfter := rfl
    have hdiffer : mdnsRow ≠ mdnsRow++ '\n' :: mdnsRow := by decide
    rw [compareSection,hbefore,hafter]
    dsimp only
    rw [if_neg (by decide),hplain,hplain,normalize_mdnsBefore,normalize_mdnsAfter]
    simp [hdiffer,bind,Except.bind,pure,Except.pure]
  rw [auditCompare,baselineFields]
  simp only [compareFrom]
  rw [capture_same (by decide),capture_same (by decide),capture_same (by decide),hports,capture_same (by decide)]
  rfl

theorem mdns_listings : Listings mdnsBaseline mdnsSample mdnsBefore mdnsAfter :=
  ⟨capture mdnsBefore,capture mdnsAfter,rfl,rfl,rfl,rfl⟩

theorem mdns_managed : managedProcessIds plainRuntime (capture mdnsBefore "windivert_processes") = .ok [] :=
  mdns_evaluated.2.2.1

theorem mdns_environmental : Environmental plainRuntime mdnsBaseline mdnsProof 100 := by
  refine ⟨⟨mdnsStart,_,[(100,"before".toList)],rfl,rfl,rfl,by simp⟩,?_⟩
  rintro ⟨sections,ids,hsections,hids,hmem⟩
  cases hsections
  rw [mdns_managed] at hids
  cases hids
  cases hmem

theorem mdns_passes : Passes plainRuntime mdnsBaseline mdnsSample mdnsProof mdnsBefore mdnsAfter := by
  have hchanged := mdns_evaluated.2.2.2
  constructor
  · exact mdns_listings
  · exact ⟨1,mdnsStart,rfl,rfl,rfl,rfl,rfl,rfl⟩
  · refine ⟨capture mdnsBefore,capture mdnsAfter,rfl,rfl,?_⟩
    rw [normalize_mdnsBefore,normalize_mdnsAfter]
    exact mdns_differs
  · exact ⟨mdnsStart,0,5,rfl,rfl,rfl,by norm_num⟩
  · rw [normalize_mdnsBefore,normalize_mdnsAfter,hchanged]
    exact List.cons_ne_nil _ _
  · exact ⟨capture mdnsBefore,[],rfl,mdns_managed⟩
  · exact ⟨mdnsStart,_,[(100,"before".toList)],rfl,rfl,rfl,by simp⟩
  · intro row hrow
    rw [normalize_mdnsBefore,normalize_mdnsAfter,hchanged,List.mem_singleton] at hrow
    subst hrow
    exact ⟨mdnsAddress,100,by decide +kernel,by decide +kernel,mdns_environmental⟩

end Example

end EndpointOwners
end FakeNetNG
