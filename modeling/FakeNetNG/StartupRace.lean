import FakeNetNG.EgressConfinement

/-!
# Flows older than the capture

The handler passes a TCP packet unchanged when no SYN of its flow is on record. In a
run of the handler a flow whose SYN was handled stays on record as long as every SYN
gets to the branch that records it, or is on record already, and takes no tuple from
another flow.
-/

namespace FakeNetNG

structure Capture where
  env : PacketEnvironment
  wdpkt : WdPacket

namespace Capture

def pkt (c : Capture) : PacketCtx := .ofWdPacket c.wdpkt c.env.parsed

def isSyn (c : Capture) : Bool := c.pkt.isSyn

def key (c : Capture) : FlowTuple := c.env.parsed.tuple

def synSeen (past : List Capture) : Set FlowTuple := { x | ∃ c ∈ past, c.isSyn = true ∧ c.key = x }

theorem synSeen_snoc (past : List Capture) (c : Capture) :
    synSeen (past++[c]) = synSeen past ∪ { x | c.isSyn = true ∧ c.key = x } := by
  ext x
  simp [synSeen,or_and_right,exists_or]

end Capture

namespace Arrival

variable {a : Arrival} {seen : Set FlowTuple}

/-- The SYN takes its own tuple and the tuple that the base NAT gives it from no flow other
than its own, and its own earlier tuples are no flows with a SYN of their own. -/
structure DisplacesNone (a : Arrival) (seen : Set FlowTuple) : Prop where
  owner : ∀ owner, a.flows.natOwners.get? a.key = some owner → owner = a.key
  own : ∀ keys, a.flows.natTuples.get? a.key = some keys → ∀ x ∈ keys,
    a.flows.natOwners.get? x = some a.key → x ∈ seen → x = a.key
  translated : ∀ x, x = a.translated ∨ x = a.translated.reverse →
    ∀ owner, a.flows.natOwners.get? x = some owner → owner = a.key

/-- A SYN is recorded without displacing another flow, or it is finished by an earlier branch
and its flow is on record already. -/
structure KeepsSyns (a : Arrival) (seen : Set FlowTuple) : Prop where
  reaches : a.isSyn = true → a.SynReaches → a.DisplacesNone seen
  finished : a.isSyn = true → ¬a.SynReaches → a.key ∈ a.flows.synObserved

theorem KeepsSyns.step (h : a.KeepsSyns seen) (hseen : ∀ x ∈ seen, x ∈ a.flows.synObserved) :
    (∀ x ∈ seen, x ∈ a.handled.flows.synObserved) ∧
      (a.isSyn = true → a.key ∈ a.handled.flows.synObserved) := by
  have hrecord : a.DisplacesNone seen → ∀ x ∈ seen, x ∈ (a.flows.recordSyn a.key).synObserved :=
    fun hnone x hx => FlowRecords.recordSyn_synObserved (hseen x hx) hnone.owner
      fun keys hkeys hmem howner => hnone.own keys hkeys x hmem howner hx
  have heffect := a.handled_ended.records
  generalize a.handled.flows = flows at heffect ⊢
  cases heffect with
  | kept hn => exact ⟨hseen,fun hsyn => h.finished hsyn (hn hsyn)⟩
  | observed hsyn hreach =>
    exact ⟨hrecord (h.reaches hsyn hreach),fun _ => FlowRecords.mem_recordSyn a.key⟩
  | translated hsyn hreach =>
    have hnone := h.reaches hsyn hreach
    have htranslated : ∀ x, x = a.translated ∨ x = a.translated.reverse → ∀ owner,
        (a.flows.recordSyn a.key).natOwners.get? x = some owner → owner = a.key :=
      fun x hx owner howner => hnone.translated x hx owner (FlowRecords.recordSyn_natOwners howner)
    exact ⟨fun x hx => FlowRecords.rememberTranslated_synObserved (hrecord hnone x hx) htranslated,
      fun _ => FlowRecords.rememberTranslated_synObserved (FlowRecords.mem_recordSyn a.key)
        htranslated⟩
  | classified hsyn =>
    rw [FlowRecords.classifyMidstream_synObserved]
    exact ⟨hseen,fun htrue => absurd htrue (by simp [hsyn])⟩

end Arrival

namespace WindowsDiverter

variable (d : WindowsDiverter)

def arrive (flows : FlowRecords) (c : Capture) : Arrival := ⟨d,c.env,c.wdpkt,flows⟩

def records (packets : List Capture) : FlowRecords :=
  packets.foldl (fun flows c => (d.arrive flows c).handled.flows) .empty

theorem records_snoc (packets : List Capture) (c : Capture) :
    d.records (packets++[c]) = (d.arrive (d.records packets) c).handled.flows := by
  simp [records]

def KeepsSyns (past : List Capture) (c : Capture) : Prop :=
  (d.arrive (d.records past) c).KeepsSyns (Capture.synSeen past)

def Unbypassed (past : List Capture) (c : Capture) : Prop :=
  c.key ∈ Capture.synSeen past →
    ((d.records past).classifyMidstream c.key).1 = false ∧
      ∀ e ∈ (d.arrive (d.records past) c).handled.trace, e.isBypass = false

theorem synSeen_observed {packets : List Capture} (h : Justified d.KeepsSyns packets) :
    ∀ x ∈ Capture.synSeen packets, x ∈ (d.records packets).synObserved := by
  induction packets using List.reverseRecOn with
  | nil =>
    rintro x ⟨c,hc,-⟩
    cases hc
  | append_singleton packets c ih =>
    have hkeeps : d.KeepsSyns packets c := h packets c [] rfl
    obtain ⟨hold,hnew⟩ := hkeeps.step (ih h.of_append)
    rw [records_snoc,Capture.synSeen_snoc]
    rintro x (hx | ⟨hsyn,rfl⟩)
    · exact hold x hx
    · exact hnew hsyn

end WindowsDiverter

/-- In a run whose SYNs are all recorded without displacing a flow, or on record already when
an earlier branch finishes them, a packet is passed as older than the capture only when no SYN
of its flow was handled. -/
theorem bypass_only_unseen (d : WindowsDiverter) (packets : List Capture)
    (h : Justified d.KeepsSyns packets) : Justified d.Unbypassed packets := by
  intro past c rest heq hseen
  have hpast : Justified d.KeepsSyns past := by
    rw [heq] at h
    exact h.of_append
  have hobserved := d.synSeen_observed hpast c.key hseen
  refine ⟨Bool.eq_false_iff.mpr fun hm => ?_,fun e he => Bool.eq_false_iff.mpr fun hb => ?_⟩
  · exact (FlowRecords.classifyMidstream_fst c.key).mp hm hobserved
  · obtain ⟨-,-,hnot⟩ := (d.arrive (d.records past) c).handled_ended.bypass e he hb
    exact hnot hobserved

def WindowsDiverter.diverting : WindowsDiverter :=
  { WindowsDiverter.sample with
    cfg := { PolicyConfig.twoDomains with nonAllowedAction := .divert }
    isListener := fun _ port => port = 8080 }

def Capture.diverted (tcpFlags : UInt8) : Capture where
  env := { PacketEnvironment.steady (.init .twoDomains [.dotted 10 0 0 5] (Clock.every 1))
      ⟨.dotted 10 0 0 5,50000,.dotted 93 184 216 34,80⟩ tcpFlags.toNat with
    base := fun _ => ⟨⟨.dotted 10 0 0 5,50000,.dotted 10 0 0 5,8080⟩,true⟩ }
  wdpkt := { WdPacket.lookup tcpFlags with
    raw := [0x45,0,0,40,0,1,0,0,128,6,0,0,10,0,0,5,93,184,216,34,
      0xc3,0x50,0,80,0,0,0,1,0,0,0,0,0x50,tcpFlags,0x20,0,0,0,0,0] }

theorem bypass_only_unseen_diverted :
    WindowsDiverter.diverting.Unbypassed [.diverted 2] (.diverted 16) ∧
      (Capture.diverted 16).key ∈ Capture.synSeen [.diverted 2] := by
  have hsyn : WindowsDiverter.diverting.KeepsSyns [] (.diverted 2) := by
    refine ⟨fun _ _ => ⟨fun _ h => (by cases h),fun _ h => (by cases h),fun _ _ _ h => (by cases h)⟩,
      fun _ hn => absurd ?_ hn⟩
    exact ⟨by decide,by decide,by decide,by decide,rfl,rfl,rfl,
      ⟨rfl,by decide⟩,fun h => absurd h (by decide),⟨rfl,by decide⟩,
      fun _ h => (by cases h),⟨rfl,by decide⟩⟩
  have hack : WindowsDiverter.diverting.KeepsSyns [.diverted 2] (.diverted 16) :=
    ⟨fun h => absurd h (by decide),fun h => absurd h (by decide)⟩
  have hkeeps : Justified WindowsDiverter.diverting.KeepsSyns [.diverted 2,.diverted 16] :=
    ((justified_nil _).snoc hsyn).snoc hack
  exact ⟨bypass_only_unseen _ _ hkeeps [.diverted 2] (.diverted 16) [] rfl,
    .diverted 2,List.mem_singleton_self _,by decide,rfl⟩

/-- The lookup of `lookupSyn` once its permit was revoked. -/
def Capture.revokedLookup : List Capture :=
  [⟨.steady .lookupPermitted .lookup 2,.lookup 2⟩,
    ⟨.steady ((PolicyCall.revokeControlFlow "t").body.run .lookupPermitted).2 .lookup 16,.lookup 16⟩]

/-- The SYN went out under its permit and was not recorded, so the next packet of the
connection goes out as older than the capture. -/
theorem revoked_lookup_bypassed :
    ¬Justified WindowsDiverter.sample.Unbypassed Capture.revokedLookup := by
  intro h
  have hlast := h [⟨.steady .lookupPermitted .lookup 2,.lookup 2⟩] _ [] rfl
    ⟨_,List.mem_singleton_self _,by decide,rfl⟩
  revert hlast
  decide +kernel

end FakeNetNG
