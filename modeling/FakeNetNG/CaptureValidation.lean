import FakeNetNG.CaptureWriter

/-!
# Validating a capture

The report reads the pair back and checks each record of one file against the other file and against
the index. Every call that succeeds leaves a pair and an index that pass.
-/

namespace FakeNetNG
namespace Pcap

structure ReadRecord where
  ordinal : ℕ
  timestamp : ℚ
  data : Bytes

/-- The records, counted from one. -/
def enumerate (records : List (ℚ × Bytes)) : List ReadRecord :=
  (records.zipIdx 1).map fun x => ⟨x.2,x.1.1,x.1.2⟩

def readPcap (f : Format) (file : Bytes) : Except String (List ReadRecord) :=
  match f.read file with
  | some records => .ok (enumerate records)
  | none => .error "unable to read PCAP"

def require (condition : Prop) [Decidable condition] (message : String) : Except String Unit :=
  if condition then .ok () else .error message

def tolerance : ℚ := 1/1000000

/-- The first byte has an IP version. -/
def isIp : Bytes → Bool
  | [] => false
  | first :: _ => versionOf first = 4 || versionOf first = 6

def validatePairRecord (raw ethernet : ReadRecord) : Except String Unit := do
  require (raw.ordinal = ethernet.ordinal) s!"raw/converted ordinal mismatch at {raw.ordinal}"
  let ethertype := (ethernet.data.drop 12).take 2
  require (14 ≤ ethernet.data.length ∧ (ethertype = etherType 4 ∨ ethertype = etherType 6))
    s!"unable to decode converted record {raw.ordinal}: invalid Ethernet header"
  let convertedRaw := ethernet.data.drop 14
  require (isIp raw.data) s!"raw record {raw.ordinal} is not an IP packet"
  require (ethertype = etherType (versionOf (raw.data.headD 0)))
    s!"converted record {raw.ordinal} has the wrong IP EtherType"
  require (isIp convertedRaw) s!"converted record {raw.ordinal} is not an IP packet"
  require (convertedRaw = raw.data) s!"converted record {raw.ordinal} does not embed the raw IP packet"
  require (¬tolerance < |raw.timestamp-ethernet.timestamp|)
    s!"raw/converted timestamp mismatch at ordinal {raw.ordinal}"

def validatePair (raw : List ReadRecord) (converted : Option (List ReadRecord)) : Except String Unit :=
  match converted with
  | none => .ok ()
  | some converted => do
    require (raw.length = converted.length)
      s!"raw/converted record count mismatch: {raw.length}/{converted.length}"
    (raw.zip converted).forM fun x => validatePairRecord x.1 x.2

/-- An entry without a timestamp differs from no record. -/
def timestampDiffers : Option ℚ → ℚ → Bool
  | none,_ => false
  | some timestamp,recorded => tolerance < |timestamp-recorded|

def validateIndexRecord (sha256 : Bytes → String) (raw : ReadRecord) (entry : Entry) :
    Except String Unit := do
  require (entry.ordinal = raw.ordinal) s!"observation ordinal mismatch at {raw.ordinal}"
  require (entry.length = raw.data.length) s!"observation length mismatch at {raw.ordinal}"
  require (entry.sha256 = sha256 raw.data) s!"observation hash mismatch at {raw.ordinal}"
  require (¬timestampDiffers entry.timestamp raw.timestamp)
    s!"observation timestamp mismatch at {raw.ordinal}"
  require (entry.observationRole ∈ observationRoles) s!"invalid observation role at {raw.ordinal}"

def validateIndex (sha256 : Bytes → String) (raw : List ReadRecord) (entries : List Entry) :
    Except String Unit := do
  require (raw.length = entries.length)
    s!"observation index/PCAP count mismatch: {entries.length}/{raw.length}"
  (raw.zip entries).forM fun x => validateIndexRecord sha256 x.1 x.2

theorem require_bind {condition : Prop} [Decidable condition] {message : String}
    {next : Unit → Except String Unit} (h : condition) : (require condition message >>= next) = next () := by
  rw [require,if_pos h]
  rfl

theorem forM_ok {α : Type} {check : α → Except String Unit} {l : List α}
    (h : ∀ x ∈ l, check x = .ok ()) : l.forM check = .ok () := by
  induction l with
  | nil => rfl
  | cons x l ih =>
    show (check x >>= fun _ => l.forM check) = _
    rw [h x (by simp)]
    exact ih fun y hy => h y (by simp [hy])

structure PairMatches (raw ethernet : ReadRecord) : Prop where
  ordinal : raw.ordinal = ethernet.ordinal
  isIp : isIp raw.data = true
  data : ethernet.data = ethernetHeader (versionOf (raw.data.headD 0))++raw.data
  timestamp : raw.timestamp = ethernet.timestamp

/-- The index entry is about the record. -/
structure Bound (sha256 : Bytes → String) (raw : ReadRecord) (entry : Entry) : Prop where
  ordinal : entry.ordinal = raw.ordinal
  length : entry.length = raw.data.length
  sha256 : entry.sha256 = sha256 raw.data
  timestamp : ∃ t, entry.timestamp = some t ∧ |t-raw.timestamp| ≤ tolerance
  role : entry.observationRole ∈ observationRoles

theorem isIp_version {data : Bytes} (h : isIp data = true) :
    versionOf (data.headD 0) = 4 ∨ versionOf (data.headD 0) = 6 := by
  cases data with
  | nil => cases h
  | cons first rest => simpa [isIp] using h

theorem PairMatches.validates {raw ethernet : ReadRecord} (h : PairMatches raw ethernet) :
    validatePairRecord raw ethernet = .ok () := by
  have htype : (ethernet.data.drop 12).take 2 = etherType (versionOf (raw.data.headD 0)) := by
    rw [h.data]
    obtain hv | hv := isIp_version h.isIp <;> rw [hv] <;> rfl
  have hdrop : ethernet.data.drop 14 = raw.data := by
    rw [h.data]
    obtain hv | hv := isIp_version h.isIp <;> rw [hv] <;> rfl
  have hlength : 14 ≤ ethernet.data.length := by
    rw [h.data]
    obtain hv | hv := isIp_version h.isIp <;> rw [hv] <;>
      simp [ethernetHeader,ethernetDestination,ethernetSource,etherType]
  have hknown : (ethernet.data.drop 12).take 2 = etherType 4 ∨
      (ethernet.data.drop 12).take 2 = etherType 6 := by
    rw [htype]
    obtain hv | hv := isIp_version h.isIp
    · exact .inl (by rw [hv])
    · exact .inr (by rw [hv])
  unfold validatePairRecord
  rw [require_bind h.ordinal,require_bind ⟨hlength,hknown⟩,require_bind h.isIp,require_bind htype,
    require_bind (by rw [hdrop]; exact h.isIp),require_bind hdrop,require,if_pos]
  rw [h.timestamp]
  simp [tolerance]

theorem Bound.validates {sha256 : Bytes → String} {raw : ReadRecord} {entry : Entry}
    (h : Bound sha256 raw entry) : validateIndexRecord sha256 raw entry = .ok () := by
  obtain ⟨t,ht,hnear⟩ := h.timestamp
  have htime : ¬timestampDiffers entry.timestamp raw.timestamp = true := by
    rw [ht]
    simpa [timestampDiffers] using hnear
  unfold validateIndexRecord
  rw [require_bind h.ordinal,require_bind h.length,require_bind h.sha256,require_bind htime,require,
    if_pos h.role]

theorem validatePair_ok {raw ethernet : List ReadRecord} (h : List.Forall₂ PairMatches raw ethernet) :
    validatePair raw (some ethernet) = .ok () := by
  obtain ⟨hlength,hall⟩ := List.forall₂_iff_zip.mp h
  unfold validatePair
  simp only [require_bind hlength]
  exact forM_ok fun x hx => (hall hx).validates

theorem validateIndex_ok {sha256 : Bytes → String} {raw : List ReadRecord} {entries : List Entry}
    (h : List.Forall₂ (Bound sha256) raw entries) : validateIndex sha256 raw entries = .ok () := by
  obtain ⟨hlength,hall⟩ := List.forall₂_iff_zip.mp h
  unfold validateIndex
  simp only [require_bind hlength]
  exact forM_ok fun x hx => (hall hx).validates

/-- The packet was written at a time of the writer's clock. -/
structure Written where
  clock : ℚ
  data : Bytes

namespace Written

variable (f : Format)

def record (w : Written) (data : Bytes) : Record :=
  ⟨truncate w.clock,intround (f.subseconds w.clock),data⟩

def raw (w : Written) : Record := w.record f w.data

def ethernet (w : Written) : Record :=
  w.record f (ethernetHeader (versionOf (w.data.headD 0))++w.data)

end Written

/-- The index entry is about the packet that was written as the record with this ordinal. -/
structure Indexed (sha256 : Bytes → String) (w : Written × ℕ) (entry : Entry) : Prop where
  ordinal : entry.ordinal = w.2
  length : entry.length = w.1.data.length
  sha256 : entry.sha256 = sha256 w.1.data
  timestamp : entry.timestamp = some w.1.clock
  role : entry.observationRole ∈ observationRoles

/-- Both files hold what was written. -/
structure Writer.Holds (f : Format) (w : Writer) (written : List Written) : Prop where
  raw : ∃ bytes, f.packAll (written.map (Written.raw f)) = some bytes ∧
    w.rawFile = f.fileHeader .raw w.snaplen++bytes
  ethernet : ∃ bytes, f.packAll (written.map (Written.ethernet f)) = some bytes ∧
    w.ethernetFile = f.fileHeader .ethernet w.snaplen++bytes
  rawCount : w.rawWriteCount = written.length
  isIp : ∀ x ∈ written, isIp x.data = true

structure Diverter.Holds {ρ : Type} (f : Format) (sha256 : Bytes → String) (s : Diverter ρ)
    (written : List Written) : Prop where
  writer : s.writer.Holds f written
  entries : List.Forall₂ (Indexed sha256) (written.zipIdx 1) s.index.entries

namespace Writer

open Fallible

variable {f : Format}

theorem append_eq {fault : Option ℕ} {r : Record} {bytes : Bytes}
    (h : append f fault r = (bytes,none)) : f.pack r = some bytes := by
  unfold append at h
  split at h
  · cases h
  · next hpack =>
    cases h
    exact hpack
  · cases h

theorem holds_openPair (snaplen : ℕ) : (openPair f snaplen).Holds f [] where
  raw := ⟨[],rfl,by simp [openPair]⟩
  ethernet := ⟨[],rfl,by simp [openPair]⟩
  rawCount := rfl
  isIp := by simp

theorem wp_writeIpPacket {w : Writer} {written : List Written} (hw : w.Holds f written) (c : Conditions)
    (raw : Bytes) :
    wp (writeIpPacket f c raw)
      (fun b w' => b = true → w'.Holds f (written++[⟨c.clock,raw⟩]) ∧
        w'.lastRecordOrdinal = written.length+1 ∧ w'.lastTimestamp = some c.clock)
      (fun _ _ => True) w := by
  obtain ⟨rawBytes,hraw,hrawFile⟩ := hw.raw
  obtain ⟨ethernetBytes,hethernet,hethernetFile⟩ := hw.ethernet
  unfold wp writeIpPacket
  by_cases hclosed : w.closed = true
  · simp [hclosed]
  simp only [hclosed,Bool.false_eq_true,if_false]
  cases herror : w.writeError with
  | some message => trivial
  | none =>
    cases raw with
    | nil => exact fun h => by cases h
    | cons first rest =>
      by_cases hversion : versionOf first ≠ 4 ∧ versionOf first ≠ 6
      · simp [hversion]
      simp only [if_neg hversion]
      split_ifs with hlong
      · simp [fail]
      cases happend : append f c.rawWrite
          ⟨truncate c.clock,intround (f.subseconds c.clock),first :: rest⟩ with
      | mk bytes e =>
        cases e with
        | some e => trivial
        | none =>
          cases happend' : append f c.ethernetWrite ⟨truncate c.clock,
              intround (f.subseconds c.clock),ethernetHeader (versionOf first)++first :: rest⟩ with
          | mk bytes' e' =>
            cases e' with
            | some e' => trivial
            | none =>
              have hpack : f.pack (Written.raw f ⟨c.clock,first :: rest⟩) = some bytes :=
                append_eq happend
              have hpack' : f.pack (Written.ethernet f ⟨c.clock,first :: rest⟩) = some bytes' :=
                append_eq happend'
              intro _
              refine ⟨⟨⟨rawBytes++bytes,?_,?_⟩,⟨ethernetBytes++bytes',?_,?_⟩,?_,?_⟩,?_,rfl⟩
              · simpa using Format.packAll_snoc hraw hpack
              · simp [hrawFile]
              · simpa using Format.packAll_snoc hethernet hpack'
              · simp [hethernetFile]
              · simp [hw.rawCount]
              · intro x hx
                obtain hx | rfl := by simpa using hx
                · exact hw.isIp x hx
                · by_contra h
                  simp [isIp] at h
                  exact hversion h
              · simp [hw.rawCount]

end Writer

/-- A record that is indexed has the ordinal that is expected and describes the packet. -/
theorem Index.wp_record {sha256 : Bytes → String} {i : Index} {written : List Written}
    (hi : List.Forall₂ (Indexed sha256) (written.zipIdx 1) i.entries) (raw : Bytes)
    (observationRole direction : String) (logicalPacketId flowId : Option String) (t : ℚ)
    (recordOrdinal : Option ℕ) :
    Fallible.wp (record sha256 raw observationRole logicalPacketId flowId direction (some t) recordOrdinal)
      (fun _ i' => List.Forall₂ (Indexed sha256) ((written++[Written.mk t raw]).zipIdx 1) i'.entries)
      (fun _ _ => True) i := by
  have hlength : i.entries.length = written.length := by simpa using hi.length_eq.symm
  unfold Fallible.wp record
  by_cases hrole : observationRole ∈ observationRoles
  · by_cases hempty : raw = []
    · simp [hrole,hempty]
    by_cases hordinal : recordOrdinal.getD (i.entries.length+1) = i.entries.length+1
    · simp only [hrole,hempty,hordinal,not_true,if_false,ne_eq]
      rw [List.zipIdx_append]
      have hlast : Indexed sha256 (⟨t,raw⟩,1+written.length)
          ⟨i.entries.length+1,orElse (logicalPacketId.getD "") (packetName (i.entries.length+1)),
            observationRole,orElse direction "unknown",raw.length,sha256 raw,flowId,some t⟩ :=
        ⟨by simp [hlength,Nat.add_comm],rfl,rfl,rfl,hrole⟩
      exact List.rel_append hi (.cons hlast .nil)
    · simp [hrole,hempty,hordinal]
  · simp [hrole]

namespace Diverter

open Fallible

variable {ρ : Type} {f : Format} {sha256 : Bytes → String}
  {observePacket : Bytes → String → ℚ → String → Fallible ρ Raised (Option String)}
  {s : Diverter ρ} {written : List Written}

theorem wp_onWriter {α : Type} {m : Fallible Writer Raised α} {Q : α → Writer → Prop}
    (h : wp m Q (fun _ _ => True) s.writer) :
    wp (onWriter m) (fun a s' => Q a s'.writer ∧ s'.index = s.index) (fun _ _ => True) s := by
  unfold wp at h ⊢
  unfold onWriter
  generalize m s.writer = r at h ⊢
  obtain ⟨_ | a,w⟩ := r
  · trivial
  · exact ⟨h,rfl⟩

theorem wp_onIndex {α : Type} {m : Fallible Index Raised α} {Q : α → Index → Prop}
    (h : wp m Q (fun _ _ => True) s.index) :
    wp (onIndex m) (fun a s' => Q a s'.index ∧ s'.writer = s.writer) (fun _ _ => True) s := by
  unfold wp at h ⊢
  unfold onIndex
  generalize m s.index = r at h ⊢
  obtain ⟨_ | a,i⟩ := r
  · trivial
  · exact ⟨h,rfl⟩

theorem wp_onRegistry {α : Type} (m : Fallible ρ Raised α) :
    wp (onRegistry m) (fun _ s' => s'.writer = s.writer ∧ s'.index = s.index) (fun _ _ => True) s := by
  unfold wp onRegistry
  generalize m s.registry = r
  obtain ⟨_ | a,i⟩ := r
  · trivial
  · exact ⟨rfl,rfl⟩

theorem wp_newLogicalPacketId (hs : s.Holds f sha256 written) :
    wp (onIndex Index.newLogicalPacketId) (fun _ (s' : Diverter ρ) => s'.Holds f sha256 written)
      (fun _ _ => True) s := ⟨hs.writer,hs.entries⟩

theorem wp_logicalPacketIdOf (hs : s.Holds f sha256 written) (pkt : Packet) :
    wp (logicalPacketIdOf pkt) (fun _ s' => s'.Holds f sha256 written) (fun _ _ => True) s := by
  unfold logicalPacketIdOf
  rw [wp_bind,wp_get]
  split
  · exact hs
  · exact ⟨hs.writer,hs.entries⟩

theorem wp_capture (hs : s.Holds f sha256 written) (e : Surroundings) (raw : Bytes)
    (observationRole direction logicalPacketId : String) :
    wp (capture f sha256 observePacket e raw observationRole direction logicalPacketId)
      (fun _ s' => s'.Holds f sha256 (written++[⟨e.clock,raw⟩])) (fun _ _ => True) s := by
  unfold capture
  rw [wp_bind]
  refine wp_mono (wp_onRegistry _) (fun flowId s₁ h₁ => ?_) fun _ _ h => h
  obtain ⟨hwriter,hindex⟩ := h₁
  have hs₁ : s₁.writer.Holds f written := hwriter ▸ hs.writer
  rw [wp_bind]
  refine wp_mono (wp_onWriter (Writer.wp_writeIpPacket hs₁ e.toConditions raw)) (fun b s₂ h₂ => ?_)
    fun _ _ h => h
  obtain ⟨hwritten,hindex₂⟩ := h₂
  cases b with
  | false => trivial
  | true =>
    obtain ⟨hs₂,-,htime⟩ := hwritten rfl
    have hentries : List.Forall₂ (Indexed sha256) (written.zipIdx 1) s₂.index.entries := by
      rw [hindex₂,hindex]
      exact hs.entries
    simp only [Bool.true_eq_false,if_false,wp_bind,wp_get,htime,Option.getD_some]
    refine wp_mono (wp_onIndex (Index.wp_record hentries _ _ _ _ _ _ _)) (fun entry s₃ h₃ => ?_)
      fun _ _ h => h
    have hs₃ : s₃.Holds f sha256 (written++[⟨e.clock,raw⟩]) := ⟨h₃.2 ▸ hs₂,h₃.1⟩
    split
    · trivial
    · exact hs₃

/-- A call that returns leaves everything as it was, or has written and indexed its packet. -/
def Extends (f : Format) (sha256 : Bytes → String) (written : List Written) (clock : ℚ) (raw : Bytes)
    (s : Diverter ρ) : Prop :=
  s.Holds f sha256 written ∨ s.Holds f sha256 (written++[⟨clock,raw⟩])

theorem wp_writePcapLocked (hs : s.Holds f sha256 written) (e : Surroundings) (pkt : Packet) :
    wp (writePcapLocked f sha256 observePacket e pkt)
      (fun _ s' => s'.Extends f sha256 written e.clock pkt.octets) (fun _ _ => True) s := by
  unfold writePcapLocked
  split
  · exact .inl hs
  rw [wp_bind]
  refine wp_mono (wp_logicalPacketIdOf hs pkt) (fun logicalPacketId s₁ hs₁ => ?_) fun _ _ h => h
  rw [wp_bind,wp_get]
  split
  · exact .inl hs₁
  rw [wp_bind]
  refine wp_mono (wp_capture hs₁ e _ _ _ _) (fun r s₂ hs₂ => ?_) fun _ _ h => h
  exact .inr ⟨hs₂.writer,hs₂.entries⟩

theorem wp_recordRawCaptureLocked (hs : s.Holds f sha256 written) (e : Surroundings) (raw : Bytes)
    (observationRole direction : String) (logicalPacketId : Option String) :
    wp (recordRawCaptureLocked f sha256 observePacket e raw observationRole direction logicalPacketId)
      (fun _ s' => s'.Extends f sha256 written e.clock raw) (fun _ _ => True) s := by
  have hcapture : ∀ (s' : Diverter ρ), s'.Holds f sha256 written → ∀ logicalPacketId,
      wp (do
        let r ← capture f sha256 observePacket e raw observationRole direction logicalPacketId
        pure (some r.2))
        (fun _ s' => s'.Extends f sha256 written e.clock raw) (fun _ _ => True) s' := by
    intro s' hs' logicalPacketId
    rw [wp_bind]
    exact wp_mono (wp_capture hs' e _ _ _ _) (fun r s₂ hs₂ => .inr hs₂) fun _ _ h => h
  unfold recordRawCaptureLocked
  split
  · exact .inl hs
  cases logicalPacketId with
  | some logicalPacketId => exact hcapture s hs logicalPacketId
  | none =>
    rw [wp_bind]
    exact wp_mono (wp_newLogicalPacketId hs) (fun a s₁ hs₁ => hcapture s₁ hs₁ a) fun _ _ h => h

end Diverter

namespace Call

open Fallible

variable {ρ : Type} {f : Format} {sha256 : Bytes → String}
  {observePacket : Bytes → String → ℚ → String → Fallible ρ Raised (Option String)}

theorem wp_perform {s : Diverter ρ} {written : List Written} (hs : s.Holds f sha256 written)
    (call : Call) :
    wp (call.perform f sha256 observePacket)
      (fun _ s' => s'.Extends f sha256 written call.surroundings.clock call.octets)
      (fun _ _ => True) s := by
  cases call with
  | writePcap e pkt =>
    rw [perform,wp_bind]
    exact Diverter.wp_writePcapLocked hs e pkt
  | recordRawCapture e raw observationRole direction logicalPacketId =>
    rw [perform,wp_bind]
    exact Diverter.wp_recordRawCaptureLocked hs e raw observationRole direction logicalPacketId

/-- The calls up to any point have written, in their order, the packets of some of them. -/
theorem wp_performAll {calls : List Call} (hclock : ∀ call ∈ calls, 0 ≤ call.surroundings.clock)
    {s : Diverter ρ} {written : List Written} (hs : s.Holds f sha256 written)
    (hwritten : ∀ w ∈ written, 0 ≤ w.clock) :
    wp (performAll f sha256 observePacket calls)
      (fun _ s' => ∃ more, s'.Holds f sha256 (written++more) ∧ (∀ w ∈ written++more, 0 ≤ w.clock) ∧
        List.Sublist (more.map Written.data) (calls.map octets))
      (fun _ _ => True) s := by
  induction calls generalizing s written with
  | nil => exact ⟨[],by simpa using hs,by simpa using hwritten,by simp⟩
  | cons call calls ih =>
    have hclock' : ∀ call ∈ calls, 0 ≤ call.surroundings.clock := fun c hc => hclock c (by simp [hc])
    show wp (_ >>= fun _ => _) _ _ _
    rw [wp_bind]
    refine wp_mono (wp_perform hs call) (fun _ s₁ hs₁ => ?_) fun _ _ h => h
    obtain hs₁ | hs₁ := hs₁
    · refine wp_mono (ih hclock' hs₁ hwritten) (fun _ s₂ h₂ => ?_) fun _ _ h => h
      obtain ⟨more,hs₂,htimes,hsublist⟩ := h₂
      exact ⟨more,hs₂,htimes,hsublist.cons _⟩
    · have hcall : ∀ w ∈ written++[⟨call.surroundings.clock,call.octets⟩], 0 ≤ w.clock := by
        intro w hw
        obtain hw | rfl := by simpa using hw
        · exact hwritten w hw
        · exact hclock call (by simp)
      refine wp_mono (ih hclock' hs₁ hcall) (fun _ s₂ h₂ => ?_) fun _ _ h => h
      obtain ⟨more,hs₂,htimes,hsublist⟩ := h₂
      exact ⟨⟨call.surroundings.clock,call.octets⟩ :: more,by simpa using hs₂,by simpa using htimes,
        by simpa using hsublist⟩

end Call

theorem packAll_mem {f : Format} {records : List Record} {bytes : Bytes}
    (h : f.packAll records = some bytes) {r : Record} (hr : r ∈ records) :
    ∃ header, f.packHdr r.seconds r.subseconds r.data.length r.data.length = some header := by
  induction records generalizing bytes with
  | nil => cases hr
  | cons r' records ih =>
    obtain ⟨head,hhead,htail⟩ := Option.bind_eq_some_iff.mp h
    obtain ⟨tail,htail,-⟩ := Option.map_eq_some_iff.mp htail
    obtain rfl | hr := List.mem_cons.mp hr
    · obtain ⟨header,hheader,-⟩ := Option.map_eq_some_iff.mp hhead
      exact ⟨header,hheader⟩
    · exact ih htail hr

/-- The record that is read back for what was written. -/
def Written.readBack (f : Format) (data : Written → Bytes) (x : Written × ℕ) : ReadRecord :=
  ⟨x.2,f.time (truncate x.1.clock) (intround (f.subseconds x.1.clock)),data x.1⟩

theorem readPcap_written {f : Format} (hf : f.Documented) {written : List Written}
    {data : Written → Bytes} {bytes : Bytes}
    (h : f.packAll (written.map fun w => w.record f (data w)) = some bytes) (link : LinkType)
    (snaplen : ℕ) :
    readPcap f (f.fileHeader link snaplen++bytes) =
      .ok ((written.zipIdx 1).map (Written.readBack f data)) := by
  rw [readPcap,hf.read_packAll link snaplen _ bytes h]
  simp only [enumerate,List.map_map,List.zipIdx_map]
  rfl

/-- Every sequence of calls that all succeed leaves a pair that can be read, that passes the
validation of the report together with the index, and whose records are packets of the calls in
their order, each described by the index entry of its ordinal. -/
theorem written_capture_validates {ρ : Type} {f : Format} (hf : f.Documented) (sha256 : Bytes → String)
    (observePacket : Bytes → String → ℚ → String → Fallible ρ Raised (Option String)) (registry : ρ)
    (calls : List Call) (hclock : ∀ call ∈ calls, 0 ≤ call.surroundings.clock) (s : Diverter ρ)
    (hrun : Call.performAll f sha256 observePacket calls (Diverter.initial f registry) = (.ok (),s)) :
    ∃ raw ethernet, readPcap f s.writer.rawFile = .ok raw ∧
      readPcap f s.writer.ethernetFile = .ok ethernet ∧
      validatePair raw (some ethernet) = .ok () ∧
      validateIndex sha256 raw s.index.entries = .ok () ∧
      List.Forall₂ (Bound sha256) raw s.index.entries ∧
      List.Sublist (raw.map ReadRecord.data) (calls.map Call.octets) := by
  have hinitial : (Diverter.initial f registry).Holds f sha256 [] := ⟨Writer.holds_openPair _,.nil⟩
  have hrun' : Fallible.wp (Call.performAll f sha256 observePacket calls) _ _ _ :=
    Call.wp_performAll hclock hinitial (by simp)
  rw [Fallible.wp,hrun] at hrun'
  obtain ⟨written,hs,htimes,hsublist⟩ := hrun'
  rw [List.nil_append] at hs htimes
  obtain ⟨rawBytes,hraw,hrawFile⟩ := hs.writer.raw
  obtain ⟨ethernetBytes,hethernet,hethernetFile⟩ := hs.writer.ethernet
  have hmem : ∀ x ∈ written.zipIdx 1, x.1 ∈ written := fun x hx => List.fst_mem_of_mem_zipIdx hx
  have hpair : List.Forall₂ PairMatches ((written.zipIdx 1).map (Written.readBack f Written.data))
      ((written.zipIdx 1).map (Written.readBack f fun w =>
        ethernetHeader (versionOf (w.data.headD 0))++w.data)) := by
    rw [List.forall₂_map_left_iff,List.forall₂_map_right_iff,List.forall₂_same]
    exact fun x hx => ⟨rfl,hs.writer.isIp _ (hmem x hx),rfl,rfl⟩
  have hbound : List.Forall₂ (Bound sha256)
      ((written.zipIdx 1).map (Written.readBack f Written.data)) s.index.entries := by
    rw [List.forall₂_map_left_iff]
    have hindexed := (List.forall₂_and_left (p:=fun x : Written × ℕ => x.1 ∈ written) _ _).mpr ⟨hmem,hs.entries⟩
    refine hindexed.imp fun x entry hx => ?_
    obtain ⟨hx,hentry⟩ := hx
    obtain ⟨header,hheader⟩ := packAll_mem hraw (List.mem_map_of_mem hx)
    refine ⟨hentry.ordinal,hentry.length,hentry.sha256,⟨_,hentry.timestamp,?_⟩,hentry.role⟩
    have hnear := hf.time_sub (htimes _ hx) hheader
    exact hnear.trans (by norm_num [tolerance])
  refine ⟨_,_,?_,?_,validatePair_ok hpair,validateIndex_ok hbound,hbound,?_⟩
  · rw [hrawFile]
    exact readPcap_written hf hraw .raw s.writer.snaplen
  · rw [hethernetFile]
    exact readPcap_written hf hethernet .ethernet s.writer.snaplen
  · have hdata : ((written.zipIdx 1).map (Written.readBack f Written.data)).map ReadRecord.data =
        written.map Written.data := by
      rw [List.map_map]
      exact (List.map_map (f:=Prod.fst) (g:=Written.data)).symm.trans
        (by rw [List.zipIdx_map_fst])
    rw [hdata]
    exact hsublist

/-- A packet before and after it was mangled, seen again without a change, and an inbound packet, at
a time whose fraction rounds up to a whole second. -/
def roundingCalls : List Call :=
  let e : Surroundings := ⟨⟨7+9999997/10000000,none,none⟩,false,7,none⟩
  [.writePcap e ⟨0,[0x45,0x01],false,"outbound"⟩,.writePcap e ⟨0,[0x45,0x02],true,"outbound"⟩,
    .writePcap e ⟨0,[0x45,0x02],true,"outbound"⟩,.recordRawCapture e [0x60] "inbound" "inbound" none]

/-- The digest that the example uses in the place of SHA-256. -/
def plainDigest (raw : Bytes) : String := String.ofList (raw.map fun b => Char.ofNat b.toNat)

def noFlow : Bytes → String → ℚ → String → Fallible Unit Raised (Option String) :=
  fun _ _ _ _ s => (.ok none,s)

def roundingRun : Except Raised Unit × Diverter Unit :=
  Call.performAll littleEndian plainDigest noFlow roundingCalls (Diverter.initial littleEndian ())

theorem roundingRun_ok : roundingRun.1 = .ok () := by decide +kernel

theorem written_capture_validates_rounding :
    roundingRun.2.index.entries.length = 3 ∧
    ∃ raw ethernet, readPcap littleEndian roundingRun.2.writer.rawFile = .ok raw ∧
      readPcap littleEndian roundingRun.2.writer.ethernetFile = .ok ethernet ∧
      validatePair raw (some ethernet) = .ok () ∧
      validateIndex plainDigest raw roundingRun.2.index.entries = .ok () ∧
      List.Forall₂ (Bound plainDigest) raw roundingRun.2.index.entries ∧
      List.Sublist (raw.map ReadRecord.data) (roundingCalls.map Call.octets) := by
  refine ⟨by decide +kernel,?_⟩
  refine written_capture_validates littleEndian_documented plainDigest noFlow () roundingCalls ?_
    roundingRun.2 (Prod.ext roundingRun_ok rfl)
  simp [roundingCalls,Call.surroundings]
  norm_num

end Pcap
end FakeNetNG
