import FakeNetNG.Fallible
import FakeNetNG.OriginalsLoad

/-!
# Exact journals

However the calls of a capture raise, an accepted group holds one record for each counted call, in
the order of the calls: as many line ends as the seal counts records leave no torn line.
-/

namespace FakeNetNG
namespace Originals

open Json (Value FloatText)
open Pcap (Format ReadRecord require)
open Utf8 (Torn newline)

/-- A counted call: where it raises and the record it has under a number. -/
structure Append where
  faults : Faults
  record : ℕ → Option Value

namespace Append

theorem newline_notMem_write (v : Value) : newline ∉ Utf8.encode (Json.write v) := by
  intro h
  obtain ⟨c,hc,hnewline⟩ := List.mem_flatMap.mp h
  have hprintable := Json.write_printable v c hc
  rw [Utf8.newline_mem_encodeChar.mp hnewline] at hprintable
  simp at hprintable

/-- What the call leaves in the stream of a journal that takes records. -/
def torn (a : Append) (n : ℕ) : Torn :=
  match a.record n with
  | none => ⟨[],[],by simp,by simp⟩
  | some r => {
      line := Utf8.encode (Json.write r)
      chunk :=
        if a.faults.prepare then []
        else match a.faults.write with
          | some taken => (lineOf r).take taken
          | none => lineOf r
      oneLine := newline_notMem_write r
      isPrefix := by
        split
        · exact List.nil_prefix
        · split
          · exact List.take_prefix _ _
          · exact List.prefix_refl _ }

/-- The record got into the journal as a whole, whether or not the call returned. -/
def Reached (a : Append) (n : ℕ) : Prop := (a.torn n).Whole

theorem Reached.record {a : Append} {n : ℕ} (h : a.Reached n) :
    ∃ r, a.record n = some r ∧ (a.torn n).chunk = lineOf r := by
  unfold Reached Torn.Whole at h
  cases hr : a.record n with
  | none => simp [torn,hr] at h
  | some r => exact ⟨r,rfl,by simpa [torn,hr,lineOf] using h⟩

theorem append_eq (a : Append) (j : Journal) (n : ℕ) :
    (j.append false a.faults (a.record n)).2 = { j with bytes := j.bytes++(a.torn n).chunk } ∧
      ((j.append false a.faults (a.record n)).1 = true → a.Reached n) := by
  unfold Reached Torn.Whole
  cases hr : a.record n with
  | none =>
    by_cases hprepare : a.faults.prepare = true <;> simp [Journal.append,torn,hr,hprepare]
  | some r =>
    by_cases hprepare : a.faults.prepare = true
    · simp [Journal.append,torn,hr,hprepare]
    · cases hwrite : a.faults.write <;> simp [Journal.append,torn,hr,hprepare,hwrite,lineOf]

end Append

/-- The counted calls of one journal from a number on. -/
def tornLines (appends : List Append) (start : ℕ) : List Torn :=
  (appends.zipIdx start).map fun x => x.1.torn x.2

def AllReached (appends : List Append) : Prop := ∀ x ∈ appends.zipIdx 1, x.1.Reached x.2

/-- The records of the counted calls, numbered from one. -/
def recordsOf (appends : List Append) : Option (List Value) :=
  (appends.zipIdx 1).mapM fun x => x.1.record x.2

theorem AllReached.records {appends : List Append} (h : AllReached appends) :
    ∃ records, recordsOf appends = some records ∧
      (tornLines appends 1).flatMap Torn.chunk = records.flatMap lineOf := by
  unfold recordsOf tornLines
  unfold AllReached at h
  generalize appends.zipIdx 1 = numbered at h ⊢
  induction numbered with
  | nil => exact ⟨[],rfl,rfl⟩
  | cons x numbered ih =>
    obtain ⟨records,hrecords,hchunks⟩ := ih fun y hy => h y (by simp [hy])
    obtain ⟨r,hr,hchunk⟩ := (h x (by simp)).record
    exact ⟨r :: records,by simp [hr,hrecords],by simp [hchunk,hchunks]⟩

def Call.observationAppend (captureId : Text) : Call → Option Append
  | .recordObservation c => c.entry.map fun entry => ⟨c.faults,fun n => observationRecord captureId n entry⟩
  | .recordNbi _ => none

def Call.nbiAppend (captureId : Text) : Call → Option Append
  | .recordObservation _ => none
  | .recordNbi c => c.nbi.map fun nbi => ⟨c.faults,fun n => some (nbiRecord captureId n c nbi)⟩

def observationAppends (captureId : Text) (calls : List Call) : List Append :=
  calls.filterMap (Call.observationAppend captureId)

def nbiAppends (captureId : Text) (calls : List Call) : List Append :=
  calls.filterMap (Call.nbiAppend captureId)

def Journal.after (j : Journal) (appends : List Append) : Journal where
  bytes := j.bytes++(tornLines appends (j.count+1)).flatMap Torn.chunk
  count := j.count+appends.length

theorem Journal.after_nil (j : Journal) : j.after [] = j := by simp [after,tornLines]

theorem Journal.after_append (j : Journal) (l l' : List Append) :
    j.after (l++l') = (j.after l).after l' := by
  simp [after,tornLines,List.zipIdx_append,Nat.add_assoc,Nat.add_comm 1]

theorem Journal.after_cons (j : Journal) (a : Append) (appends : List Append) :
    j.after (a :: appends) =
      (Journal.mk (j.bytes++(a.torn (j.count+1)).chunk) (j.count+1)).after appends := by
  simp [after,tornLines,Nat.add_assoc,Nat.add_comm 1]

namespace Writer

/-- What one call does to both journals, and that a call which returns was counted and reached its
journal. -/
theorem call_eq {w : Writer} (hw : w.stopped = false) (c : Call) :
    (w.call c).2 = { w with
      observations := w.observations.after (c.observationAppend w.captureId).toList
      nbis := w.nbis.after (c.nbiAppend w.captureId).toList } := by
  cases c with
  | recordObservation c =>
    cases hentry : c.entry with
    | none => simp [call,recordObservation,hentry,Call.observationAppend,Call.nbiAppend,Journal.after_nil]
    | some entry =>
      have happend := (Append.append_eq ⟨c.faults,fun n => observationRecord w.captureId n entry⟩
        { w.observations with count := w.observations.count+1 } (w.observations.count+1)).1
      simp [call,recordObservation,hentry,hw,happend,Call.observationAppend,Call.nbiAppend,
        Journal.after_nil,Journal.after_cons]
  | recordNbi c =>
    cases hnbi : c.nbi with
    | none => simp [call,recordNbi,hnbi,Call.observationAppend,Call.nbiAppend,Journal.after_nil]
    | some nbi =>
      have happend := (Append.append_eq ⟨c.faults,fun n => some (nbiRecord w.captureId n c nbi)⟩
        { w.nbis with count := w.nbis.count+1 } (w.nbis.count+1)).1
      simp [call,recordNbi,hnbi,hw,happend,Call.observationAppend,Call.nbiAppend,Journal.after_nil,
        Journal.after_cons]

theorem run_eq {w : Writer} (hw : w.stopped = false) (calls : List Call) :
    (w.run calls).2 = { w with
      observations := w.observations.after (observationAppends w.captureId calls)
      nbis := w.nbis.after (nbiAppends w.captureId calls) } := by
  induction calls generalizing w with
  | nil => simp [run,observationAppends,nbiAppends,Journal.after_nil]
  | cons c calls ih =>
    have hcall := call_eq hw c
    have hstopped : (w.call c).2.stopped = false := by rw [hcall]; exact hw
    have hobservations : observationAppends w.captureId (c :: calls) =
        (c.observationAppend w.captureId).toList++observationAppends w.captureId calls := by
      cases h : c.observationAppend w.captureId <;> simp [observationAppends,h]
    have hnbis : nbiAppends w.captureId (c :: calls) =
        (c.nbiAppend w.captureId).toList++nbiAppends w.captureId calls := by
      cases h : c.nbiAppend w.captureId <;> simp [nbiAppends,h]
    show ((w.call c).2.run calls).2 = _
    rw [ih hstopped,hcall,hobservations,hnbis,Journal.after_append,Journal.after_append]

theorem call_returned {w : Writer} (hw : w.stopped = false) {c : Call} (h : (w.call c).1 = true) :
    (∀ a ∈ c.observationAppend w.captureId, a.Reached (w.observations.count+1)) ∧
      ∀ a ∈ c.nbiAppend w.captureId, a.Reached (w.nbis.count+1) := by
  cases c with
  | recordObservation c =>
    refine ⟨fun a ha => ?_,by simp [Call.nbiAppend]⟩
    obtain ⟨entry,hentry,rfl⟩ := Option.map_eq_some_iff.mp ha
    simp only [call,recordObservation,hentry,hw] at h
    exact (Append.append_eq ⟨c.faults,fun n => observationRecord w.captureId n entry⟩ _ _).2 h
  | recordNbi c =>
    refine ⟨by simp [Call.observationAppend],fun a ha => ?_⟩
    obtain ⟨nbi,hnbi,rfl⟩ := Option.map_eq_some_iff.mp ha
    simp only [call,recordNbi,hnbi,hw] at h
    exact (Append.append_eq ⟨c.faults,fun n => some (nbiRecord w.captureId n c nbi)⟩ _ _).2 h

end Writer

theorem run_returned {w : Writer} (hw : w.stopped = false) {calls : List Call}
    (h : ∀ returned ∈ (w.run calls).1, returned = true) :
    (∀ x ∈ (observationAppends w.captureId calls).zipIdx (w.observations.count+1), x.1.Reached x.2) ∧
      ∀ x ∈ (nbiAppends w.captureId calls).zipIdx (w.nbis.count+1), x.1.Reached x.2 := by
  induction calls generalizing w with
  | nil => simp [observationAppends,nbiAppends]
  | cons c calls ih =>
    have hcall := Writer.call_eq hw c
    have hstopped : (w.call c).2.stopped = false := by rw [hcall]; exact hw
    have hreturned := Writer.call_returned hw (h (w.call c).1 (by simp [Writer.run]))
    have hrest := ih hstopped fun returned hr => h returned (by simp [Writer.run,hr])
    rw [hcall] at hrest
    refine ⟨?_,?_⟩
    · cases ha : c.observationAppend w.captureId with
      | none =>
        have hskip : observationAppends w.captureId (c :: calls) = observationAppends w.captureId calls := by
          simp [observationAppends,ha]
        rw [hskip]
        simpa [ha,Journal.after] using hrest.1
      | some a =>
        have hcons : observationAppends w.captureId (c :: calls) =
            a :: observationAppends w.captureId calls := by simp [observationAppends,ha]
        rw [hcons,List.zipIdx_cons]
        intro x hx
        obtain rfl | hx := List.mem_cons.mp hx
        · exact hreturned.1 a ha
        · exact hrest.1 x (by simpa [ha,Journal.after] using hx)
    · cases ha : c.nbiAppend w.captureId with
      | none =>
        have hskip : nbiAppends w.captureId (c :: calls) = nbiAppends w.captureId calls := by
          simp [nbiAppends,ha]
        rw [hskip]
        simpa [ha,Journal.after] using hrest.2
      | some a =>
        have hcons : nbiAppends w.captureId (c :: calls) = a :: nbiAppends w.captureId calls := by
          simp [nbiAppends,ha]
        rw [hcons,List.zipIdx_cons]
        intro x hx
        obtain rfl | hx := List.mem_cons.mp hx
        · exact hreturned.2 a ha
        · exact hrest.2 x (by simpa [ha,Journal.after] using hx)

/-- The arguments pass their check, so that the call is counted. -/
def Call.Counted : Call → Prop
  | .recordObservation c => c.entry.isSome
  | .recordNbi c => c.nbi.isSome

theorem call_counted {w : Writer} {c : Call} (h : (w.call c).1 = true) : c.Counted := by
  cases c with
  | recordObservation c =>
    cases hentry : c.entry with
    | none => simp [Writer.call,Writer.recordObservation,hentry] at h
    | some entry => simp [Call.Counted,hentry]
  | recordNbi c =>
    cases hnbi : c.nbi with
    | none => simp [Writer.call,Writer.recordNbi,hnbi] at h
    | some nbi => simp [Call.Counted,hnbi]

theorem run_counted (w : Writer) (calls : List Call) :
    ∀ x ∈ calls.zip (w.run calls).1, x.2 = true → x.1.Counted := by
  induction calls generalizing w with
  | nil => simp
  | cons c calls ih =>
    intro x hx hreturned
    obtain rfl | hx := List.mem_cons.mp hx
    · exact call_counted hreturned
    · exact ih _ x hx hreturned

theorem require_ok {condition : Prop} [Decidable condition] {message : String}
    (h : require condition message = .ok ()) : condition := by
  unfold require at h
  split at h
  · assumption
  · cases h

theorem require_of {condition : Prop} [Decidable condition] {message : String} (h : condition) :
    require condition message = .ok () := if_pos h

theorem ok_bind {α β : Type} (a : α) (k : α → Except String β) : (Except.ok a >>= k) = k a := rfl

theorem require_bind {β : Type} {condition : Prop} [Decidable condition] {message : String}
    {k : Unit → Except String β} (h : condition) : (require condition message >>= k) = k () := by
  rw [require_of h,ok_bind]

theorem flatMap_lineOf (records : List Value) :
    records.flatMap lineOf = Utf8.encode (Utf8.unlines (records.map Json.write)) := by
  induction records with
  | nil => rfl
  | cons r records ih =>
    have hunlines : Utf8.unlines ((r :: records).map Json.write) =
        Json.write r++['\n']++Utf8.unlines (records.map Json.write) := by simp [Utf8.unlines]
    rw [hunlines,Utf8.encode_append,Utf8.encode_append,Utf8.encode_newline,← ih]
    rfl

theorem linesOf_records (records : List Value) :
    Utf8.linesOf (Utf8.unlines (records.map Json.write)) = records.map Json.write := by
  refine Utf8.linesOf_unlines fun line hline h => ?_
  obtain ⟨r,-,rfl⟩ := List.mem_map.mp hline
  have := Json.write_printable r _ h
  simp at this

section Reading

variable {py : PyValues} {captureId journal : Text}

theorem checkLine_write {number : ℕ} {record result : Value}
    (h : checkLine py captureId journal number (Json.write record) = .ok result) : result = record := by
  unfold checkLine at h
  rw [Json.loads_write] at h
  cases record with
  | obj members =>
    simp only at h
    split at h
    · split at h
      · cases h
        rfl
      · split at h
        · cases h
        · split at h
          · cases h
            rfl
          · cases h
    · cases h
  | _ => cases h

theorem length_checkLines {number : ℕ} {lines : List Text} {records : List Value}
    (h : checkLines py captureId journal number lines = .ok records) : records.length = lines.length := by
  induction lines generalizing number records with
  | nil =>
    cases h
    rfl
  | cons line lines ih =>
    unfold checkLines at h
    split at h
    · cases h
    · cases hrest : checkLines py captureId journal (number+1) lines with
      | error e =>
        rw [hrest] at h
        cases h
      | ok rest =>
        rw [hrest] at h
        cases h
        simp [ih hrest]

theorem checkLines_write {number : ℕ} {written records : List Value}
    (h : checkLines py captureId journal number (written.map Json.write) = .ok records) :
    records = written := by
  induction written generalizing number records with
  | nil =>
    cases h
    rfl
  | cons v written ih =>
    rw [List.map_cons,checkLines] at h
    split at h
    · cases h
    · next record hrecord =>
      cases hrest : checkLines py captureId journal (number+1) (written.map Json.write) with
      | error e =>
        rw [hrest] at h
        cases h
      | ok rest =>
        rw [hrest] at h
        cases h
        rw [checkLine_write hrecord,ih hrest]

variable {sha256 : List UInt8 → Text} {verifyPhysical : Bool} {facts : FileFacts} {file : File}

theorem loadJournal_ok {records : List Value}
    (h : loadJournal py sha256 verifyPhysical facts file journal captureId = .ok records) :
    ∃ text all, Utf8.decode file.bytes = some text ∧ Utf8.linesOf text ≠ [] ∧
      checkLines py captureId journal 0 (Utf8.linesOf text) = .ok all ∧
      facts.records = some (all.length-1) ∧ records = all.drop 1 := by
  unfold loadJournal at h
  obtain ⟨-,-,h⟩ := ok_of_bind h
  obtain ⟨-,-,h⟩ := ok_of_bind h
  cases hdecode : Utf8.decode file.bytes with
  | none =>
    rw [hdecode] at h
    cases h
  | some text =>
    rw [hdecode] at h
    obtain ⟨_,hlines,h⟩ := ok_of_bind h
    obtain ⟨all,hall,h⟩ := ok_of_bind h
    obtain ⟨_,hcount,h⟩ := ok_of_bind h
    cases h
    exact ⟨text,all,rfl,require_ok hlines,hall,require_ok hcount,rfl⟩

/-- An accepted journal with the count of its counted calls has no torn line, and holds the records
of these calls. -/
theorem loadJournal_exact {head : Value} {appends : List Append} {records : List Value}
    (hbytes : file.bytes = lineOf head++(tornLines appends 1).flatMap Torn.chunk)
    (hfacts : facts.records = some appends.length)
    (h : loadJournal py sha256 verifyPhysical facts file journal captureId = .ok records) :
    AllReached appends ∧ recordsOf appends = some records := by
  obtain ⟨text,all,hdecode,hlines,hall,hcount,rfl⟩ := loadJournal_ok h
  have hencode := Utf8.encode_of_decode hdecode
  have hlength : all.length = file.bytes.count newline := by
    rw [length_checkLines hall,Utf8.length_linesOf,hencode,Utf8.count_encode]
  have hhead : (lineOf head).count newline = 1 := by
    rw [lineOf,List.count_append,List.count_eq_zero_of_not_mem (Append.newline_notMem_write head)]
    rfl
  have hpositive : 0 < all.length := by
    rw [length_checkLines hall]
    exact List.length_pos_iff.mpr hlines
  rw [hbytes,List.count_append,hhead] at hlength
  have hcounted : appends.length = all.length-1 := by
    rw [hfacts] at hcount
    exact Option.some.inj hcount
  have htorn : (tornLines appends 1).length = appends.length := by simp [tornLines]
  have hwhole := Torn.whole_of_count (tornLines appends 1) (by rw [htorn]; omega)
  have hreached : AllReached appends := fun x hx => hwhole _ (List.mem_map_of_mem hx)
  obtain ⟨written,hwritten,hchunks⟩ := hreached.records
  have htext : text = Utf8.unlines ((head :: written).map Json.write) := by
    refine Utf8.encode_injective ?_
    rw [← hencode,hbytes,hchunks,← flatMap_lineOf]
    rfl
  rw [htext,linesOf_records] at hall
  rw [checkLines_write hall]
  exact ⟨hreached,hwritten⟩

end Reading

theorem get?_append {l rest : List (Text × Value)} {name : Text} (h : ∀ m ∈ rest, m.1 ≠ name) :
    (Value.obj (l++rest)).get? name = (Value.obj l).get? name := by
  have hnone : rest.reverse.find? (fun m => decide (m.1 = name)) = none :=
    List.find?_eq_none.mpr fun m hm => by simpa using h m (List.mem_reverse.mp hm)
  simp only [Value.get?,List.reverse_append,List.find?_append,hnone,Option.none_or]

def headKeys : List Text := ["schema".toList,"journal".toList,"capture_id".toList]

/-- A record with the head of its journal. -/
def Headed (captureId journal : Text) (record : Value) : Prop :=
  ∃ rest, record = .obj (journalHead captureId journal++rest) ∧ ∀ m ∈ rest, m.1 ∉ headKeys

theorem Headed.hasText {captureId journal : Text} {record : Value} (h : Headed captureId journal record) :
    Originals.hasText record "schema".toList journalSchema ∧
      Originals.hasText record "journal".toList journal ∧
      Originals.hasText record "capture_id".toList captureId := by
  obtain ⟨rest,rfl,hrest⟩ := h
  have hkey : ∀ name ∈ headKeys, (Value.obj (journalHead captureId journal++rest)).get? name =
      (Value.obj (journalHead captureId journal)).get? name := fun name hname =>
    get?_append fun m hm heq => hrest m hm (heq ▸ hname)
  unfold Originals.hasText isText
  rw [hkey _ (by simp [headKeys]),hkey _ (by simp [headKeys]),hkey _ (by simp [headKeys])]
  exact ⟨decide_eq_true rfl,decide_eq_true rfl,decide_eq_true rfl⟩

/-- A record with its head and its number. -/
structure Numbered (captureId journal : Text) (n : ℕ) (record : Value) : Prop where
  headed : Headed captureId journal record
  ordinal : record.get? "ordinal".toList = some (.int n)

theorem persistedMembers_keys {entry : List (Text × Option Value)} {keys : List Text}
    {members : List (Text × Value)} (h : persistedMembers entry keys = some members) :
    ∀ m ∈ members, m.1 ∈ keys := by
  induction keys generalizing members with
  | nil =>
    cases h
    simp
  | cons key keys ih =>
    unfold persistedMembers at h
    split at h
    · exact fun m hm => List.mem_cons_of_mem _ (ih h m hm)
    · obtain ⟨v,-,h⟩ := Option.bind_eq_some_iff.mp h
      obtain ⟨rest,hrest,rfl⟩ := Option.map_eq_some_iff.mp h
      intro m hm
      obtain rfl | hm := List.mem_cons.mp hm
      · exact List.mem_cons_self ..
      · exact List.mem_cons_of_mem _ (ih hrest m hm)

theorem observationRecord_numbered {captureId : Text} {n : ℕ} {entry : List (Text × Option Value)}
    {record : Value} (h : observationRecord captureId n entry = some record) :
    Numbered captureId observationsName n record := by
  obtain ⟨members,hmembers,rfl⟩ := Option.map_eq_some_iff.mp h
  have hkeys := persistedMembers_keys hmembers
  have hdisjoint : ∀ key ∈ persistedKeys, key ∉ headKeys ∧ key ≠ "ordinal".toList := by decide
  refine ⟨⟨_,rfl,fun m hm => ?_⟩,?_⟩
  · obtain rfl | hm := List.mem_cons.mp hm
    · show "ordinal".toList ∉ headKeys
      decide
    · exact (hdisjoint _ (hkeys m hm)).1
  · have hsplit : journalHead captureId observationsName++("ordinal".toList,Value.int n) :: members =
        (journalHead captureId observationsName++[("ordinal".toList,Value.int n)])++members := by simp
    rw [hsplit,get?_append fun m hm => (hdisjoint _ (hkeys m hm)).2]
    rfl

theorem nbiRecord_numbered (captureId : Text) (n : ℕ) (c : NbiCall) (nbi : List (Text × PyValue)) :
    Numbered captureId nbisName n (nbiRecord captureId n c nbi) := by
  refine ⟨⟨_,rfl,fun m hm => ?_⟩,rfl⟩
  simp only [List.mem_cons,List.not_mem_nil,or_false] at hm
  obtain rfl | rfl | rfl | rfl | rfl | rfl | rfl := hm <;> (dsimp only; decide)

section Accepting

variable {py : PyValues} {captureId journal : Text}

theorem checkLine_of_headed {record : Value} (h : Headed captureId journal record) :
    checkLine py captureId journal 0 (Json.write record) = .ok record := by
  have htext := h.hasText
  obtain ⟨rest,rfl,-⟩ := h
  simp only [checkLine,Json.loads_write,htext,and_self,if_true]

theorem checkLine_of_numbered {n : ℕ} (hn : n ≠ 0) {record : Value}
    (h : Numbered captureId journal n record) :
    checkLine py captureId journal n (Json.write record) = .ok record := by
  have htext := h.headed.hasText
  have hordinal := h.ordinal
  obtain ⟨rest,rfl,-⟩ := h.headed
  simp only [checkLine,Json.loads_write,htext,and_self,if_true,hn,if_false,hordinal,Option.getD_some,
    py.int_int]

theorem checkLines_of_numbered {records : List Value} {start : ℕ} (hstart : start ≠ 0)
    (h : ∀ x ∈ records.zipIdx start, Numbered captureId journal x.2 x.1) :
    checkLines py captureId journal start (records.map Json.write) = .ok records := by
  induction records generalizing start with
  | nil => rfl
  | cons r records ih =>
    rw [List.zipIdx_cons] at h
    have hr : checkLine py captureId journal start (Json.write r) = .ok r :=
      checkLine_of_numbered hstart (h (r,start) (by simp))
    rw [List.map_cons,checkLines,hr]
    simp only [ih (Nat.succ_ne_zero start) fun x hx => h x (by simp [hx])]
    rfl

theorem verifyFacts_own (sha256 : List UInt8 → Text) (verifyPhysical : Bool) (file : File)
    (records : Option ℕ) (what : String) :
    verifyFacts sha256 verifyPhysical (some (Writer.fileFacts sha256 file records)) file what = .ok () := by
  have hname : (Writer.fileFacts sha256 file records).name = file.name := rfl
  have hbytes : (Writer.fileFacts sha256 file records).bytes = file.bytes.length := rfl
  have hsha : (Writer.fileFacts sha256 file records).sha256 = sha256 file.bytes := rfl
  unfold verifyFacts
  simp only [require_bind hname,require_bind hbytes,require_bind hsha]
  exact require_of (.inr ⟨rfl,rfl⟩)

variable (py) in
theorem loadJournal_accepts (sha256 : List UInt8 → Text) (verifyPhysical : Bool) {file : File}
    {head : Value} (hhead : Headed captureId journal head) {records : List Value}
    (hrecords : ∀ x ∈ records.zipIdx 1, Numbered captureId journal x.2 x.1)
    (hbytes : file.bytes = lineOf head++records.flatMap lineOf) :
    loadJournal py sha256 verifyPhysical (Writer.fileFacts sha256 file (some records.length)) file journal
      captureId = .ok records := by
  have htext : file.bytes = Utf8.encode (Utf8.unlines ((head :: records).map Json.write)) := by
    rw [hbytes,← flatMap_lineOf]
    rfl
  have hend : file.bytes = [] ∨ file.bytes.getLast? = some newline := by
    refine .inr ?_
    have hlast : ∀ (records : List Value) (head : Value),
        (lineOf head++records.flatMap lineOf).getLast? = some newline := by
      intro records
      induction records with
      | nil => intro head; simp [lineOf]
      | cons r records ih => intro head; rw [List.flatMap_cons,List.getLast?_append,ih r]; rfl
    rw [hbytes]
    exact hlast records head
  have hlines : checkLines py captureId journal 0 ((head :: records).map Json.write) =
      .ok (head :: records) := by
    rw [List.map_cons,checkLines,checkLine_of_headed hhead]
    simp only [Nat.zero_add,checkLines_of_numbered one_ne_zero hrecords]
    rfl
  have hdecode : Utf8.decode file.bytes = some (Utf8.unlines ((head :: records).map Json.write)) := by
    rw [htext,Utf8.decode_encode]
  have hcount : (Writer.fileFacts sha256 file (some records.length)).records =
      some ((head :: records).length-1) := rfl
  unfold loadJournal
  rw [verifyFacts_own,ok_bind,require_bind hend,hdecode]
  simp only [linesOf_records]
  rw [require_bind (by simp),hlines,ok_bind,require_bind hcount]
  rfl

end Accepting

section Filing

variable {py : PyValues}

def lookup (nbis : Nbis py) (key : NbiKey py) : List NbiEntry :=
  (((nbis.get? key.1).getD .empty).get? key.2).getD []

theorem lookup_fileNbi (nbis : Nbis py) (key key' : NbiKey py) (entry : NbiEntry) :
    lookup (fileNbi nbis key entry) key' = lookup nbis key'++if key' = key then [entry] else [] := by
  obtain ⟨process,protocol⟩ := key
  obtain ⟨process',protocol'⟩ := key'
  simp only [lookup,fileNbi,Dict.get?_set,Prod.mk.injEq]
  by_cases hprocess : process' = process
  · by_cases hprotocol : protocol' = protocol <;> simp [hprocess,hprotocol,Dict.get?_set]
  · simp [hprocess]

def FiledAs (record : Value) (x : NbiKey py × NbiEntry) : Prop := ∃ number, nbiOf py number record = .ok x

theorem fileNbis_ok {number : ℕ} {records : List Value} {nbis result : Nbis py}
    (h : fileNbis py number records nbis = .ok result) :
    ∃ filed, List.Forall₂ FiledAs records filed ∧ ∀ key,
      lookup result key = lookup nbis key++(filed.filter fun x => x.1 = key).map Prod.snd := by
  induction records generalizing number nbis with
  | nil =>
    cases h
    exact ⟨[],.nil,by simp⟩
  | cons record records ih =>
    unfold fileNbis at h
    split at h
    · cases h
    · next key entry hrecord =>
      obtain ⟨filed,hfiled,hlookup⟩ := ih h
      refine ⟨(key,entry) :: filed,.cons ⟨number,hrecord⟩ hfiled,fun key' => ?_⟩
      rw [hlookup,lookup_fileNbi,List.filter_cons]
      by_cases hkey : key' = key
      · simp [hkey]
      · simp [hkey,Ne.symm hkey]

theorem fileNbis_isOk (number : ℕ) {records : List Value} (nbis : Nbis py)
    (h : ∀ record ∈ records, ∀ number, ∃ x, nbiOf py number record = .ok x) :
    ∃ result, fileNbis py number records nbis = .ok result := by
  induction records generalizing number nbis with
  | nil => exact ⟨nbis,rfl⟩
  | cons record records ih =>
    obtain ⟨⟨key,entry⟩,hx⟩ := h record (by simp) number
    unfold fileNbis
    rw [hx]
    exact ih _ _ fun r hr => h r (by simp [hr])

/-- The members of the session of a call that name its process. -/
def processOf (c : NbiCall) (name : Text) : Value :=
  ((jsonSafe (.dict (c.session.getD []))).get? name).getD .null

/-- The process is named by no list and no object. -/
def PlainProcess (c : NbiCall) : Prop :=
  ∀ name ∈ ["pid".toList,"comm".toList],
    (∀ items, processOf c name ≠ .arr items) ∧ ∀ members, processOf c name ≠ .obj members

theorem orValue_obj (members : List (Text × Value)) :
    orValue (some (.obj members)) (.obj []) = .obj members := by
  cases members <;> rfl

theorem nbiOf_plain {c : NbiCall} (hc : PlainProcess c) (captureId : Text) (n number : ℕ)
    (nbi : List (Text × PyValue)) : ∃ x, nbiOf py number (nbiRecord captureId n c nbi) = .ok x := by
  have hmetrics : (nbiRecord captureId n c nbi).get? "metrics".toList =
      some (.obj (jsonSafeMembers nbi [])) := rfl
  have hsession : (nbiRecord captureId n c nbi).get? "session".toList =
      some (.obj (jsonSafeMembers (c.session.getD []) [])) := rfl
  obtain ⟨pid,hpid⟩ := Option.isSome_iff_exists.mp ((py.hash_scalar _).mpr (hc "pid".toList (by simp)))
  obtain ⟨comm,hcomm⟩ := Option.isSome_iff_exists.mp ((py.hash_scalar _).mpr (hc "comm".toList (by simp)))
  simp only [processOf,jsonSafe] at hpid hcomm
  unfold nbiOf
  simp only [hmetrics,hsession,orValue_obj,hpid,hcomm]
  exact ⟨_,rfl⟩

end Filing

section Sealed

variable {py : PyValues} {f : Format} {sha256 : List UInt8 → Text} {validUuid : Text → Bool}
  {verifyPhysical : Bool} {captureId pairBasename : Text}
  {observationsAt nbisAt : FloatText} {w₀ w' : Writer} {calls : List Call} {raw : File}
  {converted : Option File} {observationsId nbisId : ℕ × ℕ} {g : Group}

/-- What loading returns if it accepts: one entry for each counted observation and one indicator for
each counted one, in the order of the calls. -/
structure Exact (py : PyValues) (captureId : Text) (calls : List Call) (loaded : Loaded py) : Prop where
  observationsReached : AllReached (observationAppends captureId calls)
  nbisReached : AllReached (nbiAppends captureId calls)
  entries : ∃ records, recordsOf (observationAppends captureId calls) = some records ∧
    loaded.entries = records.map entryOf
  ordinals : ∀ (i : ℕ) entry, loaded.entries[i]? = some entry →
    ("ordinal".toList,Value.int (i+1 : ℕ)) ∈ entry
  nbis : ∃ records filed, recordsOf (nbiAppends captureId calls) = some records ∧
    List.Forall₂ FiledAs records filed ∧
      ∀ key, lookup loaded.nbis key = (filed.filter fun x => x.1 = key).map Prod.snd

/-- The observations agree with the pair of PCAP files. -/
def Agrees (py : PyValues) (f : Format) (sha256 : List UInt8 → Text) (captureId : Text)
    (calls : List Call) (raw : File) (converted : Option File) : Prop :=
  ∃ entries records, recordsOf (observationAppends captureId calls) = some entries ∧
    readPair f raw converted = .ok records ∧
    validateIndex py sha256 records (entries.map entryOf) = .ok ()

/-- The journals of the group hold what the counted calls left. -/
structure Holds (sha256 : List UInt8 → Text) (captureId : Text) (calls : List Call) (g : Group) :
    Prop where
  observations : ∃ head, Headed captureId observationsName head ∧ g.observations.bytes =
    lineOf head++(tornLines (observationAppends captureId calls) 1).flatMap Torn.chunk
  nbis : ∃ head, Headed captureId nbisName head ∧ g.nbis.bytes =
    lineOf head++(tornLines (nbiAppends captureId calls) 1).flatMap Torn.chunk
  observationsFacts : g.inventory.observations =
    Writer.fileFacts sha256 g.observations (some (observationAppends captureId calls).length)
  nbisFacts : g.inventory.nbis =
    Writer.fileFacts sha256 g.nbis (some (nbiAppends captureId calls).length)
  schema : g.inventory.schema = originalsSchema
  captureId : g.inventory.captureId = captureId
  pairBasename : g.inventory.pairBasename = g.raw.name
  rawPcap : g.inventory.rawPcap = Writer.fileFacts sha256 g.raw none
  convertedPcap : g.inventory.convertedPcap = g.converted.map (Writer.fileFacts sha256 · none)
  names : g.inventory.observations.name = g.raw.name++Writer.observationsSuffix ∧
    g.inventory.nbis.name = g.raw.name++Writer.nbisSuffix

theorem openJournal_bytes (captureId pairBasename journal : Text) (createdAt : FloatText) :
    ∃ head, Headed captureId journal head ∧
      (Writer.openJournal captureId pairBasename journal createdAt).bytes = lineOf head := by
  refine ⟨_,⟨_,rfl,fun m hm => ?_⟩,rfl⟩
  simp only [List.mem_cons,List.not_mem_nil,or_false] at hm
  obtain rfl | rfl := hm <;> (dsimp only; decide)

theorem create_eq (h : Writer.create validUuid captureId pairBasename observationsAt nbisAt = some w₀) :
    validUuid captureId = true ∧ w₀ = ⟨captureId,pairBasename,
      Writer.openJournal captureId pairBasename observationsName observationsAt,
      Writer.openJournal captureId pairBasename nbisName nbisAt,false,false⟩ := by
  unfold Writer.create at h
  split at h
  · next hvalid =>
    cases h
    exact ⟨hvalid,rfl⟩
  · cases h

theorem sealGroup_holds
    (hcreate : Writer.create validUuid captureId pairBasename observationsAt nbisAt = some w₀)
    (hseal : (w₀.run calls).2.sealGroup sha256 raw converted observationsId nbisId = some (g,w')) :
    Holds sha256 captureId calls g := by
  obtain ⟨-,rfl⟩ := create_eq hcreate
  obtain ⟨head,hhead,hbytes⟩ := openJournal_bytes captureId pairBasename observationsName observationsAt
  obtain ⟨head',hhead',hbytes'⟩ := openJournal_bytes captureId pairBasename nbisName nbisAt
  rw [Writer.run_eq rfl,Writer.sealGroup] at hseal
  split at hseal
  · cases hseal
  · next hopen =>
    have hname : raw.name = pairBasename := by
      by_contra hne
      exact hopen (.inr (.inr hne))
    cases hseal
    refine ⟨⟨head,hhead,?_⟩,⟨head',hhead',?_⟩,?_,?_,rfl,rfl,hname.symm,rfl,rfl,⟨rfl,rfl⟩⟩
    · rw [← hbytes]
      rfl
    · rw [← hbytes']
      rfl
    · simp [Journal.after,Writer.openJournal]
    · simp [Journal.after,Writer.openJournal]

theorem load_ok {loaded : Loaded py}
    (h : load py f sha256 validUuid verifyPhysical g = .ok loaded) :
    ∃ observations nbis,
      loadJournal py sha256 verifyPhysical g.inventory.observations g.observations observationsName
        g.inventory.captureId = .ok observations ∧
      loadJournal py sha256 verifyPhysical g.inventory.nbis g.nbis nbisName g.inventory.captureId =
        .ok nbis ∧
      loaded.entries = observations.map entryOf ∧ fileNbis py 1 nbis .empty = .ok loaded.nbis := by
  unfold load at h
  obtain ⟨_,-,h⟩ := ok_of_bind h
  obtain ⟨_,-,h⟩ := ok_of_bind h
  obtain ⟨_,-,h⟩ := ok_of_bind h
  obtain ⟨_,-,h⟩ := ok_of_bind h
  obtain ⟨_,-,h⟩ := ok_of_bind h
  obtain ⟨_,-,h⟩ := ok_of_bind h
  obtain ⟨_,-,h⟩ := ok_of_bind h
  obtain ⟨observations,hobservations,h⟩ := ok_of_bind h
  obtain ⟨nbis,hnbis,h⟩ := ok_of_bind h
  obtain ⟨_,-,h⟩ := ok_of_bind h
  obtain ⟨filed,hfiled,h⟩ := ok_of_bind h
  cases h
  exact ⟨observations,nbis,hobservations,hnbis,rfl,hfiled⟩

theorem mapM_getElem? {α β : Type} {f : α → Option β} {l : List α} {l' : List β}
    (h : l.mapM f = some l') {i : ℕ} {b : β} (hi : l'[i]? = some b) :
    ∃ a, l[i]? = some a ∧ f a = some b := by
  induction l generalizing l' i with
  | nil =>
    simp at h
    subst h
    simp at hi
  | cons a l ih =>
    simp only [List.mapM_cons,Option.bind_eq_bind,Option.bind_eq_some_iff,Option.pure_def,
      Option.some.injEq] at h
    obtain ⟨b',hb',rest,hrest,rfl⟩ := h
    cases i with
    | zero =>
      obtain rfl : b' = b := by simpa using hi
      exact ⟨a,rfl,hb'⟩
    | succ i => exact ih hrest (by simpa using hi)

theorem recordsOf_getElem? {appends : List Append} {records : List Value}
    (h : recordsOf appends = some records) {i : ℕ} {record : Value} (hi : records[i]? = some record) :
    ∃ a, appends[i]? = some a ∧ a.record (i+1) = some record := by
  obtain ⟨x,hx,hrecord⟩ := mapM_getElem? h hi
  rw [List.getElem?_zipIdx] at hx
  obtain ⟨a,ha,rfl⟩ := Option.map_eq_some_iff.mp hx
  exact ⟨a,ha,by simpa [Nat.add_comm] using hrecord⟩

theorem observations_numbered {records : List Value}
    (h : recordsOf (observationAppends captureId calls) = some records) :
    ∀ x ∈ records.zipIdx 1, Numbered captureId observationsName x.2 x.1 := by
  rintro ⟨record,n⟩ hx
  obtain ⟨hn,hrecord⟩ := List.mk_mem_zipIdx_iff_le_and_getElem?_sub.mp hx
  obtain ⟨a,ha,har⟩ := recordsOf_getElem? h hrecord
  obtain ⟨c,-,hc⟩ := List.mem_filterMap.mp (List.mem_of_getElem? ha)
  rw [Nat.sub_add_cancel hn] at har
  cases c with
  | recordNbi c => cases hc
  | recordObservation c =>
    obtain ⟨entry,-,rfl⟩ := Option.map_eq_some_iff.mp hc
    exact observationRecord_numbered har

theorem nbis_record {records : List Value} (h : recordsOf (nbiAppends captureId calls) = some records)
    {i : ℕ} {record : Value} (hi : records[i]? = some record) :
    ∃ c nbi, Call.recordNbi c ∈ calls ∧ c.nbi = some nbi ∧ record = nbiRecord captureId (i+1) c nbi := by
  obtain ⟨a,ha,har⟩ := recordsOf_getElem? h hi
  obtain ⟨c,hcalls,hc⟩ := List.mem_filterMap.mp (List.mem_of_getElem? ha)
  cases c with
  | recordObservation c => cases hc
  | recordNbi c =>
    obtain ⟨nbi,hnbi,rfl⟩ := Option.map_eq_some_iff.mp hc
    cases har
    exact ⟨c,nbi,hcalls,hnbi,rfl⟩

theorem nbis_numbered {records : List Value}
    (h : recordsOf (nbiAppends captureId calls) = some records) :
    ∀ x ∈ records.zipIdx 1, Numbered captureId nbisName x.2 x.1 := by
  rintro ⟨record,n⟩ hx
  obtain ⟨hn,hrecord⟩ := List.mk_mem_zipIdx_iff_le_and_getElem?_sub.mp hx
  obtain ⟨c,nbi,-,-,rfl⟩ := nbis_record h hrecord
  rw [Nat.sub_add_cancel hn]
  exact nbiRecord_numbered captureId n c nbi

theorem ordinal_mem_entryOf {n : ℕ} {record : Value}
    (h : record.get? "ordinal".toList = some (.int n)) : ("ordinal".toList,Value.int n) ∈ entryOf record :=
  List.mem_filterMap.mpr ⟨"ordinal".toList,List.mem_cons_self ..,by rw [h]; rfl⟩

theorem Holds.exact (hg : Holds sha256 captureId calls g) {loaded : Loaded py}
    (h : load py f sha256 validUuid verifyPhysical g = .ok loaded) :
    Exact py captureId calls loaded := by
  obtain ⟨observations,nbis,hobservations,hnbis,hentries,hfiled⟩ := load_ok h
  obtain ⟨head,-,hbytes⟩ := hg.observations
  obtain ⟨head',-,hbytes'⟩ := hg.nbis
  rw [hg.observationsFacts] at hobservations
  rw [hg.nbisFacts] at hnbis
  obtain ⟨hreached,hrecords⟩ := loadJournal_exact hbytes rfl hobservations
  obtain ⟨hreached',hrecords'⟩ := loadJournal_exact hbytes' rfl hnbis
  obtain ⟨filed,hfiledAs,hlookup⟩ := fileNbis_ok hfiled
  refine ⟨hreached,hreached',⟨observations,hrecords,hentries⟩,fun i entry hi => ?_,
    ⟨nbis,filed,hrecords',hfiledAs,fun key => ?_⟩⟩
  · rw [hentries,List.getElem?_map] at hi
    obtain ⟨record,hrecord,rfl⟩ := Option.map_eq_some_iff.mp hi
    have hmem : (record,i+1) ∈ observations.zipIdx 1 :=
      List.mk_mem_zipIdx_iff_le_and_getElem?_sub.mpr ⟨by omega,by simpa using hrecord⟩
    exact ordinal_mem_entryOf (observations_numbered hrecords _ hmem).ordinal
  · rw [hlookup key]
    rfl

theorem length_recordsOf {appends : List Append} {records : List Value}
    (h : recordsOf appends = some records) : records.length = appends.length := by
  have hmapM : ∀ (l : List (Append × ℕ)) (l' : List Value),
      l.mapM (fun x => x.1.record x.2) = some l' → l'.length = l.length := by
    intro l
    induction l with
    | nil => simp
    | cons x l ih =>
      intro l' hl'
      simp only [List.mapM_cons,Option.bind_eq_bind,Option.bind_eq_some_iff,Option.pure_def,
        Option.some.injEq] at hl'
      obtain ⟨r,-,rest,hrest,rfl⟩ := hl'
      simp [ih rest hrest]
  simpa using hmapM _ _ h

theorem Holds.verifyConverted_ok (hg : Holds sha256 captureId calls g) :
    verifyConverted sha256 verifyPhysical g = .ok () := by
  unfold verifyConverted
  cases hconverted : g.converted with
  | none =>
    have hnone : g.inventory.convertedPcap.isNone = true := by simp [hg.convertedPcap,hconverted]
    exact require_of hnone
  | some converted =>
    simp only [hg.convertedPcap,hconverted,Option.map_some]
    exact verifyFacts_own sha256 verifyPhysical converted none "converted PCAP"

/-- With all records in the journals and the observations in agreement, loading only files the
indicators. -/
theorem Holds.load_eq (hg : Holds sha256 captureId calls g) (hvalid : validUuid captureId = true)
    (hobservations : AllReached (observationAppends captureId calls))
    (hnbis : AllReached (nbiAppends captureId calls)) {entries nbis : List Value}
    {records : List ReadRecord}
    (hentries : recordsOf (observationAppends captureId calls) = some entries)
    (hindicators : recordsOf (nbiAppends captureId calls) = some nbis)
    (hread : readPair f g.raw g.converted = .ok records)
    (hindex : validateIndex py sha256 records (entries.map entryOf) = .ok ()) :
    load py f sha256 validUuid verifyPhysical g =
      (fileNbis py 1 nbis .empty).map fun filed => ⟨captureId,entries.map entryOf,filed⟩ := by
  obtain ⟨head,hhead,hbytes⟩ := hg.observations
  obtain ⟨head',hhead',hbytes'⟩ := hg.nbis
  obtain ⟨written,hwritten,hchunks⟩ := hobservations.records
  obtain ⟨written',hwritten',hchunks'⟩ := hnbis.records
  obtain rfl : written = entries := Option.some.inj (hwritten.symm.trans hentries)
  obtain rfl : written' = nbis := Option.some.inj (hwritten'.symm.trans hindicators)
  rw [hchunks] at hbytes
  rw [hchunks'] at hbytes'
  have hfirst := loadJournal_accepts py sha256 verifyPhysical hhead
    (observations_numbered hentries) hbytes
  have hsecond := loadJournal_accepts py sha256 verifyPhysical hhead'
    (nbis_numbered hindicators) hbytes'
  rw [length_recordsOf hentries,← hg.observationsFacts] at hfirst
  rw [length_recordsOf hindicators,← hg.nbisFacts] at hsecond
  have hraw := verifyFacts_own sha256 verifyPhysical g.raw none "raw PCAP"
  rw [← hg.rawPcap] at hraw
  have huuid : validUuid g.inventory.captureId = true := by rw [hg.captureId,hvalid]
  unfold load
  rw [require_bind hg.schema,require_bind huuid,require_bind hg.pairBasename,hraw,ok_bind,
    hg.verifyConverted_ok,ok_bind,hread,ok_bind,require_bind hg.names,hg.captureId,hfirst,ok_bind,
    hsecond,ok_bind]
  simp only [hindex,ok_bind]
  cases fileNbis py 1 written' .empty <;> rfl

/-- A run whose calls all return is accepted, if the observations agree with the PCAP files and every
process can be a key. -/
theorem Holds.accepted (hg : Holds sha256 captureId calls g) (hvalid : validUuid captureId = true)
    (hobservations : AllReached (observationAppends captureId calls))
    (hnbis : AllReached (nbiAppends captureId calls))
    (hplain : ∀ c, Call.recordNbi c ∈ calls → PlainProcess c)
    (hagrees : Agrees py f sha256 captureId calls g.raw g.converted) :
    ∃ loaded, load py f sha256 validUuid verifyPhysical g = .ok loaded := by
  obtain ⟨entries,records,hentries,hread,hindex⟩ := hagrees
  obtain ⟨nbis,hindicators,-⟩ := hnbis.records
  have hfile : ∀ record ∈ nbis, ∀ number, ∃ x, nbiOf py number record = .ok x := by
    intro record hrecord number
    obtain ⟨i,hi⟩ := List.getElem?_of_mem hrecord
    obtain ⟨c,nbi,hcall,-,rfl⟩ := nbis_record hindicators hi
    exact nbiOf_plain (hplain c hcall) captureId (i+1) number nbi
  obtain ⟨filed,hfiled⟩ := fileNbis_isOk 1 .empty hfile
  rw [hg.load_eq hvalid hobservations hnbis hentries hindicators hread hindex,hfiled]
  exact ⟨_,rfl⟩

/-- The journals of a sealed capture are exact and fail closed. -/
theorem originals_exact
    (hcreate : Writer.create validUuid captureId pairBasename observationsAt nbisAt = some w₀)
    (hseal : (w₀.run calls).2.sealGroup sha256 raw converted observationsId nbisId = some (g,w')) :
    (∀ x ∈ calls.zip (w₀.run calls).1, x.2 = true → x.1.Counted) ∧
    (∀ loaded, load py f sha256 validUuid verifyPhysical g = .ok loaded →
      Exact py captureId calls loaded) ∧
    (¬(AllReached (observationAppends captureId calls) ∧ AllReached (nbiAppends captureId calls)) →
      ∃ e, load py f sha256 validUuid verifyPhysical g = .error e) ∧
    ((∀ returned ∈ (w₀.run calls).1, returned = true) →
      (∀ c, Call.recordNbi c ∈ calls → PlainProcess c) →
      Agrees py f sha256 captureId calls g.raw g.converted →
      ∃ loaded, load py f sha256 validUuid verifyPhysical g = .ok loaded) := by
  have hg := sealGroup_holds hcreate hseal
  refine ⟨run_counted w₀ calls,fun loaded h => hg.exact h,fun hlost => ?_,
    fun hreturned hplain hagrees => ?_⟩
  · cases hload : load py f sha256 validUuid verifyPhysical g with
    | error e => exact ⟨e,rfl⟩
    | ok loaded =>
      have hexact := hg.exact hload
      exact absurd ⟨hexact.observationsReached,hexact.nbisReached⟩ hlost
  · obtain ⟨hvalid,rfl⟩ := create_eq hcreate
    obtain ⟨hobservations,hnbis⟩ := run_returned rfl hreturned
    exact hg.accepted hvalid hobservations hnbis hplain hagrees

end Sealed

def exampleId : Text := "00000000-0000-4000-8000-000000000000".toList

def exampleTime : FloatText := ⟨"7.5".toList,by decide⟩

def noFaults : Faults := ⟨false,none,false⟩

/-- Python's functions on the values of the examples. -/
def exampleValues : PyValues where
  κ := Text
  decEq := inferInstance
  int
    | .int n => some n
    | _ => none
  timestampDiffers _ _ := none
  hash
    | .arr _ | .obj _ => none
    | v => some (Json.write v)
  str
    | .str s => s
    | v => Json.write v
  lower text := text.map Char.toLower
  int_int _ := rfl
  hash_scalar v := by cases v <;> simp

/-- The digest that the examples use in the place of SHA-256. -/
def exampleDigest (bytes : List UInt8) : Text := bytes.map fun b => Char.ofNat b.toNat

def exampleRaw (records : List UInt8) : File where
  name := "capture.pcap".toList
  bytes := Pcap.littleEndian.fileHeader .raw 65535++records
  device := 1
  inode := 2

def exampleWriter : Writer where
  captureId := exampleId
  pairBasename := "capture.pcap".toList
  observations := Writer.openJournal exampleId "capture.pcap".toList observationsName exampleTime
  nbis := Writer.openJournal exampleId "capture.pcap".toList nbisName exampleTime
  closed := false
  isSealed := false

def exampleGroup (calls : List Call) (raw : File) : Option (Group × Writer) :=
  (exampleWriter.run calls).2.sealGroup exampleDigest raw none (1,3) (1,4)

theorem exampleWriter_eq : Writer.create (fun s => s = exampleId) exampleId "capture.pcap".toList
    exampleTime exampleTime = some exampleWriter := if_pos (by decide)

theorem exampleGroup_eq (calls : List Call) (raw : File) (hraw : raw.name = "capture.pcap".toList) :
    ∃ g w', exampleGroup calls raw = some (g,w') ∧ g.raw = raw ∧ g.converted = none := by
  have hopen : ¬((exampleWriter.run calls).2.isSealed = true ∨ (exampleWriter.run calls).2.closed = true ∨
      raw.name ≠ (exampleWriter.run calls).2.pairBasename) := by
    rw [Writer.run_eq rfl]
    simp [exampleWriter,hraw]
  exact ⟨_,_,if_neg hopen,rfl,rfl⟩

/-- One packet that is observed, and one indicator. -/
def exampleCalls : List Call :=
  [.recordObservation ⟨some [("observation_role".toList,some (.str "inbound".toList)),
      ("length".toList,some (.int 2)),("sha256".toList,some (.str (exampleDigest [0x45,0x01])))],noFaults⟩,
    .recordNbi ⟨some [("pid".toList,.int 7),("comm".toList,.str "sample.exe".toList)],"HTTP".toList,
      .bool false,"SingleHost".toList,some [("Method".toList,.str "GET".toList)],exampleTime,noFaults⟩]

def exampleRecord : List UInt8 := (Pcap.littleEndian.pack ⟨7,500000,[0x45,0x01]⟩).getD []

theorem exampleCalls_agree : Agrees exampleValues Pcap.littleEndian exampleDigest exampleId exampleCalls
    (exampleRaw exampleRecord) none := by
  have hread : readPair Pcap.littleEndian (exampleRaw exampleRecord) none =
      .ok [⟨1,Pcap.littleEndian.time 7 500000,[0x45,0x01]⟩] := by rfl
  exact ⟨_,_,rfl,hread,by rfl⟩

/-- The write of one more record raises after three bytes. -/
def tornCalls : List Call := exampleCalls++[.recordObservation ⟨some [],⟨false,some 3,false⟩⟩]

theorem tornCalls_lost : ¬AllReached (observationAppends exampleId tornCalls) := by
  intro h
  have htorn := h (_,2) (.tail _ (.head _))
  unfold Append.Reached Torn.Whole at htorn
  revert htorn
  decide

/-- The group of the calls that return is loaded, and the one with the torn record is refused. -/
theorem originals_exact_example : (∃ g w' loaded,
    exampleGroup exampleCalls (exampleRaw exampleRecord) = some (g,w') ∧
    load exampleValues Pcap.littleEndian exampleDigest (fun s => s = exampleId) true g = .ok loaded ∧
    Exact exampleValues exampleId exampleCalls loaded) ∧
    ∃ g w' e, exampleGroup tornCalls (exampleRaw exampleRecord) = some (g,w') ∧
      load exampleValues Pcap.littleEndian exampleDigest (fun s => s = exampleId) true g = .error e := by
  constructor
  · obtain ⟨g,w',hg,hraw,hconverted⟩ := exampleGroup_eq exampleCalls (exampleRaw exampleRecord) rfl
    obtain ⟨-,hexact,-,haccepted⟩ : (_ ∧ (∀ loaded, load exampleValues Pcap.littleEndian exampleDigest
        (fun s => s = exampleId) true g = .ok loaded → _) ∧ _ ∧ _) := originals_exact exampleWriter_eq hg
    obtain ⟨loaded,hloaded⟩ := haccepted (by decide +kernel) (by
      intro c hc
      simp only [exampleCalls,List.mem_cons,List.not_mem_nil,or_false,reduceCtorEq,false_or,
        Call.recordNbi.injEq] at hc
      subst hc
      simp [PlainProcess,processOf,jsonSafe,jsonSafeMembers,setMember,Value.get?]) (by
      rw [hraw,hconverted]
      exact exampleCalls_agree)
    exact ⟨g,w',loaded,hg,hloaded,hexact loaded hloaded⟩
  · obtain ⟨g,w',hg,-,-⟩ := exampleGroup_eq tornCalls (exampleRaw exampleRecord) rfl
    obtain ⟨-,-,hrefused,-⟩ : (_ ∧ _ ∧ (_ → ∃ e, load exampleValues Pcap.littleEndian exampleDigest
        (fun s => s = exampleId) true g = .error e) ∧ _) := originals_exact exampleWriter_eq hg
    obtain ⟨e,he⟩ := hrefused fun h => tornCalls_lost h.1
    exact ⟨g,w',e,hg,he⟩

/-- An indicator whose process identifier is a list. -/
def listPidCalls : List Call :=
  [.recordNbi ⟨some [("pid".toList,.items [.int 1])],"HTTP".toList,.bool false,"SingleHost".toList,
    some [],exampleTime,noFaults⟩]

/-- Every call returns and the observations agree, but the process cannot be a key. -/
theorem listPid_refused : ∃ g w', exampleGroup listPidCalls (exampleRaw []) = some (g,w') ∧
    (exampleWriter.run listPidCalls).1 = [true] ∧
    Agrees exampleValues Pcap.littleEndian exampleDigest exampleId listPidCalls g.raw g.converted ∧
    load exampleValues Pcap.littleEndian exampleDigest (fun s => s = exampleId) true g =
      .error "TypeError: unhashable type" := by
  obtain ⟨g,w',hg,hraw,hconverted⟩ := exampleGroup_eq listPidCalls (exampleRaw []) rfl
  have hread : readPair Pcap.littleEndian (exampleRaw []) none = .ok [] := rfl
  have hindex : validateIndex exampleValues exampleDigest [] [] = .ok () := rfl
  have hreturned : (exampleWriter.run listPidCalls).1 = [true] := by decide
  obtain ⟨hobservations,hnbis⟩ := run_returned (w:=exampleWriter) rfl
    (show ∀ returned ∈ (exampleWriter.run listPidCalls).1,returned = true by simp [hreturned])
  refine ⟨g,w',hg,hreturned,⟨[],[],rfl,by rw [hraw,hconverted,hread],hindex⟩,?_⟩
  have hholds := sealGroup_holds exampleWriter_eq hg
  rw [hholds.load_eq (by decide) hobservations hnbis rfl rfl (by rw [hraw,hconverted,hread])
    hindex]
  rfl

end Originals
end FakeNetNG
