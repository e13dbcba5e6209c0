import FakeNetNG.EventLog

/-!
# Paging through the event log

The numbers of all entries ever recorded are consecutive, and what the log has dropped is an
initial piece of them. A page after a cursor is then a piece of the history that is cut by
numbers, and pages that follow one another cut it into adjacent pieces.
-/

namespace FakeNetNG
namespace Events

/-- A log together with all entries that were ever recorded in it. -/
inductive Recorded : EventLog → List Entry → Prop
  | new (epoch : String) (epochNonempty : epoch ≠ "") (limit : ℕ) (limitPositive : 0 < limit) :
      Recorded (.new epoch epochNonempty limit limitPositive) []
  | record {log : EventLog} {history : List Entry} (timestamp : ℚ) (kind : String) (fields : Fields)
      (before : Recorded log history) :
      Recorded (log.record timestamp kind fields)
        (history++[log.nextEntry timestamp kind fields])

section Sorted

variable {α : Type} {key : α → ℤ} {l : List α}

theorem take_eq_filter (h : l.Pairwise fun a b => key a < key b) {n : ℕ} {last : α}
    (hlast : (l.take n).getLast? = some last) :
    l.take n = l.filter fun a => key a ≤ key last := by
  have hsplit := List.take_append_drop n l
  rw [← hsplit,List.pairwise_append] at h
  obtain ⟨htake,-,hcross⟩ := h
  have hmem : last ∈ l.take n := List.mem_of_getLast? hlast
  have hfront : (l.take n).filter (fun a => key a ≤ key last) = l.take n := by
    refine List.filter_eq_self.mpr fun a ha => ?_
    obtain ⟨front,hfront⟩ := List.getLast?_eq_some_iff.mp hlast
    rw [hfront] at htake ha
    rcases List.mem_append.mp ha with ha | ha
    · have hlt := (List.pairwise_append.mp htake).2.2 a ha last (List.mem_singleton_self _)
      simpa using le_of_lt hlt
    · rw [List.mem_singleton.mp ha]
      simp
  have hback : (l.drop n).filter (fun a => key a ≤ key last) = [] := by
    refine List.filter_eq_nil_iff.mpr fun a ha => ?_
    have hlt := hcross last hmem a ha
    simpa using hlt
  calc l.take n = (l.take n).filter (fun a => key a ≤ key last) := hfront.symm
    _ = (l.take n).filter (fun a => key a ≤ key last)++
          (l.drop n).filter (fun a => key a ≤ key last) := by rw [hback,List.append_nil]
    _ = l.filter fun a => key a ≤ key last := by rw [← List.filter_append,hsplit]

theorem filter_append_filter (h : l.Pairwise fun a b => key a < key b) {low middle high : ℤ}
    (hlow : low ≤ middle) (hhigh : middle ≤ high) (p : α → Bool) :
    l.filter (fun a => low < key a ∧ key a ≤ middle ∧ p a)++
        l.filter (fun a => middle < key a ∧ key a ≤ high ∧ p a) =
      l.filter fun a => low < key a ∧ key a ≤ high ∧ p a := by
  induction l with
  | nil => rfl
  | cons a rest ih =>
    obtain ⟨hhead,hrest⟩ := List.pairwise_cons.mp h
    by_cases ha : key a ≤ middle
    · have hnot : ¬ middle < key a := by omega
      have hle : key a ≤ high := le_trans ha hhigh
      simp only [List.filter_cons,ha,hnot,hle,true_and,false_and,decide_false]
      by_cases hp : low < key a ∧ p a = true
      · simpa [hp] using ih hrest
      · simpa [hp] using ih hrest
    · have hlt : middle < key a := by omega
      have hnone : ∀ q : α → Bool,
          (a :: rest).filter (fun a => low < key a ∧ key a ≤ middle ∧ q a) = [] := by
        intro q
        refine List.filter_eq_nil_iff.mpr fun b hb => ?_
        rcases List.mem_cons.mp hb with rfl | hb
        · simp [ha]
        · have hgt := hhead b hb
          have hnot : ¬ key b ≤ middle := by omega
          simp [hnot]
      rw [hnone,List.nil_append]
      refine List.filter_congr fun b hb => ?_
      have hgt : middle < key b := by
        rcases List.mem_cons.mp hb with rfl | hb
        · exact hlt
        · exact lt_trans hlt (hhead b hb)
      have hgt' : low < key b := lt_of_le_of_lt hlow hgt
      simp [hgt,hgt']

end Sorted

/-- What a log keeps of its history. -/
structure Holds (log : EventLog) (history : List Entry) : Prop where
  seq : log.seq = history.length
  entries : log.entries = history.drop (history.length-log.limit)
  numbered : ∀ i (h : i < history.length), history[i].seq = i+1
  epochs : ∀ entry ∈ history, entry.epoch = log.epoch

theorem Recorded.holds {log : EventLog} {history : List Entry} (h : Recorded log history) :
    Holds log history := by
  induction h with
  | new epoch epochNonempty limit limitPositive =>
    exact ⟨rfl,List.drop_nil.symm,fun i hi => absurd hi (Nat.not_lt_zero i),by simp⟩
  | @record log history timestamp kind fields before ih =>
    set entry := log.nextEntry timestamp kind fields with hentry
    refine ⟨?_,?_,?_,?_⟩
    · change log.seq+1 = _
      rw [ih.seq,List.length_append]
      push_cast
      rfl
    · change (log.entries++[entry]).drop ((log.entries++[entry]).length-log.limit) = _
      have hdrop : log.entries++[entry] =
          (history++[entry]).drop (history.length-log.limit) := by
        rw [ih.entries,List.drop_append_of_le_length (by omega)]
      rw [hdrop,List.drop_drop,List.length_drop,List.length_append,List.length_singleton]
      congr 1
      change _ = history.length+1-log.limit
      omega
    · intro i hi
      rw [List.length_append,List.length_singleton] at hi
      by_cases hlast : i < history.length
      · rw [List.getElem_append_left hlast]
        exact ih.numbered i hlast
      · have heq : i = history.length := by omega
        subst heq
        rw [List.getElem_append_right (le_refl _)]
        simp [hentry,EventLog.nextEntry,ih.seq]
    · intro other hother
      rcases List.mem_append.mp hother with hother | hother
      · exact ih.epochs other hother
      · rw [List.mem_singleton.mp hother]
        rfl

namespace Holds

variable {log : EventLog} {history : List Entry} {entry : Entry}

def droppedCount (log : EventLog) (history : List Entry) : ℕ := history.length-log.limit

theorem pairwise (h : Holds log history) : history.Pairwise fun a b => a.seq < b.seq := by
  rw [List.pairwise_iff_getElem]
  intro i j hi hj hij
  rw [h.numbered i hi,h.numbered j hj]
  omega

theorem mem_le (h : Holds log history) (hentry : entry ∈ history) :
    1 ≤ entry.seq ∧ entry.seq ≤ log.seq := by
  obtain ⟨i,hi,rfl⟩ := List.mem_iff_getElem.mp hentry
  rw [h.numbered i hi,h.seq]
  omega

theorem entries_subset (h : Holds log history) (hentry : entry ∈ log.entries) : entry ∈ history := by
  rw [h.entries] at hentry
  exact List.mem_of_mem_drop hentry

theorem mem_entries_iff (h : Holds log history) (hentry : entry ∈ history) :
    entry ∈ log.entries ↔ (droppedCount log history : ℤ) < entry.seq := by
  obtain ⟨i,hi,rfl⟩ := List.mem_iff_getElem.mp hentry
  rw [h.numbered i hi,h.entries,droppedCount]
  constructor
  · intro hmem
    obtain ⟨j,hj,heq⟩ := List.mem_iff_getElem.mp hmem
    rw [List.length_drop] at hj
    rw [List.getElem_drop] at heq
    have hseq := congrArg Entry.seq heq
    rw [h.numbered _ (by omega),h.numbered i hi] at hseq
    push_cast at hseq
    omega
  · intro hlt
    refine List.mem_iff_getElem.mpr ⟨i-(history.length-log.limit),?_,?_⟩
    · rw [List.length_drop]
      omega
    · rw [List.getElem_drop]
      congr 1
      omega

theorem entries_pairwise (h : Holds log history) :
    log.entries.Pairwise fun a b => a.seq < b.seq := by
  rw [h.entries]
  exact h.pairwise.sublist (List.drop_sublist _ _)

theorem window_seqs (h : Holds log history) :
    log.window.latestSeq = some log.seq ∧
      log.window.oldestSeq = if history = [] then none else some ((droppedCount log history : ℤ)+1) := by
  by_cases hempty : history = []
  · subst hempty
    have hentries : log.entries = [] := by rw [h.entries,List.drop_nil]
    refine ⟨?_,?_⟩
    · simp only [EventLog.window,hentries,h.seq]
      rfl
    · simp [EventLog.window,hentries]
  · have hpos := List.length_pos_iff.mpr hempty
    have hlimit := log.limitPositive
    refine ⟨?_,?_⟩
    · have hlast : log.entries.getLast? = history[history.length-1]? := by
        rw [h.entries,List.getLast?_drop,if_neg (by omega),List.getLast?_eq_getElem?]
      rw [List.getElem?_eq_getElem (by omega)] at hlast
      simp only [EventLog.window,hlast,Option.map_some,Option.getD_some,h.numbered _ _,h.seq]
      congr 1
      omega
    · have hfirst : log.entries.head? = history[history.length-log.limit]? := by
        rw [h.entries,List.head?_drop]
      rw [List.getElem?_eq_getElem (by omega)] at hfirst
      simp only [EventLog.window,hfirst,Option.map_some,h.numbered _ _,hempty,if_false]
      rfl

/-- A cursor of this log lies before dropped entries exactly when it is before the last one. -/
theorem gap_iff (h : Holds log history) {cursor : ℤ} (hcursor : 0 ≤ cursor) :
    (log.window.oldestSeq.any fun oldest => cursor < oldest-1) = true ↔
      ∃ entry ∈ history, entry ∉ log.entries ∧ cursor < entry.seq := by
  rw [h.window_seqs.2]
  constructor
  · intro hgap
    split_ifs at hgap with hempty
    · simp at hgap
    · simp only [Option.any_some,add_sub_cancel_right,decide_eq_true_eq] at hgap
      have hdropped : droppedCount log history ≤ history.length := Nat.sub_le _ _
      have hlt : droppedCount log history-1 < history.length := by omega
      have hseq := h.numbered _ hlt
      refine ⟨history[droppedCount log history-1],List.getElem_mem hlt,?_,by omega⟩
      rw [h.mem_entries_iff (List.getElem_mem hlt),hseq]
      omega
  · rintro ⟨entry,hentry,hgone,hlt⟩
    rw [h.mem_entries_iff hentry] at hgone
    have hne : history ≠ [] := List.ne_nil_of_mem hentry
    simp only [hne,if_false,Option.any_some,add_sub_cancel_right,decide_eq_true_eq]
    omega

/-- With nothing dropped after the cursor, the log and its history have the same entries after
it. -/
theorem filter_entries (h : Holds log history) {cursor : ℤ} (p : Entry → Bool)
    (hgap : ∀ entry ∈ history, entry ∉ log.entries → ¬ cursor < entry.seq) :
    log.entries.filter (fun entry => entry.seq > cursor ∧ p entry) =
      history.filter fun entry => entry.seq > cursor ∧ p entry := by
  have hsplit := List.take_append_drop (droppedCount log history) history
  have hfront : (history.take (droppedCount log history)).filter
      (fun entry => entry.seq > cursor ∧ p entry) = [] := by
    refine List.filter_eq_nil_iff.mpr fun entry hentry => ?_
    have hmem := List.mem_of_mem_take hentry
    have hgone : entry ∉ log.entries := by
      obtain ⟨i,hi,rfl⟩ := List.mem_take_iff_getElem.mp hentry
      rw [h.mem_entries_iff (List.getElem_mem _),h.numbered]
      omega
    have hnot := hgap entry hmem hgone
    simp [hnot]
  calc log.entries.filter (fun entry => entry.seq > cursor ∧ p entry)
      = (history.take (droppedCount log history)).filter
          (fun entry => entry.seq > cursor ∧ p entry)++
        (history.drop (droppedCount log history)).filter
          (fun entry => entry.seq > cursor ∧ p entry) := by
        rw [hfront,List.nil_append,h.entries]
        rfl
    _ = history.filter fun entry => entry.seq > cursor ∧ p entry := by
        rw [← List.filter_append,hsplit]

end Holds

section Codec

variable {json : JsonCodec}

/-- The JSON codec gives a cursor's content back. -/
def JsonCodec.InverseAt (json : JsonCodec) (epoch : String) (seq : ℤ) : Prop :=
  json.loads (json.dumps (payload epoch seq)) = some (payload epoch seq)

theorem readPayload_payload {epoch : String} {seq : ℤ} (hepoch : epoch ≠ "") (hseq : 0 ≤ seq) :
    readPayload (payload epoch seq) = .ok (epoch,seq) := by
  have hnot : ¬ seq < 0 := by omega
  simp [readPayload,payload,Json.get?,Json.isOne,hepoch,hnot]

theorem decodeCursor_encodeCursor {epoch : String} {seq : ℤ} (hepoch : epoch ≠ "") (hseq : 0 ≤ seq)
    (hjson : json.InverseAt epoch seq) :
    ∃ token, encodeCursor json epoch seq = .ok token ∧ decodeCursor json token = .ok (epoch,seq) := by
  have hnot : ¬ seq < 0 := by omega
  refine ⟨_,by rw [encodeCursor,if_neg hepoch,if_neg hnot],?_⟩
  have hprefix : cursorPrefix.toList <+: (cursorPrefix++
      String.ofList (Base64.strip (Base64.encode (json.dumps (payload epoch seq))))).toList := by
    rw [String.toList_append]
    exact List.prefix_append _ _
  rw [decodeCursor,if_neg (not_not.mpr hprefix)]
  simp only [String.toList_append,List.drop_left,String.toList_ofList,Base64.decode_pad_strip,
    Option.bind_some]
  rw [hjson]
  exact readPayload_payload hepoch hseq

theorem nonneg_of_decodeCursor {token epoch : String} {seq : ℤ}
    (h : decodeCursor json token = .ok (epoch,seq)) : 0 ≤ seq := by
  unfold decodeCursor at h
  split_ifs at h
  simp only at h
  split at h
  · cases h
  · unfold readPayload at h
    split_ifs at h
    split at h
    · split_ifs at h
      split at h
      · split_ifs at h with hseq
        obtain ⟨rfl,rfl⟩ := Prod.mk.inj (Except.ok.inj h)
        omega
      · cases h
    · cases h

end Codec

/-- The entries of a run whose numbers lie between two cursors. -/
def between (history : List Entry) (low high : ℤ) (runId : Option String) : List Entry :=
  history.filter fun entry => low < entry.seq ∧ entry.seq ≤ high ∧ matchesRun runId entry

theorem pageLimit_pos (limit : Option ℤ) : 0 < pageLimit limit := by
  unfold pageLimit
  split
  · omega
  · split_ifs <;> omega

/-- Where a page starts to look: after a cursor of this log, or at the beginning. -/
def lowBound (log : EventLog) (cursorEpoch : String) (cursorSeq : ℤ) : ℤ :=
  if cursorEpoch = log.epoch then cursorSeq else 0

/-- What a page after the cursor `(cursorEpoch,cursorSeq)` is, where `next` is the number in
its own cursor. -/
structure PageSpec (json : JsonCodec) (runId : Option String) (log : EventLog)
    (history : List Entry) (cursorEpoch : String) (cursorSeq : ℤ) (page : Page) (next : ℤ) :
    Prop where
  cursor : ∃ token, page.nextCursor = some token ∧ decodeCursor json token = .ok (log.epoch,next)
  sorted : page.events.Pairwise fun a b => a.seq < b.seq
  within : ∀ entry ∈ page.events, lowBound log cursorEpoch cursorSeq < entry.seq ∧ entry.seq ≤ next
  retained : page.events ⊆ log.entries
  low_le : lowBound log cursorEpoch cursorSeq ≤ next
  next_le : next ≤ log.seq
  gap : page.gap = true ↔ ∃ entry ∈ history, entry ∉ log.entries ∧ entry.epoch = cursorEpoch ∧
    cursorSeq < entry.seq
  reset : page.resetRequired = true ↔ cursorEpoch ≠ log.epoch
  complete : page.gap = false → page.resetRequired = false →
    page.events = between history cursorSeq next runId
  tail : page.hasMore = false → page.resetRequired = false → next = log.seq
  more : page.hasMore = true → page.events ≠ []

section Pages

variable {json : JsonCodec} {log : EventLog} {history : List Entry} {runId : Option String}

theorem pageResponse_ok (hjson : ∀ seq, 0 ≤ seq → json.InverseAt log.epoch seq) {next : ℤ}
    (hnext : 0 ≤ next) (events : List Entry) (hasMore gap reset : Bool) :
    ∃ token, decodeCursor json token = .ok (log.epoch,next) ∧
      pageResponse json events log.window next hasMore gap reset =
        .ok ⟨events,log.epoch,some token,hasMore,gap,reset,log.window.oldestSeq,
          log.window.latestSeq⟩ := by
  obtain ⟨token,hencode,hdecode⟩ :=
    decodeCursor_encodeCursor log.epochNonempty hnext (hjson next hnext)
  refine ⟨token,hdecode,?_⟩
  have hwindow : log.window.epoch = log.epoch := rfl
  rw [pageResponse,hwindow,hencode]
  rfl

theorem exists_getLast_take {α : Type} {l : List α} {n : ℕ} (hn : 0 < n) (hl : n < l.length) :
    ∃ last, (l.take n).getLast? = some last := by
  cases h : (l.take n).getLast? with
  | some last => exact ⟨last,rfl⟩
  | none =>
    have hlength := congrArg List.length (List.getLast?_eq_none_iff.mp h)
    rw [List.length_take,List.length_nil] at hlength
    omega

/-- The entries after a cursor that a run's page is taken from. -/
def matchedAfter (log : EventLog) (cursor : ℤ) (runId : Option String) : List Entry :=
  log.entries.filter fun entry => entry.seq > cursor ∧ matchesRun runId entry

theorem matchedAfter_sorted (h : Holds log history) (cursor : ℤ) :
    (matchedAfter log cursor runId).Pairwise fun a b => a.seq < b.seq :=
  h.entries_pairwise.sublist List.filter_sublist

theorem mem_matchedAfter {cursor : ℤ} {entry : Entry} (h : entry ∈ matchedAfter log cursor runId) :
    entry ∈ log.entries ∧ cursor < entry.seq := by
  rw [matchedAfter,List.mem_filter] at h
  have hpair : entry.seq > cursor ∧ matchesRun runId entry = true := by simpa using h.2
  exact ⟨h.1,hpair.1⟩

theorem gap_iff_dropped (h : Holds log history) {cursor : ℤ} (hcursor : 0 ≤ cursor) :
    (log.window.oldestSeq.any fun oldest => cursor < oldest-1) = true ↔
      ∃ entry ∈ history, entry ∉ log.entries ∧ entry.epoch = log.epoch ∧ cursor < entry.seq := by
  rw [h.gap_iff hcursor]
  constructor
  · rintro ⟨entry,hentry,hgone,hlt⟩
    exact ⟨entry,hentry,hgone,h.epochs entry hentry,hlt⟩
  · rintro ⟨entry,hentry,hgone,-,hlt⟩
    exact ⟨entry,hentry,hgone,hlt⟩

theorem matchedAfter_eq_history (h : Holds log history) {cursor : ℤ} (hcursor : 0 ≤ cursor)
    (hgap : (log.window.oldestSeq.any fun oldest => cursor < oldest-1) = false) :
    matchedAfter log cursor runId =
      history.filter fun entry => entry.seq > cursor ∧ matchesRun runId entry := by
  refine h.filter_entries _ fun entry hentry hgone hlt => ?_
  have htrue := (gap_iff_dropped h hcursor).mpr ⟨entry,hentry,hgone,h.epochs entry hentry,hlt⟩
  rw [hgap] at htrue
  cases htrue

theorem resumePage_full (h : Holds log history)
    (hjson : ∀ seq, 0 ≤ seq → json.InverseAt log.epoch seq) {limit : ℕ} (hlimit : 0 < limit)
    {cursor : ℤ} (hcursor : 0 ≤ cursor) (hmore : limit < (matchedAfter log cursor runId).length) :
    ∃ page next, resumePage json log.window limit runId cursor = .ok page ∧
      PageSpec json runId log history log.epoch cursor page next := by
  set matched := matchedAfter log cursor runId with hmatched
  have hsorted : (matchedAfter log cursor runId).Pairwise _ := matchedAfter_sorted h cursor
  obtain ⟨last,hlast⟩ := exists_getLast_take hlimit hmore
  have htake := take_eq_filter hsorted hlast
  have hlastmem := mem_matchedAfter (List.mem_of_mem_take (List.mem_of_getLast? hlast))
  have hlow : lowBound log log.epoch cursor = cursor := if_pos rfl
  obtain ⟨token,hdecode,hresponse⟩ := pageResponse_ok hjson (show 0 ≤ (last.seq : ℤ) by omega)
    (matched.take limit) true (log.window.oldestSeq.any fun oldest => cursor < oldest-1) false
  have hpage : resumePage json log.window limit runId cursor =
      pageResponse json (matched.take limit) log.window last.seq true
        (log.window.oldestSeq.any fun oldest => cursor < oldest-1) false := by
    rw [resumePage]
    change (if matched.length > limit then
      pageResponse json (matched.take limit) log.window
        (((matched.take limit).getLast?.map Entry.seq).getD 0) true _ false else _) = _
    rw [if_pos hmore,hlast]
    rfl
  refine ⟨_,last.seq,hpage.trans hresponse,⟨token,rfl,hdecode⟩,?_,?_,?_,?_,?_,
    gap_iff_dropped h hcursor,?_,?_,?_,?_⟩
  · exact hsorted.sublist (List.take_sublist _ _)
  · intro entry hentry
    rw [hlow]
    refine ⟨(mem_matchedAfter (List.mem_of_mem_take hentry)).2,?_⟩
    change entry ∈ matched.take limit at hentry
    rw [htake,List.mem_filter] at hentry
    simpa using hentry.2
  · exact fun entry hentry => (mem_matchedAfter (List.mem_of_mem_take hentry)).1
  · rw [hlow]
    exact le_of_lt hlastmem.2
  · exact (h.mem_le (h.entries_subset hlastmem.1)).2
  · simp
  · intro hnogap _
    change matched.take limit = _
    rw [htake,matchedAfter_eq_history h hcursor hnogap,List.filter_filter,between]
    refine List.filter_congr fun entry _ => ?_
    by_cases hentry : cursor < entry.seq <;> by_cases hbound : entry.seq ≤ last.seq <;>
      simp [hentry,hbound]
  · intro hfalse
    cases hfalse
  · intro _ hnil
    change matched.take limit = [] at hnil
    rw [hnil] at hlast
    cases hlast

theorem resumePage_last (h : Holds log history)
    (hjson : ∀ seq, 0 ≤ seq → json.InverseAt log.epoch seq) {limit : ℕ}
    {cursor : ℤ} (hcursor : 0 ≤ cursor) (hle : cursor ≤ log.seq)
    (hmore : ¬ limit < (matchedAfter log cursor runId).length) :
    ∃ page next, resumePage json log.window limit runId cursor = .ok page ∧
      PageSpec json runId log history log.epoch cursor page next := by
  set matched := matchedAfter log cursor runId with hmatched
  have hsorted : (matchedAfter log cursor runId).Pairwise _ := matchedAfter_sorted h cursor
  have hall : matched.take limit = matched := List.take_of_length_le (by omega)
  have hlow : lowBound log log.epoch cursor = cursor := if_pos rfl
  obtain ⟨token,hdecode,hresponse⟩ := pageResponse_ok hjson (show 0 ≤ (log.seq : ℤ) from le_trans hcursor hle)
    matched false (log.window.oldestSeq.any fun oldest => cursor < oldest-1) false
  have hpage : resumePage json log.window limit runId cursor =
      pageResponse json matched log.window log.seq false
        (log.window.oldestSeq.any fun oldest => cursor < oldest-1) false := by
    rw [resumePage]
    change (if matched.length > limit then _ else
      pageResponse json (matched.take limit) log.window (log.window.latestSeq.getD cursor) false
        _ false) = _
    rw [if_neg hmore,hall,h.window_seqs.1]
    rfl
  refine ⟨_,log.seq,hpage.trans hresponse,⟨token,rfl,hdecode⟩,hsorted,?_,?_,?_,le_refl _,
    gap_iff_dropped h hcursor,?_,?_,fun _ _ => rfl,?_⟩
  · intro entry hentry
    have hmem := mem_matchedAfter hentry
    rw [hlow]
    exact ⟨hmem.2,(h.mem_le (h.entries_subset hmem.1)).2⟩
  · exact fun entry hentry => (mem_matchedAfter hentry).1
  · rw [hlow]
    exact hle
  · simp
  · intro hnogap _
    change matched = _
    rw [hmatched,matchedAfter_eq_history h hcursor hnogap,between]
    refine List.filter_congr fun entry hentry => ?_
    have hbound := (h.mem_le hentry).2
    simp [hbound]
  · intro hfalse
    cases hfalse

theorem resetPage_spec (h : Holds log history)
    (hjson : ∀ seq, 0 ≤ seq → json.InverseAt log.epoch seq) {limit : ℕ} (hlimit : 0 < limit)
    {cursorEpoch : String} (hepoch : cursorEpoch ≠ log.epoch) (cursor : ℤ) :
    ∃ page next, resetPage json log.window limit runId = .ok page ∧
      PageSpec json runId log history cursorEpoch cursor page next := by
  set matched := log.entries.filter (matchesRun runId) with hmatched
  have hsorted : matched.Pairwise fun a b => a.seq < b.seq :=
    h.entries_pairwise.sublist List.filter_sublist
  have hmem : ∀ entry ∈ matched.take limit, entry ∈ log.entries := fun entry hentry =>
    List.mem_of_mem_filter (List.mem_of_mem_take hentry)
  have hlow : lowBound log cursorEpoch cursor = 0 := if_neg hepoch
  have hgap : ¬ ∃ entry ∈ history, entry ∉ log.entries ∧ entry.epoch = cursorEpoch ∧
      cursor < entry.seq := by
    rintro ⟨entry,hentry,-,heq,-⟩
    exact hepoch (heq.symm.trans (h.epochs entry hentry))
  -- the number in the new cursor: of the last entry of the page, or of the tail
  obtain ⟨next,hpage,hpositive,hwithin⟩ : ∃ next,
      resetPage json log.window limit runId = pageResponse json (matched.take limit) log.window next
        (decide (matched.length > limit)) false true ∧ (0 ≤ next ∧ next ≤ log.seq) ∧
      ∀ entry ∈ matched.take limit, entry.seq ≤ next := by
    have hreset : log.window.entries.filter (matchesRun runId) = matched := rfl
    unfold resetPage
    simp only [hreset]
    cases hlast : (matched.take limit).getLast? with
    | some last =>
      have hbounds := h.mem_le (h.entries_subset (hmem last (List.mem_of_getLast? hlast)))
      refine ⟨last.seq,rfl,⟨by omega,hbounds.2⟩,fun entry hentry => ?_⟩
      rw [take_eq_filter hsorted hlast,List.mem_filter] at hentry
      simpa using hentry.2
    | none =>
      have hseq := h.seq
      refine ⟨log.seq,?_,⟨by omega,le_refl _⟩,fun entry hentry => ?_⟩
      · rw [h.window_seqs.1,Option.getD_some]
      · rw [List.getLast?_eq_none_iff.mp hlast] at hentry
        cases hentry
  obtain ⟨token,hdecode,hresponse⟩ := pageResponse_ok hjson hpositive.1
    (matched.take limit) (decide (matched.length > limit)) false true
  refine ⟨_,next,hpage.trans hresponse,⟨token,rfl,hdecode⟩,hsorted.sublist (List.take_sublist _ _),
    ?_,hmem,?_,hpositive.2,?_,?_,?_,?_,?_⟩
  · intro entry hentry
    have hbounds := h.mem_le (h.entries_subset (hmem entry hentry))
    exact ⟨by omega,hwithin entry hentry⟩
  · omega
  · simpa using hgap
  · simp [hepoch]
  · intro _ hfalse
    cases hfalse
  · intro _ hfalse
    cases hfalse
  · intro hmore hnil
    have hlt : limit < matched.length := by simpa using hmore
    have hlength := congrArg List.length hnil
    rw [List.length_take,List.length_nil] at hlength
    omega

theorem eventsPage_spec (runId : Option String) (h : Holds log history)
    (hjson : ∀ seq, 0 ≤ seq → json.InverseAt log.epoch seq) {token cursorEpoch : String}
    {cursorSeq : ℤ} (hdecode : decodeCursor json token = .ok (cursorEpoch,cursorSeq))
    (hle : cursorEpoch = log.epoch → cursorSeq ≤ log.seq) (limit : Option ℤ) :
    ∃ page next, eventsPage json log.window limit (some token) runId = .ok page ∧
      PageSpec json runId log history cursorEpoch cursorSeq page next := by
  have hnonneg := nonneg_of_decodeCursor hdecode
  have hunfold : eventsPage json log.window limit (some token) runId =
      if cursorEpoch ≠ log.epoch then
        resetPage json log.window (pageLimit limit) runId
      else if log.window.latestSeq.any fun latest => cursorSeq > latest then
        .error (.invalidCursor "cursor seq is beyond the current tail")
      else
        resumePage json log.window (pageLimit limit) runId cursorSeq := by
    rw [eventsPage,hdecode]
    rfl
  rw [hunfold]
  by_cases hepoch : cursorEpoch = log.epoch
  · subst hepoch
    have hbound := hle rfl
    have htail : (log.window.latestSeq.any fun latest => cursorSeq > latest) = false := by
      rw [h.window_seqs.1]
      simpa using hbound
    rw [if_neg (by simp),htail,if_neg (by simp)]
    by_cases hmore : pageLimit limit < (matchedAfter log cursorSeq runId).length
    · exact resumePage_full h hjson (pageLimit_pos limit) hnonneg hmore
    · exact resumePage_last h hjson hnonneg hbound hmore
  · rw [if_pos hepoch]
    exact resetPage_spec h hjson (pageLimit_pos limit) hepoch cursorSeq

theorem le_of_eventsPage_ok (h : Holds log history) {token cursorEpoch : String} {cursorSeq : ℤ}
    (hdecode : decodeCursor json token = .ok (cursorEpoch,cursorSeq)) {limit : Option ℤ} {page : Page}
    (hpage : eventsPage json log.window limit (some token) runId = .ok page)
    (hepoch : cursorEpoch = log.epoch) : cursorSeq ≤ log.seq := by
  by_contra hlt
  have htail : (log.window.latestSeq.any fun latest => cursorSeq > latest) = true := by
    rw [h.window_seqs.1]
    simpa using hlt
  have hrejected : eventsPage json log.window limit (some token) runId =
      .error (.invalidCursor "cursor seq is beyond the current tail") := by
    rw [eventsPage,hdecode]
    change (if cursorEpoch ≠ log.epoch then _ else if (log.window.latestSeq.any fun latest =>
      decide (cursorSeq > latest)) = true then _ else _) = _
    rw [if_neg (not_not.mpr hepoch),if_pos htail]
  rw [hrejected] at hpage
  cases hpage

end Pages

end Events
end FakeNetNG
