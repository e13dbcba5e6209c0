import FakeNetNG.EventPaging

/-!
# Following the event log page by page

Entries are recorded while a reader follows the log, each page with the cursor of the page
before. The pages cut the history into adjacent pieces.
-/

namespace FakeNetNG
namespace Events

inductive Action
  | record (timestamp : ℚ) (kind : String) (fields : Fields)
  | page (limit : Option ℤ)

/-- A page with the log it was computed over, all that was recorded until then, and the cursor
it was asked with. -/
structure Visit where
  log : EventLog
  recorded : List Entry
  cursor : Option String
  page : Page

section Following

variable (json : JsonCodec) (runId : Option String)

/-- The pages of a reader, or the fault of the first one that is rejected. -/
@[grind] def follow : EventLog → List Entry → Option String → List Action → Except Fault (List Visit)
  | _,_,_,[] => .ok []
  | log,recorded,cursor,.record timestamp kind fields :: rest =>
      follow (log.record timestamp kind fields) (recorded++[log.nextEntry timestamp kind fields])
        cursor rest
  | log,recorded,cursor,.page limit :: rest => do
      let page ← eventsPage json log.window limit cursor runId
      let visits ← follow log recorded page.nextCursor rest
      .ok (⟨log,recorded,cursor,page⟩ :: visits)

end Following

section Runs

variable {json : JsonCodec} {runId : Option String} {log : EventLog} {history : List Entry}

theorem follow_page_ok {cursor : Option String} {limit : Option ℤ} {rest : List Action}
    {visits : List Visit}
    (h : follow json runId log history cursor (.page limit :: rest) = .ok visits) :
    ∃ page tail, eventsPage json log.window limit cursor runId = .ok page ∧
      follow json runId log history page.nextCursor rest = .ok tail ∧
      visits = ⟨log,history,cursor,page⟩ :: tail := by
  rw [follow] at h
  cases hpage : eventsPage json log.window limit cursor runId with
  | error fault =>
    rw [hpage] at h
    cases h
  | ok page =>
    rw [hpage] at h
    cases htail : follow json runId log history page.nextCursor rest with
    | error fault =>
      change (follow json runId log history page.nextCursor rest >>= _) = _ at h
      rw [htail] at h
      cases h
    | ok tail =>
      change (follow json runId log history page.nextCursor rest >>= _) = _ at h
      rw [htail] at h
      exact ⟨page,tail,rfl,htail,(Except.ok.inj h).symm⟩

theorem between_of_prefix {log' : EventLog} {history' : List Entry} (h : Holds log history)
    (h' : Holds log' history') (hgrown : history <+: history') (low : ℤ) {high : ℤ} (hhigh : high ≤ log.seq)
    (runId : Option String) :
    between history' low high runId = between history low high runId := by
  obtain ⟨new,rfl⟩ := hgrown
  have hnew : new.filter (fun entry => low < entry.seq ∧ entry.seq ≤ high ∧
      matchesRun runId entry) = [] := by
    refine List.filter_eq_nil_iff.mpr fun entry hentry => ?_
    obtain ⟨i,hi,rfl⟩ := List.mem_iff_getElem.mp hentry
    have hseq := h'.numbered (history.length+i) (by rw [List.length_append]; omega)
    rw [List.getElem_append_right (by omega)] at hseq
    simp only [Nat.add_sub_cancel_left] at hseq
    have hlength := h.seq
    have hnot : ¬ new[i].seq ≤ high := by
      push_cast at hseq
      omega
    simp [hnot]
  rw [between,List.filter_append,hnew,List.append_nil,between]

/-- What the pages after a cursor are: each is one of a log that has the epoch and extends the
history, and all entries come in order, after the cursor. -/
theorem follow_visits (actions : List Action) (hrecorded : Recorded log history)
    (hjson : ∀ seq, 0 ≤ seq → json.InverseAt log.epoch seq) {token cursorEpoch : String}
    {cursorSeq : ℤ} (hdecode : decodeCursor json token = .ok (cursorEpoch,cursorSeq))
    {visits : List Visit}
    (hfollow : follow json runId log history (some token) actions = .ok visits) :
    (∀ visit ∈ visits, Recorded visit.log visit.recorded ∧ visit.log.epoch = log.epoch ∧
      history <+: visit.recorded ∧ ∃ visitToken visitEpoch visitSeq next,
        visit.cursor = some visitToken ∧
        decodeCursor json visitToken = .ok (visitEpoch,visitSeq) ∧
        PageSpec json runId visit.log visit.recorded visitEpoch visitSeq visit.page next) ∧
    (visits.flatMap fun visit => visit.page.events).Pairwise (fun a b => a.seq < b.seq) ∧
    ∀ entry ∈ visits.flatMap fun visit => visit.page.events,
      lowBound log cursorEpoch cursorSeq < entry.seq := by
  induction actions generalizing log history token cursorEpoch cursorSeq visits with
  | nil =>
    rw [← Except.ok.inj hfollow]
    simp
  | cons action rest ih =>
    cases action with
    | record timestamp kind fields =>
      rw [follow] at hfollow
      obtain ⟨hvisits,hsorted,hbound⟩ :=
        ih (Recorded.record timestamp kind fields hrecorded) hjson hdecode hfollow
      refine ⟨fun visit hvisit => ?_,hsorted,hbound⟩
      obtain ⟨hrec,hepoch,hgrown,hspec⟩ := hvisits visit hvisit
      exact ⟨hrec,hepoch,(List.prefix_append _ _).trans hgrown,hspec⟩
    | page limit =>
      obtain ⟨page,tail,hpage,htail,rfl⟩ := follow_page_ok hfollow
      obtain ⟨page',next,hpage',hspec⟩ := eventsPage_spec runId hrecorded.holds hjson hdecode
        (fun hepoch => le_of_eventsPage_ok hrecorded.holds hdecode hpage hepoch) limit
      rw [hpage] at hpage'
      obtain rfl := Except.ok.inj hpage'
      obtain ⟨nextToken,hnext,hnextDecode⟩ := hspec.cursor
      rw [hnext] at htail
      obtain ⟨hvisits,hsorted,hbound⟩ := ih hrecorded hjson hnextDecode htail
      have hlow : lowBound log log.epoch next = next := if_pos rfl
      rw [hlow] at hbound
      refine ⟨fun visit hvisit => ?_,?_,?_⟩
      · rcases List.mem_cons.mp hvisit with rfl | hvisit
        · exact ⟨hrecorded,rfl,List.prefix_refl _,token,cursorEpoch,cursorSeq,next,rfl,hdecode,hspec⟩
        · exact hvisits visit hvisit
      · rw [List.flatMap_cons,List.pairwise_append]
        refine ⟨hspec.sorted,hsorted,fun a ha b hb => ?_⟩
        exact lt_of_le_of_lt (hspec.within a ha).2 (hbound b hb)
      · intro entry hentry
        rw [List.flatMap_cons,List.mem_append] at hentry
        rcases hentry with hentry | hentry
        · exact (hspec.within entry hentry).1
        · exact lt_of_le_of_lt hspec.low_le (hbound entry hentry)

/-- Without a gap or a reset the pages are together what lies between the first cursor and the
last. -/
theorem follow_complete (actions : List Action) (hrecorded : Recorded log history)
    (hjson : ∀ seq, 0 ≤ seq → json.InverseAt log.epoch seq) {token cursorEpoch : String}
    {cursorSeq : ℤ} (hdecode : decodeCursor json token = .ok (cursorEpoch,cursorSeq))
    {visits : List Visit}
    (hfollow : follow json runId log history (some token) actions = .ok visits)
    (hkept : ∀ visit ∈ visits, visit.page.gap = false ∧ visit.page.resetRequired = false)
    {last : Visit} (hlast : visits.getLast? = some last) :
    ∃ lastToken high, last.page.nextCursor = some lastToken ∧
      decodeCursor json lastToken = .ok (log.epoch,high) ∧ cursorSeq ≤ high ∧
      (visits.flatMap fun visit => visit.page.events) =
        between last.recorded cursorSeq high runId ∧
      (last.page.hasMore = false → high = last.recorded.length) := by
  induction actions generalizing log history token cursorEpoch cursorSeq visits with
  | nil =>
    rw [← Except.ok.inj hfollow] at hlast
    cases hlast
  | cons action rest ih =>
    cases action with
    | record timestamp kind fields =>
      rw [follow] at hfollow
      exact ih (Recorded.record timestamp kind fields hrecorded) hjson hdecode hfollow hkept hlast
    | page limit =>
      obtain ⟨page,tail,hpage,htail,rfl⟩ := follow_page_ok hfollow
      obtain ⟨page',next,hpage',hspec⟩ := eventsPage_spec runId hrecorded.holds hjson hdecode
        (fun hepoch => le_of_eventsPage_ok hrecorded.holds hdecode hpage hepoch) limit
      rw [hpage] at hpage'
      obtain rfl := Except.ok.inj hpage'
      obtain ⟨nextToken,hnext,hnextDecode⟩ := hspec.cursor
      obtain ⟨hgap,hreset⟩ := hkept _ List.mem_cons_self
      have hepoch : cursorEpoch = log.epoch := by
        by_contra hne
        rw [hspec.reset.mpr hne] at hreset
        cases hreset
      have hlow : lowBound log cursorEpoch cursorSeq = cursorSeq := if_pos hepoch
      have hle := hspec.low_le
      rw [hlow] at hle
      cases hrest : tail.getLast? with
      | none =>
        rw [List.getLast?_eq_none_iff.mp hrest] at hlast ⊢
        obtain rfl := Option.some.inj hlast
        refine ⟨nextToken,next,hnext,hnextDecode,hle,?_,fun hmore => ?_⟩
        · simpa using hspec.complete hgap hreset
        · exact (hspec.tail hmore hreset).trans hrecorded.holds.seq
      | some last' =>
        have heq : last' = last := by
          rw [List.getLast?_cons,hrest] at hlast
          simpa using hlast
        subst heq
        rw [hnext] at htail
        obtain ⟨lastToken,high,htoken,hdecoded,hhigh,hevents,htailMore⟩ := ih hrecorded hjson
          hnextDecode htail (fun visit hvisit => hkept visit (List.mem_cons_of_mem _ hvisit)) hrest
        refine ⟨lastToken,high,htoken,hdecoded,le_trans hle hhigh,?_,htailMore⟩
        obtain ⟨hvisits,-,-⟩ := follow_visits rest hrecorded hjson hnextDecode htail
        obtain ⟨hlastRecorded,-,hgrown,-⟩ := hvisits last' (List.mem_of_getLast? hrest)
        have hpiece := between_of_prefix hrecorded.holds hlastRecorded.holds hgrown cursorSeq
          hspec.next_le runId
        have hmine := hspec.complete hgap hreset
        rw [List.flatMap_cons,hevents,hmine,← hpiece]
        exact filter_append_filter hlastRecorded.holds.pairwise hle hhigh _

theorem follow_ok (actions : List Action) (hrecorded : Recorded log history)
    (hjson : ∀ seq, 0 ≤ seq → json.InverseAt log.epoch seq) {token : String} {next : ℤ}
    (hdecode : decodeCursor json token = .ok (log.epoch,next)) (hle : next ≤ log.seq) :
    ∃ visits, follow json runId log history (some token) actions = .ok visits := by
  induction actions generalizing log history token next with
  | nil => exact ⟨[],rfl⟩
  | cons action rest ih =>
    cases action with
    | record timestamp kind fields =>
      refine ih (Recorded.record timestamp kind fields hrecorded) hjson hdecode ?_
      change next ≤ log.seq+1
      omega
    | page limit =>
      obtain ⟨page,next',hpage,hspec⟩ :=
        eventsPage_spec runId hrecorded.holds hjson hdecode (fun _ => hle) limit
      obtain ⟨nextToken,hnext,hnextDecode⟩ := hspec.cursor
      obtain ⟨visits,hvisits⟩ := ih hrecorded hjson hnextDecode hspec.next_le
      refine ⟨⟨log,history,some token,page⟩ :: visits,?_⟩
      rw [follow,hpage]
      change (follow json runId log history page.nextCursor rest >>= _) = _
      rw [hnext,hvisits]
      rfl

theorem nextCursor_of_ok (hrecorded : Recorded log history)
    (hjson : ∀ seq, 0 ≤ seq → json.InverseAt log.epoch seq) {cursor : Option String}
    {limit : Option ℤ} {page : Page} (hpage : eventsPage json log.window limit cursor runId = .ok page) :
    ∃ token next, page.nextCursor = some token ∧
      decodeCursor json token = .ok (log.epoch,next) ∧ next ≤ log.seq := by
  have hholds := hrecorded.holds
  cases cursor with
  | none =>
    have hseq : 0 ≤ log.seq := by
      rw [hholds.seq]
      omega
    obtain ⟨token,hdecode,hresponse⟩ := pageResponse_ok hjson hseq
      ((log.entries.filter (matchesRun runId)).drop
        ((log.entries.filter (matchesRun runId)).length-pageLimit limit)) false false false
    have hinitial : eventsPage json log.window limit none runId =
        pageResponse json ((log.entries.filter (matchesRun runId)).drop
          ((log.entries.filter (matchesRun runId)).length-pageLimit limit)) log.window log.seq
          false false false := by
      rw [eventsPage,initialPage,hholds.window_seqs.1]
      rfl
    rw [hinitial,hresponse] at hpage
    obtain rfl := Except.ok.inj hpage
    exact ⟨token,log.seq,rfl,hdecode,le_refl _⟩
  | some token =>
    cases hdecode : decodeCursor json token with
    | error fault =>
      rw [eventsPage,hdecode] at hpage
      cases hpage
    | ok decoded =>
      obtain ⟨page',next,hpage',hspec⟩ := eventsPage_spec runId hholds hjson hdecode
        (fun hepoch => le_of_eventsPage_ok hholds hdecode hpage hepoch) limit
      rw [hpage] at hpage'
      obtain rfl := Except.ok.inj hpage'
      obtain ⟨nextToken,hnext,hnextDecode⟩ := hspec.cursor
      exact ⟨nextToken,next,hnext,hnextDecode,hspec.next_le⟩

theorem follow_pages (limits : List (Option ℤ)) {cursor : Option String} {visits : List Visit}
    (h : follow json runId log history cursor (limits.map Action.page) = .ok visits) :
    visits.length = limits.length ∧ ∀ visit ∈ visits, visit.log = log := by
  induction limits generalizing cursor visits with
  | nil =>
    rw [← Except.ok.inj h]
    simp
  | cons limit rest ih =>
    obtain ⟨page,tail,-,htail,rfl⟩ := follow_page_ok h
    obtain ⟨hlength,hlogs⟩ := ih htail
    refine ⟨by rw [List.length_cons,hlength,List.length_cons],fun visit hvisit => ?_⟩
    rcases List.mem_cons.mp hvisit with rfl | hvisit
    · rfl
    · exact hlogs visit hvisit

theorem length_le_flatMap {visits : List Visit} (h : ∀ visit ∈ visits, visit.page.events ≠ []) :
    visits.length ≤ (visits.flatMap fun visit => visit.page.events).length := by
  induction visits with
  | nil => simp
  | cons visit rest ih =>
    have hpos := List.length_pos_iff.mpr (h visit List.mem_cons_self)
    have hrest := ih fun other hother => h other (List.mem_cons_of_mem _ hother)
    rw [List.flatMap_cons,List.length_append,List.length_cons]
    omega

theorem follow_ends (limits : List (Option ℤ)) (hrecorded : Recorded log history)
    (hjson : ∀ seq, 0 ≤ seq → json.InverseAt log.epoch seq) {token cursorEpoch : String}
    {cursorSeq : ℤ} (hdecode : decodeCursor json token = .ok (cursorEpoch,cursorSeq))
    {visits : List Visit}
    (hfollow : follow json runId log history (some token) (limits.map Action.page) = .ok visits)
    (hmany : log.entries.length < limits.length) : ∃ visit ∈ visits, visit.page.hasMore = false := by
  by_contra hnone
  push Not at hnone
  obtain ⟨hlength,hlogs⟩ := follow_pages limits hfollow
  obtain ⟨hvisits,hsorted,-⟩ := follow_visits _ hrecorded hjson hdecode hfollow
  have hspecs : ∀ visit ∈ visits, visit.page.events ≠ [] ∧ visit.page.events ⊆ log.entries := by
    intro visit hvisit
    obtain ⟨-,-,-,_,_,_,_,-,-,hspec⟩ := hvisits visit hvisit
    have hmore : visit.page.hasMore = true := by simpa using hnone visit hvisit
    refine ⟨hspec.more hmore,?_⟩
    rw [← hlogs visit hvisit]
    exact hspec.retained
  have hsubset : (visits.flatMap fun visit => visit.page.events) ⊆ log.entries := by
    intro entry hentry
    obtain ⟨visit,hvisit,hmem⟩ := List.mem_flatMap.mp hentry
    exact (hspecs visit hvisit).2 hmem
  have hnodup : (visits.flatMap fun visit => visit.page.events).Nodup :=
    hsorted.imp fun hlt heq => by rw [heq] at hlt; exact lt_irrefl _ hlt
  have hle := (hnodup.subperm hsubset).length_le
  have hcount := length_le_flatMap fun visit hvisit => (hspecs visit hvisit).1
  omega

/-- Paging over any interleaving of records and pages, from any cursor. The pages come in
order; a page reports a gap exactly when an entry after its cursor was dropped; unless a page
reports a gap or a reset, the pages are what was recorded between the first cursor and the last,
and everything after the first if the last page has no more; over a fixed log the pages with more
to come end; no cursor of a page is rejected; and decoding a cursor gives back what was encoded. -/
theorem paging_lossless (json : JsonCodec) (log : EventLog) (history : List Entry)
    (hrecorded : Recorded log history) (hjson : ∀ seq, 0 ≤ seq → json.InverseAt log.epoch seq)
    (runId : Option String) :
    (∀ token cursorEpoch cursorSeq actions visits,
      decodeCursor json token = .ok (cursorEpoch,cursorSeq) →
      follow json runId log history (some token) actions = .ok visits →
        ((visits.flatMap fun visit => visit.page.events).Pairwise fun a b => a.seq < b.seq) ∧
        (∀ visit ∈ visits, ∃ visitToken visitEpoch visitSeq, visit.cursor = some visitToken ∧
          decodeCursor json visitToken = .ok (visitEpoch,visitSeq) ∧
          (visit.page.gap = true ↔ ∃ entry ∈ visit.recorded, entry ∉ visit.log.entries ∧
            entry.epoch = visitEpoch ∧ visitSeq < entry.seq)) ∧
        ((∀ visit ∈ visits, visit.page.gap = false ∧ visit.page.resetRequired = false) →
          ∀ last, visits.getLast? = some last → ∃ lastToken high,
            last.page.nextCursor = some lastToken ∧
            decodeCursor json lastToken = .ok (log.epoch,high) ∧
            (visits.flatMap fun visit => visit.page.events) = last.recorded.filter (fun entry =>
              cursorSeq < entry.seq ∧ entry.seq ≤ high ∧ matchesRun runId entry) ∧
            (last.page.hasMore = false →
              (visits.flatMap fun visit => visit.page.events) = last.recorded.filter fun entry =>
                cursorSeq < entry.seq ∧ matchesRun runId entry))) ∧
    (∀ token cursorEpoch cursorSeq (limits : List (Option ℤ)) visits,
      decodeCursor json token = .ok (cursorEpoch,cursorSeq) →
      follow json runId log history (some token) (limits.map Action.page) = .ok visits →
      log.entries.length < limits.length → ∃ visit ∈ visits, visit.page.hasMore = false) ∧
    (∀ cursor limit page, eventsPage json log.window limit cursor runId = .ok page →
      ∀ actions, ∃ visits, follow json runId log history page.nextCursor actions = .ok visits) ∧
    ∀ epoch seq, epoch ≠ "" → 0 ≤ seq → json.InverseAt epoch seq →
      ∃ token, encodeCursor json epoch seq = .ok token ∧
        decodeCursor json token = .ok (epoch,seq) := by
  refine ⟨?_,?_,?_,?_⟩
  · intro token cursorEpoch cursorSeq actions visits hdecode hfollow
    obtain ⟨hvisits,hsorted,-⟩ := follow_visits actions hrecorded hjson hdecode hfollow
    refine ⟨hsorted,fun visit hvisit => ?_,fun hkept last hlast => ?_⟩
    · obtain ⟨-,-,-,visitToken,visitEpoch,visitSeq,next,hcursor,hdecoded,hspec⟩ :=
        hvisits visit hvisit
      exact ⟨visitToken,visitEpoch,visitSeq,hcursor,hdecoded,hspec.gap⟩
    · obtain ⟨lastToken,high,htoken,hdecoded,-,hevents,hmore⟩ :=
        follow_complete actions hrecorded hjson hdecode hfollow hkept hlast
      refine ⟨lastToken,high,htoken,hdecoded,hevents,fun hlastMore => ?_⟩
      obtain ⟨hlastRecorded,-⟩ := hvisits last (List.mem_of_getLast? hlast)
      rw [hevents,between]
      refine List.filter_congr fun entry hentry => ?_
      have hle := (hlastRecorded.holds.mem_le hentry).2
      rw [hlastRecorded.holds.seq,← hmore hlastMore] at hle
      simp [hle]
  · intro token cursorEpoch cursorSeq limits visits hdecode hfollow hmany
    exact follow_ends limits hrecorded hjson hdecode hfollow hmany
  · intro cursor limit page hpage actions
    obtain ⟨token,next,hnext,hdecode,hle⟩ := nextCursor_of_ok hrecorded hjson hpage
    rw [hnext]
    exact follow_ok actions hrecorded hjson hdecode hle
  · intro epoch seq hepoch hseq hinverse
    exact decodeCursor_encodeCursor hepoch hseq hinverse

end Runs

/-- The text of a cursor's content, up to its sequence number. -/
def sampleHead : List Char := "\x7b\"v\":1,\"epoch\":\"e0\",\"seq\":".toList

def sampleCodec : JsonCodec where
  dumps content :=
    let seq := match content.get? "seq" with
      | some (.int seq) => seq.toNat
      | _ => 0
    (sampleHead++(Nat.toDigits 10 seq++['\x7d'])).map fun c => UInt8.ofNat c.toNat
  loads raw :=
    let text := raw.map fun b => Char.ofNat b.toNat
    if sampleHead <+: text then
      some (payload "e0" (Nat.ofDigitChars 10 ((text.drop sampleHead.length).takeWhile Char.isDigit) 0))
    else
      none

theorem sampleHead_ascii : ∀ c ∈ sampleHead, c.toNat < 128 := by decide

theorem ascii_round_trip {c : Char} (h : c.toNat < 128) :
    Char.ofNat (UInt8.ofNat c.toNat).toNat = c := by
  have hlt : c.toNat < 2^8 := by omega
  rw [UInt8.toNat_ofNat_of_lt' hlt,Char.ofNat_toNat]

theorem sampleCodec_inverseAt (seq : ℤ) (hseq : 0 ≤ seq) : sampleCodec.InverseAt "e0" seq := by
  obtain ⟨n,rfl⟩ := Int.eq_ofNat_of_zero_le hseq
  have hdigits : ∀ c ∈ Nat.toDigits 10 n, c.isDigit = true := fun c hc =>
    Nat.isDigit_of_mem_toDigits (by omega) (by omega) hc
  have hascii : ∀ c ∈ sampleHead++(Nat.toDigits 10 n++['\x7d']), c.toNat < 128 := by
    intro c hc
    rcases List.mem_append.mp hc with hc | hc
    · exact sampleHead_ascii c hc
    · rcases List.mem_append.mp hc with hc | hc
      · have hdigit := hdigits c hc
        simp only [Char.isDigit,Bool.and_eq_true,decide_eq_true_eq] at hdigit
        have hle : c.toNat ≤ 57 := hdigit.2
        omega
      · rw [List.mem_singleton.mp hc]
        decide
  have htext : ((sampleHead++(Nat.toDigits 10 n++['\x7d'])).map fun c => UInt8.ofNat c.toNat).map
      (fun b => Char.ofNat b.toNat) = sampleHead++(Nat.toDigits 10 n++['\x7d']) := by
    rw [List.map_map]
    exact (List.map_congr_left fun c hc => ascii_round_trip (hascii c hc)).trans (List.map_id _)
  have htake : (Nat.toDigits 10 n++['\x7d']).takeWhile Char.isDigit = Nat.toDigits 10 n := by
    rw [List.takeWhile_append_of_pos hdigits]
    simp
  have hdumps : sampleCodec.dumps (payload "e0" n) =
      (sampleHead++(Nat.toDigits 10 n++['\x7d'])).map fun c => UInt8.ofNat c.toNat := rfl
  rw [JsonCodec.InverseAt,hdumps]
  simp only [sampleCodec,htext]
  rw [if_pos (List.prefix_append _ _),List.drop_left,htake,Nat.ofDigitChars_ten_toDigits]

def sampleFields : Fields := ⟨Dict.empty,by simp⟩

def sampleStart : EventLog := .new "e0" (by decide) 2 (by decide)

def sampleLog : EventLog :=
  (sampleStart.record 0 "draining.begin" sampleFields).record 1 "health" sampleFields

def sampleHistory : List Entry :=
  [sampleStart.nextEntry 0 "draining.begin" sampleFields,
    (sampleStart.record 0 "draining.begin" sampleFields).nextEntry 1 "health" sampleFields]

def sampleCursor : String := "fnev1.eyJ2IjoxLCJlcG9jaCI6ImUwIiwic2VxIjowfQ"

def sampleActions : List Action := [.page (some 1),.record 2 "health" sampleFields,.page none]

theorem sampleLog_recorded : Recorded sampleLog sampleHistory :=
  .record 1 "health" sampleFields
    (.record 0 "draining.begin" sampleFields (.new "e0" (by decide) 2 (by decide)))

theorem exists_ok {ε α β : Type} {f : α → β} {x : Except ε α} {b : β} (h : (x.map f).toOption = some b) :
    ∃ a, x = .ok a ∧ f a = b := by
  cases x with
  | error e => cases h
  | ok a => exact ⟨a,rfl,Option.some.inj h⟩

theorem sampleCursor_decodes : decodeCursor sampleCodec sampleCursor = .ok ("e0",0) := by
  have hread : ((decodeCursor sampleCodec sampleCursor).map id).toOption = some ("e0",0) := by decide +kernel
  obtain ⟨read,hread,rfl⟩ := exists_ok hread
  exact hread

/-- The numbers of a page, and whether it reports a gap, a reset and more to come. -/
def Visit.view (visit : Visit) : List ℤ × Bool × Bool × Bool :=
  (visit.page.events.map Entry.seq,visit.page.gap,visit.page.resetRequired,visit.page.hasMore)

/-- Nothing is lost though an entry is dropped between two pages. -/
theorem paging_lossless_sample :
    (∃ visits last, follow sampleCodec none sampleLog sampleHistory (some sampleCursor) sampleActions = .ok visits ∧
      visits.map Visit.view = [([1],false,false,true),([2,3],false,false,false)] ∧
      visits.getLast? = some last ∧
      (visits.flatMap fun visit => visit.page.events) = last.recorded.filter fun entry =>
        0 < entry.seq ∧ matchesRun none entry) ∧
    (∃ visits, follow sampleCodec none sampleLog sampleHistory (some sampleCursor)
        (([some 1,some 1,some 1] : List (Option ℤ)).map Action.page) = .ok visits ∧
      ∃ visit ∈ visits, visit.page.hasMore = false) ∧
    ∃ token, encodeCursor sampleCodec "e0" 2 = .ok token ∧
      decodeCursor sampleCodec token = .ok ("e0",2) := by
  obtain ⟨hpages,hends,-,hcodec⟩ :=
    paging_lossless sampleCodec sampleLog sampleHistory sampleLog_recorded sampleCodec_inverseAt none
  refine ⟨?_,?_,hcodec "e0" 2 (by decide) (by decide) (sampleCodec_inverseAt 2 (by decide))⟩
  · obtain ⟨visits,hfollow,hview⟩ := exists_ok (f:=List.map Visit.view)
      (x:=follow sampleCodec none sampleLog sampleHistory (some sampleCursor) sampleActions)
      (b:=[([1],false,false,true),([2,3],false,false,false)]) (by decide +kernel)
    obtain ⟨first,last,rfl⟩ : ∃ first last, visits = [first,last] := by
      have hlength := congrArg List.length hview
      rw [List.length_map] at hlength
      exact List.length_eq_two.mp hlength
    simp only [List.map_cons,List.map_nil,List.cons.injEq,and_true] at hview
    obtain ⟨-,-,hlossless⟩ := hpages sampleCursor "e0" 0 sampleActions _ sampleCursor_decodes hfollow
    have hkept : ∀ visit ∈ [first,last], visit.page.gap = false ∧ visit.page.resetRequired = false := by
      intro visit hvisit
      rcases List.mem_pair.mp hvisit with rfl | rfl
      · simp only [Visit.view,Prod.mk.injEq] at hview
        exact ⟨hview.1.2.1,hview.1.2.2.1⟩
      · simp only [Visit.view,Prod.mk.injEq] at hview
        exact ⟨hview.2.2.1,hview.2.2.2.1⟩
    obtain ⟨-,-,-,-,-,hall⟩ := hlossless hkept last rfl
    refine ⟨_,last,hfollow,by simp [hview],rfl,hall ?_⟩
    simp only [Visit.view,Prod.mk.injEq] at hview
    exact hview.2.2.2.2
  · obtain ⟨visits,hfollow⟩ := follow_ok (([some 1,some 1,some 1] : List (Option ℤ)).map Action.page)
      sampleLog_recorded sampleCodec_inverseAt sampleCursor_decodes (by decide)
    exact ⟨visits,hfollow,hends _ _ _ _ _ sampleCursor_decodes hfollow (by decide)⟩

end Events
end FakeNetNG
