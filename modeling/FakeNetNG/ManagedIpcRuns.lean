import FakeNetNG.ManagedIpc
import Mathlib.Data.List.Pairwise

/-!
# Runs of the channel to the managed child

What holds of every state of the channel, whatever the order in which the writer, the reader, the
child and the deadlines take their turns.
-/

namespace FakeNetNG
namespace ManagedIpc

open GuardedSteps

variable {τ : Type} {w v : Channel τ} {e : Event τ} {q q' : Request τ} {kind : Kind} {payload : τ} {alive crash : Bool}
  {o : Outside τ} {fault : Option IpcFault} {reply : Reply τ} {body : Except String (Reply τ)} {r : Response τ}

/-- The request that a call of `request` sends. -/
def Channel.next (w : Channel τ) (kind : Kind) (payload : τ) : Request τ := ⟨w.runId,w.sequence+1,kind,payload⟩

theorem request_cases (h : w.request kind payload alive = some v) :
    w.call = none ∧ (v = { w with sequence := w.sequence+1 } ∨
      ¬ w.Refusing ∧ v = { w with
        sequence := w.sequence+1, call := some (w.next kind payload,.writing),
        writer := some (w.next kind payload) }) := by
  unfold Channel.request at h
  split at h
  · cases h
  · rename_i hcall
    refine ⟨hcall,?_⟩
    dsimp only at h
    split at h
    · exact .inl (Option.some.inj h).symm
    · rename_i hchecks
      exact .inr ⟨fun hrefusing => hchecks (.inr hrefusing),(Option.some.inj h).symm⟩

theorem writeDone_cases (h : w.writeDone = some v) :
    ∃ q, w.writer = some q ∧
      ((∃ q', w.call = some (q',.writing) ∧
          v = { w with writer := none, toChild := w.toChild++[q], call := some (q',.waiting) }) ∨
        (∀ q', w.call ≠ some (q',.writing)) ∧ v = { w with writer := none, toChild := w.toChild++[q] }) := by
  unfold Channel.writeDone at h
  split at h
  · cases h
  · rename_i q hwriter
    refine ⟨q,hwriter,?_⟩
    dsimp only at h
    split at h
    · rename_i q' hcall
      exact .inl ⟨q',hcall,(Option.some.inj h).symm⟩
    · rename_i hcall
      exact .inr ⟨hcall,(Option.some.inj h).symm⟩

theorem writeRaises_cases (h : w.writeRaises = some v) :
    (∃ q', w.call = some (q',.writing) ∧ v = { w with writer := none, call := none }) ∨
      (∀ q', w.call ≠ some (q',.writing)) ∧ v = { w with writer := none } := by
  unfold Channel.writeRaises at h
  split at h
  · cases h
  · dsimp only at h
    split at h
    · rename_i q' hcall
      exact .inl ⟨q',hcall,(Option.some.inj h).symm⟩
    · rename_i hcall
      exact .inr ⟨hcall,(Option.some.inj h).symm⟩

theorem writeDeadline_eq (h : w.writeDeadline = some v) : v = { w with writeFailed := true, call := none } := by
  unfold Channel.writeDeadline at h
  split at h
  · exact (Option.some.inj h).symm
  · cases h

theorem responseDeadline_cases (h : w.responseDeadline = some v) :
    (∃ q, w.call = some (q,.waiting)) ∧ v = { w with call := none } := by
  unfold Channel.responseDeadline at h
  split at h
  · rename_i q hcall _
    exact ⟨⟨q,hcall⟩,(Option.some.inj h).symm⟩
  · cases h

/-- The head of the queue leaves it and the call ends. A result is returned only from the response to the
call, and a response to another one is kept as a failure. -/
theorem take_cases (h : w.take = some v) :
    ∃ q entry rest, w.call = some (q,.waiting) ∧ w.responses = entry::rest ∧
      ((∃ r reply, entry = .ok r ∧ r.seq = q.seq ∧ r.body = .ok reply ∧
          v = { w with call := none, responses := rest, returned := w.returned++[(q,reply)] }) ∨
        (∃ r, entry = .ok r ∧ v = { w with call := none, responses := rest, protocolFailure := true }) ∨
        (∀ r, entry = .ok r → r.seq = q.seq) ∧ v = { w with call := none, responses := rest }) := by
  unfold Channel.take at h
  split at h
  · rename_i q entry rest hcall hresponses
    refine ⟨q,entry,rest,hcall,hresponses,?_⟩
    dsimp only at h
    split at h
    · exact .inr (.inr ⟨fun r hr => (by cases hr),(Option.some.inj h).symm⟩)
    · rename_i r
      split at h
      · exact .inr (.inl ⟨r,rfl,(Option.some.inj h).symm⟩)
      · rename_i hsame
        have hseq : r.seq = q.seq := by
          by_contra hne
          exact hsame (.inr hne)
        split at h
        · exact .inr (.inr ⟨fun r' hr => (Except.ok.inj hr) ▸ hseq,(Option.some.inj h).symm⟩)
        · rename_i reply hbody
          exact .inl ⟨r,reply,rfl,hseq,hbody,(Option.some.inj h).symm⟩
  · cases h

theorem read_cases (h : w.read = some v) :
    ∃ r rest, w.readFailure = none ∧ w.fromChild = r::rest ∧
      (v = { w with fromChild := rest, responses := w.responses++[.ok r] } ∨
        responseLimit ≤ w.responses.length ∧ v = { w with fromChild := rest, readFailure := some "Full()" }) := by
  unfold Channel.read at h
  split at h
  · rename_i r rest hfailure hline
    refine ⟨r,rest,hfailure,hline,?_⟩
    dsimp only at h
    split at h
    · exact .inl (Option.some.inj h).symm
    · rename_i hfull
      exact .inr ⟨Nat.le_of_not_lt hfull,(Option.some.inj h).symm⟩
  · cases h

theorem readRaises_cases {failure : String} (h : w.readRaises failure = some v) :
    v = { w with readFailure := some failure, responses := w.responses++[.error failure] } ∨
      v = { w with readFailure := some failure } := by
  unfold Channel.readRaises at h
  split at h
  · cases h
  · dsimp only at h
    split at h
    · exact .inl (Option.some.inj h).symm
    · exact .inr (Option.some.inj h).symm

/-- The faults under which the response is not sent at all. -/
def Drops (fault : Option IpcFault) : Prop :=
  fault = some .permanentTimeout ∨ fault = some .onceTimeout ∨ fault = some .stacksUnavailable

instance : Decidable (Drops fault) := inferInstanceAs (Decidable (_ ∨ _ ∨ _))

theorem ipcResponse_cases (fault : Option IpcFault) (kind : Kind) (response : Response τ) :
    (kind ≠ .stop ∧ Drops fault ∧ ipcResponse fault kind response = .drop) ∨
      (kind ≠ .stop ∧ ipcResponse fault kind response = .eof) ∨
      ∃ r, ipcResponse fault kind response = .send r ∧ r.body = response.body ∧ r.seq ≤ response.seq := by
  unfold ipcResponse
  split
  · exact .inl ⟨by decide,.inr (.inr rfl),rfl⟩
  · exact .inl ⟨by decide,.inl rfl,rfl⟩
  · exact .inl ⟨by decide,.inr (.inl rfl),rfl⟩
  · exact .inr (.inl ⟨by decide,rfl⟩)
  · exact .inr (.inr ⟨_,rfl,rfl,le_rfl⟩)
  · exact .inr (.inr ⟨_,rfl,rfl,by dsimp only; omega⟩)
  · exact .inr (.inr ⟨_,rfl,rfl,by dsimp only; omega⟩)
  · exact .inr (.inr ⟨_,rfl,rfl,le_rfl⟩)

theorem act_cases (w : Channel τ) (exiting : Bool) (fault : Option IpcFault) (kind : Kind) (response : Response τ) :
    ∃ child sent, w.act exiting (ipcResponse fault kind response) =
        { w with child := child, fromChild := w.fromChild++sent } ∧
      child.runId = w.child.runId ∧ child.seq = w.child.seq ∧ child.instanceMade = w.child.instanceMade ∧
      (exiting = true → kind = .stop → child.gone = true) ∧
      (w.child.channelClosed = true → sent = [] ∧ child.channelClosed = true) ∧
      ((∃ r, sent = [r] ∧ r.body = response.body ∧ r.seq ≤ response.seq) ∨
        sent = [] ∧ (child.ended = true ∨ child.channelClosed = true ∨ Drops fault)) := by
  obtain ⟨hstop,hdrops,hdrop⟩ | ⟨hstop,heof⟩ | ⟨r,hsend,hbody,hle⟩ := ipcResponse_cases fault kind response
  · rw [hdrop]
    refine ⟨w.child,[],?_,rfl,rfl,rfl,fun _ h => absurd h hstop,fun h => ⟨rfl,h⟩,.inr ⟨rfl,.inr (.inr hdrops)⟩⟩
    rw [List.append_nil]
    rfl
  · rw [heof]
    refine ⟨{ w.child with channelClosed := true },[],?_,rfl,rfl,rfl,fun _ h => absurd h hstop,fun _ => ⟨rfl,rfl⟩,
      .inr ⟨rfl,.inr (.inl rfl)⟩⟩
    rw [List.append_nil]
    rfl
  · rw [hsend]
    cases hclosed : w.child.channelClosed with
    | false =>
      cases exiting with
      | false =>
        refine ⟨w.child,[r],?_,rfl,rfl,rfl,fun h => (by cases h),fun h => (by cases h),
          .inl ⟨r,rfl,hbody,hle⟩⟩
        simp [Channel.act,hclosed]
      | true =>
        refine ⟨{ w.child with leaving := true },[r],?_,rfl,rfl,rfl,fun _ _ => rfl,
          fun h => (by cases h),.inl ⟨r,rfl,hbody,hle⟩⟩
        simp [Channel.act,hclosed]
    | true =>
      cases exiting with
      | false =>
        refine ⟨w.child,[],?_,rfl,rfl,rfl,fun h => (by cases h),fun _ => ⟨rfl,hclosed⟩,.inr ⟨rfl,.inr (.inl hclosed)⟩⟩
        simp [Channel.act,hclosed]
      | true =>
        refine ⟨{ w.child with leaving := true },[],?_,rfl,rfl,rfl,fun _ _ => rfl,fun _ => ⟨rfl,hclosed⟩,
          .inr ⟨rfl,.inr (.inl hclosed)⟩⟩
        simp [Channel.act,hclosed]

/-- What the child does with the head of its pipe: it ends, or it works on the request and then sends a
response, ends, has the pipe closed or drops the response. -/
theorem serve_cases (h : w.serve o fault crash = some v) :
    w.child.gone = false ∧ ∃ q rest, w.toChild = q::rest ∧
      (v = { w with toChild := rest, child := { w.child with ended := true } } ∨
        q.seq = w.child.seq+1 ∧ ∃ child sent, v = { w with
            toChild := rest, child := child, executed := w.executed++[(q,(w.child.handle q o).1)],
            fromChild := w.fromChild++sent } ∧
          child.runId = w.child.runId ∧ child.seq = q.seq ∧ child.instanceMade = (w.child.handle q o).2.1 ∧
          ((w.child.handle q o).2.2 = true → q.kind = .stop → child.gone = true) ∧
          (w.child.channelClosed = true → sent = [] ∧ child.channelClosed = true) ∧
          ((∃ r, sent = [r] ∧ r.body = (w.child.handle q o).1 ∧ r.seq ≤ q.seq) ∨
            sent = [] ∧ (child.ended = true ∨ child.channelClosed = true ∨ Drops fault))) := by
  unfold Channel.serve at h
  split at h
  · rename_i q rest hgone hline
    refine ⟨hgone,q,rest,hline,?_⟩
    dsimp only at h
    split at h
    · exact .inl (Option.some.inj h).symm
    · rename_i hgood
      have hseq : q.seq = w.child.seq+1 := by
        by_contra hne
        exact hgood (.inr hne)
      refine .inr ⟨hseq,?_⟩
      split at h
      · refine ⟨⟨w.child.runId,w.child.pid,w.child.creationTime,q.seq,(w.child.handle q o).2.1,w.child.channelClosed,
          w.child.leaving,true⟩,[],(Option.some.inj h).symm.trans ?_,rfl,rfl,rfl,fun _ _ => Bool.or_true _,fun h => ⟨rfl,h⟩,.inr ⟨rfl,.inl rfl⟩⟩
        rw [List.append_nil]
        rfl
      · obtain ⟨child,sent,hact,hrunId,hsequence,hmade,hexit,hclosed,hsent⟩ := act_cases
          { w with
            toChild := rest, child := { w.child with seq := q.seq, instanceMade := (w.child.handle q o).2.1 },
            executed := w.executed++[(q,(w.child.handle q o).1)] }
          (w.child.handle q o).2.2 fault q.kind ⟨w.child.runId,q.seq,(w.child.handle q o).1⟩
        rw [hact] at h
        exact ⟨child,sent,(Option.some.inj h).symm,hrunId,hsequence,hmade,hexit,hclosed,hsent⟩
  · cases h

/-- The requests on their way to the child, the oldest first. -/
def Channel.pending (w : Channel τ) : List (Request τ) := w.toChild++w.writer.toList

/-- The request of the call in progress. -/
def Channel.calling (w : Channel τ) : Option (Request τ) := w.call.map Prod.fst

/-- The child works on the requests in the order of their numbers, each of them once. A response reports
what an execution with its number or a later one came to, and only the call in progress has the
last number. -/
structure Channel.Agrees (w : Channel τ) : Prop where
  pending_increasing : w.pending.Pairwise fun q q' => q.seq < q'.seq
  pending_range : ∀ q ∈ w.pending, w.child.seq < q.seq ∧ q.seq ≤ w.sequence
  child_le : w.child.seq ≤ w.sequence
  executed_seq : w.executed.map (fun x => x.1.seq) = List.range' 1 w.child.seq
  call_seq : ∀ q ∈ w.calling, q.seq = w.sequence
  call_writer : ∀ q ∈ w.calling, ∀ q' ∈ w.writer, q' = q
  waiting_writer : ∀ q, w.call = some (q,.waiting) → w.writer = none
  idle_writer : w.calling = none → w.writer ≠ none → w.writeFailed = true
  call_pending : ∀ q ∈ w.calling, ∀ q' ∈ w.pending, q'.seq = q.seq → q' = q
  call_executed : ∀ q ∈ w.calling, ∀ x ∈ w.executed, x.1.seq = q.seq → x.1 = q
  response_executed : ∀ r, .ok r ∈ w.responses ∨ r ∈ w.fromChild → ∃ x ∈ w.executed, x.2 = r.body ∧ r.seq ≤ x.1.seq
  failure_kept : ∀ failure, .error failure ∈ w.responses → w.readFailure.isSome = true
  returned_executed : ∀ x ∈ w.returned, (x.1,.ok x.2) ∈ w.executed
  returned_increasing : w.returned.Pairwise fun x y => x.1.seq < y.1.seq
  returned_le : ∀ x ∈ w.returned, x.1.seq ≤ w.sequence
  returned_lt : ∀ x ∈ w.returned, ∀ q ∈ w.calling, x.1.seq < q.seq

theorem agrees_start (runId : String) (pid : ℕ) (creationTime : String) :
    (Channel.start runId pid creationTime : Channel τ).Agrees := by
  constructor <;> simp [Channel.start,Channel.pending,Channel.calling]

theorem Channel.Agrees.executed_le (h : w.Agrees) {x : Request τ × Except String (Reply τ)} (hx : x ∈ w.executed) :
    x.1.seq ≤ w.child.seq := by
  have hmem : x.1.seq ∈ w.executed.map fun x => x.1.seq := List.mem_map.mpr ⟨x,hx,rfl⟩
  rw [h.executed_seq,List.mem_range'_1] at hmem
  omega

theorem Channel.Agrees.endCall (h : w.Agrees) (failed : Bool) (hwriter : w.writer = none ∨ failed = true) :
    { w with call := none, writeFailed := failed : Channel τ }.Agrees :=
  { h with
    call_seq := fun q hq => by cases hq
    call_writer := fun q hq => by cases hq
    waiting_writer := fun q hq => by cases hq
    idle_writer := fun _ hsome => hwriter.resolve_left hsome
    call_pending := fun q hq => by cases hq
    call_executed := fun q hq => by cases hq
    returned_lt := fun x _ q hq => by cases hq }

theorem agrees_request (h : w.Agrees) (hv : w.request kind payload alive = some v) : v.Agrees := by
  obtain ⟨hcall,rfl | ⟨hchecks,rfl⟩⟩ := request_cases hv
  · exact { h with
      pending_range := fun q hq => ⟨(h.pending_range q hq).1,(h.pending_range q hq).2.trans (Nat.le_succ _)⟩
      child_le := h.child_le.trans (Nat.le_succ _)
      call_seq := fun q hq => by
        rw [Channel.calling,hcall] at hq
        cases hq
      returned_le := fun x hx => (h.returned_le x hx).trans (Nat.le_succ _) }
  · have hwriter : w.writer = none := by
      by_contra hsome
      exact hchecks (.inr (.inr (h.idle_writer (by rw [Channel.calling,hcall]; rfl) hsome)))
    have hpending : w.pending = w.toChild := by simp [Channel.pending,hwriter]
    have hrange := h.pending_range
    rw [hpending] at hrange
    exact { h with
      pending_increasing := by
        have hincreasing := h.pending_increasing
        rw [hpending] at hincreasing
        refine List.pairwise_append.mpr ⟨hincreasing,List.pairwise_singleton _ _,fun q hq q' hq' => ?_⟩
        rw [List.mem_singleton.mp hq']
        exact Nat.lt_succ_of_le (hrange q hq).2
      pending_range := fun q hq => by
        obtain hq | hq := List.mem_append.mp hq
        · exact ⟨(hrange q hq).1,(hrange q hq).2.trans (Nat.le_succ _)⟩
        · rw [List.mem_singleton.mp hq]
          exact ⟨Nat.lt_succ_of_le h.child_le,le_rfl⟩
      child_le := h.child_le.trans (Nat.le_succ _)
      call_seq := fun c hc => by
        cases hc
        rfl
      call_writer := fun c hc q hq => by
        cases hc
        cases hq
        rfl
      waiting_writer := fun c hc => by cases hc
      idle_writer := fun hnone => by cases hnone
      call_pending := fun c hc q hq hseq => by
        cases hc
        obtain hq | hq := List.mem_append.mp hq
        · exact absurd (hrange q hq).2 (by rw [hseq]; exact Nat.not_succ_le_self _)
        · exact List.mem_singleton.mp hq
      call_executed := fun c hc x hx hseq => by
        cases hc
        exact absurd ((h.executed_le hx).trans h.child_le) (by rw [hseq]; exact Nat.not_succ_le_self _)
      returned_le := fun x hx => (h.returned_le x hx).trans (Nat.le_succ _)
      returned_lt := fun x hx c hc => by
        cases hc
        exact Nat.lt_succ_of_le (h.returned_le x hx) }

theorem agrees_writeDone (h : w.Agrees) (hv : w.writeDone = some v) : v.Agrees := by
  obtain ⟨q,hwriter,hcases⟩ := writeDone_cases hv
  have hpending : w.pending = w.toChild++[q]++[] := by simp [Channel.pending,hwriter]
  have hincreasing := h.pending_increasing
  have hrange := h.pending_range
  have hcallPending := h.call_pending
  rw [hpending] at hincreasing hrange hcallPending
  obtain ⟨q',hcall,rfl⟩ | ⟨-,rfl⟩ := hcases
  · have hcalling : w.calling = some q' := by rw [Channel.calling,hcall]; rfl
    exact { h with
      pending_increasing := hincreasing
      pending_range := hrange
      call_seq := fun c hc => h.call_seq c (hcalling.trans hc)
      call_writer := fun c _ q hq => by cases hq
      waiting_writer := fun _ _ => rfl
      idle_writer := fun hnone => by cases hnone
      call_pending := fun c hc => hcallPending c (hcalling.trans hc)
      call_executed := fun c hc => h.call_executed c (hcalling.trans hc)
      returned_lt := fun x hx c hc => h.returned_lt x hx c (hcalling.trans hc) }
  · exact { h with
      pending_increasing := hincreasing
      pending_range := hrange
      call_writer := fun c _ q hq => by cases hq
      waiting_writer := fun _ _ => rfl
      idle_writer := fun _ hsome => absurd rfl hsome
      call_pending := hcallPending }

theorem Channel.Agrees.unsent (h : w.Agrees) : { w with writer := none : Channel τ }.Agrees := by
  have hsub : w.toChild++[] ⊆ w.pending := by simp [Channel.pending]
  exact { h with
    pending_increasing := by
      have hincreasing := h.pending_increasing
      rw [Channel.pending,List.pairwise_append] at hincreasing
      simpa [Channel.pending] using hincreasing.1
    pending_range := fun q hq => h.pending_range q (hsub hq)
    call_writer := fun c _ q hq => by cases hq
    waiting_writer := fun _ _ => rfl
    idle_writer := fun _ hsome => absurd rfl hsome
    call_pending := fun c hc q hq => h.call_pending c hc q (hsub hq) }

theorem agrees_writeRaises (h : w.Agrees) (hv : w.writeRaises = some v) : v.Agrees := by
  obtain ⟨q',-,rfl⟩ | ⟨-,rfl⟩ := writeRaises_cases hv
  · exact h.unsent.endCall _ (.inl rfl)
  · exact h.unsent

theorem Channel.Agrees.taken (h : w.Agrees) {entry : Except String (Response τ)}
    {rest : List (Except String (Response τ))} (hresponses : w.responses = entry::rest) :
    { w with responses := rest : Channel τ }.Agrees :=
  { h with
    response_executed := fun r hr => h.response_executed r (hr.imp_left fun hmem => by
      rw [hresponses]
      exact List.mem_cons_of_mem _ hmem)
    failure_kept := fun failure hmem => h.failure_kept failure (by
      rw [hresponses]
      exact List.mem_cons_of_mem _ hmem) }

/-- The response with the number of the call reports what the execution of its request came to. -/
theorem Channel.Agrees.executed_of_response (h : w.Agrees) (hq : w.calling = some q) (hr : .ok r ∈ w.responses)
    (hseq : r.seq = q.seq) (hbody : r.body = .ok reply) : (q,.ok reply) ∈ w.executed := by
  obtain ⟨x,hx,hxbody,hxseq⟩ := h.response_executed r (.inl hr)
  have hlast : x.1.seq ≤ q.seq := by
    rw [h.call_seq q hq]
    exact (h.executed_le hx).trans h.child_le
  have hsame : x.1 = q := h.call_executed q hq x hx (by omega)
  rw [← hsame,← hbody,← hxbody]
  exact hx

theorem agrees_take (h : w.Agrees) (hv : w.take = some v) : v.Agrees := by
  obtain ⟨q,entry,rest,hcall,hresponses,hcases⟩ := take_cases hv
  have hended := (h.taken hresponses).endCall w.writeFailed (.inl (h.waiting_writer q hcall))
  obtain ⟨r,reply,rfl,hseq,hbody,rfl⟩ | ⟨r,rfl,rfl⟩ | ⟨-,rfl⟩ := hcases
  · have hcalling : w.calling = some q := by
      rw [Channel.calling,hcall]
      rfl
    have hmem : .ok r ∈ w.responses := by
      rw [hresponses]
      exact List.mem_cons_self
    exact { hended with
      returned_executed := fun x hx => by
        obtain hx | hx := List.mem_append.mp hx
        · exact h.returned_executed x hx
        · rw [List.mem_singleton.mp hx]
          exact h.executed_of_response hcalling hmem hseq hbody
      returned_increasing := List.pairwise_append.mpr ⟨h.returned_increasing,List.pairwise_singleton _ _,
        fun x hx y hy => by
          rw [List.mem_singleton.mp hy]
          exact h.returned_lt x hx q hcalling⟩
      returned_le := fun x hx => by
        obtain hx | hx := List.mem_append.mp hx
        · exact h.returned_le x hx
        · rw [List.mem_singleton.mp hx]
          exact (h.call_seq q hcalling).le
      returned_lt := fun x _ q hq => by cases hq }
  · exact { hended with }
  · exact hended

theorem agrees_read (h : w.Agrees) (hv : w.read = some v) : v.Agrees := by
  obtain ⟨r,rest,-,hline,rfl | ⟨-,rfl⟩⟩ := read_cases hv
  · exact { h with
      response_executed := fun r' hr' => h.response_executed r' (by
        rw [hline]
        simp only [List.mem_append,Except.ok.injEq,List.mem_cons] at hr' ⊢
        tauto)
      failure_kept := fun failure hmem => h.failure_kept failure (by simpa using hmem) }
  · exact { h with
      response_executed := fun r' hr' => h.response_executed r' (hr'.imp_right fun hmem => by
        rw [hline]
        exact List.mem_cons_of_mem _ hmem)
      failure_kept := fun _ _ => rfl }

theorem agrees_readRaises {failure : String} (h : w.Agrees) (hv : w.readRaises failure = some v) : v.Agrees := by
  obtain rfl | rfl := readRaises_cases hv
  · exact { h with
      response_executed := fun r hr => h.response_executed r (hr.imp_left fun hmem => by simpa using hmem)
      failure_kept := fun _ _ => rfl }
  · exact { h with
      failure_kept := fun _ _ => rfl }

theorem agrees_serve (h : w.Agrees) (hv : w.serve o fault crash = some v) : v.Agrees := by
  obtain ⟨-,q,rest,hline,hcases⟩ := serve_cases hv
  have hpending : w.pending = q::(rest++w.writer.toList) := by
    rw [Channel.pending,hline]
    rfl
  have hincreasing := h.pending_increasing
  have hrange := h.pending_range
  have hcall := h.call_pending
  rw [hpending] at hincreasing hrange hcall
  rw [List.pairwise_cons] at hincreasing
  obtain rfl | ⟨hseq,child,sent,rfl,-,hchild,-,-,-,hsent⟩ := hcases
  · exact { h with
      pending_increasing := hincreasing.2
      pending_range := fun q' hq' => hrange q' (List.mem_cons_of_mem _ hq')
      call_pending := fun c hc q' hq' => hcall c hc q' (List.mem_cons_of_mem _ hq') }
  · have hlater : ∀ {x}, x ∈ w.executed → x ∈ w.executed++[(q,(w.child.handle q o).1)] :=
      fun hx => List.mem_append_left _ hx
    exact { h with
      pending_increasing := hincreasing.2
      pending_range := fun q' hq' => by
        refine ⟨?_,(hrange q' (List.mem_cons_of_mem _ hq')).2⟩
        change child.seq < q'.seq
        rw [hchild]
        exact hincreasing.1 q' hq'
      child_le := by
        change child.seq ≤ w.sequence
        rw [hchild]
        exact (hrange q List.mem_cons_self).2
      executed_seq := by
        change _ = List.range' 1 child.seq
        rw [hchild,hseq,List.map_append,h.executed_seq,List.range'_concat,List.map_singleton,hseq,Nat.one_mul,
          Nat.add_comm 1]
      call_pending := fun c hc q' hq' => hcall c hc q' (List.mem_cons_of_mem _ hq')
      call_executed := fun c hc x hx hsame => by
        obtain hx | hx := List.mem_append.mp hx
        · exact h.call_executed c hc x hx hsame
        · rw [List.mem_singleton.mp hx] at hsame ⊢
          exact hcall c hc q List.mem_cons_self hsame
      response_executed := fun r hr => by
        rw [List.mem_append] at hr
        obtain hr | hr | hr := hr
        · obtain ⟨x,hx,hxr⟩ := h.response_executed r (.inl hr)
          exact ⟨x,hlater hx,hxr⟩
        · obtain ⟨x,hx,hxr⟩ := h.response_executed r (.inr hr)
          exact ⟨x,hlater hx,hxr⟩
        · obtain ⟨r',rfl,hbody,hle⟩ | ⟨rfl,-⟩ := hsent
          · rw [List.mem_singleton.mp hr]
            exact ⟨_,List.mem_append_right _ (List.mem_singleton_self _),hbody.symm,hle⟩
          · cases hr
      returned_executed := fun x hx => hlater (h.returned_executed x hx) }

theorem agrees_step (h : w.Agrees) (hv : w.step e = some v) : v.Agrees := by
  cases e with
  | request kind payload alive => exact agrees_request h hv
  | writeDone => exact agrees_writeDone h hv
  | writeRaises => exact agrees_writeRaises h hv
  | writeDeadline =>
    rw [writeDeadline_eq hv]
    exact h.endCall _ (.inr rfl)
  | responseDeadline =>
    obtain ⟨⟨q,hcall⟩,rfl⟩ := responseDeadline_cases hv
    exact h.endCall _ (.inl (h.waiting_writer q hcall))
  | take => exact agrees_take h hv
  | read => exact agrees_read h hv
  | readRaises failure => exact agrees_readRaises h hv
  | serve o fault crash => exact agrees_serve h hv
  | childEnds =>
    cases hv
    exact { h with }

theorem Channel.Reachable.agrees (h : w.Reachable) : w.Agrees := by
  obtain ⟨runId,pid,creationTime,hreaches⟩ := h
  exact hreaches.invariant (agrees_start runId pid creationTime) fun _ _ _ => agrees_step

/-- Whatever the order of the deadlines, the threads and the child: the child works on the requests one
after the other, none of them twice, and each result that a request returned is the result of
the execution of that very request. -/
theorem requests_agree (h : w.Reachable) :
    w.executed.map (fun x => x.1.seq) = List.range' 1 w.executed.length ∧
      w.returned.Pairwise (fun x y => x.1.seq < y.1.seq) ∧ ∀ x ∈ w.returned, (x.1,.ok x.2) ∈ w.executed := by
  have hlength : w.executed.length = w.child.seq := by
    simpa using congrArg List.length h.agrees.executed_seq
  refine ⟨?_,h.agrees.returned_increasing,h.agrees.returned_executed⟩
  rw [hlength]
  exact h.agrees.executed_seq

/-- A start and a stop that are both answered. -/
def startStop : List (Event Unit) :=
  let o : Outside Unit := ⟨.ok (),.ok (),(),.ok ()⟩
  [.request .start () true,.writeDone,.serve o none false,.read,.take,
    .request .stop () true,.writeDone,.serve o none false,.read,.take]

theorem startStop_runs : (run Channel.step (Channel.start "run" 7 "1") startStop).isSome = true := by decide

def served : Channel Unit := (run Channel.step (Channel.start "run" 7 "1") startStop).get startStop_runs

theorem served_reachable : served.Reachable := ⟨"run",7,"1",startStop,(Option.some_get startStop_runs).symm⟩

theorem requests_agree_startStop :
    served.executed.map (fun x => x.1.seq) = List.range' 1 served.executed.length ∧
      served.returned.Pairwise (fun x y => x.1.seq < y.1.seq) ∧
      ∀ x ∈ served.returned, (x.1,.ok x.2) ∈ served.executed :=
  requests_agree served_reachable

theorem handle_exits (c : Child) (q : Request τ) (o : Outside τ) :
    (c.handle q o).2.2 = true ↔ q.kind = .stop ∧ (c.handle q o).1.isOk = true := by
  unfold Child.handle
  split <;> (try split) <;> simp_all [Except.isOk,Except.toBool]

theorem handle_made (c : Child) (q : Request τ) (o : Outside τ) :
    (c.instanceMade = true → (c.handle q o).2.1 = true) ∧
      ((c.handle q o).1.isOk = true → q.kind = .start → c.instanceMade = false ∧ (c.handle q o).2.1 = true) ∧
      ((c.handle q o).1.isOk = true → q.kind = .ready → c.instanceMade = false) := by
  unfold Child.handle
  split <;> (try split) <;> simp_all [Except.isOk,Except.toBool]

/-- A start with a result has made the instance and after a stop with a result the child is on its way out. No
execution follows such a stop, and none that is ready for a start or starts again follows such a start. -/
structure Channel.Lives (w : Channel τ) : Prop where
  started : ∀ x ∈ w.executed, x.1.kind = .start → x.2.isOk = true → w.child.instanceMade = true
  stopped : ∀ x ∈ w.executed, x.1.kind = .stop → x.2.isOk = true → w.child.gone = true
  order : w.executed.Pairwise fun x y => (x.1.kind = .stop → x.2.isOk = false) ∧
    (x.1.kind = .start → x.2.isOk = true → y.1.kind = .ready ∨ y.1.kind = .start → y.2.isOk = false)

theorem Channel.Lives.of_same (h : w.Lives) (hexecuted : v.executed = w.executed)
    (hmade : v.child.instanceMade = w.child.instanceMade) (hgone : w.child.gone = true → v.child.gone = true) :
    v.Lives := by
  constructor
  · rw [hexecuted,hmade]
    exact h.started
  · rw [hexecuted]
    exact fun x hx hkind hok => hgone (h.stopped x hx hkind hok)
  · rw [hexecuted]
    exact h.order

theorem lives_serve (h : w.Lives) (hv : w.serve o fault crash = some v) : v.Lives := by
  obtain ⟨hrunning,q,rest,-,rfl | ⟨-,child,sent,rfl,-,-,hmade,hexit,-,-⟩⟩ := serve_cases hv
  · exact h.of_same rfl rfl fun _ => Bool.or_true _
  · obtain ⟨hkeeps,hstart,hready⟩ := handle_made w.child q o
    have hexits := handle_exits w.child q o
    constructor
    · intro x hx hkind hok
      change child.instanceMade = true
      rw [hmade]
      obtain hx | hx := List.mem_append.mp hx
      · exact hkeeps (h.started x hx hkind hok)
      · rw [List.mem_singleton.mp hx] at hkind hok
        exact (hstart hok hkind).2
    · intro x hx hkind hok
      obtain hx | hx := List.mem_append.mp hx
      · have hgone := h.stopped x hx hkind hok
        rw [hrunning] at hgone
        cases hgone
      · rw [List.mem_singleton.mp hx] at hkind hok
        exact hexit (hexits.mpr ⟨hkind,hok⟩) hkind
    · refine List.pairwise_append.mpr ⟨h.order,List.pairwise_singleton _ _,fun x hx y hy => ⟨fun hkind => ?_,?_⟩⟩
      · rw [Bool.eq_false_iff]
        intro hok
        have hgone := h.stopped x hx hkind hok
        rw [hrunning] at hgone
        cases hgone
      · intro hkind hok hagain
        rw [List.mem_singleton.mp hy] at hagain ⊢
        rw [Bool.eq_false_iff]
        intro hdone
        have hbefore : w.child.instanceMade = false := hagain.elim (hready hdone) fun hstarted => (hstart hdone hstarted).1
        rw [h.started x hx hkind hok] at hbefore
        cases hbefore

theorem lives_step (h : w.Lives) (hv : w.step e = some v) : v.Lives := by
  cases e with
  | request kind payload alive =>
    obtain ⟨-,rfl | ⟨-,rfl⟩⟩ := request_cases hv <;> exact h.of_same rfl rfl id
  | writeDone =>
    obtain ⟨q,-,⟨q',-,rfl⟩ | ⟨-,rfl⟩⟩ := writeDone_cases hv <;> exact h.of_same rfl rfl id
  | writeRaises =>
    obtain ⟨q',-,rfl⟩ | ⟨-,rfl⟩ := writeRaises_cases hv <;> exact h.of_same rfl rfl id
  | writeDeadline =>
    rw [writeDeadline_eq hv]
    exact h.of_same rfl rfl id
  | responseDeadline =>
    rw [(responseDeadline_cases hv).2]
    exact h.of_same rfl rfl id
  | take =>
    obtain ⟨q,entry,rest,-,-,⟨r,reply,-,-,-,rfl⟩ | ⟨r,-,rfl⟩ | ⟨-,rfl⟩⟩ := take_cases hv <;> exact h.of_same rfl rfl id
  | read =>
    obtain ⟨r,rest,-,-,rfl | ⟨-,rfl⟩⟩ := read_cases hv <;> exact h.of_same rfl rfl id
  | readRaises failure =>
    obtain rfl | rfl := readRaises_cases hv <;> exact h.of_same rfl rfl id
  | serve o fault crash => exact lives_serve h hv
  | childEnds =>
    cases hv
    exact h.of_same rfl rfl fun _ => Bool.or_true _

theorem Channel.Reachable.lives (h : w.Reachable) : w.Lives := by
  obtain ⟨runId,pid,creationTime,hreaches⟩ := h
  refine hreaches.invariant ?_ fun _ _ _ => lives_step
  constructor <;> simp [Channel.start]

end ManagedIpc
end FakeNetNG
