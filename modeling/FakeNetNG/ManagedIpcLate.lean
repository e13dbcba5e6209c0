import FakeNetNG.ManagedIpcRuns

/-!
# Responses that are late

A call that gives up leaves its request or its response on the way. What is on the way comes in order, so that
it stands before all that later calls wait for.
-/

namespace FakeNetNG
namespace ManagedIpc

open GuardedSteps

variable {τ : Type} {w v : Channel τ} {e : Event τ} {kind : Kind} {payload : τ} {alive crash : Bool} {o : Outside τ}
  {fault : Option IpcFault}

def Channel.Overdue (w : Channel τ) (seq : ℤ) : Prop := seq ≤ w.sequence ∧ ∀ q ∈ w.calling, seq < q.seq

/-- Something older comes before every response that a call may still wait for, or none will come. -/
inductive Channel.Late (w : Channel τ) : Prop
  | refusing (hcall : w.calling = none) (hrefusing : w.Refusing)
  | queued (r : Response τ) (rest : List (Except String (Response τ))) (hresponses : w.responses = .ok r::rest)
      (hr : w.Overdue r.seq)
  | failed (hresponses : ∀ r, .ok r ∉ w.responses) (hfailure : w.readFailure.isSome = true)
  | sent (hresponses : w.responses = []) (r : Response τ) (rest : List (Response τ)) (hsent : w.fromChild = r::rest)
      (hr : w.Overdue r.seq)
  | silent (hresponses : w.responses = []) (hsent : w.fromChild = [])
      (hchild : w.child.ended = true ∨ w.child.channelClosed = true)
  | served (hresponses : w.responses = []) (hsent : w.fromChild = []) (q : Request τ) (rest : List (Request τ))
      (hline : w.toChild = q::rest) (hq : w.Overdue q.seq)

/-- A turn of the child under one of the faults that leave its response out. -/
def Event.Drops : Event τ → Prop
  | .serve _ fault _ => ManagedIpc.Drops fault
  | _ => False

theorem Channel.Overdue.later {seq : ℤ} (h : w.Overdue seq) (hsequence : w.sequence ≤ v.sequence)
    (hcalling : ∀ q ∈ v.calling, w.sequence < q.seq ∨ q ∈ w.calling) : v.Overdue seq := by
  refine ⟨h.1.trans (by exact_mod_cast hsequence),fun q hq => ?_⟩
  obtain hlast | hsame := hcalling q hq
  · have hle := h.1
    omega
  · exact h.2 q hsame

theorem Channel.Late.of_same (h : w.Late) (hresponses : v.responses = w.responses) (hsent : v.fromChild = w.fromChild)
    (hline : ∀ q rest, w.toChild = q::rest → ∃ rest', v.toChild = q::rest') (hchild : v.child = w.child)
    (hfailure : v.readFailure = w.readFailure) (hsequence : w.sequence ≤ v.sequence)
    (hcalling : ∀ q ∈ v.calling, w.sequence < q.seq ∨ q ∈ w.calling)
    (hrefusing : w.calling = none → w.Refusing → v.calling = none ∧ v.Refusing) : v.Late := by
  cases h with
  | refusing hcall hold => exact .refusing (hrefusing hcall hold).1 (hrefusing hcall hold).2
  | queued r rest hold hr => exact .queued r rest (hresponses.trans hold) (hr.later hsequence hcalling)
  | failed hold hkept =>
    rw [← hresponses] at hold
    rw [← hfailure] at hkept
    exact .failed hold hkept
  | sent hempty r rest hold hr => exact .sent (hresponses.trans hempty) r rest (hsent.trans hold) (hr.later hsequence hcalling)
  | silent hempty hnone hend =>
    rw [← hchild] at hend
    exact .silent (hresponses.trans hempty) (hsent.trans hnone) hend
  | served hempty hnone q rest hold hq =>
    obtain ⟨rest',hnew⟩ := hline q rest hold
    exact .served (hresponses.trans hempty) (hsent.trans hnone) q rest' hnew (hq.later hsequence hcalling)

theorem late_request (h : w.Late) (hv : w.request kind payload alive = some v) : v.Late ∧ v.returned = w.returned := by
  obtain ⟨hcall,rfl | ⟨hchecks,rfl⟩⟩ := request_cases hv
  · exact ⟨h.of_same rfl rfl (fun _ rest hline => ⟨rest,hline⟩) rfl rfl (Nat.le_succ _) (fun _ hq => .inr hq)
      fun hnone hold => ⟨hnone,hold⟩,rfl⟩
  · refine ⟨h.of_same rfl rfl (fun _ rest hline => ⟨rest,hline⟩) rfl rfl (Nat.le_succ _) (fun q hq => .inl ?_)
      fun _ hold => absurd hold hchecks,rfl⟩
    cases hq
    exact Nat.lt_succ_self _

theorem late_writeDone (h : w.Late) (hv : w.writeDone = some v) : v.Late ∧ v.returned = w.returned := by
  obtain ⟨q,-,⟨q',hcall,rfl⟩ | ⟨-,rfl⟩⟩ := writeDone_cases hv
  · have hcalling : w.calling = some q' := by
      rw [Channel.calling,hcall]
      rfl
    refine ⟨h.of_same rfl rfl (fun _ rest hline => ⟨rest++[q],?_⟩) rfl rfl le_rfl
      (fun c hc => .inr (hcalling.trans hc)) fun hnone hold => ⟨(by rw [hcalling] at hnone; cases hnone),hold⟩,rfl⟩
    rw [hline]
    rfl
  · refine ⟨h.of_same rfl rfl (fun _ rest hline => ⟨rest++[q],?_⟩) rfl rfl le_rfl (fun _ hq => .inr hq)
      fun hnone hold => ⟨hnone,hold⟩,rfl⟩
    rw [hline]
    rfl

theorem Channel.Late.endCall (h : w.Late) {writer : Option (Request τ)} {failed : Bool}
    (hfailed : w.writeFailed = true → failed = true) :
    { w with call := none, writer := writer, writeFailed := failed : Channel τ }.Late :=
  h.of_same rfl rfl (fun _ rest hline => ⟨rest,hline⟩) rfl rfl le_rfl (fun q hq => by cases hq)
    fun _ hold => ⟨rfl,hold.imp_right fun hkept => hkept.imp_right hfailed⟩

theorem late_writeRaises (h : w.Late) (hv : w.writeRaises = some v) : v.Late ∧ v.returned = w.returned := by
  obtain ⟨q',-,rfl⟩ | ⟨-,rfl⟩ := writeRaises_cases hv
  · exact ⟨h.endCall id,rfl⟩
  · exact ⟨h.of_same rfl rfl (fun _ rest hline => ⟨rest,hline⟩) rfl rfl le_rfl (fun _ hq => .inr hq)
      fun hnone hold => ⟨hnone,hold⟩,rfl⟩

theorem late_take (h : w.Late) (hv : w.take = some v) : v.Late ∧ v.returned = w.returned := by
  obtain ⟨q,entry,rest,hcall,hresponses,hcases⟩ := take_cases hv
  have hcalling : w.calling = some q := by
    rw [Channel.calling,hcall]
    rfl
  cases h with
  | refusing hnone _ =>
    rw [hcalling] at hnone
    cases hnone
  | queued r rest' hhead hr =>
    obtain ⟨rfl,rfl⟩ := List.cons.inj (hresponses.symm.trans hhead)
    have hother : r.seq ≠ q.seq := (hr.2 q hcalling).ne
    obtain ⟨r',reply,hsame,hseq,-,-⟩ | ⟨r',-,rfl⟩ | ⟨hseq,-⟩ := hcases
    · cases hsame
      exact absurd hseq hother
    · exact ⟨.refusing rfl (.inl rfl),rfl⟩
    · exact absurd (hseq r rfl) hother
  | failed hnone hkept =>
    have hentry : ∀ r, entry ≠ .ok r := by
      rintro r rfl
      exact hnone r (by rw [hresponses]; exact List.mem_cons_self)
    obtain ⟨r,reply,hok,-⟩ | ⟨r,hok,-⟩ | ⟨-,rfl⟩ := hcases
    · exact absurd hok (hentry r)
    · exact absurd hok (hentry r)
    · exact ⟨.refusing rfl (.inr (.inl hkept)),rfl⟩
  | sent hempty | silent hempty | served hempty =>
    rw [hresponses] at hempty
    cases hempty

theorem late_read (h : w.Late) (hv : w.read = some v) : v.Late ∧ v.returned = w.returned := by
  obtain ⟨r,rest,hfailure,hline,hcases⟩ := read_cases hv
  cases h with
  | refusing hnone hrefusing =>
    obtain rfl | ⟨-,rfl⟩ := hcases
    · exact ⟨.refusing hnone hrefusing,rfl⟩
    · exact ⟨.refusing hnone (.inr (.inl rfl)),rfl⟩
  | queued r' rest' hhead hr =>
    obtain rfl | ⟨-,rfl⟩ := hcases
    · refine ⟨.queued r' (rest'++[.ok r]) ?_ hr,rfl⟩
      rw [hhead]
      rfl
    · exact ⟨.queued r' rest' hhead hr,rfl⟩
  | failed _ hkept =>
    rw [hfailure] at hkept
    cases hkept
  | sent hempty r' rest' hsent hr =>
    obtain ⟨rfl,-⟩ := List.cons.inj (hline.symm.trans hsent)
    obtain rfl | ⟨hfull,-⟩ := hcases
    · refine ⟨.queued r [] ?_ hr,rfl⟩
      rw [hempty]
      rfl
    · rw [hempty] at hfull
      simp [responseLimit] at hfull
  | silent hempty hnone | served hempty hnone =>
    rw [hline] at hnone
    cases hnone

theorem late_readRaises {failure : String} (h : w.Late) (hv : w.readRaises failure = some v) :
    v.Late ∧ v.returned = w.returned := by
  have hcases := readRaises_cases hv
  have hreturned : v.returned = w.returned := by
    obtain rfl | rfl := hcases <;> rfl
  refine ⟨?_,hreturned⟩
  cases h with
  | refusing hnone _ =>
    obtain rfl | rfl := hcases
    · exact .refusing hnone (.inr (.inl rfl))
    · exact .refusing hnone (.inr (.inl rfl))
  | queued r rest hhead hr =>
    obtain rfl | rfl := hcases
    · refine .queued r (rest++[.error failure]) ?_ hr
      rw [hhead]
      rfl
    · exact .queued r rest hhead hr
  | failed hnone _ =>
    obtain rfl | rfl := hcases
    · exact .failed (fun r hmem => hnone r (by simpa using hmem)) rfl
    · exact .failed hnone rfl
  | sent hempty | silent hempty | served hempty =>
    obtain rfl | rfl := hcases
    · exact .failed (fun r hmem => by simp [hempty] at hmem) rfl
    · exact .failed (fun r hmem => by simp [hempty] at hmem) rfl

theorem late_serve (h : w.Late) (hdrops : ¬ Drops fault) (hv : w.serve o fault crash = some v) :
    v.Late ∧ v.returned = w.returned := by
  obtain ⟨hrunning,q,rest,hline,hcases⟩ := serve_cases hv
  have hreturned : v.returned = w.returned := by
    obtain rfl | ⟨-,child,sent,rfl,-⟩ := hcases <;> rfl
  refine ⟨?_,hreturned⟩
  cases h with
  | refusing hnone hrefusing =>
    obtain rfl | ⟨-,child,sent,rfl,-⟩ := hcases
    · exact .refusing hnone hrefusing
    · exact .refusing hnone hrefusing
  | queued r rest' hhead hr =>
    obtain rfl | ⟨-,child,sent,rfl,-⟩ := hcases
    · exact .queued r rest' hhead hr
    · exact .queued r rest' hhead hr
  | failed hnone hkept =>
    obtain rfl | ⟨-,child,sent,rfl,-⟩ := hcases
    · exact .failed hnone hkept
    · exact .failed hnone hkept
  | sent hempty r rest' hsent hr =>
    obtain rfl | ⟨-,child,sent,rfl,-⟩ := hcases
    · exact .sent hempty r rest' hsent hr
    · refine .sent hempty r (rest'++sent) ?_ hr
      rw [hsent]
      rfl
  | silent hempty hnone hchild =>
    obtain rfl | ⟨-,child,sent,rfl,-,-,-,-,hclosed,-⟩ := hcases
    · exact .silent hempty hnone (.inl rfl)
    · obtain hended | hold := hchild
      · rw [Child.gone,hended,Bool.or_true] at hrunning
        cases hrunning
      · refine .silent hempty ?_ (.inr (hclosed hold).2)
        rw [hnone,(hclosed hold).1]
        rfl
  | served hempty hnone q' rest' hhead hq =>
    obtain ⟨rfl,-⟩ := List.cons.inj (hline.symm.trans hhead)
    obtain rfl | ⟨-,child,sent,rfl,-,-,-,-,-,hsent⟩ := hcases
    · exact .silent hempty hnone (.inl rfl)
    · obtain ⟨r,rfl,-,hle⟩ | ⟨rfl,hquiet⟩ := hsent
      · refine .sent hempty r [] ?_ ⟨hle.trans hq.1,fun c hc => hle.trans_lt (hq.2 c hc)⟩
        rw [hnone]
        rfl
      · refine .silent hempty ?_ (hquiet.imp_right fun hor => hor.resolve_right hdrops)
        rw [hnone]
        rfl

theorem late_step (h : w.Late) (hdrops : ¬ e.Drops) (hv : w.step e = some v) : v.Late ∧ v.returned = w.returned := by
  cases e with
  | request kind payload alive => exact late_request h hv
  | writeDone => exact late_writeDone h hv
  | writeRaises => exact late_writeRaises h hv
  | writeDeadline =>
    rw [writeDeadline_eq hv]
    exact ⟨h.endCall fun _ => rfl,rfl⟩
  | responseDeadline =>
    rw [(responseDeadline_cases hv).2]
    exact ⟨h.endCall id,rfl⟩
  | take => exact late_take h hv
  | read => exact late_read h hv
  | readRaises failure => exact late_readRaises h hv
  | serve o fault crash => exact late_serve h hdrops hv
  | childEnds =>
    cases hv
    refine ⟨?_,rfl⟩
    cases h with
    | refusing hnone hrefusing => exact .refusing hnone hrefusing
    | queued r rest hhead hr => exact .queued r rest hhead hr
    | failed hnone hkept => exact .failed hnone hkept
    | sent hempty r rest hsent hr => exact .sent hempty r rest hsent hr
    | silent hempty hnone _ => exact .silent hempty hnone (.inl rfl)
    | served hempty hnone => exact .silent hempty hnone (.inl rfl)

theorem Channel.Agrees.late (h : w.Agrees) (hcall : w.call = none)
    (hleft : w.responses ≠ [] ∨ w.fromChild ≠ [] ∨ w.toChild ≠ [] ∨ w.writer ≠ none) : w.Late := by
  have hcalling : w.calling = none := by
    rw [Channel.calling,hcall]
    rfl
  have hresponse : ∀ r, .ok r ∈ w.responses ∨ r ∈ w.fromChild → w.Overdue r.seq := by
    intro r hr
    obtain ⟨x,hx,-,hle⟩ := h.response_executed r hr
    have hlast := (h.executed_le hx).trans h.child_le
    refine ⟨by omega,fun q hq => ?_⟩
    rw [hcalling] at hq
    cases hq
  cases hresponses : w.responses with
  | cons entry rest =>
    have hmem : entry ∈ w.responses := by
      rw [hresponses]
      exact List.mem_cons_self
    cases entry with
    | ok r => exact .queued r rest hresponses (hresponse r (.inl hmem))
    | error failure => exact .refusing hcalling (.inr (.inl (h.failure_kept failure hmem)))
  | nil =>
    cases hsent : w.fromChild with
    | cons r rest =>
      refine .sent hresponses r rest hsent (hresponse r (.inr ?_))
      rw [hsent]
      exact List.mem_cons_self
    | nil =>
      cases hline : w.toChild with
      | cons q rest =>
        have hmem : q ∈ w.pending := by
          rw [Channel.pending,hline]
          exact List.mem_cons_self
        refine .served hresponses hsent q rest hline ⟨by exact_mod_cast (h.pending_range q hmem).2,fun c hc => ?_⟩
        rw [hcalling] at hc
        cases hc
      | nil =>
        -- the writer thread of a call that has given up was left behind at its deadline
        have hwriter : w.writer ≠ none := by
          rw [hresponses,hsent,hline] at hleft
          simpa using hleft
        exact .refusing hcalling (.inr (.inr (h.idle_writer hcalling hwriter)))

/-- A call that has given up while its request or its response was on the way, or with its writer thread still
at work, ends the use of the channel: no request returns a result any more, unless a fault of a test leaves a
response out. -/
theorem late_response_ends_channel {events : List (Event τ)} (h : w.Reachable) (hcall : w.call = none)
    (hleft : w.responses ≠ [] ∨ w.fromChild ≠ [] ∨ w.toChild ≠ [] ∨ w.writer ≠ none) (hdrops : ∀ e ∈ events, ¬ e.Drops)
    (hrun : run Channel.step w events = some v) : v.returned = w.returned :=
  (run_frame (fun _ _ _ => agrees_step) (fun _ _ _ _ hlate hok hstep => late_step hlate hok hstep) h.agrees
    (h.agrees.late hcall hleft) hdrops hrun).2

/-- A health request that was sent and whose deadline has passed. -/
def unansweredHealth : List (Event Unit) := [.request .health () true,.writeDone,.responseDeadline]

/-- Its response comes, a stop is requested and takes that response for its own. -/
def lateHealth : List (Event Unit) :=
  [.serve ⟨.ok (),.ok (),(),.ok ()⟩ none false,.read,.request .stop () true,.writeDone,.take]

theorem lateHealth_complete : ∀ e ∈ lateHealth, ¬ e.Drops := by simp [lateHealth,Event.Drops,Drops]

theorem late_response_ends_channel_health :
    ∃ w v, run Channel.step (Channel.start "run" 7 "1") unansweredHealth = some w ∧
      run Channel.step w lateHealth = some v ∧ v.returned = w.returned :=
  ⟨_,_,rfl,rfl,late_response_ends_channel ⟨"run",7,"1",unansweredHealth,rfl⟩ rfl (.inr (.inr (.inl (by simp))))
    lateHealth_complete rfl⟩

end ManagedIpc
end FakeNetNG
