import FakeNetNG.AfdLifetimes

/-!
# UDP lifetimes of a list of events

The turns of the loop keep the invariant, so the lifetimes of a whole list show nothing of another socket. They
stand in the order of the creations of UDP sockets, one for each.
-/

namespace FakeNetNG
namespace Afd

variable {calls : ℕ → Option AfdCall} {n : ℕ}

theorem isCreation_key {call : AfdCall} (hcall : calls n = some call) {socket : SocketKey} (h : Creates calls socket n) :
    call.isCreation = true := by
  obtain ⟨call',hcall',hcreation,-⟩ := h
  rw [hcall] at hcall'
  cases hcall'
  exact hcreation

theorem scanCall_inv {scan scan' : Scan} {call : AfdCall} (h : Inv calls n scan) (hcall : calls n = some call)
    (hkinds : call.kind ∈ kinds) (hscan : scanCall n call scan = .ok scan') : Inv calls (n+1) scan' := by
  rw [scanCall] at hscan
  by_cases hcreation : call.isCreation = true
  · rw [if_pos hcreation] at hscan
    exact create_inv h hcall hcreation hscan
  rw [if_neg hcreation] at hscan
  have hno : ∀ socket, ¬Creates calls socket n := fun _ hcreates => hcreation (isCreation_key hcall hcreates)
  cases hactive : scan.active.get? call.key with
  | none =>
    rw [hactive] at hscan
    cases hscan
    refine h.skip hno fun socket i item hi _ _ call' hcall' hkey => ?_
    rw [hcall] at hcall'
    cases hcall'
    rw [← hkey,hactive] at hi
    cases hi
  | some i =>
    obtain ⟨item,hitem,hkey,hlast⟩ := h.active call.key i hactive
    simp only [hactive,hitem] at hscan
    by_cases hclosed : item.closed.isSome = true
    · rw [if_pos hclosed] at hscan
      cases hscan
      refine h.skip hno fun socket j item' hj hitem' hopen call' hcall' hkey' => ?_
      rw [hcall] at hcall'
      cases hcall'
      rw [← hkey',hactive] at hj
      cases hj
      rw [hitem] at hitem'
      cases hitem'
      rw [hopen] at hclosed
      cases hclosed
    rw [if_neg hclosed] at hscan
    have hturn : Turn calls n scan call i item :=
      ⟨h,hcall,by simpa using hcreation,hactive,hitem,by simpa using hclosed⟩
    by_cases hcreated : call.kind = 1000
    · rw [if_pos hcreated] at hscan
      cases hscan
      exact hturn.creation_exit hcreated
    rw [if_neg hcreated] at hscan
    by_cases hbind : call.kind = 1030
    · rw [if_pos hbind] at hscan
      obtain ⟨item',hitem',hscan⟩ := ok_of_bind hscan
      cases hscan
      exact hturn.bind hbind hitem'
    rw [if_neg hbind] at hscan
    by_cases hclose : call.kind = 1001
    · rw [if_pos hclose] at hscan
      cases hscan
      exact hturn.close hclose
    rw [if_neg hclose] at hscan
    refine hturn.send ?_ hscan
    simp only [kinds,List.mem_cons,List.not_mem_nil,or_false] at hkinds
    omega

def callAt (fromstring : String → Option EventXml) (events : List AfdEvent) (j : ℕ) : Option AfdCall :=
  match events[j]? with
  | none => none
  | some event => (afdCall fromstring event).toOption.join

theorem afdCall_kind {fromstring : String → Option EventXml} {event : AfdEvent} {call : AfdCall}
    (h : afdCall fromstring event = .ok (some call)) : call.kind ∈ kinds := by
  rw [afdCall] at h
  by_cases hprovider : event.provider ≠ afdProvider
  · rw [if_pos hprovider] at h
    cases h
  rw [if_neg hprovider] at h
  by_cases hkind : event.id ∉ kinds
  · rw [if_pos hkind] at h
    cases h
  rw [if_neg hkind] at h
  cases hxml : fromstring event.xml with
  | none =>
    rw [hxml] at h
    cases h
  | some xml =>
    rw [hxml] at h
    obtain ⟨-,-,h⟩ := ok_of_bind h
    obtain ⟨data,-,h⟩ := ok_of_bind h
    obtain ⟨process,-,h⟩ := ok_of_bind h
    obtain ⟨endpoint,-,h⟩ := ok_of_bind h
    obtain ⟨field,-,h⟩ := ok_of_bind h
    obtain ⟨enterExit,-,h⟩ := ok_of_bind h
    by_cases hdirection : enterExit ≠ 0 ∧ enterExit ≠ 1
    · rw [if_pos hdirection] at h
      cases h
    rw [if_neg hdirection] at h
    obtain ⟨field,-,h⟩ := ok_of_bind h
    obtain ⟨status,-,h⟩ := ok_of_bind h
    cases h
    exact not_not.mp hkind

theorem scanEvents_inv {fromstring : String → Option EventXml} {events rest : List AfdEvent} {scan scan' : Scan}
    (hrest : events.drop n = rest) (h : Inv (callAt fromstring events) n scan)
    (hscan : scanEvents fromstring n rest scan = .ok scan') : Inv (callAt fromstring events) (n+rest.length) scan' := by
  induction rest generalizing n scan with
  | nil =>
    cases hscan
    exact h
  | cons event rest ih =>
    have hevent : events[n]? = some event := by
      rw [← List.head?_drop,hrest]
      rfl
    have hnext : events.drop (n+1) = rest := by
      rw [← List.drop_drop,hrest]
      rfl
    rw [List.length_cons,Nat.add_comm rest.length,← Nat.add_assoc]
    rw [scanEvents] at hscan
    obtain ⟨call,hcall,hscan⟩ := ok_of_bind hscan
    have hat : callAt fromstring events n = call := by
      rw [callAt,hevent]
      simp [hcall,Except.toOption]
    cases call with
    | none =>
      refine ih hnext (h.skip ?_ ?_) hscan
      · rintro socket ⟨call,hcall',-⟩
        rw [hat] at hcall'
        cases hcall'
      · intro socket i item _ _ _ call hcall'
        rw [hat] at hcall'
        cases hcall'
    | some call =>
      obtain ⟨scan₁,hscan₁,hscan⟩ := ok_of_bind hscan
      exact ih hnext (scanCall_inv h hat (afdCall_kind hcall) hscan₁) hscan

instance (calls : ℕ → Option AfdCall) (entering : Bool) (key : CallKey) (j : ℕ) : Decidable (Sends calls entering key j) :=
  decidable_of_iff (∃ call ∈ calls j, (call.kind = 1007 ∨ call.kind = 1013) ∧ call.entering = entering ∧ call.callKey = .ok key)
    (by simp [Sends])

/-- The exit that ends the call: the first event of its key after the entry. -/
structure Answers (calls : ℕ → Option AfdCall) (key : CallKey) (enter exit : ℕ) : Prop where
  later : enter < exit
  exits : Exits calls key exit
  silent : Silent calls key enter exit

theorem Answers.unique {key : CallKey} {enter c c' : ℕ} (h : Answers calls key enter c) (h' : Answers calls key enter c') :
    c = c' := by
  have hle : ∀ {c c'}, Answers calls key enter c → Answers calls key enter c' → c ≤ c' := by
    intro c c' h h'
    by_contra hlt
    exact (h.silent c' h'.later (not_le.mp hlt)).2 h'.exits
  exact le_antisymm (hle h h') (hle h' h)

/-- A send that is reported as succeeded. -/
structure SucceededSend (calls : ℕ → Option AfdCall) (n : ℕ) (span : Span) (sent : Sent) (key : CallKey) : Prop where
  own : key.key = span.key
  enters : Enters calls key sent.event
  exit : ∃! c, Answers calls key sent.event c ∧ Within calls n span c ∧ sent.completed = some c ∧
    ∃ call, calls c = some call ∧ call.successful = true
  sole : ∀ c, Answers calls key sent.event c → ∀ x, sent.event < x → x < c → ¬Enters calls key x
  free : ∀ e, span.created < e → e < sent.event → Enters calls key e → ∃ x, e < x ∧ x < sent.event ∧ Exits calls key x

theorem SentEvidence.succeeded {span : Span} {sent : Sent} {key : CallKey} {call : AfdCall}
    (h : SentEvidence calls n span sent key call) (hsucceeded : sent.succeeded = true) :
    SucceededSend calls n span sent key := by
  obtain ⟨-,-,hfailed⟩ | ⟨c,exit,hc⟩ := h.completion
  · rw [hfailed] at hsucceeded
    cases hsucceeded
  have hanswers : Answers calls key sent.event c := ⟨hc.later,hc.exits,hc.silent⟩
  refine ⟨h.own,h.enters,⟨c,⟨hanswers,hc.within,hc.completed,exit,hc.event,?_⟩,fun c' hc' => hc'.1.unique hanswers⟩,
    fun c' hc' x hx hxc => (hc'.silent x hx hxc).1,fun e hcreated he hkey => ?_⟩
  · rw [← hc.succeeded]
    exact hsucceeded
  · exact hc.alternate e sent.event hcreated he (Nat.lt_succ_self sent.event) hkey h.enters

/-- A lifetime borrows nothing: what it shows, it read from its own events, in its own generation and up to its
close; and its succeeded sends are sure. -/
structure OwnEvidence (calls : ℕ → Option AfdCall) (n : ℕ) (item : Lifetime) : Prop where
  evidence : Evidence calls n item
  sends : ∀ sent ∈ item.outbound, sent.succeeded = true → ∃ key, SucceededSend calls n item.span sent key

theorem udpLifetimes_own {fromstring : String → Option EventXml} {events : List AfdEvent} {lifetimes : List Lifetime}
    (h : udpLifetimes fromstring events = .ok lifetimes) :
    lifetimes.map Lifetime.created = (List.range events.length).filter (createsUdp (callAt fromstring events)) ∧
    ∀ item ∈ lifetimes, OwnEvidence (callAt fromstring events) events.length item := by
  cases hscan : scanEvents fromstring 0 events .start with
  | error fault =>
    rw [udpLifetimes,hscan] at h
    cases h
  | ok scan =>
    have hinv := scanEvents_inv rfl (start_inv (callAt fromstring events)) hscan
    rw [Nat.zero_add] at hinv
    rw [udpLifetimes,hscan] at h
    cases h
    refine ⟨hinv.created,fun item hitem => ⟨hinv.evidence item hitem,fun sent hsent hsucceeded => ?_⟩⟩
    obtain ⟨key,call,hevidence⟩ := (hinv.evidence item hitem).outbound sent hsent
    exact ⟨key,hevidence.succeeded hsucceeded⟩

section Sample

def sampleData (direction : String) : List (Option String × Field) :=
  [(some "Process",some ['p']),(some "Endpoint",some ['e']),(some "EnterExit",some direction.toList),
    (some "Status",some ['0']),(some "SocketType",some ['2']),(some "Protocol",some ['1','7']),
    (some "ProcessId",some ['7']),(some "Buffer",some ['b']),(some "BufferLength",some ['4']),
    (some "Address",some "02000035c00002010000000000000000".toList)]

/-- The text of a sample event is its identifier and its direction. -/
def sampleXml (text : String) : Option EventXml :=
  match text with
  | "1000 enter" => some ⟨some (some afdProvider),some (some "1000".toList),sampleData "0"⟩
  | "1007 enter" => some ⟨some (some afdProvider),some (some "1007".toList),sampleData "0"⟩
  | "1007 exit" => some ⟨some (some afdProvider),some (some "1007".toList),sampleData "1"⟩
  | _ => none

def createUdp (time : String) : AfdEvent := ⟨afdProvider,1000,time,"1000 enter"⟩

def enterSend (time : String) : AfdEvent := ⟨afdProvider,1007,time,"1007 enter"⟩

def exitSend (time : String) : AfdEvent := ⟨afdProvider,1007,time,"1007 exit"⟩

/-- A send that never exits, then another socket under the same pointers with a send of its own. -/
def reusedPointer : List AfdEvent := [createUdp "0",enterSend "1",createUdp "2",enterSend "3",exitSend "4"]

def sampleAddress : SocketAddress := ⟨2,.v4 [192,0,2,1],53⟩

def sampleKey : CallKey :=
  ⟨(some ['p'],some ['e']),1007,some ['b'],some ['4'],some "02000035c00002010000000000000000".toList⟩

def firstLifetime : Lifetime where
  key := (some ['p'],some ['e'])
  pid := 7
  created := 0
  creationTime := "0"
  creationSucceeded := false
  requestedBind := none
  bound := none
  bindEvent := none
  bindTime := none
  outbound := [⟨1,"1",sampleAddress,none,none,false⟩]
  closeRequested := none
  closed := none
  closeTime := none
  supersededWithoutClose := true

def secondLifetime : Lifetime :=
  { firstLifetime with
    created := 2
    creationTime := "2"
    outbound := [⟨3,"3",sampleAddress,some 4,some "4",true⟩]
    supersededWithoutClose := false }

theorem udpLifetimes_own_reusedPointer :
    [firstLifetime,secondLifetime].map Lifetime.created =
      (List.range reusedPointer.length).filter (createsUdp (callAt sampleXml reusedPointer)) ∧
    ∀ item ∈ [firstLifetime,secondLifetime], OwnEvidence (callAt sampleXml reusedPointer) reusedPointer.length item :=
  udpLifetimes_own (by decide +kernel)

/-- The entry of the earlier socket is still pending when the later one sends. -/
theorem reusedPointer_pending : ¬∀ (fromstring : String → Option EventXml) (events : List AfdEvent) (lifetimes : List Lifetime),
    udpLifetimes fromstring events = .ok lifetimes → ∀ item ∈ lifetimes, ∀ sent ∈ item.outbound, sent.succeeded = true →
    ∀ key, Enters (callAt fromstring events) key sent.event → ∀ e, e < sent.event → Enters (callAt fromstring events) key e →
    ∃ x, e < x ∧ x < sent.event ∧ Exits (callAt fromstring events) key x := by
  intro h
  have hsecond : secondLifetime ∈ [firstLifetime,secondLifetime] := by simp
  have hsent : (⟨3,"3",sampleAddress,some 4,some "4",true⟩ : Sent) ∈ secondLifetime.outbound := List.mem_singleton.mpr rfl
  obtain ⟨x,hx,hbound,hexit⟩ := h sampleXml reusedPointer [firstLifetime,secondLifetime] (by decide +kernel)
    secondLifetime hsecond _ hsent rfl sampleKey (by decide +kernel) 1 (by decide) (by decide +kernel)
  have hno : ¬Exits (callAt sampleXml reusedPointer) sampleKey 2 := by decide +kernel
  obtain rfl : x = 2 := by
    dsimp only at hbound
    omega
  exact hno hexit

end Sample

end Afd
end FakeNetNG
