import FakeNetNG.AfdEvents

/-!
# The evidence of a UDP lifetime

What a lifetime shows was read from events with its own pointers, after its creation, before the next creation
under these pointers and not after its close. A completed send has the first exit of its call, and no other
call with the same key overlapped it since the creation. The table of pending sends forgets the calls of earlier
sockets, so a call that was left open under the same pointers before the creation does not count.
-/

namespace FakeNetNG
namespace Afd

section Calls

/-- What bounds a lifetime: its pointers, its creation and its close. -/
structure Span where
  key : SocketKey
  created : ℕ
  closed : Option ℕ

abbrev Lifetime.span (item : Lifetime) : Span := ⟨item.key,item.created,item.closed⟩

variable (calls : ℕ → Option AfdCall)

/-- The event is an entry into, or an exit from, the buffer call with the key. -/
def Sends (entering : Bool) (key : CallKey) (j : ℕ) : Prop :=
  ∃ call, calls j = some call ∧ (call.kind = 1007 ∨ call.kind = 1013) ∧ call.entering = entering ∧ call.callKey = .ok key

abbrev Enters := Sends calls true

abbrev Exits := Sends calls false

def Creates (key : SocketKey) (j : ℕ) : Prop := ∃ call, calls j = some call ∧ call.isCreation = true ∧ call.key = key

/-- The event asks for a close of the socket, or ends one with success. -/
def Closes (entering : Bool) (socket : SocketKey) (j : ℕ) : Prop :=
  ∃ call, calls j = some call ∧ call.kind = 1001 ∧ call.key = socket ∧ call.entering = entering ∧
    (entering = false → call.successful = true)

def createsUdp (j : ℕ) : Bool :=
  match calls j with
  | none => false
  | some call => call.isCreation && call.isUdp.toOption.getD false

/-- The event lies in the lifetime, as far as the events before `n` tell. -/
structure Within (n : ℕ) (span : Span) (j : ℕ) : Prop where
  after : span.created < j
  before : j < n
  close : ∀ c, span.closed = some c → j ≤ c
  unclosed : ∀ y x, span.created < y → y < x → x < j → Closes calls true span.key y → ¬Closes calls false span.key x
  generation : ∀ m, Creates calls span.key m → span.created < m → j < m

/-- Between two entries there is an exit. -/
def Alternate (key : CallKey) (start bound : ℕ) : Prop :=
  ∀ e e', start < e → e < e' → e' < bound → Enters calls key e → Enters calls key e' → ∃ x, e < x ∧ x < e' ∧ Exits calls key x

/-- Every entry was followed by an exit. -/
def Answered (key : CallKey) (start bound : ℕ) : Prop :=
  ∀ e, start < e → e < bound → Enters calls key e → ∃ x, e < x ∧ x < bound ∧ Exits calls key x

def Silent (key : CallKey) (first last : ℕ) : Prop :=
  ∀ x, first < x → x < last → ¬Enters calls key x ∧ ¬Exits calls key x

/-- The event of a lifetime, of some kind and direction. -/
structure Shows (n : ℕ) (span : Span) (kind : ℤ) (entering : Bool) (j : ℕ) (call : AfdCall) : Prop where
  within : Within calls n span j
  event : calls j = some call
  key : call.key = span.key
  kind : call.kind = kind
  entering : call.entering = entering

/-- What a completed send rests on. -/
structure Completed (n : ℕ) (span : Span) (key : CallKey) (sent : Sent) (c : ℕ) (exit : AfdCall) : Prop where
  completed : sent.completed = some c
  time : sent.completionTime = some exit.time
  event : calls c = some exit
  within : Within calls n span c
  succeeded : sent.succeeded = exit.successful
  exits : Exits calls key c
  later : sent.event < c
  silent : Silent calls key sent.event c
  alternate : Alternate calls key span.created (sent.event+1)

structure SentEvidence (n : ℕ) (span : Span) (sent : Sent) (key : CallKey) (call : AfdCall) : Prop where
  within : Within calls n span sent.event
  event : calls sent.event = some call
  enters : Enters calls key sent.event
  own : key.key = span.key
  time : sent.time = call.time
  destination : socketAddress key.address = .ok sent.destination
  completion : (sent.completed = none ∧ sent.completionTime = none ∧ sent.succeeded = false) ∨
    ∃ c exit, Completed calls n span key sent c exit

structure Evidence (n : ℕ) (item : Lifetime) : Prop where
  created : ∃ call, calls item.created = some call ∧ call.isCreation = true ∧ call.key = item.key ∧
    call.isUdp = .ok true ∧ call.time = item.creationTime ∧
    (getField call.data "ProcessId").bind (toInt readAutoInt) = .ok item.pid
  known : item.created < n
  creation : item.creationSucceeded = true →
    ∃ j call, Shows calls n item.span 1000 false j call ∧ call.successful = true
  requested : ∀ a, item.requestedBind = some a → ∃ j call, Shows calls n item.span 1030 true j call ∧
    (getField call.data "Address").bind socketAddress = .ok a
  bound : (item.bound = none ∧ item.bindEvent = none ∧ item.bindTime = none) ∨ ∃ a j call,
    Shows calls n item.span 1030 false j call ∧ call.successful = true ∧ item.bound = some a ∧ item.bindEvent = some j ∧
    item.bindTime = some call.time ∧ (getField call.data "Address").bind socketAddress = .ok a
  outbound : ∀ sent ∈ item.outbound, ∃ key call, SentEvidence calls n item.span sent key call
  closeRequested : ∀ j, item.closeRequested = some j → ∃ call, Shows calls n item.span 1001 true j call
  closed : (item.closed = none ∧ item.closeTime = none) ∨ ∃ j call, Shows calls n item.span 1001 false j call ∧
    call.successful = true ∧ item.closed = some j ∧ item.closeTime = some call.time

end Calls

variable {calls : ℕ → Option AfdCall} {n : ℕ} {key : CallKey} {item : Lifetime} {span : Span}

theorem Sends.functional {entering : Bool} {key key' : CallKey} {j : ℕ} (h : Sends calls entering key j) {entering' : Bool}
    (h' : Sends calls entering' key' j) : key = key' ∧ entering = entering' := by
  obtain ⟨call,hat,-,hentering,hkey⟩ := h
  obtain ⟨call',hat',-,hentering',hkey'⟩ := h'
  obtain rfl : call = call' := Option.some.inj (hat.symm.trans hat')
  rw [hkey] at hkey'
  exact ⟨Except.ok.inj hkey',hentering.symm.trans hentering'⟩

theorem Within.succ {j : ℕ} (h : Within calls n span j) : Within calls (n+1) span j :=
  ⟨h.after,h.before.trans (Nat.lt_succ_self n),h.close,h.unclosed,h.generation⟩

theorem Within.closing {j : ℕ} (h : Within calls n span j) : Within calls (n+1) { span with closed := some n } j := by
  refine ⟨h.after,h.before.trans (Nat.lt_succ_self n),fun c hc => ?_,h.unclosed,h.generation⟩
  cases hc
  exact h.before.le

theorem SentEvidence.map {n' : ℕ} {span' : Span} {sent : Sent} {call : AfdCall} (hkey : span'.key = span.key)
    (hcreated : span'.created = span.created) (hwithin : ∀ j, Within calls n span j → Within calls n' span' j)
    (h : SentEvidence calls n span sent key call) : SentEvidence calls n' span' sent key call := by
  obtain ⟨hw,hat,henters,hk,htime,hdestination,hcompletion⟩ := h
  refine ⟨hwithin _ hw,hat,henters,hk.trans hkey.symm,htime,hdestination,?_⟩
  refine hcompletion.imp_right ?_
  rintro ⟨c,exit,hc⟩
  refine ⟨c,exit,hc.completed,hc.time,hc.event,hwithin _ hc.within,hc.succeeded,hc.exits,hc.later,hc.silent,?_⟩
  rw [hcreated]
  exact hc.alternate

theorem Shows.succ {kind : ℤ} {entering : Bool} {j : ℕ} {call : AfdCall} (h : Shows calls n span kind entering j call) :
    Shows calls (n+1) span kind entering j call :=
  ⟨h.within.succ,h.event,h.key,h.kind,h.entering⟩

theorem Shows.closing {kind : ℤ} {entering : Bool} {j : ℕ} {call : AfdCall} (h : Shows calls n span kind entering j call) :
    Shows calls (n+1) { span with closed := some n } kind entering j call :=
  ⟨h.within.closing,h.event,h.key,h.kind,h.entering⟩

theorem Evidence.succ (h : Evidence calls n item) : Evidence calls (n+1) item where
  created := h.created
  known := h.known.trans (Nat.lt_succ_self n)
  creation hsucceeded := by
    obtain ⟨j,call,hshows,hsuccessful⟩ := h.creation hsucceeded
    exact ⟨j,call,hshows.succ,hsuccessful⟩
  requested a ha := by
    obtain ⟨j,call,hshows,haddress⟩ := h.requested a ha
    exact ⟨j,call,hshows.succ,haddress⟩
  bound := by
    refine h.bound.imp_right ?_
    rintro ⟨a,j,call,hshows,hrest⟩
    exact ⟨a,j,call,hshows.succ,hrest⟩
  outbound sent hsent := by
    obtain ⟨key,call,hevidence⟩ := h.outbound sent hsent
    exact ⟨key,call,hevidence.map rfl rfl fun _ hj => hj.succ⟩
  closeRequested j hj := by
    obtain ⟨call,hshows⟩ := h.closeRequested j hj
    exact ⟨call,hshows.succ⟩
  closed := by
    refine h.closed.imp_right ?_
    rintro ⟨j,call,hshows,hrest⟩
    exact ⟨j,call,hshows.succ,hrest⟩

theorem Evidence.closing (h : Evidence calls n item) {call : AfdCall}
    (hshows : Shows calls (n+1) { item.span with closed := some n } 1001 false n call) (hsuccessful : call.successful = true) :
    Evidence calls (n+1) { item with closed := some n, closeTime := some call.time } where
  created := h.created
  known := h.known.trans (Nat.lt_succ_self n)
  creation hsucceeded := by
    obtain ⟨j,call',hshows',hsuccessful'⟩ := h.creation hsucceeded
    exact ⟨j,call',hshows'.closing,hsuccessful'⟩
  requested a ha := by
    obtain ⟨j,call',hshows',haddress⟩ := h.requested a ha
    exact ⟨j,call',hshows'.closing,haddress⟩
  bound := by
    refine h.bound.imp_right ?_
    rintro ⟨a,j,call',hshows',hrest⟩
    exact ⟨a,j,call',hshows'.closing,hrest⟩
  outbound sent hsent := by
    obtain ⟨key,call',hevidence⟩ := h.outbound sent hsent
    refine ⟨key,call',?_⟩
    refine SentEvidence.map ?_ ?_ (fun _ hj => hj.closing) hevidence
    · rfl
    · rfl
  closeRequested j hj := by
    obtain ⟨call',hshows'⟩ := h.closeRequested j hj
    exact ⟨call',hshows'.closing⟩
  closed := .inr ⟨n,call,hshows,hsuccessful,rfl,rfl⟩

/-- What the table of pending sends says about the calls of a lifetime with one key. -/
def PendingOk (calls : ℕ → Option AfdCall) (n i : ℕ) (item : Lifetime) (key : CallKey) : Option (Option (ℕ × ℕ)) → Prop
  | none => Alternate calls key item.created n ∧ Answered calls key item.created n
  | some none => True
  | some (some (owner,position)) => owner = i ∧ ∃ sent, item.outbound[position]? = some sent ∧ sent.completed = none ∧
      Enters calls key sent.event ∧ item.created < sent.event ∧ sent.event < n ∧ Silent calls key sent.event n ∧
      Alternate calls key item.created (sent.event+1)

theorem Alternate.succ {start : ℕ} (h : Alternate calls key start n) (hn : ¬Enters calls key n) :
    Alternate calls key start (n+1) := by
  intro e e' hstart hlt hbound he he'
  obtain hlater | rfl := Nat.lt_succ_iff_lt_or_eq.mp hbound
  · exact h e e' hstart hlt hlater he he'
  · exact absurd he' hn

theorem Alternate.enter {start : ℕ} (h : Alternate calls key start n) (hanswered : Answered calls key start n) :
    Alternate calls key start (n+1) := by
  intro e e' hstart hlt hbound he he'
  obtain hlater | rfl := Nat.lt_succ_iff_lt_or_eq.mp hbound
  · exact h e e' hstart hlt hlater he he'
  · exact hanswered e hstart hlt he

theorem Answered.succ {start : ℕ} (h : Answered calls key start n) (hn : ¬Enters calls key n) :
    Answered calls key start (n+1) := by
  intro e hstart hbound he
  obtain hlater | rfl := Nat.lt_succ_iff_lt_or_eq.mp hbound
  · obtain ⟨x,hx,hxn,hexit⟩ := h e hstart hlater he
    exact ⟨x,hx,hxn.trans (Nat.lt_succ_self n),hexit⟩
  · exact absurd he hn

theorem Silent.succ {first : ℕ} (h : Silent calls key first n) (henter : ¬Enters calls key n) (hexit : ¬Exits calls key n) :
    Silent calls key first (n+1) := by
  intro x hfirst hbound
  obtain hlater | rfl := Nat.lt_succ_iff_lt_or_eq.mp hbound
  · exact h x hfirst hlater
  · exact ⟨henter,hexit⟩

/-- Events that are no calls with the key, and changes of the lifetime that keep what is pending. -/
theorem PendingOk.succ {i : ℕ} {item' : Lifetime} {pending : Option (Option (ℕ × ℕ))} (h : PendingOk calls n i item key pending)
    (henter : ¬Enters calls key n) (hexit : ¬Exits calls key n) (hcreated : item'.created = item.created)
    (hsame : ∀ owner position sent, pending = some (some (owner,position)) → item.outbound[position]? = some sent →
      item'.outbound[position]? = some sent) :
    PendingOk calls (n+1) i item' key pending := by
  match pending with
  | none =>
    rw [PendingOk,hcreated]
    exact ⟨h.1.succ henter,h.2.succ henter⟩
  | some none => trivial
  | some (some (owner,position)) =>
    obtain ⟨rfl,sent,hsent,hopen,henters,hcreatedSent,hbefore,hsilent,halternate⟩ := h
    refine ⟨rfl,sent,hsame owner position sent rfl hsent,hopen,henters,?_,hbefore.trans (Nat.lt_succ_self n),
      hsilent.succ henter hexit,?_⟩
    · rw [hcreated]
      exact hcreatedSent
    · rw [hcreated]
      exact halternate

/-- What an open lifetime knows of its closes: a request was kept, and none succeeded after one. -/
structure ClosingOk (calls : ℕ → Option AfdCall) (n : ℕ) (item : Lifetime) : Prop where
  requested : ∀ y, item.created < y → y < n → Closes calls true item.key y → item.closeRequested.isSome = true
  unclosed : ∀ y x, item.created < y → y < x → x < n → Closes calls true item.key y → ¬Closes calls false item.key x

theorem ClosingOk.succ {item' : Lifetime} (h : ClosingOk calls n item) (hno : ∀ entering, ¬Closes calls entering item.key n)
    (hkey : item'.key = item.key) (hcreated : item'.created = item.created)
    (hrequested : item'.closeRequested = item.closeRequested) : ClosingOk calls (n+1) item' := by
  constructor
  · rw [hkey,hcreated,hrequested]
    intro y hafter hbound hy
    obtain hbefore | rfl := Nat.lt_succ_iff_lt_or_eq.mp hbound
    · exact h.requested y hafter hbefore hy
    · exact absurd hy (hno true)
  · rw [hkey,hcreated]
    intro y x hafter hlt hbound hy
    obtain hbefore | rfl := Nat.lt_succ_iff_lt_or_eq.mp hbound
    · exact h.unclosed y x hafter hlt hbefore hy
    · exact hno false

theorem ClosingOk.request (h : ClosingOk calls n item) (hno : ¬Closes calls false item.key n) :
    ClosingOk calls (n+1) { item with closeRequested := some n } where
  requested := fun _ _ _ _ => rfl
  unclosed := by
    intro y x hafter hlt hbound hy
    obtain hbefore | rfl := Nat.lt_succ_iff_lt_or_eq.mp hbound
    · exact h.unclosed y x hafter hlt hbefore hy
    · exact hno

theorem ClosingOk.unasked (h : ClosingOk calls n item) (hno : ¬Closes calls true item.key n)
    (hunasked : Closes calls false item.key n → item.closeRequested.isSome = false) : ClosingOk calls (n+1) item where
  requested := by
    intro y hafter hbound hy
    obtain hbefore | rfl := Nat.lt_succ_iff_lt_or_eq.mp hbound
    · exact h.requested y hafter hbefore hy
    · exact absurd hy hno
  unclosed := by
    intro y x hafter hlt hbound hy hx
    obtain hbefore | rfl := Nat.lt_succ_iff_lt_or_eq.mp hbound
    · exact h.unclosed y x hafter hlt hbefore hy hx
    · have hasked := h.requested y hafter hlt hy
      rw [hunasked hx] at hasked
      cases hasked

theorem Closes.socket {entering : Bool} {call : AfdCall} {socket : SocketKey} (hcall : calls n = some call)
    (h : Closes calls entering socket n) : call.key = socket ∧ call.kind = 1001 ∧ call.entering = entering ∧
      (entering = false → call.successful = true) := by
  obtain ⟨call',hcall',hkind,hkey,hentering,hsuccessful⟩ := h
  rw [hcall] at hcall'
  cases hcall'
  exact ⟨hkey,hkind,hentering,hsuccessful⟩

structure Inv (calls : ℕ → Option AfdCall) (n : ℕ) (scan : Scan) : Prop where
  created : scan.lifetimes.map Lifetime.created = (List.range n).filter (createsUdp calls)
  evidence : ∀ item ∈ scan.lifetimes, Evidence calls n item
  active : ∀ socket i, scan.active.get? socket = some i → ∃ item, scan.lifetimes[i]? = some item ∧ item.key = socket ∧
    ∀ m, m < n → Creates calls socket m → m ≤ item.created
  pending : ∀ socket i item, scan.active.get? socket = some i → scan.lifetimes[i]? = some item → item.closed = none →
    ∀ key : CallKey, key.key = socket → PendingOk calls n i item key (scan.pending.get? key)
  closing : ∀ socket i item, scan.active.get? socket = some i → scan.lifetimes[i]? = some item → item.closed = none →
    ClosingOk calls n item

theorem start_inv (calls : ℕ → Option AfdCall) : Inv calls 0 .start where
  created := rfl
  evidence := fun _ h => (nomatch h)
  active := fun _ _ h => (nomatch h)
  pending := fun _ _ _ h => (nomatch h)
  closing := fun _ _ _ h => (nomatch h)

theorem callKey_key {call : AfdCall} (h : call.callKey = .ok key) : key.key = call.key := by
  obtain ⟨address,-,hkey⟩ := ok_of_bind h
  cases hkey
  rfl

theorem Sends.socket {entering : Bool} {call : AfdCall} (hcall : calls n = some call) (h : Sends calls entering key n) :
    key.key = call.key := by
  obtain ⟨call',hcall',-,-,hkey⟩ := h
  obtain rfl : call' = call := Option.some.inj (hcall'.symm.trans hcall)
  exact callKey_key hkey

theorem map_set_same {α β : Type} {f : α → β} {l : List α} {i : ℕ} {a b : α} (h : l[i]? = some a) (hf : f b = f a) :
    (l.set i b).map f = l.map f := by
  induction l generalizing i with
  | nil => rfl
  | cons c rest ih =>
    cases i with
    | zero =>
      cases h
      rw [List.set_cons_zero,List.map_cons,List.map_cons,hf]
    | succ i =>
      rw [List.set_cons_succ,List.map_cons,List.map_cons,ih h]

/-- An event that starts no lifetime, and a lifetime that it may change. -/
theorem Inv.update {scan : Scan} {call : AfdCall} {i : ℕ} {item item' : Lifetime} {pending : Dict CallKey (Option (ℕ × ℕ))}
    (h : Inv calls n scan) (hcall : calls n = some call) (hcreation : call.isCreation = false)
    (hactive : scan.active.get? call.key = some i) (hitem : scan.lifetimes[i]? = some item)
    (hkey : item'.key = item.key) (hcreated : item'.created = item.created) (hevidence : Evidence calls (n+1) item')
    (hothers : ∀ key : CallKey, key.key ≠ call.key → pending.get? key = scan.pending.get? key)
    (hpending : item'.closed = none → ∀ key : CallKey, key.key = call.key → PendingOk calls (n+1) i item' key (pending.get? key))
    (hclosing : item'.closed = none → ClosingOk calls (n+1) item') :
    Inv calls (n+1) { scan with lifetimes := scan.lifetimes.set i item', pending := pending } := by
  have hlength : i < scan.lifetimes.length := (List.getElem?_eq_some_iff.mp hitem).1
  have hno : ∀ socket, ¬Creates calls socket n := by
    rintro socket ⟨call',hcall',hcreation',-⟩
    rw [hcall] at hcall'
    cases hcall'
    rw [hcreation] at hcreation'
    cases hcreation'
  have hown : item.key = call.key := by
    obtain ⟨item₁,hitem₁,hkey₁,-⟩ := h.active call.key i hactive
    rw [hitem] at hitem₁
    cases hitem₁
    exact hkey₁
  have hother : ∀ socket j, scan.active.get? socket = some j → socket ≠ call.key → j ≠ i := by
    rintro socket j hj hsocket rfl
    obtain ⟨item₁,hitem₁,hkey₁,-⟩ := h.active socket j hj
    rw [hitem] at hitem₁
    cases hitem₁
    exact hsocket (hkey₁.symm.trans hown)
  constructor
  · have hmap : (scan.lifetimes.set i item').map Lifetime.created = scan.lifetimes.map Lifetime.created :=
      map_set_same hitem hcreated
    have hudp : createsUdp calls n = false := by simp [createsUdp,hcall,hcreation]
    rw [hmap,h.created,List.range_succ,List.filter_append]
    simp [hudp]
  · intro other hmem
    obtain hmem | rfl := List.mem_or_eq_of_mem_set hmem
    · exact (h.evidence other hmem).succ
    · exact hevidence
  · intro socket j hj
    obtain ⟨item₁,hitem₁,hkey₁,hlast⟩ := h.active socket j hj
    have hlater : ∀ m, m < n+1 → Creates calls socket m → m ≤ item₁.created := by
      intro m hm hcreates
      obtain hbefore | rfl := Nat.lt_succ_iff_lt_or_eq.mp hm
      · exact hlast m hbefore hcreates
      · exact absurd hcreates (hno socket)
    by_cases hij : j = i
    · subst hij
      rw [hitem] at hitem₁
      cases hitem₁
      refine ⟨item',by simp [hlength],hkey.trans hkey₁,?_⟩
      rw [hcreated]
      exact hlater
    · refine ⟨item₁,?_,hkey₁,hlater⟩
      rw [List.getElem?_set_ne (Ne.symm hij)]
      exact hitem₁
  · intro socket j item₁ hj hitem₁ hopen key hsocket
    by_cases hsame : socket = call.key
    · subst hsame
      rw [hactive] at hj
      cases hj
      rw [List.getElem?_set_self hlength] at hitem₁
      cases hitem₁
      exact hpending hopen key hsocket
    · rw [List.getElem?_set_ne (hother socket j hj hsame).symm] at hitem₁
      rw [hothers key (hsocket ▸ hsame)]
      have hquiet : ∀ entering, ¬Sends calls entering key n := fun entering hsends =>
        hsame (hsocket.symm.trans (Sends.socket hcall hsends))
      exact (h.pending socket j item₁ hj hitem₁ hopen key hsocket).succ (hquiet true) (hquiet false) rfl
        fun _ _ _ _ hsent => hsent
  · intro socket j item₁ hj hitem₁ hopen
    by_cases hsame : socket = call.key
    · subst hsame
      rw [hactive] at hj
      cases hj
      rw [List.getElem?_set_self hlength] at hitem₁
      cases hitem₁
      exact hclosing hopen
    · rw [List.getElem?_set_ne (hother socket j hj hsame).symm] at hitem₁
      obtain ⟨item₂,hitem₂,hkey₂,-⟩ := h.active socket j hj
      rw [hitem₁] at hitem₂
      cases hitem₂
      refine (h.closing socket j item₁ hj hitem₁ hopen).succ (fun entering hcloses => hsame ?_) rfl rfl rfl
      exact hkey₂.symm.trans (Closes.socket hcall hcloses).1.symm

theorem Inv.skip {scan : Scan} (h : Inv calls n scan) (hno : ∀ socket, ¬Creates calls socket n)
    (hquiet : ∀ socket i item, scan.active.get? socket = some i → scan.lifetimes[i]? = some item → item.closed = none →
      ∀ call, calls n = some call → call.key ≠ socket) : Inv calls (n+1) scan where
  created := by
    have hudp : createsUdp calls n = false := by
      rw [createsUdp]
      cases hcall : calls n with
      | none => rfl
      | some call =>
        have hcreation : call.isCreation = false := by
          by_contra hyes
          exact hno call.key ⟨call,hcall,by simpa using hyes,rfl⟩
        simp [hcreation]
    rw [h.created,List.range_succ,List.filter_append]
    simp [hudp]
  evidence := fun item hitem => (h.evidence item hitem).succ
  active := by
    intro socket i hi
    obtain ⟨item,hitem,hkey,hlast⟩ := h.active socket i hi
    refine ⟨item,hitem,hkey,fun m hm hcreates => ?_⟩
    obtain hbefore | rfl := Nat.lt_succ_iff_lt_or_eq.mp hm
    · exact hlast m hbefore hcreates
    · exact absurd hcreates (hno socket)
  pending := by
    intro socket i item hi hitem hopen key hkey
    have hsends : ∀ entering, ¬Sends calls entering key n := by
      rintro entering ⟨call,hcall,hrest⟩
      exact hquiet socket i item hi hitem hopen call hcall ((Sends.socket hcall ⟨call,hcall,hrest⟩).symm.trans hkey)
    exact (h.pending socket i item hi hitem hopen key hkey).succ (hsends true) (hsends false) rfl fun _ _ _ _ hsent => hsent
  closing := by
    intro socket i item hi hitem hopen
    obtain ⟨item',hitem',hkey,-⟩ := h.active socket i hi
    rw [hitem] at hitem'
    cases hitem'
    refine (h.closing socket i item hi hitem hopen).succ (fun entering hcloses => ?_) rfl rfl rfl
    obtain ⟨call,hcall,hrest⟩ := hcloses
    exact hquiet socket i item hi hitem hopen call hcall (hrest.2.1.trans hkey)

theorem supersede_fields (item : Lifetime) : (supersede item).span = item.span ∧ (supersede item).created = item.created ∧
    (supersede item).outbound = item.outbound := by
  rw [supersede]
  split <;> exact ⟨rfl,rfl,rfl⟩

theorem Evidence.supersede (h : Evidence calls n item) : Evidence calls n (Afd.supersede item) := by
  rw [Afd.supersede]
  split
  · exact ⟨h.created,h.known,h.creation,h.requested,h.bound,h.outbound,h.closeRequested,h.closed⟩
  · exact h

/-- The tables after a creation under the pointers, before a new lifetime is filed. -/
structure Retired (calls : ℕ → Option AfdCall) (n : ℕ) (socket : SocketKey) (before after : Scan) : Prop where
  created : after.lifetimes.map Lifetime.created = before.lifetimes.map Lifetime.created
  evidence : ∀ item ∈ after.lifetimes, Evidence calls (n+1) item
  active : ∀ other i, after.active.get? other = some i → other ≠ socket ∧ ∃ item, after.lifetimes[i]? = some item ∧
    item.key = other ∧ ∀ m, m < n+1 → Creates calls other m → m ≤ item.created
  pending : ∀ other i item, after.active.get? other = some i → after.lifetimes[i]? = some item → item.closed = none →
    ∀ key : CallKey, key.key = other → PendingOk calls (n+1) i item key (after.pending.get? key)
  closing : ∀ other i item, after.active.get? other = some i → after.lifetimes[i]? = some item → item.closed = none →
    ClosingOk calls (n+1) item
  cleared : ∀ key : CallKey, key.key = socket → after.pending.get? key = none

theorem retire_retired {scan : Scan} {call : AfdCall} (h : Inv calls n scan) (hcall : calls n = some call)
    (hcreation : call.isCreation = true) : Retired calls n call.key scan (retire call.key scan) := by
  have hno : ∀ entering key, ¬Sends calls entering key n := by
    rintro entering key ⟨call',hcall',hkind,-⟩
    obtain rfl : call' = call := Option.some.inj (hcall'.symm.trans hcall)
    have hcreationKind : call'.kind = 1000 := by
      rw [AfdCall.isCreation,Bool.and_eq_true] at hcreation
      exact of_decide_eq_true hcreation.1
    rw [hcreationKind] at hkind
    omega
  have hnoClose : ∀ entering socket, ¬Closes calls entering socket n := by
    intro entering socket hcloses
    have hkind := (Closes.socket hcall hcloses).2.1
    rw [AfdCall.isCreation,hkind] at hcreation
    cases hcreation
  have hactive : ∀ other i, (retire call.key scan).active.get? other = some i →
      other ≠ call.key ∧ scan.active.get? other = some i := by
    intro other i hi
    exact (Dict.get?_pop_eq_some _ _ _ _).mp hi
  -- only the lifetime that had the pointers is marked
  have hlifetimes : ∀ other i, scan.active.get? other = some i → other ≠ call.key →
      (retire call.key scan).lifetimes[i]? = scan.lifetimes[i]? := by
    intro other i hi hother
    rw [retire]
    cases hprevious : scan.active.get? call.key with
    | none => rfl
    | some k =>
      have hne : k ≠ i := by
        rintro rfl
        obtain ⟨item,hitem,hkey,-⟩ := h.active other k hi
        obtain ⟨item',hitem',hkey',-⟩ := h.active call.key k hprevious
        rw [hitem] at hitem'
        cases hitem'
        exact hother (hkey.symm.trans hkey')
      exact List.getElem?_modify_ne _ _ hne
  constructor
  · rw [retire]
    cases scan.active.get? call.key with
    | none => rfl
    | some k =>
      refine List.ext_getElem? fun j => ?_
      rw [List.getElem?_map,List.getElem?_map,List.getElem?_modify]
      cases scan.lifetimes[j]? with
      | none => rfl
      | some item =>
        by_cases hj : k = j
        · simp [hj,(supersede_fields item).2.1]
        · simp [hj]
  · intro item hitem
    refine Evidence.succ ?_
    rw [retire] at hitem
    dsimp only at hitem
    cases hprevious : scan.active.get? call.key with
    | none =>
      rw [hprevious] at hitem
      exact h.evidence item hitem
    | some k =>
      rw [hprevious] at hitem
      obtain ⟨j,hj⟩ := List.mem_iff_getElem?.mp hitem
      rw [List.getElem?_modify] at hj
      obtain ⟨item',hitem',hmap⟩ := Option.map_eq_some_iff.mp hj
      have hevidence := h.evidence item' (List.mem_of_getElem? hitem')
      split at hmap
      · rw [← hmap]
        exact hevidence.supersede
      · rw [← hmap]
        exact hevidence
  · intro other i hi
    obtain ⟨hother,hbefore⟩ := hactive other i hi
    obtain ⟨item,hitem,hkey,hlast⟩ := h.active other i hbefore
    refine ⟨hother,item,(hlifetimes other i hbefore hother).trans hitem,hkey,fun m hm hcreates => ?_⟩
    obtain hm | rfl := Nat.lt_succ_iff_lt_or_eq.mp hm
    · exact hlast m hm hcreates
    · obtain ⟨call',hcall',-,hkey'⟩ := hcreates
      rw [hcall] at hcall'
      cases hcall'
      exact absurd hkey'.symm hother
  · intro other i item hi hitem hopen key hkey
    obtain ⟨hother,hbefore⟩ := hactive other i hi
    rw [hlifetimes other i hbefore hother] at hitem
    have hkept : (retire call.key scan).pending.get? key = scan.pending.get? key := by
      rw [retire,Dict.get?_filter]
      rw [hkey]
      cases scan.pending.get? key <;> simp [Option.filter,hother]
    rw [hkept]
    exact (h.pending other i item hbefore hitem hopen key hkey).succ (hno true key) (hno false key) rfl
      fun _ _ _ _ hsent => hsent
  · intro other i item hi hitem hopen
    obtain ⟨hother,hbefore⟩ := hactive other i hi
    rw [hlifetimes other i hbefore hother] at hitem
    exact (h.closing other i item hbefore hitem hopen).succ (fun entering => hnoClose entering item.key) rfl rfl rfl
  · intro key hkey
    rw [retire,Dict.get?_filter]
    cases scan.pending.get? key <;> simp [Option.filter,hkey]

theorem Retired.inv {scan after : Scan} {call : AfdCall} (h : Inv calls n scan) (hretired : Retired calls n call.key scan after)
    (hudp : createsUdp calls n = false) : Inv calls (n+1) after where
  created := by
    rw [hretired.created,h.created,List.range_succ,List.filter_append]
    simp [hudp]
  evidence := hretired.evidence
  active := fun other i hi => (hretired.active other i hi).2
  pending := hretired.pending
  closing := hretired.closing

theorem create_inv {scan scan' : Scan} {call : AfdCall} (h : Inv calls n scan) (hcall : calls n = some call)
    (hcreation : call.isCreation = true) (hcreate : create n call scan = .ok scan') : Inv calls (n+1) scan' := by
  have hretired := retire_retired h hcall hcreation
  obtain ⟨udp,hudp,hrest⟩ := ok_of_bind hcreate
  cases udp with
  | false =>
    cases hrest
    exact hretired.inv h (by simp [createsUdp,hcall,hcreation,hudp,Except.toOption])
  | true =>
    obtain ⟨processId,hprocess,hrest⟩ := ok_of_bind hrest
    obtain ⟨pid,hpid,hrest⟩ := ok_of_bind hrest
    cases hrest
    have hcreates : createsUdp calls n = true := by simp [createsUdp,hcall,hcreation,hudp,Except.toOption]
    generalize retire call.key scan = after at hretired
    constructor
    · show (after.lifetimes++[newLifetime n call pid]).map Lifetime.created = _
      rw [List.map_append,hretired.created,h.created,List.range_succ,List.filter_append]
      simp [hcreates,newLifetime]
    · intro item hitem
      obtain hold | hnew := List.mem_append.mp hitem
      · exact hretired.evidence item hold
      · rw [List.mem_singleton.mp hnew]
        refine ⟨⟨call,hcall,hcreation,rfl,hudp,rfl,?_⟩,Nat.lt_succ_self n,?_,?_,.inl ⟨rfl,rfl,rfl⟩,?_,?_,.inl ⟨rfl,rfl⟩⟩
        · rw [hprocess]
          exact hpid
        · intro hsucceeded
          cases hsucceeded
        · intro a ha
          cases ha
        · intro sent hsent
          cases hsent
        · intro j hj
          cases hj
    · intro other i hi
      obtain ⟨rfl,rfl⟩ | ⟨hother,hi⟩ := (Dict.get?_set_eq_some _ _ _ _ _).mp hi
      · exact ⟨newLifetime n call pid,by simp,rfl,fun m hm _ => Nat.le_of_lt_succ hm⟩
      · obtain ⟨-,item,hitem,hkey,hlast⟩ := hretired.active other i hi
        exact ⟨item,by rw [List.getElem?_append_left (List.getElem?_eq_some_iff.mp hitem).1,hitem],hkey,hlast⟩
    · intro other i item hi hitem hopen key hkey
      obtain ⟨rfl,rfl⟩ | ⟨hother,hi⟩ := (Dict.get?_set_eq_some _ _ _ _ _).mp hi
      · have hnew : item = newLifetime n call pid := by simpa using hitem.symm
        rw [hnew]
        show PendingOk calls (n+1) _ _ key (after.pending.get? key)
        rw [hretired.cleared key hkey]
        refine ⟨fun e e' hstart hlt hbound _ _ => ?_,fun e hstart hbound _ => ?_⟩
        · exact absurd (hstart.trans hlt) (by simp only [newLifetime]; omega)
        · exact absurd hstart (by simp only [newLifetime]; omega)
      · obtain ⟨-,item',hitem',-,-⟩ := hretired.active other i hi
        rw [List.getElem?_append_left (List.getElem?_eq_some_iff.mp hitem').1] at hitem
        exact hretired.pending other i item hi hitem hopen key hkey
    · intro other i item hi hitem hopen
      obtain ⟨rfl,rfl⟩ | ⟨hother,hi⟩ := (Dict.get?_set_eq_some _ _ _ _ _).mp hi
      · have hnew : item = newLifetime n call pid := by simpa using hitem.symm
        rw [hnew]
        refine ⟨fun y hafter hbound _ => ?_,fun y x hafter hlt hbound _ => ?_⟩
        · exact absurd hafter (by simp only [newLifetime]; omega)
        · exact absurd (hafter.trans hlt) (by simp only [newLifetime]; omega)
      · obtain ⟨-,item',hitem',-,-⟩ := hretired.active other i hi
        rw [List.getElem?_append_left (List.getElem?_eq_some_iff.mp hitem').1] at hitem
        exact hretired.closing other i item hi hitem hopen

/-- The event at hand, of an open lifetime that has its pointers. -/
structure Turn (calls : ℕ → Option AfdCall) (n : ℕ) (scan : Scan) (call : AfdCall) (i : ℕ) (item : Lifetime) : Prop where
  inv : Inv calls n scan
  event : calls n = some call
  creation : call.isCreation = false
  active : scan.active.get? call.key = some i
  filed : scan.lifetimes[i]? = some item
  opened : item.closed = none

variable {scan : Scan} {call : AfdCall} {i : ℕ}

theorem Turn.own (h : Turn calls n scan call i item) : call.key = item.key ∧
    ∀ m, m < n → Creates calls call.key m → m ≤ item.created := by
  obtain ⟨item',hitem',hkey,hlast⟩ := h.inv.active call.key i h.active
  rw [h.filed] at hitem'
  cases hitem'
  exact ⟨hkey.symm,hlast⟩

theorem Turn.evidence (h : Turn calls n scan call i item) : Evidence calls n item :=
  h.inv.evidence item (List.mem_of_getElem? h.filed)

theorem Turn.closing (h : Turn calls n scan call i item) : ClosingOk calls n item :=
  h.inv.closing call.key i item h.active h.filed h.opened

theorem Turn.closing_succ (h : Turn calls n scan call i item) (hkind : call.kind ≠ 1001) {item' : Lifetime}
    (hkey : item'.key = item.key) (hcreated : item'.created = item.created)
    (hrequested : item'.closeRequested = item.closeRequested) : ClosingOk calls (n+1) item' :=
  h.closing.succ (fun _ hcloses => hkind (Closes.socket h.event hcloses).2.1) hkey hcreated hrequested

theorem Turn.within (h : Turn calls n scan call i item) : Within calls (n+1) item.span n where
  after := h.evidence.known
  before := Nat.lt_succ_self n
  close := by
    intro c hc
    have hnone : none = some c := h.opened.symm.trans hc
    cases hnone
  unclosed := h.closing.unclosed
  generation := by
    intro m hcreates hm
    by_contra hle
    have hcreates : Creates calls call.key m := h.own.1 ▸ hcreates
    obtain hbefore | rfl := Nat.lt_or_eq_of_le (not_lt.mp hle)
    · exact absurd (h.own.2 m hbefore hcreates) (not_le.mpr hm)
    · obtain ⟨call',hcall',hcreation,-⟩ := hcreates
      rw [h.event] at hcall'
      cases hcall'
      rw [h.creation] at hcreation
      cases hcreation

theorem Turn.shows (h : Turn calls n scan call i item) : Shows calls (n+1) item.span call.kind call.entering n call :=
  ⟨h.within,h.event,h.own.1,rfl,rfl⟩

/-- An event that is no send changes nothing in what is pending. -/
theorem Turn.set (h : Turn calls n scan call i item) (hkind : call.kind ≠ 1007 ∧ call.kind ≠ 1013) {item' : Lifetime}
    (hkey : item'.key = item.key) (hcreated : item'.created = item.created) (houtbound : item'.outbound = item.outbound)
    (hevidence : Evidence calls (n+1) item') (hclosing : item'.closed = none → ClosingOk calls (n+1) item') :
    Inv calls (n+1) { scan with lifetimes := scan.lifetimes.set i item' } := by
  have hquiet : ∀ entering key, ¬Sends calls entering key n := by
    rintro entering key ⟨call',hcall',hsend,-⟩
    rw [h.event] at hcall'
    cases hcall'
    exact hsend.elim hkind.1 hkind.2
  refine h.inv.update h.event h.creation h.active h.filed hkey hcreated hevidence (fun _ _ => rfl) (fun _ key hown => ?_) hclosing
  refine (h.inv.pending call.key i item h.active h.filed h.opened key hown).succ (hquiet true key) (hquiet false key)
    hcreated fun _ _ _ _ hsent => ?_
  rw [houtbound]
  exact hsent

theorem Turn.bind (h : Turn calls n scan call i item) (hkind : call.kind = 1030) {item' : Lifetime}
    (hbind : bind n call item = .ok item') : Inv calls (n+1) { scan with lifetimes := scan.lifetimes.set i item' } := by
  have hsend : call.kind ≠ 1007 ∧ call.kind ≠ 1013 := by rw [hkind]; decide
  have hclose : call.kind ≠ 1001 := by rw [hkind]; decide
  have hshows := h.shows
  rw [hkind] at hshows
  obtain ⟨field,hfield,hrest⟩ := ok_of_bind hbind
  obtain ⟨address,haddress,hrest⟩ := ok_of_bind hrest
  have hfound : (getField call.data "Address").bind socketAddress = .ok address := by
    rw [hfield]
    exact haddress
  cases hentering : call.entering with
  | true =>
    rw [hentering] at hshows
    simp only [hentering,if_true] at hrest
    cases hrest
    refine h.set hsend rfl rfl rfl { h.evidence.succ with requested := fun a ha => ?_ }
      fun _ => h.closing_succ hclose rfl rfl rfl
    cases ha
    exact ⟨n,call,hshows,hfound⟩
  | false =>
    rw [hentering] at hshows
    simp only [hentering,Bool.false_eq_true,if_false] at hrest
    by_cases hbound : (call.successful && item.requestedBind.isSome) = true
    · rw [if_pos hbound] at hrest
      cases hrest
      rw [Bool.and_eq_true] at hbound
      refine h.set hsend rfl rfl rfl { h.evidence.succ with bound := ?_ }
        fun _ => h.closing_succ hclose rfl rfl rfl
      exact .inr ⟨address,n,call,hshows,hbound.1,rfl,rfl,rfl,hfound⟩
    · rw [if_neg hbound] at hrest
      cases hrest
      exact h.set hsend rfl rfl rfl h.evidence.succ fun _ => h.closing_succ hclose rfl rfl rfl

theorem Turn.close (h : Turn calls n scan call i item) (hkind : call.kind = 1001) :
    Inv calls (n+1) { scan with lifetimes := scan.lifetimes.set i (close n call item) } := by
  have hsend : call.kind ≠ 1007 ∧ call.kind ≠ 1013 := by rw [hkind]; decide
  have hshows := h.shows
  rw [hkind] at hshows
  rw [Afd.close]
  cases hentering : call.entering with
  | true =>
    rw [hentering] at hshows
    rw [if_pos rfl]
    refine h.set hsend rfl rfl rfl { h.evidence.succ with closeRequested := fun j hj => ?_ }
      fun _ => h.closing.request fun hcloses => ?_
    · cases hj
      exact ⟨call,hshows⟩
    · have hexit := (Closes.socket h.event hcloses).2.2.1
      rw [hentering] at hexit
      cases hexit
  | false =>
    rw [hentering] at hshows
    rw [if_neg (by simp)]
    by_cases hclosed : (call.successful && item.closeRequested.isSome) = true
    · rw [if_pos hclosed]
      rw [Bool.and_eq_true] at hclosed
      have hlast : Shows calls (n+1) { item.span with closed := some n } 1001 false n call := by
        refine ⟨⟨hshows.within.after,hshows.within.before,fun c hc => ?_,hshows.within.unclosed,
          hshows.within.generation⟩,hshows.event,
          hshows.key,hshows.kind,hshows.entering⟩
        cases hc
        exact le_rfl
      exact h.set hsend rfl rfl rfl (h.evidence.closing hlast hclosed.1) fun hopen => (nomatch hopen)
    · rw [if_neg hclosed]
      refine h.set hsend rfl rfl rfl h.evidence.succ fun _ => h.closing.unasked (fun hcloses => ?_) fun hcloses => ?_
      · have hexit := (Closes.socket h.event hcloses).2.2.1
        rw [hentering] at hexit
        cases hexit
      · have hsuccessful := (Closes.socket h.event hcloses).2.2.2 rfl
        simpa [hsuccessful] using hclosed

theorem Turn.creation_exit (h : Turn calls n scan call i item) (hkind : call.kind = 1000) :
    Inv calls (n+1) { scan with lifetimes := scan.lifetimes.set i { item with creationSucceeded := call.successful } } := by
  have hsend : call.kind ≠ 1007 ∧ call.kind ≠ 1013 := by rw [hkind]; decide
  have hentering : call.entering = false := by
    have hcreation := h.creation
    rw [AfdCall.isCreation,hkind] at hcreation
    simpa using hcreation
  have hshows := h.shows
  have hclose : call.kind ≠ 1001 := by rw [hkind]; decide
  rw [hkind,hentering] at hshows
  refine h.set hsend rfl rfl rfl { h.evidence.succ with creation := fun hsucceeded => ?_ }
    fun _ => h.closing_succ hclose rfl rfl rfl
  exact ⟨n,call,hshows,hsucceeded⟩

theorem sends_now (hcall : calls n = some call) (hkind : call.kind = 1007 ∨ call.kind = 1013) {key : CallKey}
    (hkey : call.callKey = .ok key) : Sends calls call.entering key n :=
  ⟨call,hcall,hkind,rfl,hkey⟩

theorem set_same {α : Type} {l : List α} {i : ℕ} {a : α} (h : l[i]? = some a) : l.set i a = l := by
  simpa using map_set_same (f:=id) h rfl

/-- The other keys of the lifetime keep what they have pending. -/
theorem Turn.pending_other (h : Turn calls n scan call i item) {key other : CallKey} (hnow : Sends calls call.entering key n)
    (hown : other.key = call.key) (hother : other ≠ key) {item' : Lifetime} (hcreated : item'.created = item.created)
    (hsame : ∀ (position : ℕ) (sent : Sent), item.outbound[position]? = some sent → Enters calls other sent.event →
      item'.outbound[position]? = some sent) : PendingOk calls (n+1) i item' other (scan.pending.get? other) := by
  have hquiet : ∀ entering, ¬Sends calls entering other n := fun entering hsends => hother (hsends.functional hnow).1
  have hpending := h.inv.pending call.key i item h.active h.filed h.opened other hown
  refine hpending.succ (hquiet true) (hquiet false) hcreated fun owner position sent hentry hsent => ?_
  rw [hentry] at hpending
  obtain ⟨-,sent',hsent',-,henters,-⟩ := hpending
  rw [hsent] at hsent'
  cases hsent'
  exact hsame position sent hsent henters

theorem Turn.enter (h : Turn calls n scan call i item) (hkind : call.kind = 1007 ∨ call.kind = 1013)
    (hentering : call.entering = true) {key : CallKey} (hkey : call.callKey = .ok key) {destination : SocketAddress}
    (hdestination : socketAddress key.address = .ok destination) :
    Inv calls (n+1) { scan with
      lifetimes := scan.lifetimes.set i { item with outbound := item.outbound++[⟨n,call.time,destination,none,none,false⟩] }
      pending := scan.pending.set key
        (if scan.pending.contains key || key.buffer.isNone then none else some (i,item.outbound.length)) } := by
  have hown : key.key = call.key := callKey_key hkey
  have hnow : Sends calls call.entering key n := sends_now h.event hkind hkey
  have henters : Enters calls key n := by rwa [hentering] at hnow
  refine h.inv.update h.event h.creation h.active h.filed rfl rfl
    { h.evidence.succ with outbound := fun sent hsent => ?_ } (fun other hother => ?_) (fun _ other hother => ?_)
    fun _ => h.closing_succ (by omega) rfl rfl rfl
  · obtain hold | hnew := List.mem_append.mp hsent
    · exact h.evidence.succ.outbound sent hold
    · rw [List.mem_singleton.mp hnew]
      exact ⟨key,call,h.within,h.event,henters,hown.trans h.own.1,rfl,hdestination,.inl ⟨rfl,rfl,rfl⟩⟩
  · refine Dict.get?_set_of_ne _ _ fun heq => hother ?_
    rw [heq,hown]
  · by_cases hsame : other = key
    · subst hsame
      rw [Dict.get?_set_self]
      split
      · trivial
      · next hclear =>
        have hnone : scan.pending.get? other = none := by
          rw [Bool.or_eq_true,not_or,Bool.not_eq_true,Dict.contains_eq_false_iff] at hclear
          exact hclear.1
        have hpending := h.inv.pending call.key i item h.active h.filed h.opened other hown
        rw [hnone] at hpending
        refine ⟨rfl,⟨n,call.time,destination,none,none,false⟩,by simp,rfl,henters,h.evidence.known,Nat.lt_succ_self n,?_,?_⟩
        · intro x hx hxn
          exact absurd hx (by simp only [not_lt]; omega)
        · exact hpending.1.enter hpending.2
    · rw [Dict.get?_set_of_ne _ _ hsame]
      refine h.pending_other hnow hother hsame rfl fun position sent hsent _ => ?_
      rw [List.getElem?_append_left (List.getElem?_eq_some_iff.mp hsent).1]
      exact hsent

theorem Turn.exit_unmatched (h : Turn calls n scan call i item) (hkind : call.kind = 1007 ∨ call.kind = 1013)
    {key : CallKey} (hnow : Exits calls key n) (hentering : call.entering = false)
    (hentry : scan.pending.get? key = none ∨ scan.pending.get? key = some none) : Inv calls (n+1) scan := by
  have hupdate : { scan with lifetimes := scan.lifetimes.set i item, pending := scan.pending } = scan := by
    rw [set_same h.filed]
  rw [← hupdate]
  refine h.inv.update h.event h.creation h.active h.filed rfl rfl h.evidence.succ (fun _ _ => rfl) (fun _ other hother => ?_)
    fun _ => h.closing_succ (by omega) rfl rfl rfl
  by_cases hsame : other = key
  · subst hsame
    have hno : ¬Enters calls other n := fun henters => Bool.noConfusion (henters.functional hnow).2
    have hpending := h.inv.pending call.key i item h.active h.filed h.opened other hother
    obtain hentry | hentry := hentry
    · rw [hentry] at hpending ⊢
      exact ⟨hpending.1.succ hno,hpending.2.succ hno⟩
    · rw [hentry]
      trivial
  · exact h.pending_other (by rwa [hentering]) hother hsame rfl fun _ _ hsent _ => hsent

/-- The entry is the last one of its call, and the exit answers it. -/
theorem answered_exit {start event : ℕ} (halternate : Alternate calls key start (event+1)) (hsilent : Silent calls key event n)
    (henter : Enters calls key event) (hafter : start < event) (hbefore : event < n) (hexit : Exits calls key n) :
    Alternate calls key start (n+1) ∧ Answered calls key start (n+1) := by
  have hearlier : ∀ e, e < n+1 → Enters calls key e → e ≤ event := by
    intro e hbound he
    by_contra hlater
    obtain hlt | rfl := Nat.lt_succ_iff_lt_or_eq.mp hbound
    · exact (hsilent e (not_le.mp hlater) hlt).1 he
    · exact Bool.noConfusion (he.functional hexit).2
  constructor
  · intro e e' hstart hlt hbound he he'
    exact halternate e e' hstart hlt (Nat.lt_succ_of_le (hearlier e' hbound he')) he he'
  · intro e hstart hbound he
    obtain hlt | rfl := Nat.lt_or_eq_of_le (hearlier e hbound he)
    · obtain ⟨x,hx,hxevent,hxexit⟩ := halternate e event hstart hlt (Nat.lt_succ_self event) he henter
      exact ⟨x,hx,by omega,hxexit⟩
    · exact ⟨n,hbefore,Nat.lt_succ_self n,hexit⟩

theorem Turn.exit_matched (h : Turn calls n scan call i item) (hkind : call.kind = 1007 ∨ call.kind = 1013)
    {key : CallKey} (hown : key.key = call.key) (hnow : Exits calls key n) (hentering : call.entering = false) {owner position : ℕ}
    (hentry : scan.pending.get? key = some (some (owner,position))) : Inv calls (n+1) { scan with
      lifetimes := scan.lifetimes.modify owner fun item =>
        { item with outbound := item.outbound.modify position (complete n call) }
      pending := scan.pending.pop key } := by
  have hpending := h.inv.pending call.key i item h.active h.filed h.opened key hown
  rw [hentry] at hpending
  obtain ⟨rfl,sent,hsent,hopen,henter,hafter,hbefore,hsilent,halternate⟩ := hpending
  have hmodify : (scan.lifetimes.modify owner fun item =>
      { item with outbound := item.outbound.modify position (complete n call) }) =
      scan.lifetimes.set owner { item with outbound := item.outbound.modify position (complete n call) } := by
    rw [List.modify_eq_set_getElem?,h.filed]
    rfl
  rw [hmodify]
  refine h.inv.update h.event h.creation h.active h.filed rfl rfl
    { h.evidence.succ with outbound := fun sent' hsent' => ?_ } (fun other hother => ?_) (fun _ other hother => ?_)
    fun _ => h.closing_succ (by omega) rfl rfl rfl
  · obtain ⟨j,hj⟩ := List.mem_iff_getElem?.mp hsent'
    rw [List.getElem?_modify] at hj
    obtain ⟨old,hold,hmap⟩ := Option.map_eq_some_iff.mp hj
    by_cases hposition : position = j
    · subst hposition
      rw [hsent] at hold
      cases hold
      rw [if_pos rfl] at hmap
      obtain ⟨key',entry,hevidence⟩ := h.evidence.outbound sent (List.mem_of_getElem? hsent)
      obtain rfl : key' = key := (hevidence.enters.functional henter).1
      rw [← hmap]
      refine ⟨key',entry,hevidence.within.succ,hevidence.event,hevidence.enters,hevidence.own,hevidence.time,
        hevidence.destination,.inr ⟨n,call,rfl,rfl,h.event,h.within,rfl,hnow,hbefore,hsilent,halternate⟩⟩
    · rw [if_neg hposition] at hmap
      rw [← hmap]
      exact h.evidence.succ.outbound old (List.mem_of_getElem? hold)
  · refine Dict.get?_pop_of_ne _ fun heq => hother ?_
    rw [heq,hown]
  · by_cases hsame : other = key
    · subst hsame
      rw [Dict.get?_pop_self]
      exact answered_exit halternate hsilent henter hafter hbefore hnow
    · rw [Dict.get?_pop_of_ne _ hsame]
      refine h.pending_other (by rwa [hentering]) hother hsame rfl fun position' sent' hsent' henters => ?_
      have hne : position ≠ position' := by
        rintro rfl
        rw [hsent] at hsent'
        cases hsent'
        exact hsame (henters.functional henter).1
      rw [List.getElem?_modify_ne _ _ hne]
      exact hsent'

theorem Turn.send (h : Turn calls n scan call i item) (hkind : call.kind = 1007 ∨ call.kind = 1013) {scan' : Scan}
    (hsend : send n call i item scan = .ok scan') : Inv calls (n+1) scan' := by
  obtain ⟨key,hkey,hrest⟩ := ok_of_bind hsend
  have hown : key.key = call.key := callKey_key hkey
  have hnow : Sends calls call.entering key n := sends_now h.event hkind hkey
  cases hentering : call.entering with
  | true =>
    rw [if_pos hentering] at hrest
    obtain ⟨destination,hdestination,hrest⟩ := ok_of_bind hrest
    cases hrest
    exact h.enter hkind hentering hkey hdestination
  | false =>
    rw [if_neg (by simp [hentering])] at hrest
    rw [hentering] at hnow
    cases hentry : scan.pending.get? key with
    | none =>
      rw [hentry] at hrest
      cases hrest
      exact h.exit_unmatched hkind hnow hentering (.inl hentry)
    | some entry =>
      rw [hentry] at hrest
      cases entry with
      | none =>
        cases hrest
        exact h.exit_unmatched hkind hnow hentering (.inr hentry)
      | some place =>
        cases hrest
        exact h.exit_matched hkind hown hnow hentering hentry

end Afd
end FakeNetNG
