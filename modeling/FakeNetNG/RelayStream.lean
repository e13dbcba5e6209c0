import Mathlib.Data.List.Basic
import Mathlib.Tactic

/-!
# The relay loop

`_relay` copies bytes between the client and the upstream server through two bounded
buffers. The two directions are alike and each is a `Pipe`. What a socket does is given
from outside: the bytes that are there to be read, the end of the stream, how much a
`send` takes, or an error, which ends the loop.
-/

namespace FakeNetNG
namespace Relay

structure Settings where
  bufferBytes : ℕ
  idleTimeout : ℚ

/-- `up` carries bytes from the client to upstream, `down` the other way. -/
inductive Direction
  | up | down
  deriving DecidableEq

/-- A readable socket: the bytes that are there, or the end of the stream together with
whether the `shutdown` that follows takes effect, or an error. -/
inductive Recv
  | data (available : List UInt8) (now : ℚ)
  | eof (shutdownOk : Bool)
  | raised

/-- A writable socket: how many bytes it has room for, or an error. -/
inductive Send
  | room (count : ℕ) (now : ℚ)
  | raised

/-- One direction: its buffer, whether its source is open, and whether the write half of its
destination was shut down. `received` and `delivered` are the bytes that went in and out so
far; the loop does not keep them. -/
structure Pipe where
  buffer : List UInt8
  sourceOpen : Bool
  shut : Bool
  received : List UInt8
  delivered : List UInt8

structure State where
  up : Pipe
  down : Pipe
  lastActivity : ℚ

inductive Op
  | recv (dir : Direction) (result : Recv)
  | send (dir : Direction) (result : Send)

namespace Pipe

def start (initial : List UInt8) : Pipe := ⟨initial,true,false,initial,[]⟩

/-- The number of bytes that `recv` asks for. -/
def asked (bufferBytes : ℕ) (p : Pipe) : ℕ := min 65536 (bufferBytes-p.buffer.length)

def extend (chunk : List UInt8) (p : Pipe) : Pipe :=
  { p with buffer := p.buffer++chunk, received := p.received++chunk }

def close (shutdownOk : Bool) (p : Pipe) : Pipe :=
  { p with sourceOpen := false, shut := p.shut || shutdownOk }

def drop (sent : ℕ) (p : Pipe) : Pipe :=
  { p with buffer := p.buffer.drop sent, delivered := p.delivered++p.buffer.take sent }

end Pipe

namespace State

def start (initialToUpstream : List UInt8) (now : ℚ) : State :=
  ⟨.start initialToUpstream,.start [],now⟩

def pipe (s : State) : Direction → Pipe
  | .up => s.up
  | .down => s.down

def setPipe (s : State) (dir : Direction) (p : Pipe) : State :=
  match dir with
  | .up => { s with up := p }
  | .down => { s with down := p }

variable (settings : Settings)

/-- One `recv` or `send` of the loop; `none` when it raises. -/
def step (s : State) : Op → Option State
  | .recv _ .raised => none
  | .recv dir (.eof shutdownOk) => some (s.setPipe dir ((s.pipe dir).close shutdownOk))
  | .recv dir (.data available now) =>
    let chunk := available.take ((s.pipe dir).asked settings.bufferBytes)
    if chunk = [] then some (s.setPipe dir ((s.pipe dir).close true))
    else some { s.setPipe dir ((s.pipe dir).extend chunk) with lastActivity := now }
  | .send _ .raised => none
  | .send dir (.room count now) =>
    let sent := min count (s.pipe dir).buffer.length
    if sent = 0 then some s
    else some { s.setPipe dir ((s.pipe dir).drop sent) with lastActivity := now }

/-- Whether the source of a direction is in `reads`. -/
def reads (s : State) (dir : Direction) : Bool :=
  (s.pipe dir).sourceOpen && (s.pipe dir).buffer.length < settings.bufferBytes

/-- Whether the destination of a direction is in `writes`. -/
def writes (s : State) (dir : Direction) : Bool := (s.pipe dir).buffer ≠ []

end State

/-- What one turn of the loop finds: the stop flag, the clock, and the sockets that `select`
reports, each by the direction it is the source or the destination of. -/
structure Turn where
  stopped : Bool
  now : ℚ
  readable : Direction → Option Recv
  writable : Direction → Option Send

variable (settings : Settings)

def turnOps (s : State) (t : Turn) : List Op :=
  ([.up,.down].filter (s.reads settings)).filterMap (fun dir => (t.readable dir).map (.recv dir)) ++
    ([.up,.down].filter s.writes).filterMap fun dir => (t.writable dir).map (.send dir)

/-- Some calls in order, each with the state it finds, and the state after all of them unless
one raised. -/
@[grind] def runOps : List Op → State → List (State × Op) × Option State
  | [], s => ([],some s)
  | op::ops, s =>
    match s.step settings op with
    | none => ([(s,op)],none)
    | some s' => ((s,op)::(runOps ops s').1,(runOps ops s').2)

def leaves (s : State) (t : Turn) : Bool :=
  t.stopped || settings.idleTimeout ≤ t.now-s.lastActivity ||
    [Direction.up,.down].all fun dir => !s.reads settings dir && !s.writes dir

/-- `_relay`: the calls that it makes, each with the state it finds. -/
@[grind] def relay : List Turn → State → List (State × Op)
  | [], _ => []
  | t::ts, s =>
    if leaves settings s t then []
    else
      match runOps settings (turnOps settings s t) s with
      | (calls,none) => calls
      | (calls,some s') => calls++relay ts s'

variable {settings}

theorem runOps_forall {I : State → Prop} {Q : State → Op → Prop}
    (hstep : ∀ s op s', I s → Q s op → s.step settings op = some s' → I s') (ops : List Op) {s : State}
    (hs : I s) (hq : ∀ x ∈ (runOps settings ops s).1, Q x.1 x.2) :
    (∀ x ∈ (runOps settings ops s).1, I x.1) ∧ ∀ s', (runOps settings ops s).2 = some s' → I s' := by
  induction ops generalizing s with
  | nil =>
    refine ⟨by simp [runOps],?_⟩
    intro s' he
    cases he
    exact hs
  | cons op ops ih =>
    unfold runOps at hq ⊢
    cases hc : s.step settings op with
    | none => simpa [hc] using hs
    | some s' =>
      simp only [hc,List.mem_cons,forall_eq_or_imp] at hq ⊢
      obtain ⟨hrest,hend⟩ := ih (hstep s op s' hs hq.1 hc) hq.2
      exact ⟨⟨hs,hrest⟩,hend⟩

theorem relay_forall {I : State → Prop} {Q : State → Op → Prop}
    (hstep : ∀ s op s', I s → Q s op → s.step settings op = some s' → I s') {ts : List Turn} {s : State}
    (hs : I s) (hq : ∀ x ∈ relay settings ts s, Q x.1 x.2) :
    ∀ x ∈ relay settings ts s, I x.1 := by
  induction ts generalizing s with
  | nil => simp [relay]
  | cons t ts ih =>
    unfold relay at hq ⊢
    split_ifs at hq ⊢ with hleave
    · simp
    · rcases hr : runOps settings (turnOps settings s t) s with ⟨calls,_ | s'⟩
      · rw [hr] at hq
        have hboth := runOps_forall hstep (turnOps settings s t) hs (by rw [hr]; exact hq)
        rw [hr] at hboth
        exact hboth.1
      · rw [hr] at hq
        simp only [List.mem_append] at hq ⊢
        have hboth := runOps_forall hstep (turnOps settings s t) hs
          (by rw [hr]; exact fun x hx => hq x (.inl hx))
        rw [hr] at hboth
        rintro x (hx | hx)
        · exact hboth.1 x hx
        · exact ih (hboth.2 s' rfl) (fun x hx => hq x (.inr hx)) x hx

variable {s s' : State} {op : Op}

@[simp] theorem pipe_setPipe_self (s : State) (dir : Direction) (p : Pipe) :
    (s.setPipe dir p).pipe dir = p := by
  cases dir <;> rfl

theorem pipe_setPipe_of_ne (s : State) {dir dir' : Direction} (p : Pipe) (h : dir' ≠ dir) :
    (s.setPipe dir p).pipe dir' = s.pipe dir' := by
  cases dir <;> cases dir' <;> first | rfl | exact absurd rfl h

def Op.dir : Op → Direction
  | .recv dir _ => dir
  | .send dir _ => dir

def shutsDown (settings : Settings) (s : State) : Op → Bool
  | .recv _ (.eof shutdownOk) => shutdownOk
  | .recv dir (.data available _) =>
    available.take ((s.pipe dir).asked settings.bufferBytes) = []
  | _ => false

def Op.isRecv : Op → Bool
  | .recv _ _ => true
  | .send _ _ => false

theorem step_of_shutsDown (h : shutsDown settings s op = true) :
    ∃ s', s.step settings op = some s' := by
  cases op with
  | recv dir result =>
    cases result with
    | raised => cases h
    | eof shutdownOk => exact ⟨_,rfl⟩
    | data available now =>
      have hchunk : available.take ((s.pipe dir).asked settings.bufferBytes) = [] :=
        of_decide_eq_true h
      exact ⟨s.setPipe dir ((s.pipe dir).close true),by simp only [State.step,hchunk,if_true]⟩
  | send dir result => cases h

inductive PipeStep (settings : Settings) (isRecv shuts : Bool) (p : Pipe) : Pipe → Prop
  | close : isRecv = true → PipeStep settings isRecv shuts p (p.close shuts)
  | extend (chunk) : isRecv = true → shuts = false → chunk.length ≤ p.asked settings.bufferBytes →
      PipeStep settings isRecv shuts p (p.extend chunk)
  | drop (sent) : shuts = false → PipeStep settings isRecv shuts p (p.drop sent)

theorem drop_zero (p : Pipe) : p.drop 0 = p := by
  simp [Pipe.drop]

theorem step_cases (h : s.step settings op = some s') :
    PipeStep settings op.isRecv (shutsDown settings s op) (s.pipe op.dir) (s'.pipe op.dir) ∧
      ∀ dir ≠ op.dir, s'.pipe dir = s.pipe dir := by
  cases op with
  | recv dir result =>
    cases result with
    | raised => cases h
    | eof shutdownOk =>
      cases h
      refine ⟨?_,fun dir' hne => pipe_setPipe_of_ne s _ hne⟩
      rw [Op.dir,pipe_setPipe_self]
      exact .close rfl
    | data available now =>
      simp only [State.step] at h
      split_ifs at h with hc
      · cases h
        refine ⟨?_,fun dir' hne => pipe_setPipe_of_ne s _ hne⟩
        have hshuts : shutsDown settings s (.recv dir (.data available now)) = true :=
          decide_eq_true hc
        rw [hshuts,Op.dir,pipe_setPipe_self]
        exact .close rfl
      · cases h
        refine ⟨?_,fun dir' hne => pipe_setPipe_of_ne s _ hne⟩
        have hshuts : shutsDown settings s (.recv dir (.data available now)) = false :=
          decide_eq_false hc
        rw [hshuts]
        change PipeStep settings true false (s.pipe dir) ((s.setPipe dir _).pipe dir)
        rw [pipe_setPipe_self]
        exact .extend _ rfl rfl (List.length_take_le _ _)
  | send dir result =>
    cases result with
    | raised => cases h
    | room count now =>
      simp only [State.step] at h
      split_ifs at h with hc
      · cases h
        refine ⟨?_,fun _ _ => rfl⟩
        have hdrop : PipeStep settings false false (s.pipe dir) ((s.pipe dir).drop 0) := .drop 0 rfl
        rw [drop_zero] at hdrop
        exact hdrop
      · cases h
        refine ⟨?_,fun dir' hne => pipe_setPipe_of_ne s _ hne⟩
        change PipeStep settings false false (s.pipe dir) ((s.setPipe dir _).pipe dir)
        rw [pipe_setPipe_self]
        exact .drop _ rfl

def Enabled (s : State) (op : Op) : Prop := op.isRecv = true → (s.pipe op.dir).sourceOpen = true

theorem Enabled.step {op' : Op} (he : Enabled s op') (h : s.step settings op = some s')
    (hop : op.isRecv = true → op'.isRecv = true → op.dir ≠ op'.dir) : Enabled s' op' := by
  intro hr
  obtain ⟨hstep,hother⟩ := step_cases h
  by_cases hd : op'.dir = op.dir
  · have hopen := he hr
    rw [hd] at hopen ⊢
    generalize s'.pipe op.dir = p at hstep
    cases hstep with
    | close hrecv => exact absurd hd.symm (hop hrecv hr)
    | extend chunk hrecv => exact absurd hd.symm (hop hrecv hr)
    | drop sent => exact hopen
  · rw [hother op'.dir hd]
    exact he hr

theorem runOps_enabled {ops : List Op}
    (hops : ops.Pairwise fun a b => a.isRecv = true → b.isRecv = true → a.dir ≠ b.dir)
    (he : ∀ op ∈ ops, Enabled s op) : ∀ x ∈ (runOps settings ops s).1, Enabled x.1 x.2 := by
  induction ops generalizing s with
  | nil => simp [runOps]
  | cons op ops ih =>
    obtain ⟨hhead,htail⟩ := List.pairwise_cons.mp hops
    unfold runOps
    cases hc : s.step settings op with
    | none => simpa using he op (by simp)
    | some s' =>
      simp only [List.mem_cons,forall_eq_or_imp]
      exact ⟨he op (by simp),ih htail fun op' hm => (he op' (by simp [hm])).step hc (hhead op' hm)⟩

theorem turnOps_pairwise (settings : Settings) (s : State) (t : Turn) :
    (turnOps settings s t).Pairwise fun a b =>
      a.isRecv = true → b.isRecv = true → a.dir ≠ b.dir := by
  have hdirs : [Direction.up,.down].Pairwise (· ≠ ·) := by decide
  unfold turnOps
  rw [List.pairwise_append]
  refine ⟨?_,?_,?_⟩
  · refine (hdirs.filter _).filterMap _ fun d d' hne a ha b hb _ _ => ?_
    obtain ⟨r,-,rfl⟩ := Option.map_eq_some_iff.mp ha
    obtain ⟨r',-,rfl⟩ := Option.map_eq_some_iff.mp hb
    exact hne
  · refine (hdirs.filter _).filterMap _ fun d d' hne a ha b hb hrecv _ => ?_
    obtain ⟨r,-,rfl⟩ := Option.map_eq_some_iff.mp ha
    cases hrecv
  · intro a ha b hb _ hrecv
    obtain ⟨d,-,hd⟩ := List.mem_filterMap.mp hb
    obtain ⟨r,-,rfl⟩ := Option.map_eq_some_iff.mp hd
    cases hrecv

theorem turnOps_enabled (settings : Settings) (s : State) (t : Turn) :
    ∀ op ∈ turnOps settings s t, Enabled s op := by
  intro op hop hrecv
  rcases List.mem_append.mp hop with hop | hop
  · obtain ⟨d,hd,he⟩ := List.mem_filterMap.mp hop
    obtain ⟨r,-,rfl⟩ := Option.map_eq_some_iff.mp he
    have hreads := (List.mem_filter.mp hd).2
    simp only [State.reads,Bool.and_eq_true] at hreads
    exact hreads.1
  · obtain ⟨d,hd,he⟩ := List.mem_filterMap.mp hop
    obtain ⟨r,-,rfl⟩ := Option.map_eq_some_iff.mp he
    cases hrecv

theorem relay_enabled (settings : Settings) (ts : List Turn) (s : State) :
    ∀ x ∈ relay settings ts s, Enabled x.1 x.2 := by
  induction ts generalizing s with
  | nil => simp [relay]
  | cons t ts ih =>
    have hturn : ∀ x ∈ (runOps settings (turnOps settings s t) s).1, Enabled x.1 x.2 :=
      runOps_enabled (turnOps_pairwise settings s t) (turnOps_enabled settings s t)
    unfold relay
    split_ifs
    · simp
    · rcases hr : runOps settings (turnOps settings s t) s with ⟨calls,_ | s'⟩
      · rw [hr] at hturn
        exact hturn
      · rw [hr] at hturn
        simp only [List.mem_append]
        rintro x (hx | hx)
        · exact hturn x hx
        · exact ih s' x hx

/-- The bytes out are the first of the bytes in, the rest is in the buffer, and the buffer is
within `bound`. -/
structure Pipe.Inv (bound : ℕ) (p : Pipe) : Prop where
  bytes : p.received = p.delivered++p.buffer
  size : p.buffer.length ≤ bound

structure Pipe.Faithful (bound : ℕ) (p : Pipe) : Prop where
  inOrder : p.delivered <+: p.received
  size : p.buffer.length ≤ bound
  complete : p.shut = true → p.delivered = p.received

/-- A destination that was shut down has everything, and its source is never read again. -/
structure Pipe.Settled (bound : ℕ) (p : Pipe) : Prop extends p.Inv bound where
  ended : p.shut = true → p.sourceOpen = false
  empty : p.shut = true → p.buffer = []

def Drained (settings : Settings) (s : State) (op : Op) : Prop :=
  shutsDown settings s op = true → (s.pipe op.dir).buffer = []

theorem PipeStep.inv {bound : ℕ} (hbound : settings.bufferBytes ≤ bound) {isRecv shuts : Bool}
    {p p' : Pipe} (h : PipeStep settings isRecv shuts p p') (hp : p.Inv bound) : p'.Inv bound := by
  cases h with
  | close => exact ⟨hp.bytes,hp.size⟩
  | extend chunk _ _ hlen =>
    have hsize := hp.size
    refine ⟨?_,?_⟩
    · simp only [Pipe.extend,hp.bytes,List.append_assoc]
    · simp only [Pipe.asked] at hlen
      simp only [Pipe.extend,List.length_append]
      omega
  | drop sent =>
    have hsize := hp.size
    refine ⟨?_,?_⟩
    · simp only [Pipe.drop,hp.bytes,List.append_assoc,List.take_append_drop]
    · simp only [Pipe.drop,List.length_drop]
      omega

theorem PipeStep.settled {bound : ℕ} (hbound : settings.bufferBytes ≤ bound) {isRecv shuts : Bool}
    {p p' : Pipe} (h : PipeStep settings isRecv shuts p p') (hp : p.Settled bound)
    (hopen : isRecv = true → p.sourceOpen = true) (hdrained : shuts = true → p.buffer = []) :
    p'.Settled bound := by
  have hinv := h.inv hbound hp.toInv
  refine ⟨hinv,?_,?_⟩
  · cases h with
    | close => exact fun _ => rfl
    | extend chunk hrecv => exact hp.ended
    | drop sent => exact hp.ended
  · cases h with
    | close =>
      intro hs
      simp only [Pipe.close,Bool.or_eq_true] at hs
      rcases hs with hs | hs
      · exact hp.empty hs
      · exact hdrained hs
    | extend chunk hrecv =>
      intro hs
      have hclosed := hp.ended hs
      rw [hopen hrecv] at hclosed
      cases hclosed
    | drop sent =>
      intro hs
      simp only [Pipe.drop,hp.empty hs,List.drop_nil]

theorem Pipe.Settled.faithful {bound : ℕ} {p : Pipe} (h : p.Settled bound) : p.Faithful bound := by
  refine ⟨?_,h.size,?_⟩
  · rw [h.bytes]
    exact List.prefix_append _ _
  · intro hs
    rw [h.bytes,h.empty hs,List.append_nil]

theorem forall_pipe_step {P : Pipe → Prop} (h : s.step settings op = some s')
    (hs : ∀ dir, P (s.pipe dir))
    (hp : ∀ p', PipeStep settings op.isRecv (shutsDown settings s op) (s.pipe op.dir) p' → P p') :
    ∀ dir, P (s'.pipe dir) := by
  intro dir
  obtain ⟨hstep,hother⟩ := step_cases h
  by_cases hd : dir = op.dir
  · rw [hd]
    exact hp _ hstep
  · rw [hother dir hd]
    exact hs dir

theorem start_settled (initial : List UInt8) (now : ℚ) (bound : ℕ) (h : initial.length ≤ bound)
    (dir : Direction) : ((State.start initial now).pipe dir).Settled bound := by
  have hstart : ∀ bytes : List UInt8, bytes.length ≤ bound → (Pipe.start bytes).Settled bound :=
    fun bytes hb => ⟨⟨rfl,hb⟩,fun hs => (by cases hs),fun hs => (by cases hs)⟩
  cases dir with
  | up => exact hstart initial h
  | down => exact hstart [] (Nat.zero_le _)

theorem relay_inv (settings : Settings) (initial : List UInt8) (now : ℚ) (ts : List Turn) :
    ∀ x ∈ relay settings ts (State.start initial now), ∀ dir,
      (x.1.pipe dir).Inv (max settings.bufferBytes initial.length) := by
  have hkeep : ∀ (s : State) (op : Op) (s' : State), (∀ dir, (s.pipe dir).Inv (max settings.bufferBytes initial.length)) →
      True → s.step settings op = some s' →
      ∀ dir, (s'.pipe dir).Inv (max settings.bufferBytes initial.length) :=
    fun s op s' hs _ hstep =>
      forall_pipe_step hstep hs fun p' hp => hp.inv (le_max_left _ _) (hs op.dir)
  exact relay_forall hkeep
    (fun dir => (start_settled initial now _ (le_max_right _ _) dir).toInv) fun _ _ => trivial

/-- The relay is faithful after every call of a run exactly when each destination is shut down
with nothing left to be sent to it. -/
theorem relay_faithful_iff (settings : Settings) (initial : List UInt8) (now : ℚ) (ts : List Turn) :
    (∀ x ∈ relay settings ts (State.start initial now), ∀ s', x.1.step settings x.2 = some s' →
      ∀ dir, (s'.pipe dir).Faithful (max settings.bufferBytes initial.length)) ↔
    ∀ x ∈ relay settings ts (State.start initial now), Drained settings x.1 x.2 := by
  constructor
  · intro h x hx hshuts
    obtain ⟨s,op⟩ := x
    have hinv := relay_inv settings initial now ts _ hx op.dir
    obtain ⟨s',hc⟩ := step_of_shutsDown hshuts
    have hfaithful := h _ hx s' hc op.dir
    obtain ⟨hstep,-⟩ := step_cases hc
    rw [hshuts] at hstep
    generalize s'.pipe op.dir = p at hstep hfaithful
    cases hstep with
    | close =>
      have hall := hfaithful.complete (by simp [Pipe.close])
      simp only [Pipe.close] at hall
      rw [hinv.bytes] at hall
      exact List.self_eq_append_right.mp hall
    | extend _ _ hs => cases hs
    | drop _ hs => cases hs
  · intro h
    have hkeep : ∀ s op s', (∀ dir, (s.pipe dir).Settled (max settings.bufferBytes initial.length)) →
        Enabled s op ∧ Drained settings s op → s.step settings op = some s' →
        ∀ dir, (s'.pipe dir).Settled (max settings.bufferBytes initial.length) := by
      rintro s op s' hs ⟨henabled,hdrained⟩ hstep
      exact forall_pipe_step hstep hs fun p' hp =>
        hp.settled (le_max_left _ _) (hs op.dir) henabled hdrained
    have hstart := start_settled initial now _ (le_max_right settings.bufferBytes _)
    have hcalls : ∀ x ∈ relay settings ts (State.start initial now),
        Enabled x.1 x.2 ∧ Drained settings x.1 x.2 :=
      fun x hx => ⟨relay_enabled settings ts _ x hx,h x hx⟩
    intro x hx s' hstep dir
    exact (hkeep x.1 x.2 s' (relay_forall hkeep hstart hcalls x hx) (hcalls x hx) hstep dir).faithful

def helloThenEof : List Turn :=
  [⟨false,1,fun dir => if dir = .up then some (.eof true) else none,fun _ => none⟩]

theorem early_shutdown :
    ¬∀ x ∈ relay ⟨1048576,300⟩ helloThenEof (State.start [22,3,1] 0),
      ∀ s', x.1.step ⟨1048576,300⟩ x.2 = some s' →
        ∀ dir, (s'.pipe dir).Faithful (max 1048576 3) := by
  intro h
  have hrun : relay ⟨1048576,300⟩ helloThenEof (State.start [22,3,1] 0) =
      [(State.start [22,3,1] 0,Op.recv .up (.eof true))] := by
    have hstays : leaves ⟨1048576,300⟩ (State.start [22,3,1] 0)
        ⟨false,1,fun dir => if dir = .up then some (.eof true) else none,fun _ => none⟩ = false := by
      decide +kernel
    simp only [helloThenEof,relay,hstays]
    rfl
  have hall := (h (State.start [22,3,1] 0,.recv .up (.eof true)) (by rw [hrun]; simp) _ rfl .up).complete
    rfl
  simp [State.setPipe,State.pipe,State.start,Pipe.start,Pipe.close] at hall

end Relay
end FakeNetNG
