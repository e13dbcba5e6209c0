import FakeNetNG.WinDivertFilter

/-!
# What the final filters accept

The exclusions should take two kinds of packets out of the base: what answers on the control link
and what stays on the machine.
-/

namespace FakeNetNG
namespace WinDivert

open Text BoolFilter ControlFilter

def isControl (control : BitVec 32) (ports : List ℕ) (p : Packet) : Bool :=
  match p.network with
  | .v4 _ destination (.tcp sourcePort) =>
      p.outbound && destination = control && ports.contains sourcePort.toNat
  | _ => false

def inLoopbackV4 (address : BitVec 32) : Bool :=
  loopbackFirst.toNat ≤ address.toNat && address.toNat ≤ loopbackLast.toNat

/-- An outbound packet to 127.0.0.0/8 or to `::1`. -/
def isLoopback (p : Packet) : Bool :=
  match p.network with
  | .v4 _ destination _ => p.outbound && inLoopbackV4 destination
  | .v6 destination _ => p.outbound && destination = 1

/-- At a packet the final filter is the base without the two kinds. -/
def Excludes (base final : Text) (control : BitVec 32) (ports : List ℕ) (p : Packet) : Prop :=
  ∃ before after, accepts base p = some before ∧ accepts final p = some after ∧
    after = (before && !isControl control ports p && !isLoopback p)

/-- What goes to the address of the control link over IPv4 without a TCP header. -/
def isStray (control : BitVec 32) (p : Packet) : Bool :=
  match p.network with
  | .v4 _ destination (.other _) => p.outbound && destination = control
  | _ => false

section Parts

variable {control : BitVec 32} {port : ℕ} {others : List ℕ} (p : Packet)

/-- What the tests of a filter say about a packet. -/
def clauseHolds (a : Clause) : Bool := (clauseTest a).holds p

variable (out : Bool) (src dst : BitVec 32)

theorem holds_destination (comparison : Comparison) (address : BitVec 32) (payload : Payload) :
    clauseHolds ⟨out,.v4 src dst payload⟩ (.destination comparison address) =
      comparison.compare dst.toNat address.toNat := rfl

theorem holds_loopbackV4Source (payload : Payload) :
    loopbackV4Source.holds (clauseHolds ⟨out,.v4 src dst payload⟩) = !inLoopbackV4 dst := by
  simp only [loopbackV4Source,Source.holds,holds_destination,Comparison.compare,inLoopbackV4,
    Bool.not_and]
  congr 1
  · rw [Bool.eq_iff_iff]
    simp
  · rw [Bool.eq_iff_iff]
    simp

theorem all_ports_tcp (sourcePort : BitVec 16) (ports : List ℕ) :
    (ports.map Clause.port).all (clauseHolds ⟨out,.v4 src dst (.tcp sourcePort)⟩) =
      !ports.contains sourcePort.toNat := by
  have hport : ∀ n, clauseHolds ⟨out,.v4 src dst (.tcp sourcePort)⟩ (.port n) =
      decide (sourcePort.toNat ≠ n) := fun n => rfl
  induction ports with
  | nil => rfl
  | cons n ports ih =>
    rw [List.map_cons,List.all_cons,ih,hport,List.contains_cons,Bool.not_or]
    congr 1
    rw [Bool.eq_iff_iff]
    simp

theorem holds_controlSource_tcp (sourcePort : BitVec 16) :
    (controlSource control port others).holds (clauseHolds ⟨out,.v4 src dst (.tcp sourcePort)⟩) =
      !(decide (dst = control) && (port :: others).contains sourcePort.toNat) := by
  have hports : (.port port :: others.map .port : List Clause).all
      (clauseHolds ⟨out,.v4 src dst (.tcp sourcePort)⟩) =
      !((port :: others).contains sourcePort.toNat) :=
    all_ports_tcp out src dst sourcePort (port :: others)
  simp only [controlSource,grouped,Source.holds,holds_conjunction,hports,holds_destination,
    Comparison.compare,Bool.not_and]
  congr 1
  simp [BitVec.toNat_eq]

theorem holds_controlSource_other (protocol : BitVec 8) :
    (controlSource control port others).holds (clauseHolds ⟨out,.v4 src dst (.other protocol)⟩) =
      decide (dst ≠ control) := by
  have hport : clauseHolds ⟨out,.v4 src dst (.other protocol)⟩ (.port port) = false := rfl
  simp only [controlSource,grouped,Source.holds,holds_conjunction,List.all_cons,hport,
    Bool.false_and,Bool.or_false,holds_destination,Comparison.compare]
  simp [BitVec.toNat_eq]

def keepsV4 (control : BitVec 32) (ports : List ℕ) (dst : BitVec 32) : Payload → Bool
  | .tcp sourcePort => !(decide (dst = control) && ports.contains sourcePort.toNat)
  | .other _ => decide (dst ≠ control)

theorem holds_controlSource (payload : Payload) :
    (controlSource control port others).holds (clauseHolds ⟨out,.v4 src dst payload⟩) =
      keepsV4 control (port :: others) dst payload := by
  cases payload with
  | tcp sourcePort => exact holds_controlSource_tcp out src dst sourcePort
  | other protocol => exact holds_controlSource_other out src dst protocol

theorem holds_ipv4Arm_v4 (payload : Payload) :
    (ipv4Arm control port others).holds (clauseHolds ⟨out,.v4 src dst payload⟩) =
      (out && keepsV4 control (port :: others) dst payload && !inLoopbackV4 dst) := by
  simp only [ipv4Arm,Source.holds,holds_conjunction,holds_controlSource,holds_loopbackV4Source]
  simp [clauseHolds,clauseTest,Test.holds]

theorem holds_ipv4Arm_v6 (destination : BitVec 128) (payload : Payload) :
    (ipv4Arm control port others).holds (clauseHolds ⟨out,.v6 destination payload⟩) = false := by
  simp only [ipv4Arm,Source.holds,holds_conjunction]
  simp [clauseHolds,clauseTest,Test.holds]

theorem holds_dualSource_v4 (payload : Payload) :
    (dualSource control port others).holds (clauseHolds ⟨out,.v4 src dst payload⟩) =
      (out && keepsV4 control (port :: others) dst payload && !inLoopbackV4 dst) := by
  simp only [dualSource,grouped,Source.holds,holds_ipv4Arm_v4,holds_conjunction]
  simp [clauseHolds,clauseTest,Test.holds]

theorem holds_dualSource_v6 (destination : BitVec 128) (payload : Payload) :
    (dualSource control port others).holds (clauseHolds ⟨out,.v6 destination payload⟩) =
      (out && !decide (destination = 1)) := by
  simp only [dualSource,grouped,Source.holds,holds_ipv4Arm_v6,holds_conjunction]
  simp [clauseHolds,clauseTest,Test.holds,Field.value,Comparison.compare,BitVec.toNat_eq]

theorem holds_dualBaseSource : dualBaseSource.holds (clauseHolds p) = p.outbound := by
  obtain ⟨out,network⟩ := p
  cases network with
  | v4 source destination payload => simp [dualBaseSource,Source.holds,clauseHolds,clauseTest,Test.holds]
  | v6 destination payload => simp [dualBaseSource,Source.holds,clauseHolds,clauseTest,Test.holds]

theorem holds_redirectSource_outbound (target frozen : BitVec 32) (h : p.outbound = true) :
    (redirectSource target frozen).holds (clauseHolds p) = false := by
  simp only [redirectSource,grouped,Source.holds,holds_conjunction]
  simp [clauseHolds,clauseTest,Test.holds,h]

theorem keepsV4_right_iff (ports : List ℕ) (payload : Payload) :
    (out && keepsV4 control ports dst payload && !inLoopbackV4 dst) =
        (out && !isControl control ports ⟨out,.v4 src dst payload⟩ &&
          !isLoopback ⟨out,.v4 src dst payload⟩) ↔
      ¬ (isStray control ⟨out,.v4 src dst payload⟩ = true ∧ inLoopbackV4 control = false) := by
  cases out with
  | false =>
    have hstray : isStray control ⟨false,.v4 src dst payload⟩ = false := by
      cases payload <;> rfl
    simp [hstray]
  | true =>
    cases payload with
    | tcp sourcePort =>
      simp [keepsV4,isControl,isLoopback,isStray]
    | other protocol =>
      by_cases hdst : dst = control
      · simp [keepsV4,isControl,isLoopback,isStray,hdst]
      · simp [keepsV4,isControl,isLoopback,isStray,hdst]

theorem not_isStray_v6 (destination : BitVec 128) (payload : Payload) :
    isStray control ⟨out,.v6 destination payload⟩ = false := rfl

/-- What the final filter of a shape should say about a packet. -/
def Right (control : BitVec 32) (port : ℕ) (others : List ℕ) (shape : Shape) : Prop :=
  (finalSource control port others shape).holds (clauseHolds p) =
    ((baseSource shape).holds (clauseHolds p) && !isControl control (port :: others) p &&
      !isLoopback p)

theorem right_legacy_iff : Right p control port others .legacy ↔
    ¬ (isStray control p = true ∧ inLoopbackV4 control = false) := by
  obtain ⟨out,network⟩ := p
  cases network with
  | v4 src dst payload =>
    have hbase : (baseSource .legacy).holds (clauseHolds ⟨out,.v4 src dst payload⟩) = out := by
      simp [baseSource,Source.holds,holds_conjunction,clauseHolds,clauseTest,Test.holds]
    rw [Right,hbase]
    simp only [finalSource,Source.holds,holds_ipv4Arm_v4]
    exact keepsV4_right_iff out src dst (port :: others) payload
  | v6 destination payload =>
    have hbase : (baseSource .legacy).holds (clauseHolds ⟨out,.v6 destination payload⟩) = false := by
      simp [baseSource,Source.holds,holds_conjunction,clauseHolds,clauseTest,Test.holds]
    rw [Right,hbase,not_isStray_v6]
    simp [finalSource,Source.holds,holds_ipv4Arm_v6]

theorem right_dual_iff : Right p control port others .dual ↔
    ¬ (isStray control p = true ∧ inLoopbackV4 control = false) := by
  rw [Right,show baseSource .dual = dualBaseSource from rfl,holds_dualBaseSource]
  obtain ⟨out,network⟩ := p
  cases network with
  | v4 src dst payload =>
    simp only [finalSource,holds_dualSource_v4]
    exact keepsV4_right_iff out src dst (port :: others) payload
  | v6 destination payload =>
    rw [not_isStray_v6]
    simp only [finalSource,holds_dualSource_v6]
    cases out <;> simp [isControl,isLoopback]

theorem inbound_kinds (control : BitVec 32) (ports : List ℕ) (h : p.outbound = false) :
    isControl control ports p = false ∧ isLoopback p = false ∧ isStray control p = false := by
  obtain ⟨out,network⟩ := p
  simp only at h
  subst h
  cases network with
  | v4 src dst payload => cases payload <;> exact ⟨rfl,rfl,rfl⟩
  | v6 destination payload => exact ⟨rfl,rfl,rfl⟩

theorem holds_dualSource_inbound (h : p.outbound = false) :
    (dualSource control port others).holds (clauseHolds p) = false := by
  obtain ⟨out,network⟩ := p
  simp only at h
  subst h
  cases network with
  | v4 src dst payload => rw [holds_dualSource_v4,Bool.false_and,Bool.false_and]
  | v6 destination payload => rw [holds_dualSource_v6,Bool.false_and]

theorem right_redirect_iff (target frozen : BitVec 32) :
    Right p control port others (.redirect target frozen) ↔
      ¬ (isStray control p = true ∧ inLoopbackV4 control = false) := by
  cases hout : p.outbound with
  | true =>
    have hdual : Right p control port others .dual ↔ _ := right_dual_iff p
    rw [← hdual]
    simp only [Right,finalSource,baseSource,Source.holds,holds_redirectSource_outbound p _ _ hout,
      Bool.or_false]
  | false =>
    obtain ⟨hcontrol,hloopback,hstray⟩ := inbound_kinds p control (port :: others) hout
    simp only [Right,finalSource,baseSource,Source.holds,holds_dualSource_inbound p hout,
      holds_dualBaseSource,hout,hcontrol,hloopback,hstray,Bool.false_or,Bool.not_false,Bool.and_true]
    simp

theorem right_iff (shape : Shape) : Right p control port others shape ↔
    ¬ (isStray control p = true ∧ inLoopbackV4 control = false) := by
  cases shape with
  | legacy => exact right_legacy_iff p
  | dual => exact right_dual_iff p
  | redirect target frozen => exact right_redirect_iff p target frozen

end Parts

/-- The final filter is the base without the two kinds of packets, except at a packet without a
TCP header to the address of the control link. -/
theorem final_excludes_iff (shape : Shape) (control : BitVec 32) {ports : List ℕ} (hports : ports ≠ [])
    (p : Packet) :
    ∃ base final, shape.base = .ok base ∧
      finalFilter shape (some (IpAddress.dotted control)) (some (portText ports)) = .ok final ∧
      (Excludes base final control ports p ↔
        ¬ (isStray control p = true ∧ inLoopbackV4 control = false)) := by
  refine ⟨baseText shape,finalText control ports shape,base_eq shape,finalFilter_eq hports shape,?_⟩
  obtain ⟨port,others,rfl⟩ := List.exists_cons_of_ne_nil hports
  have hbase : accepts (baseText shape) p = some ((baseSource shape).holds (clauseHolds p)) := by
    rw [← print_baseSource,accepts_print]
    rfl
  have hfinal : accepts (finalText control (port :: others) shape) p =
      some ((finalSource control port others shape).holds (clauseHolds p)) := by
    rw [← print_finalSource,accepts_print]
    rfl
  have hright : Right p control port others shape ↔ _ := right_iff p shape
  rw [← hright]
  constructor
  · rintro ⟨before,after,hbefore,hafter,h⟩
    rw [hbase] at hbefore
    rw [hfinal] at hafter
    injection hbefore with hbefore
    injection hafter with hafter
    rw [Right,hbefore,hafter,h]
  · intro h
    exact ⟨_,_,hbase,hfinal,h⟩

def controlAddress : BitVec 32 := 0xC0A83801

/-- A DNS query to the machine of the control link. -/
def strayQuery : Packet := ⟨true,.v4 0xC0A83802 controlAddress (.other 17)⟩

/-- An answer on the control link is excluded. -/
theorem final_excludes_answer :
    ∃ base final, Shape.dual.base = .ok base ∧
      finalFilter .dual (some (IpAddress.dotted controlAddress)) (some (portText [8123])) = .ok final ∧
      (Excludes base final controlAddress [8123] ⟨true,.v4 0 controlAddress (.tcp 8123)⟩ ↔
        ¬ (isStray controlAddress ⟨true,.v4 0 controlAddress (.tcp 8123)⟩ = true ∧
          inLoopbackV4 controlAddress = false)) :=
  final_excludes_iff .dual controlAddress (List.cons_ne_nil 8123 []) _

/-- The query is no answer and does not stay on the machine, and the final filter drops it. -/
theorem stray_query_dropped :
    ∃ base final, Shape.legacy.base = .ok base ∧
      finalFilter .legacy (some "192.168.56.1".toList) (some "8123".toList) = .ok final ∧
      accepts base strayQuery = some true ∧ accepts final strayQuery = some false ∧
      isControl controlAddress [8123] strayQuery = false ∧ isLoopback strayQuery = false ∧
      ¬ Excludes base final controlAddress [8123] strayQuery := by
  have haddress : "192.168.56.1".toList = IpAddress.dotted controlAddress := by decide
  have hport : "8123".toList = portText [8123] := by decide
  have hbase : accepts legacyBase strayQuery = some true := by decide
  have hfinal : accepts (finalLegacy controlAddress [8123]) strayQuery = some false := by
    decide +kernel
  refine ⟨legacyBase,finalLegacy controlAddress [8123],rfl,?_,hbase,hfinal,rfl,rfl,?_⟩
  · rw [haddress,hport]
    exact finalFilter_eq (List.cons_ne_nil 8123 []) .legacy
  · rintro ⟨before,after,hbefore,hafter,h⟩
    rw [hbase] at hbefore
    rw [hfinal] at hafter
    injection hbefore with hbefore
    injection hafter with hafter
    rw [← hbefore,← hafter] at h
    revert h
    decide +kernel

end WinDivert
end FakeNetNG
