import FakeNetNG.PcapngBlocks
import FakeNetNG.RunningObservation

/-!
# What the observation of a running engine proves

A leak that was read is never hidden by what comes after it, and there being none is only said of a complete
capture with a calibrated path for each family.
-/

namespace FakeNetNG
namespace RunningObservation

open Json (Value)
open PyJson
open Pcapng (Bytes Packet Family ParsedPrefix Complete)

variable {py : Runtime} {r : Request} {snapshot : Snapshot}

structure Leak (py : Runtime) (snapshot : Snapshot) (p : Packet) : Prop where
  mac : p.mac ∈ macs py snapshot
  destination : p.destination ∈ destinations

theorem isLeak_iff {p : Packet} : isLeak py snapshot p = true ↔ Leak py snapshot p := by
  rw [isLeak,Bool.and_eq_true,List.contains_iff_mem,List.contains_iff_mem]
  exact ⟨fun h => ⟨h.1,h.2⟩,fun h => ⟨h.mac,h.destination⟩⟩

theorem leaks_iff {raw : Bytes} : ((Pcapng.parseCapture raw).1.filter (isLeak py snapshot)).isEmpty = false ↔
    ∃ blocks s, ParsedPrefix raw blocks s ∧ ∃ p ∈ s.packets, Leak py snapshot p := by
  rw [List.isEmpty_eq_false_iff_exists_mem]
  constructor
  · rintro ⟨p,hp⟩
    obtain ⟨hp,hleak⟩ := List.mem_filter.mp hp
    obtain ⟨blocks,s,hparsed,hp⟩ := Pcapng.prefix_of_observed hp
    exact ⟨blocks,s,hparsed,p,hp,isLeak_iff.mp hleak⟩
  · rintro ⟨blocks,s,hparsed,p,hp,hleak⟩
    exact ⟨p,List.mem_filter.mpr ⟨(Pcapng.observed_of_prefix hparsed).subset hp,isLeak_iff.mpr hleak⟩⟩

/-- The interfaces of a capture are the one of the only NIC. -/
structure OnMappedNic (py : Runtime) (snapshot : Snapshot) (interfaces : List Pcapng.Interface) (name : Text) : Prop where
  nic : ∃ nic, (topology py snapshot).nics = [nic] ∧ truthy py.toPrimitives (member nic.value "interface_present") = true ∧
    item nic.value "interface" = .ok (.str name)
  interfaces : ∀ i ∈ interfaces, i.name = name

structure Within (py : Runtime) (r : Request) (row : Value) : Prop where
  bounds : ∃ stepStart stepEnd, timeOf py row "started" = .ok stepStart ∧ timeOf py row "ended" = .ok stepEnd ∧
    r.started ≤ stepStart ∧ stepStart ≤ stepEnd ∧ stepEnd ≤ r.ended

/-- A packet of the VM from the heartbeat's port after the probe was completed. -/
structure Heartbeat (py : Runtime) (r : Request) (completed : ℚ) (p : Packet) : Prop where
  mac : p.mac ∈ macs py r.snapshot
  port : p.sourcePort = some r.heartbeatPort
  after : completed ≤ p.time
  before : p.time ≤ r.ended

/-- The bounds of a capture hold the probe, and a heartbeat comes after it. -/
structure CoversProbe (py : Runtime) (r : Request) (packets : List Packet) : Prop where
  steps : ∃ rows, stepsOf py r.probe = .ok rows ∧ ∀ row ∈ rows, Within py r row
  heartbeat : ∃ completed, timeOf py r.probe "completed_at" = .ok completed ∧ completed ≤ r.ended ∧
    ∃ p ∈ packets, Heartbeat py r completed p

theorem outside_false {row : Value} (h : outside py r.started r.ended row = .ok false) : Within py r row := by
  obtain ⟨stepStart,hstart,h⟩ := ok_of_bind h
  by_cases hlater : r.started ≤ stepStart
  · rw [if_pos hlater] at h
    obtain ⟨stepEnd,hend,h⟩ := ok_of_bind h
    have hbounds : (stepStart ≤ stepEnd && stepEnd ≤ r.ended) = true := by
      simpa [pure,Except.pure] using h
    rw [Bool.and_eq_true,decide_eq_true_eq,decide_eq_true_eq] at hbounds
    exact ⟨stepStart,stepEnd,hstart,hend,hlater,hbounds.1,hbounds.2⟩
  · rw [if_neg hlater] at h
    cases h

theorem singleNic_ok {target : Topology} {nic : Nic} (h : singleNic py target = .ok nic) :
    target.nics = [nic] ∧ truthy py.toPrimitives (member nic.value "interface_present") = true := by
  rw [singleNic] at h
  split at h
  next nic' hnics =>
    split at h
    next hpresent =>
      cases h
      exact ⟨hnics,hpresent⟩
    · cases h
  · cases h

theorem isText_iff {text : Text} {v : Value} : isText text v = true ↔ v = .str text := by
  cases v with
  | str s => simp [isText]
  | _ => simp [isText]

theorem interfaceName_ok {nic : Nic} {capture : Pcapng.Capture} {name : Value} (h : interfaceName nic capture = .ok name) :
    ∃ text, name = .str text ∧ item nic.value "interface" = .ok (.str text) ∧ ∀ i ∈ capture.interfaces, i.name = text := by
  obtain ⟨v,hitem,h⟩ := ok_of_bind h
  obtain ⟨⟨⟩,-,h⟩ := ok_of_bind h
  obtain ⟨⟨⟩,hsame,h⟩ := ok_of_bind h
  cases h
  obtain ⟨hne,hall⟩ := Bool.and_eq_true_iff.mp (ensure_ok hsame)
  cases hinterfaces : capture.interfaces with
  | nil =>
    rw [hinterfaces] at hne
    cases hne
  | cons i later =>
    rw [hinterfaces] at hall
    have hnames := List.all_eq_true.mp hall
    obtain rfl := isText_iff.mp (hnames i List.mem_cons_self)
    exact ⟨i.name,rfl,hitem,fun j hj => (Value.str.inj (isText_iff.mp (hnames j hj))).symm⟩

theorem completedAt_ok {completed : ℚ} (h : completedAt py r = .ok completed) :
    timeOf py r.probe "completed_at" = .ok completed ∧ completed ≤ r.ended ∧
      ∃ rows, stepsOf py r.probe = .ok rows ∧ ∀ row ∈ rows, Within py r row := by
  obtain ⟨time,htime,h⟩ := ok_of_bind h
  obtain ⟨⟨⟩,hended,h⟩ := ok_of_bind h
  obtain ⟨rows,hrows,h⟩ := ok_of_bind h
  obtain ⟨missed,hmissed,h⟩ := ok_of_bind h
  obtain ⟨⟨⟩,hnone,h⟩ := ok_of_bind h
  cases h
  have hnone := ensure_ok hnone
  rw [Bool.not_eq_true'] at hnone
  subst hnone
  exact ⟨htime,of_decide_eq_true (ensure_ok hended),rows,hrows,fun row hrow => outside_false (any_false hmissed row hrow)⟩

theorem isHeartbeat_iff {completed : ℚ} {p : Packet} : isHeartbeat py r completed p = true ↔ Heartbeat py r completed p := by
  rw [isHeartbeat,Bool.and_eq_true,Bool.and_eq_true,Bool.and_eq_true,List.contains_iff_mem]
  simp only [decide_eq_true_eq]
  exact ⟨fun ⟨⟨⟨hmac,hport⟩,hafter⟩,hbefore⟩ => ⟨hmac,hport,hafter,hbefore⟩,
    fun h => ⟨⟨⟨h.mac,h.port⟩,h.after⟩,h.before⟩⟩

theorem checkCapture_ok {capture : Pcapng.Capture} {interface : Value} (h : checkCapture py r capture = .ok interface) :
    ∃ name, interface = .str name ∧ OnMappedNic py r.snapshot capture.interfaces name ∧ CoversProbe py r capture.packets := by
  obtain ⟨nic,hnic,h⟩ := ok_of_bind h
  obtain ⟨v,hname,h⟩ := ok_of_bind h
  obtain ⟨completed,hcompleted,h⟩ := ok_of_bind h
  obtain ⟨⟨⟩,hheartbeat,h⟩ := ok_of_bind h
  cases h
  obtain ⟨hsingle,hpresent⟩ := singleNic_ok hnic
  obtain ⟨name,rfl,hitem,hinterfaces⟩ := interfaceName_ok hname
  obtain ⟨htime,hended,hsteps⟩ := completedAt_ok hcompleted
  obtain ⟨p,hp,hbeat⟩ := List.any_eq_true.mp (ensure_ok hheartbeat)
  exact ⟨name,rfl,⟨⟨nic,hsingle,hpresent,hitem⟩,hinterfaces⟩,hsteps,completed,htime,hended,p,hp,isHeartbeat_iff.mp hbeat⟩

theorem parsed_ok {raw : Bytes} {capture : Pcapng.Capture} (h : parsed raw = .ok capture) :
    capture.packets = (Pcapng.parseCapture raw).1 ∧
      ∃ blocks s, Complete raw blocks s ∧ capture = ⟨s.interfaces,s.packets,s.stats⟩ := by
  rw [parsed] at h
  split at h
  · cases h
  next hparse =>
    cases h
    exact Pcapng.complete_of_parsed hparse

/-- The receipt is of the same topology and the same capture settings, and was made in the hour before. -/
structure Receipt (py : Runtime) (r : Request) (receipt : Value) : Prop where
  identity : ∃ v, get receipt "capture_identity" = .ok v ∧ same py.toPrimitives v r.captureIdentity = true
  topology : ∃ v, get receipt "topology" = .ok v ∧ same py.toPrimitives v (topology py r.snapshot).value = true
  times : ∃ created expires, timeOf py receipt "created_at" = .ok created ∧ timeOf py receipt "expires_at" = .ok expires ∧
    created ≤ r.started ∧ r.started ≤ r.ended ∧ r.ended ≤ r.now+1 ∧ r.now < expires ∧ expires ≤ created+3600

/-- A calibration: its receipt, and a complete capture of its own. -/
structure Calibrated (py : Runtime) (r : Request) (c : Calibration) : Prop where
  read : readCalibration py r = .ok c
  receipt : Receipt py r c.receipt
  capture : ∃ ref raw blocks s, item c.receipt "capture" = .ok ref ∧ rawRef py ref = .ok raw ∧ Complete raw blocks s ∧
    c.old = ⟨s.interfaces,s.packets,s.stats⟩

theorem readReceipt_ok {receipt : Value} (h : readReceipt py r = .ok receipt) :
    (∃ v, get receipt "capture_identity" = .ok v ∧ same py.toPrimitives v r.captureIdentity = true) ∧
      ∃ v, get receipt "topology" = .ok v ∧ same py.toPrimitives v (topology py r.snapshot).value = true := by
  obtain ⟨raw,-,h⟩ := ok_of_bind h
  obtain ⟨v,-,h⟩ := ok_of_bind h
  obtain ⟨schema,-,h⟩ := ok_of_bind h
  obtain ⟨⟨⟩,-,h⟩ := ok_of_bind h
  obtain ⟨identity,hidentity,h⟩ := ok_of_bind h
  obtain ⟨target,htarget,h⟩ := ok_of_bind h
  obtain ⟨⟨⟩,hsame,h⟩ := ok_of_bind h
  cases h
  obtain ⟨hsame,hsame'⟩ := Bool.and_eq_true_iff.mp (ensure_ok hsame)
  exact ⟨⟨identity,hidentity,hsame⟩,target,htarget,hsame'⟩

theorem createdAt_ok {receipt : Value} {created : ℚ} (h : createdAt py r receipt = .ok created) :
    ∃ created expires, timeOf py receipt "created_at" = .ok created ∧ timeOf py receipt "expires_at" = .ok expires ∧
      created ≤ r.started ∧ r.started ≤ r.ended ∧ r.ended ≤ r.now+1 ∧ r.now < expires ∧ expires ≤ created+3600 := by
  obtain ⟨before,hbefore,h⟩ := ok_of_bind h
  obtain ⟨expires,hexpires,h⟩ := ok_of_bind h
  obtain ⟨⟨⟩,horder,h⟩ := ok_of_bind h
  cases h
  have horder := ensure_ok horder
  simp only [Bool.and_eq_true,decide_eq_true_eq] at horder
  obtain ⟨⟨⟨⟨hstarted,hended⟩,hnow⟩,hvalid⟩,hhour⟩ := horder
  exact ⟨created,expires,hbefore,hexpires,hstarted,hended,hnow,hvalid,hhour⟩

theorem readCalibration_ok {c : Calibration} (h : readCalibration py r = .ok c) : Calibrated py r c := by
  have hread := h
  obtain ⟨receipt,hreceipt,h⟩ := ok_of_bind h
  obtain ⟨before,hbefore,h⟩ := ok_of_bind h
  obtain ⟨⟨⟩,-,h⟩ := ok_of_bind h
  obtain ⟨baseline,-,h⟩ := ok_of_bind h
  obtain ⟨⟨⟩,-,h⟩ := ok_of_bind h
  obtain ⟨payload,-,h⟩ := ok_of_bind h
  obtain ⟨ids,-,h⟩ := ok_of_bind h
  obtain ⟨⟨⟩,-,h⟩ := ok_of_bind h
  obtain ⟨window,-,h⟩ := ok_of_bind h
  obtain ⟨rows,-,h⟩ := ok_of_bind h
  obtain ⟨⟨⟩,-,h⟩ := ok_of_bind h
  obtain ⟨ref,href,h⟩ := ok_of_bind h
  obtain ⟨raw,hraw,h⟩ := ok_of_bind h
  obtain ⟨old,hold,h⟩ := ok_of_bind h
  cases h
  obtain ⟨hidentity,htopology⟩ := readReceipt_ok hreceipt
  obtain ⟨-,blocks,s,hcomplete,hcapture⟩ := parsed_ok hold
  exact ⟨hread,⟨hidentity,htopology,createdAt_ok hbefore⟩,ref,raw,blocks,s,href,hraw,hcomplete,hcapture⟩

/-- A row of the calibration's probe that tells of the packet. -/
structure TellsOf (py : Runtime) (c : Calibration) (family : Family) (p : Packet) (row : Value) : Prop where
  family : get row "family" = .ok (.str (familyName family).toList)
  sent : get row "send_completed" = .ok (.bool true)
  destination : get row "destination" = .ok (.str p.destination)
  port : ∃ v, get row "port" = .ok v ∧ same py.toPrimitives v (portValue p.destinationPort) = true
  endpoint : ∃ v, getOr row "local_endpoint" (.str []) = .ok v ∧ ':' :: portText p.sourcePort <:+ str py.toPrimitives v
  time : inTime py c.window p row = .ok true

/-- The calibration saw a packet of the VM on the route that the probe takes now. -/
structure CalibratedPath (py : Runtime) (r : Request) (c : Calibration) (name : Text) (family : Family) : Prop where
  path : ∃ route known p nonce steps row,
    routeOf py r.probe family = .ok route ∧ routeOf py c.baseline family = .ok known ∧ same py.toPrimitives known route = true ∧
    p ∈ c.old.packets ∧ p.mac ∈ macs py r.snapshot ∧ p.interface = name ∧ p.family = family ∧
    item route "source" = .ok (.str p.source) ∧ p.destination ∈ destinations ∧
    get c.baseline "nonce" = .ok (.str nonce) ∧ nonce ≠ [] ∧ Utf8.encode nonce <:+: p.payload ∧
    item c.baseline "steps" >>= iterate = .ok steps ∧ row ∈ steps ∧ TellsOf py c family p row

theorem isSent_true {family : Family} {row : Value} (h : isSent family row = .ok true) :
    get row "family" = .ok (.str (familyName family).toList) ∧ get row "send_completed" = .ok (.bool true) := by
  obtain ⟨v,hfamily,h⟩ := ok_of_bind h
  by_cases hname : isText (familyName family).toList v = true
  · rw [if_pos hname] at h
    obtain ⟨sent,hsent,h⟩ := ok_of_bind h
    obtain rfl := isText_iff.mp hname
    refine ⟨hfamily,?_⟩
    cases sent with
    | bool b =>
      cases b with
      | true => exact hsent
      | false => cases h
    | _ => cases h
  · rw [if_neg hname] at h
    cases h

theorem rowMatches_true {c : Calibration} {p : Packet} {row : Value} (h : rowMatches py c.window p row = .ok true) :
    get row "destination" = .ok (.str p.destination) ∧
      (∃ v, get row "port" = .ok v ∧ same py.toPrimitives v (portValue p.destinationPort) = true) ∧
      (∃ v, getOr row "local_endpoint" (.str []) = .ok v ∧ ':' :: portText p.sourcePort <:+ str py.toPrimitives v) ∧
      inTime py c.window p row = .ok true := by
  obtain ⟨destination,hdestination,h⟩ := ok_of_bind h
  by_cases hsame : isText p.destination destination = true
  · rw [if_pos hsame] at h
    obtain ⟨port,hport,h⟩ := ok_of_bind h
    by_cases hsamePort : same py.toPrimitives port (portValue p.destinationPort) = true
    · rw [if_pos hsamePort] at h
      obtain ⟨endpoint,hendpoint,h⟩ := ok_of_bind h
      by_cases hsuffix : isEndpoint py p endpoint = true
      · rw [if_pos hsuffix] at h
        obtain rfl := isText_iff.mp hsame
        exact ⟨hdestination,⟨port,hport,hsamePort⟩,⟨endpoint,hendpoint,of_decide_eq_true hsuffix⟩,h⟩
      · rw [if_neg hsuffix] at h
        cases h
    · rw [if_neg hsamePort] at h
      cases h
  · rw [if_neg hsame] at h
    cases h

theorem text_ok {v : Value} {s : Text} (h : text v = .ok s) : v = .str s := by
  cases v with
  | str s' =>
    cases h
    rfl
  | _ => cases h

theorem packetMatches_true {c : Calibration} {name : Text} {route : Value} {family : Family} {rows : List Value} {p : Packet}
    (h : packetMatches py r c (.str name) route family rows p = .ok true) :
    p.mac ∈ macs py r.snapshot ∧ p.interface = name ∧ p.family = family ∧ item route "source" = .ok (.str p.source) ∧
      p.destination ∈ destinations ∧ (∃ nonce, getOr c.baseline "nonce" (.str []) = .ok (.str nonce) ∧ Utf8.encode nonce <:+: p.payload) ∧
      ∃ row ∈ rows, rowMatches py c.window p row = .ok true := by
  rw [packetMatches] at h
  by_cases hpath : ((macs py r.snapshot).contains p.mac && isText p.interface (.str name) && decide (p.family = family)) = true
  · rw [if_pos hpath] at h
    obtain ⟨source,hsource,h⟩ := ok_of_bind h
    by_cases haddresses : (isText p.source source && destinations.contains p.destination) = true
    · rw [if_pos haddresses] at h
      obtain ⟨v,hnonce,h⟩ := ok_of_bind h
      obtain ⟨nonce,htext,hrest⟩ := ok_of_bind h
      obtain rfl := text_ok htext
      by_cases hinside : Utf8.encode nonce <:+: p.payload
      · rw [if_pos hinside] at hrest
        simp only [Bool.and_eq_true,List.contains_iff_mem,decide_eq_true_eq] at hpath haddresses
        obtain ⟨⟨hmac,hinterface⟩,hfamily⟩ := hpath
        obtain ⟨hsame,hdestination⟩ := haddresses
        obtain rfl := isText_iff.mp hsame
        cases isText_iff.mp hinterface
        exact ⟨hmac,rfl,hfamily,hsource,hdestination,⟨nonce,hnonce,hinside⟩,any_true hrest⟩
      · rw [if_neg hinside] at hrest
        cases hrest
    · rw [if_neg haddresses] at h
      cases h
  · rw [if_neg hpath] at h
    cases h

theorem memberOr_of_truthy {d default : Value} {name : String} (h : member d name ≠ .null) : memberOr d name default = member d name := by
  rw [member,memberOr] at h ⊢
  rw [memberOr]
  cases hget : d.get? name.toList with
  | none =>
    rw [hget] at h
    exact absurd rfl h
  | some v => rfl

theorem confirmedRoute_ok {c : Calibration} {name : Text} {family : Family} {route : Value}
    (h : confirmedRoute py r c (.str name) family = .ok route) : CalibratedPath py r c name family := by
  obtain ⟨current,hcurrent,h⟩ := ok_of_bind h
  obtain ⟨known,hknown,h⟩ := ok_of_bind h
  obtain ⟨⟨⟩,hsame,h⟩ := ok_of_bind h
  obtain ⟨v,hv,h⟩ := ok_of_bind h
  obtain ⟨steps,hsteps,h⟩ := ok_of_bind h
  obtain ⟨rows,hrows,h⟩ := ok_of_bind h
  obtain ⟨matching,hmatching,h⟩ := ok_of_bind h
  obtain ⟨nonceValue,hnonceValue,h⟩ := ok_of_bind h
  obtain ⟨⟨⟩,hfound,h⟩ := ok_of_bind h
  cases h
  obtain ⟨hne,htruthy⟩ := Bool.and_eq_true_iff.mp (ensure_ok hfound)
  rw [Bool.not_eq_true',List.isEmpty_eq_false_iff_exists_mem] at hne
  obtain ⟨p,hp⟩ := hne
  obtain ⟨hpacket,hmatches⟩ := select_ok hmatching p hp
  obtain ⟨hmac,hinterface,hfamily,hsource,hdestination,⟨nonce,hnonce,hinside⟩,row,hrow,htells⟩ := packetMatches_true hmatches
  obtain ⟨hstep,hsent⟩ := select_ok hrows row hrow
  obtain ⟨hrowFamily,hcompleted⟩ := isSent_true hsent
  obtain ⟨hrowDestination,hport,hendpoint,htime⟩ := rowMatches_true htells
  obtain ⟨hdict,hmember⟩ := getOr_ok hnonceValue
  obtain ⟨-,hmember'⟩ := getOr_ok hnonce
  have hnull : member c.baseline "nonce" ≠ .null := by
    intro hnull
    rw [member] at hnull
    rw [hmember,hnull] at htruthy
    cases htruthy
  have hvalue : nonceValue = .str nonce := by
    rw [hmember,hmember']
    exact (memberOr_of_truthy hnull).symm
  refine ⟨route,known,p,nonce,steps,row,hcurrent,hknown,ensure_ok hsame,hpacket,hmac,hinterface,hfamily,hsource,hdestination,
    ?_,?_,hinside,?_,hstep,hrowFamily,hcompleted,hrowDestination,hport,hendpoint,htime⟩
  · rw [hnonceValue,hvalue]
  · rintro rfl
    rw [hvalue] at htruthy
    cases htruthy
  · rw [hv]
    exact hsteps

/-- What a capture has to show before it is believed that there was no leak. -/
structure Qualified (py : Runtime) (r : Request) : Prop where
  holds : ∃ blocks s name c, Complete r.capture blocks s ∧ (∀ p ∈ s.packets, ¬Leak py r.snapshot p) ∧
    OnMappedNic py r.snapshot s.interfaces name ∧ CoversProbe py r s.packets ∧ Calibrated py r c ∧
    ∀ family, CalibratedPath py r c name family

theorem observePath_value {c : Calibration} {name : Text} {family : Family} {path : Path}
    (h : observePath py r c (.str name) family = .ok path) (hvalue : path.value = some true) : CalibratedPath py r c name family := by
  rw [observePath] at h
  split at h
  next hroute => exact confirmedRoute_ok hroute
  · split at h
    · cases h
      cases hvalue
    · cases h

theorem wp_evaluate (hnone : ((Pcapng.parseCapture r.capture).1.filter (isLeak py r.snapshot)).isEmpty = true) :
    Fallible.wp (evaluate py r) (fun _ result => result.value ≠ some false ∧ (result.value = some true → Qualified py r))
      (fun _ result => result.value = none) Result.init := by
  have hleaks : ∀ p ∈ (Pcapng.parseCapture r.capture).1, ¬Leak py r.snapshot p := by
    intro p hp hleak
    have hmem := List.mem_filter.mpr ⟨hp,isLeak_iff.mpr hleak⟩
    rw [List.isEmpty_iff.mp hnone] at hmem
    exact absurd hmem List.not_mem_nil
  simp only [evaluate,hnone,if_true,observeFamily,Fallible.wp_bind,Fallible.wp_ofExcept,Fallible.wp_modify,Fallible.wp_pure]
  refine ⟨fun capture hcapture => ⟨fun interface hcheck => ⟨fun c hcalibration =>
    ⟨fun ipv4 hipv4 => ⟨fun ipv6 hipv6 => ?_,fun _ _ => rfl⟩,fun _ _ => rfl⟩,fun _ _ => rfl⟩,fun _ _ => rfl⟩,fun _ _ => rfl⟩
  rw [Result.concluded]
  split
  next hall =>
    refine ⟨fun h => (by cases h),fun _ => ?_⟩
    simp only [List.all_cons,List.all_nil,Bool.and_true,Bool.and_eq_true,decide_eq_true_eq] at hall
    obtain ⟨hpackets,blocks,s,hcomplete,rfl⟩ := parsed_ok hcapture
    obtain ⟨name,rfl,hnic,hcovers⟩ := checkCapture_ok hcheck
    refine ⟨blocks,s,name,c,hcomplete,fun p hp => hleaks p (hpackets ▸ hp),hnic,hcovers,readCalibration_ok hcalibration,?_⟩
    intro family
    cases family with
    | ipv4 => exact observePath_value hipv4 hall.1
    | ipv6 => exact observePath_value hipv6 hall.2
  · exact ⟨fun h => (by cases h),fun h => (by cases h)⟩

theorem evaluateCapture_leaked
    (hleaks : ((Pcapng.parseCapture r.capture).1.filter (isLeak py r.snapshot)).isEmpty = false) :
    evaluateCapture py r = .ok (Result.leaked ((Pcapng.parseCapture r.capture).1.filter (isLeak py r.snapshot)) Result.init) := by
  rw [evaluateCapture,Fallible.tryExcept,evaluate,hleaks]
  rfl

theorem evaluateCapture_clean
    (hnone : ((Pcapng.parseCapture r.capture).1.filter (isLeak py r.snapshot)).isEmpty = true) {result : Result}
    (h : evaluateCapture py r = .ok result) : result.value ≠ some false ∧ (result.value = some true → Qualified py r) := by
  have hwp := wp_evaluate hnone
  rw [evaluateCapture,Fallible.tryExcept] at h
  rw [Fallible.wp] at hwp
  generalize evaluate py r Result.init = ran at h hwp
  obtain ⟨outcome,reached⟩ := ran
  cases outcome with
  | ok u =>
    cases h
    exact hwp
  | error fault =>
    dsimp only [handle] at h
    by_cases hcatches : catches fault.kind = true
    · rw [if_pos hcatches] at h
      cases h
      have hvalue : reached.value = none := hwp
      rw [Result.failed,hvalue]
      exact ⟨fun h => (by cases h),fun h => (by cases h)⟩
    · rw [if_neg hcatches] at h
      cases h

/-- The value is `False` exactly when a leak can be read off the front of the capture, and `True` only for a capture
that is qualified. -/
theorem evaluateCapture_safe (py : Runtime) (r : Request) :
    ((∃ result, evaluateCapture py r = .ok result ∧ result.value = some false) ↔
      ∃ blocks s, ParsedPrefix r.capture blocks s ∧ ∃ p ∈ s.packets, Leak py r.snapshot p) ∧
    ((∃ result, evaluateCapture py r = .ok result ∧ result.value = some true) → Qualified py r) := by
  rw [← leaks_iff]
  cases hleaks : ((Pcapng.parseCapture r.capture).1.filter (isLeak py r.snapshot)).isEmpty with
  | false =>
    have hleaked := evaluateCapture_leaked hleaks
    refine ⟨⟨fun _ => rfl,fun _ => ⟨_,hleaked,rfl⟩⟩,?_⟩
    rintro ⟨result,hresult,hvalue⟩
    rw [hleaked] at hresult
    cases hresult
    cases hvalue
  | true =>
    refine ⟨⟨?_,fun h => (nomatch h)⟩,?_⟩
    · rintro ⟨result,hresult,hvalue⟩
      exact absurd hvalue (evaluateCapture_clean hleaks hresult).1
    · rintro ⟨result,hresult,hvalue⟩
      exact (evaluateCapture_clean hleaks hresult).2 hvalue

end RunningObservation
end FakeNetNG
