import FakeNetNG.GuiValidator
import FakeNetNG.Keyed

/-!
# Provisioning of the topology

`ensure_egress_control_topology` works on one section after another: a relay, two listeners for DNS and
two for HTTP. A section is found by what it is and made under a fixed name, so a step may write over a
section that an earlier step has found, or enable one that is something else.
-/

namespace FakeNetNG

namespace Section

variable (py : CaseMap)

@[grind] def setItem (key value : Text) : List (Text × Text) → List (Text × Text)
  | [] => [(key,value)]
  | item :: rest =>
    if py.lower item.1 = py.lower key then (item.1,value) :: rest else item :: setItem key value rest

def set (sec : Section) (key : String) (value : Text) : Section :=
  { sec with items := setItem py key.toList value sec.items }

def setAll (sec : Section) (values : List (String × Text)) : Section :=
  values.foldl (fun sec item => sec.set py item.1 item.2) sec

variable {py}

@[simp] theorem name_set (sec : Section) (key : String) (value : Text) : (sec.set py key value).name = sec.name := rfl

@[simp] theorem name_setAll (sec : Section) (values : List (String × Text)) :
    (sec.setAll py values).name = sec.name := by
  induction values generalizing sec with
  | nil => rfl
  | cons item values ih => exact ih (sec.set py item.1 item.2)

theorem get_set_self (sec : Section) (key : String) (value : Text) : (sec.set py key value).get py key = some value := by
  obtain ⟨name,items⟩ := sec
  show Option.map Prod.snd ((setItem py key.toList value items).find? fun item =>
    py.lower item.1 = py.lower key.toList) = some value
  induction items with
  | nil => simp [setItem]
  | cons item rest ih =>
    rw [setItem]
    by_cases hitem : py.lower item.1 = py.lower key.toList
    · rw [if_pos hitem,List.find?_cons_of_pos (by simpa using hitem)]
      rfl
    · rw [if_neg hitem,List.find?_cons_of_neg (by simpa using hitem)]
      exact ih

/-- An option with another key, letter case aside, stays. -/
theorem get_set_of_ne (sec : Section) {key key' : String} (value : Text)
    (h : py.lower key.toList ≠ py.lower key'.toList) : (sec.set py key value).get py key' = sec.get py key' := by
  obtain ⟨name,items⟩ := sec
  show Option.map Prod.snd ((setItem py key.toList value items).find? fun item =>
    py.lower item.1 = py.lower key'.toList) = Option.map Prod.snd (items.find? fun item =>
      py.lower item.1 = py.lower key'.toList)
  induction items with
  | nil => simp [setItem,h]
  | cons item rest ih =>
    rw [setItem]
    by_cases hitem : py.lower item.1 = py.lower key.toList
    · rw [if_pos hitem,List.find?_cons_of_neg (by simpa [hitem] using h),
        List.find?_cons_of_neg (by simpa [hitem] using h)]
    · rw [if_neg hitem,List.find?_cons,List.find?_cons]
      split
      · rfl
      · exact ih

/-- Keys that are written in ASCII and differ in more than letter case. -/
def apart (key key' : String) : Bool :=
  key.toList.all (fun c => c.toNat < 128) && key'.toList.all (fun c => c.toNat < 128) &&
    key.toList.map Char.toLower ≠ key'.toList.map Char.toLower

theorem lower_ne_of_apart {key key' : String} (h : apart key key' = true) :
    py.lower key.toList ≠ py.lower key'.toList := by
  simp only [apart,Bool.and_eq_true,List.all_eq_true,decide_eq_true_eq] at h
  rw [py.lower_ascii _ h.1.1,py.lower_ascii _ h.1.2]
  exact h.2

theorem get_set_of_apart (sec : Section) {key key' : String} (value : Text) (h : apart key key' = true) :
    (sec.set py key value).get py key' = sec.get py key' :=
  get_set_of_ne sec value (lower_ne_of_apart h)

theorem getOr_set_of_apart (sec : Section) {key key' : String} (value : Text) (default : String)
    (h : apart key key' = true) : (sec.set py key value).getOr py key' default = sec.getOr py key' default := by
  rw [getOr,getOr,get_set_of_apart sec value h]

theorem getOr_set_self (sec : Section) (key : String) {value : Text} (default : String) (h : value ≠ []) :
    (sec.set py key value).getOr py key default = value := by
  rw [getOr,get_set_self]
  cases value with
  | nil => exact absurd rfl h
  | cons c rest => rfl

/-- Assignments to other keys. -/
theorem get_setAll_of_apart (sec : Section) {values : List (String × Text)} {key : String}
    (h : values.all fun item => apart item.1 key) : (sec.setAll py values).get py key = sec.get py key := by
  induction values generalizing sec with
  | nil => rfl
  | cons item values ih =>
    simp only [List.all_cons,Bool.and_eq_true] at h
    exact (ih (sec.set py item.1 item.2) h.2).trans (get_set_of_apart sec item.2 h.1)

theorem getOr_setAll_of_apart (sec : Section) {values : List (String × Text)} {key : String} (default : String)
    (h : values.all fun item => apart item.1 key) :
    (sec.setAll py values).getOr py key default = sec.getOr py key default := by
  rw [getOr,getOr,get_setAll_of_apart sec h]

theorem setAll_append (sec : Section) (front back : List (String × Text)) :
    sec.setAll py (front++back) = (sec.setAll py front).setAll py back := List.foldl_append

/-- The last assignment to a key. -/
theorem getOr_setAll (sec : Section) (front : List (String × Text)) {back : List (String × Text)} {key : String}
    {value : Text} (default : String) (hvalue : value ≠ []) (hback : back.all fun item => apart item.1 key) :
    (sec.setAll py (front++(key,value) :: back)).getOr py key default = value := by
  rw [setAll_append]
  show (((sec.setAll py front).set py key value).setAll py back).getOr py key default = value
  rw [getOr_setAll_of_apart _ default hback,getOr_set_self _ key default hvalue]

theorem setItem_setItem (key value : Text) (items : List (Text × Text)) :
    setItem py key value (setItem py key value items) = setItem py key value items := by
  induction items with
  | nil => simp [setItem]
  | cons item rest ih =>
    rw [setItem]
    by_cases hitem : py.lower item.1 = py.lower key
    · rw [if_pos hitem,setItem,if_pos hitem]
    · rw [if_neg hitem,setItem,if_neg hitem,ih]

/-- To assign a value twice is to assign it once. -/
theorem set_set (sec : Section) (key : String) (value : Text) :
    (sec.set py key value).set py key value = sec.set py key value := by
  rw [set,set,setItem_setItem]

end Section

namespace ConfigModel

/-- A section is put back under its name, or added. -/
def put (m : ConfigModel) (sec : Section) : ConfigModel := ⟨Keyed.put Section.name sec m.sections⟩

def ensureSections (m : ConfigModel) : ConfigModel :=
  let m := m.put (m.ensureSection "FakeNet")
  m.put (m.ensureSection "Diverter")

end ConfigModel

namespace Validator

section Steps

variable (py : CaseMap)

def portIs (sec : Section) (port : ℤ) : Bool :=
  (ConfigModel.expandPorts (sec.getOr py "Port" "")).any fun ports => ports.contains port

def takeoverIp (m : ConfigModel) : Text := m.diverter.stripped py "ExternalTakeoverIPv4"

/-- The port that the relay has to have. -/
def requiredRelayPort (m : ConfigModel) : Text :=
  let port := Text.strip (m.diverter.getOr py "ExternalRelayPort" "38927")
  if port = [] then "38927".toList else port

/-- `str(sec.get('Port')).strip()`. -/
def portText (sec : Section) : Text := Text.strip ((sec.get py "Port").getD "None".toList)

def isRelay (sec : Section) : Bool := listensAs py sec "DomainEgressRelay"

def isDns (protocol : String) (sec : Section) : Bool :=
  listensAs py sec "DNSListener" && hasProtocol py protocol sec

def firstRelay (m : ConfigModel) : Option Section := (enabledListeners py m).find? (isRelay py)

/-- The listener that answers for a protocol on port 53. -/
def firstDns (protocol : String) (m : ConfigModel) : Option Section :=
  (enabledListeners py m).find? fun sec => isDns py protocol sec && portIs py sec 53

def firstHttp (port : ℤ) (m : ConfigModel) : Option Section :=
  (enabledListeners py m).find? fun sec => listensAs py sec "HTTPListener" && portIs py sec port

def bracketed (name : Text) (rest : String) : Text := '[' :: name++"] ".toList++rest.toList

def relayFields : List (String × Text) :=
  [("Listener","DomainEgressRelay".toList),("Protocol","TCP".toList),("Hidden","True".toList)]

def provisionRelay (m : ConfigModel) : ConfigModel × List Text :=
  let port := requiredRelayPort py m
  match firstRelay py m with
  | none =>
    let sec := match m.listenerSections.find? (isRelay py) with
      | some sec => sec
      | none => (m.ensureSection "Domain Egress Relay").setAll py relayFields
    let sec := sec.setAll py [("Enabled","True".toList),("Port",port)]
    (m.put sec,[bracketed sec.name "已配置 DomainEgressRelay(TCP/"++port++")".toList])
  | some relay =>
    if portText py relay ≠ port then
      (m.put (relay.set py "Port" port),[bracketed relay.name "Port 已同步为 "++port])
    else
      (m,[])

def dnsFields (protocol : String) : List (String × Text) :=
  [("Listener","DNSListener".toList),("Protocol",protocol.toList),("Port","53".toList),
    ("ResponseMX","mail.evil2.com".toList),("ResponseTXT","FAKENET".toList),("NXDomains","0".toList),
    ("Hidden","False".toList)]++if protocol = "TCP" then [("Timeout","5".toList)] else []

/-- The section that a protocol is served by, as it is before its address is looked at. -/
def serveDns (protocol name : String) (m : ConfigModel) : Section × List Text :=
  match firstDns py protocol m with
  | some sec => (sec,[])
  | none =>
    let found := match m.listenerSections.find? (isDns py protocol) with
      | some sec => (sec,[])
      | none =>
        let sec := (m.ensureSection name).setAll py (dnsFields protocol)
        (sec,[bracketed sec.name "已创建("++protocol.toList++"/53 DNSListener)".toList])
    let sec := found.1.set py "Enabled" "True".toList
    if portIs py sec 53 then (sec,found.2)
    else (sec.set py "Port" "53".toList,found.2++[bracketed sec.name "Port 已设为 53"])

def provisionDns (sink : Text) (protocol name : String) (m : ConfigModel) : ConfigModel × List Text :=
  let served := serveDns py protocol name m
  if sink ≠ [] ∧ served.1.stripped py "ResponseA" = [] then
    (m.put (served.1.set py "ResponseA" sink),
      served.2++[bracketed served.1.name "ResponseA 已填为接管 sink "++sink])
  else
    (m.put served.1,served.2)

def httpFields (port useSsl : String) : List (String × Text) :=
  [("Listener","HTTPListener".toList),("Protocol","TCP".toList),("Port",port.toList),("UseSSL",useSsl.toList),
    ("Webroot","defaultFiles/".toList),("Timeout","10".toList),("DumpHTTPPosts","Yes".toList),
    ("DumpHTTPPostsFilePrefix","http".toList),("Hidden","False".toList)]

def provisionHttp (name : String) (port : ℤ) (portName useSsl : String) (m : ConfigModel) :
    ConfigModel × List Text :=
  match firstHttp py port m with
  | some _ => (m,[])
  | none =>
    match m.listenerSections.find? fun sec => sec.name = name.toList with
    | some sec => (m.put (sec.set py "Enabled" "True".toList),[])
    | none =>
      let sec := (m.ensureSection name).setAll py (httpFields portName useSsl)
      (m.put (sec.set py "Enabled" "True".toList),
        [bracketed sec.name "已创建(HTTPListener TCP/"++portName.toList++",内容监听)".toList])

def ensureEgressControlTopology (m : ConfigModel) : ConfigModel × List Text :=
  let r := provisionRelay py m.ensureSections
  let sink := takeoverIp py r.1
  let u := provisionDns py sink "UDP" "DNS Server" r.1
  let t := provisionDns py sink "TCP" "DNS TCP Server" u.1
  let plain := provisionHttp py "HTTPListener80" 80 "80" "No" t.1
  let secure := provisionHttp py "HTTPListener443" 443 "443" "Yes" plain.1
  (secure.1,r.2++u.2++t.2++plain.2++secure.2)

end Steps

end Validator
end FakeNetNG
