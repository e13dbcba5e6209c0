import FakeNetNG.PortSpec

/-!
# The configuration model of the editor

Sections in order, each with its options in order. Keys keep their case and are looked up without it.
-/

namespace FakeNetNG

/-- `str.lower` and `str.upper`, of which only their effect on ASCII is used. -/
structure CaseMap where
  lower : Text → Text
  upper : Text → Text
  lower_ascii : ∀ text : Text, (∀ c ∈ text, c.toNat < 128) → lower text = text.map Char.toLower
  upper_ascii : ∀ text : Text, (∀ c ∈ text, c.toNat < 128) → upper text = text.map Char.toUpper

def CaseMap.ascii : CaseMap where
  lower text := text.map Char.toLower
  upper text := text.map Char.toUpper
  lower_ascii _ _ := rfl
  upper_ascii _ _ := rfl

structure Section where
  name : Text
  items : List (Text × Text)

structure ConfigModel where
  sections : List Section

namespace Section

def isListener (sec : Section) : Bool := sec.name ≠ "FakeNet".toList && sec.name ≠ "Diverter".toList

def get (py : CaseMap) (sec : Section) (key : String) : Option Text :=
  (sec.items.find? fun item => py.lower item.1 = py.lower key.toList).map Prod.snd

/-- `sec.get(key) or default`. -/
def getOr (py : CaseMap) (sec : Section) (key : String) (default : String) : Text :=
  match sec.get py key with
  | none | some [] => default.toList
  | some value => value

/-- `(sec.get(key) or '').strip()`. -/
def stripped (py : CaseMap) (sec : Section) (key : String) : Text := Text.strip (sec.getOr py key "")

end Section

namespace ConfigModel

def listenerSections (m : ConfigModel) : List Section := m.sections.filter Section.isListener

def ensureSection (m : ConfigModel) (name : String) : Section :=
  (m.sections.find? fun sec => sec.name = name.toList).getD ⟨name.toList,[]⟩

def diverter (m : ConfigModel) : Section := m.ensureSection "Diverter"

def fakenet (m : ConfigModel) : Section := m.ensureSection "FakeNet"

/-- `'%d' % n`. -/
def signedDecimal : ℤ → Text
  | .ofNat n => Text.decimal n
  | .negSucc n => '-' :: Text.decimal (n+1)

/-- The names that `expand_listeners` would make of a section. Nothing is a `ValueError`. -/
def expandedListenerNames (py : CaseMap) (sec : Section) : Option (List Text) :=
  match sec.get py "Port" with
  | none => some []
  | some spec =>
    if Text.strip spec = [] then some []
    else (expandPorts spec).map fun ports =>
      if 1 < ports.length then ports.map fun port => sec.name++ '_' :: signedDecimal port else [sec.name]

end ConfigModel
end FakeNetNG
