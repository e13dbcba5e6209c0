import FakeNetNG.Fallible
import FakeNetNG.JsonText

/-!
# JSON values in Python

What a program does with a value that `json.loads` gave it: it compares values, asks for members, walks through
lists. A value of the wrong kind raises the exception that Python raises.
-/

namespace FakeNetNG
namespace PyJson

open Json (Value FloatText)

inductive Kind
  | valueError | keyError | typeError | attributeError | osError
  /-- Whatever no handler here catches. -/
  | otherError
  deriving DecidableEq

structure Fault where
  kind : Kind
  text : String

def Fault.value (text : String) : Fault where
  kind := .valueError
  text := text

/-- `if not condition: raise ValueError(text)`. -/
def ensure (condition : Bool) (text : String) : Except Fault Unit := if condition then .ok () else .error (.value text)

theorem ensure_ok {condition : Bool} {text : String} (h : ensure condition text = .ok ()) : condition = true := by
  cases condition with
  | false => cases h
  | true => rfl

inductive Number
  | finite (q : ℚ)
  | infinity | negInfinity | nan
  deriving DecidableEq

def Number.same : Number → Number → Bool
  | .nan, _ => false
  | a, b => a = b

def Number.rational? : Number → Option ℚ
  | .finite q => some q
  | _ => none

structure Primitives where
  float : FloatText → Number
  repr : Value → Text

variable (py : Primitives)

def number? : Value → Option Number
  | .bool b => some (.finite (if b then 1 else 0))
  | .int n => some (.finite n)
  | .float f => some (py.float f)
  | _ => none

def isNull : Value → Bool
  | .null => true
  | _ => false

def sameNumber (a b : Option Number) : Bool :=
  match a, b with
  | some a, some b => a.same b
  | _, _ => false

def names (members : List (Text × Value)) : List Text := members.map Prod.fst

mutual

def same : Value → Value → Bool
  | .null, w => isNull w
  | .bool b, w => sameNumber (number? py (.bool b)) (number? py w)
  | .int n, w => sameNumber (number? py (.int n)) (number? py w)
  | .float f, w => sameNumber (number? py (.float f)) (number? py w)
  | .str s, w =>
    match w with
    | .str t => s = t
    | _ => false
  | .arr items, w =>
    match w with
    | .arr items' => sameItems items items'
    | _ => false
  | .obj members, w =>
    match w with
    | .obj members' => sameMembers members (.obj members') && names members' ⊆ names members
    | _ => false

def sameItems : List Value → List Value → Bool
  | [], items => items.isEmpty
  | v :: rest, items =>
    match items with
    | [] => false
    | w :: items => same v w && sameItems rest items

def sameMembers : List (Text × Value) → Value → Bool
  | [], _ => true
  | (name,v) :: rest, w =>
    (name ∈ names rest || match w.get? name with
      | none => false
      | some v' => same v v') && sameMembers rest w

end

def isText (text : Text) : Value → Bool
  | .str s => s = text
  | _ => false

/-- `v is True` and `v is False`. -/
def isBool (b : Bool) : Value → Bool
  | .bool b' => b' = b
  | _ => false

def truthy : Value → Bool
  | .null => false
  | .bool b => b
  | .int n => n ≠ 0
  | .float f => py.float f ≠ .finite 0
  | .str s => s ≠ []
  | .arr items => !items.isEmpty
  | .obj members => !members.isEmpty

def orElse (v default : Value) : Value := if truthy py v then v else default

/-- `type(v).__name__`. -/
def typeName : Value → String
  | .null => "NoneType"
  | .bool _ => "bool"
  | .int _ => "int"
  | .float _ => "float"
  | .str _ => "str"
  | .arr _ => "list"
  | .obj _ => "dict"

def str : Value → Text
  | .null => "None".toList
  | .bool true => "True".toList
  | .bool false => "False".toList
  | .int n => Json.writeInt n
  | .float f => f.text
  | .str s => s
  | v => py.repr v

def isDict : Value → Bool
  | .obj _ => true
  | _ => false

def isList : Value → Bool
  | .arr _ => true
  | _ => false

/-- `d.get(name, default)` of a dictionary. -/
def memberOr (d : Value) (name : String) (default : Value) : Value := (d.get? name.toList).getD default

/-- `d.get(name)` of a dictionary. -/
def member (d : Value) (name : String) : Value := memberOr d name .null

/-- `v.get(name, default)`. -/
def getOr (v : Value) (name : String) (default : Value) : Except Fault Value :=
  if isDict v then .ok (memberOr v name default)
  else .error ⟨.attributeError,"'"++typeName v++"' object has no attribute 'get'"⟩

def get (v : Value) (name : String) : Except Fault Value := getOr v name .null

def item (v : Value) (name : String) : Except Fault Value :=
  match v with
  | .obj members =>
    match (Value.obj members).get? name.toList with
    | some w => .ok w
    | none => .error ⟨.keyError,"'"++name++"'"⟩
  | .arr _ => .error ⟨.typeError,"list indices must be integers or slices, not str"⟩
  | .str _ => .error ⟨.typeError,"string indices must be integers, not 'str'"⟩
  | v => .error ⟨.typeError,"'"++typeName v++"' object is not subscriptable"⟩

/-- `for row in v`; a dictionary gives its keys and a text its characters. -/
def iterate : Value → Except Fault (List Value)
  | .arr items => .ok items
  | .obj members => .ok ((names members).eraseDups.map .str)
  | .str s => .ok (s.map fun c => .str [c])
  | v => .error ⟨.typeError,"'"++typeName v++"' object is not iterable"⟩

def len : Value → Except Fault ℕ
  | .arr items => .ok items.length
  | .obj members => .ok (names members).eraseDups.length
  | .str s => .ok s.length
  | v => .error ⟨.typeError,"object of type '"++typeName v++"' has no len()"⟩

def hash (v : Value) : Except Fault Unit :=
  if isDict v ∨ isList v then .error ⟨.typeError,"unhashable type: '"++typeName v++"'"⟩ else .ok ()

/-- `v.encode()`. -/
def text (v : Value) : Except Fault Text :=
  match v with
  | .str s => .ok s
  | v => .error ⟨.attributeError,"'"++typeName v++"' object has no attribute 'encode'"⟩

variable {α : Type}

/-- `any(p(a) for a in l)`. -/
def any (p : α → Except Fault Bool) : List α → Except Fault Bool
  | [] => .ok false
  | a :: l => p a >>= fun found => if found then .ok true else any p l

/-- `[a for a in l if p(a)]`. -/
def select (p : α → Except Fault Bool) : List α → Except Fault (List α)
  | [] => .ok []
  | a :: l => p a >>= fun keep => select p l >>= fun rest => .ok (if keep then a :: rest else rest)

variable {p : α → Except Fault Bool} {l l' : List α}

theorem any_true (h : any p l = .ok true) : ∃ a ∈ l, p a = .ok true := by
  induction l with
  | nil => cases h
  | cons a l ih =>
    obtain ⟨found,hfound,h⟩ := ok_of_bind h
    cases found with
    | true => exact ⟨a,List.mem_cons_self,hfound⟩
    | false =>
      obtain ⟨b,hb,hp⟩ := ih h
      exact ⟨b,List.mem_cons_of_mem a hb,hp⟩

theorem any_false (h : any p l = .ok false) : ∀ a ∈ l, p a = .ok false := by
  induction l with
  | nil => exact fun a ha => absurd ha List.not_mem_nil
  | cons a l ih =>
    obtain ⟨found,hfound,h⟩ := ok_of_bind h
    cases found with
    | true => cases h
    | false => exact List.forall_mem_cons.mpr ⟨hfound,ih h⟩

theorem select_ok (h : select p l = .ok l') : ∀ a ∈ l', a ∈ l ∧ p a = .ok true := by
  induction l generalizing l' with
  | nil =>
    cases h
    exact fun a ha => absurd ha List.not_mem_nil
  | cons a l ih =>
    obtain ⟨keep,hkeep,h⟩ := ok_of_bind h
    obtain ⟨rest,hrest,h⟩ := ok_of_bind h
    cases h
    have htail : ∀ b ∈ rest, b ∈ a :: l ∧ p b = .ok true := fun b hb =>
      ⟨List.mem_cons_of_mem a (ih hrest b hb).1,(ih hrest b hb).2⟩
    cases keep with
    | false => exact htail
    | true => exact List.forall_mem_cons.mpr ⟨⟨List.mem_cons_self,hkeep⟩,htail⟩

theorem getOr_ok {v w default : Value} {name : String} (h : getOr v name default = .ok w) :
    isDict v = true ∧ w = memberOr v name default := by
  rw [getOr] at h
  split at h
  next hdict =>
    cases h
    exact ⟨hdict,rfl⟩
  · cases h

mutual

/-- `sort_keys=True`. -/
def sortKeys : Value → Value
  | .arr items => .arr (sortItems items)
  | .obj members => .obj ((sortMembers members).mergeSort fun a b => decide (a.1 ≤ b.1))
  | v => v

def sortItems : List Value → List Value
  | [] => []
  | v :: items => sortKeys v :: sortItems items

def sortMembers : List (Text × Value) → List (Text × Value)
  | [] => []
  | (name,v) :: members => (name,sortKeys v) :: sortMembers members

end

def canonicalJson (v : Value) : Text := Json.write (sortKeys v)

end PyJson
end FakeNetNG
