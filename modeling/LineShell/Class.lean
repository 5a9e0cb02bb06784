import LineShell.Program
import LineShell.OrderedMap

/-! # Classes — members, and the order in which they are looked up

    A class has members of its own and ancestors.  A member is a function
    or plain data.  A name is looked up in the class itself and then in
    its ancestors, in order; the ancestors that define the name after the
    first are what the definition before them can fall back on. -/

namespace LineShell

/-- What a call hands over: values by position and values by name. -/
structure Call where
  args : List Value
  params : List (String × Value)
  deriving Inhabited

/-- A call with values by position only. -/
def Call.ofArgs (args : List Value) : Call := ⟨args, []⟩

/-- How many values a function takes. -/
inductive Signature where
  /-- Any number. -/
  | free
  /-- At least and at most so many. -/
  | counted (least : Nat) (most : Option Nat)
  /-- One for each name, and any number more if there is a rest. -/
  | named (owner : String) (names : List String) (rest : Bool)
  deriving DecidableEq, Repr, Inhabited

/-- How a function takes part in a hook. -/
structure HookMark where
  tryFirst : Bool
  tryLast : Bool
  /-- The hook, if it is not the one of the member's name. -/
  hook : Option String
  /-- The values that the function takes by name. -/
  params : List String
  deriving DecidableEq, Repr, Inhabited

/-- A member that can be called. -/
structure Function where
  signature : Signature
  /-- What it does when it is called.  What it keeps from one call to the
      next is in the memory of the session. -/
  body : Call → Program
  doc : Option String
  /-- The commands that the function is marked to handle. -/
  commands : List String
  hook : Option HookMark
  /-- Does the function belong to its class alone, not to the objects of
      the class? -/
  isStatic : Bool
  deriving Inhabited

/-- A member of a class. -/
inductive Attribute where
  | function (f : Function)
  | data (v : Value)
  deriving Inhabited

/-- A class with its ancestors in order of look-up.  Classes are told
    apart by their number, for names may repeat. -/
structure Class where
  number : Nat
  name : String
  members : OrderedMap Attribute
  ancestors : List Class
  deriving Inhabited

namespace Signature

/-- Why a function refuses a number of values. -/
def mismatch? (member : String) (given : Nat) : Signature → Option Mismatch
  | free => none
  | counted least most =>
      if given < least || most.any (· < given) then
        some (.argumentCount member given)
      else none
  | named owner names rest =>
      let title := s!"{owner}.{member}"
      if given < names.length then
        some (.missingArguments title (names.drop given))
      else if names.length < given && !rest then
        some (.tooManyArguments title (names.length + 1) (given + 1))
      else none

end Signature

/-- Marks a function as the handler of commands; there must be one. -/
def Function.mark (f : Function) (names : List String) :
    Except Fault Function :=
  if names.isEmpty then .error (.refused .noCommandNames)
  else .ok { f with commands := names }

namespace Attribute

/-- Is the member a function? -/
def isFunction : Attribute → Bool
  | function _ => true
  | data _ => false

/-- Is the member data without a value? -/
def isNull : Attribute → Bool
  | data v => v.isNull
  | function _ => false

/-- The commands that a member is marked to handle. -/
def commands : Attribute → List String
  | function f => f.commands
  | data _ => []

/-- The documentation of a member itself. -/
def doc? : Attribute → Option String
  | function f => f.doc
  | data _ => none

end Attribute

namespace Class

/-- The class and its ancestors, in order of look-up. -/
def lineage (c : Class) : List Class :=
  c :: c.ancestors

/-- The definitions of a name, in order of look-up. -/
def definitions (c : Class) (name : String) : List Attribute :=
  c.lineage.filterMap fun ancestor => ancestor.members.get? name

/-- The definition of a name that is found first. -/
def lookup? (c : Class) (name : String) : Option Attribute :=
  (c.definitions name).head?

/-- All names that a class and its ancestors define, each once. -/
def memberNames (c : Class) : List String :=
  (c.lineage.flatMap fun ancestor => ancestor.members.names).eraseDups

/-- The documentation that a name inherits: the first that any class of
    the lineage finds for it. -/
def inheritedDoc? (c : Class) (name : String) : Option String :=
  c.lineage.findSome? fun ancestor =>
    (ancestor.lookup? name).bind Attribute.doc?

/-- The first class of the lineage that defines a name. -/
def definer? (c : Class) (name : String) : Option Class :=
  c.lineage.find? fun ancestor => ancestor.members.contains name

end Class

/-- A member as it is found on an object: the class of the object, the
    name, and its definitions in order of look-up. -/
structure Bound where
  owner : Class
  name : String
  definitions : List Attribute
  deriving Inhabited

/-- A name as it is found on the objects of a class. -/
def Class.bind (c : Class) (name : String) : Bound :=
  ⟨c, name, c.definitions name⟩

/-- Is the member data without a value, or missing? -/
def Bound.isNull (b : Bound) : Bool :=
  match b.definitions with
  | [] => true
  | definition :: _ => definition.isNull

/-- The lineage of a class starts with the class. -/
theorem Class.head?_lineage (c : Class) : c.lineage.head? = some c := rfl

/-- A definition of the class itself comes first. -/
theorem Class.lookup?_of_members {c : Class} {name : String}
    {a : Attribute} (h : c.members.get? name = some a) :
    c.lookup? name = some a := by
  simp [lookup?, definitions, lineage, h]

end LineShell
