import LineShell.Fault
import LineShell.Decimal.Notation
import LineShell.OrderedMap

/-! # Values — what handlers take and return

    Commands, hooks and prompts exchange values of many kinds.  A value is
    *displayed* as it is written to the output, where a text stands for
    itself, and *shown* as it stands inside a list, where a text is quoted.
    The shell itself is a value too; how it is displayed depends on its
    class and on the phase of its life. -/

namespace LineShell

open LineShell.Text

/-- The phases of a shell's life. -/
inductive Phase where
  | idle
  | running
  | quitting
  | terminated
  deriving DecidableEq, Repr, Inhabited

/-- The name of a phase. -/
def Phase.name : Phase → String
  | .idle => "idle"
  | .running => "running"
  | .quitting => "quitting"
  | .terminated => "terminated"

/-- A phase inside a list. -/
def Phase.shown : Phase → String
  | .idle => "<ShellState.IDLE: 'idle'>"
  | .running => "<ShellState.RUNNING: 'running'>"
  | .quitting => "<ShellState.QUITTING: 'quitting'>"
  | .terminated => "<ShellState.TERMINATED: 'terminated'>"

/-- What user code computes with. -/
inductive Value where
  | null
  | bool (b : Bool)
  | int (n : Int)
  | real (x : Float)
  | text (s : String)
  | list (items : List Value)
  | map (entries : List (String × Value))
  | path (p : Path)
  | fault (f : Fault)
  | phase (p : Phase)
  /-- The shell that runs the code. -/
  | shell
  /-- A thing of which only its class can be told. -/
  | object (kind : String)
  deriving Inhabited

/-- How a shell presents itself: its class and its phase. -/
structure Identity where
  className : String
  phase : Phase
  deriving DecidableEq, Repr, Inhabited

/-- The text of a shell. -/
def Identity.text (me : Identity) : String :=
  s!"<{me.className} state={me.phase.name}>"

namespace Value

variable (me : Identity)

mutual

/-- A value as it stands inside a list. -/
def shown : Value → String
  | null => "None"
  | bool true => "True"
  | bool false => "False"
  | int n => toString n
  | real x => Decimal.floatText .plain x
  | text s => quote s
  | list items => "[" ++ ", ".intercalate (shownItems items) ++ "]"
  | map entries => "\x7b" ++ ", ".intercalate (shownEntries entries) ++ "\x7d"
  | path p => s!"PosixPath({quote p.text})"
  | fault f => f.shown
  | phase p => p.shown
  | shell => me.text
  | object kind => s!"<{kind}>"

/-- The items of a list, each as it stands inside one. -/
def shownItems : List Value → List String
  | [] => []
  | v :: rest => shown v :: shownItems rest

/-- The entries of a mapping. -/
def shownEntries : List (String × Value) → List String
  | [] => []
  | (name, v) :: rest => (quote name ++ ": " ++ shown v) :: shownEntries rest

end

/-- A value as it is written to the output.  It is taken to have a text:
    the shell itself asks for the text of a fault that may have none in one
    place only, where it reports the fault. -/
def display : Value → String
  | text s => s
  | path p => p.text
  | fault f => f.message
  | phase p => p.name
  | v => v.shown me

/-- The name of the kind of a value. -/
def kindName : Value → String
  | null => "NoneType"
  | bool _ => "bool"
  | int _ => "int"
  | real _ => "float"
  | text _ => "str"
  | list _ => "list"
  | map _ => "dict"
  | path _ => "PosixPath"
  | fault f => f.kindName
  | phase _ => "ShellState"
  | shell => me.className
  | object kind => kind

/-- The text of a value that is one. -/
def asText? : Value → Option String
  | text s => some s
  | phase p => some p.name
  | _ => none

/-- Is the value a text? -/
def isText (v : Value) : Bool :=
  v.asText?.isSome

/-- Is the value missing? -/
def isNull : Value → Bool
  | null => true
  | _ => false

/-- A value that cannot be looked up in a set or a mapping. -/
def isUnhashable : Value → Bool
  | list _ => true
  | map _ => true
  | _ => false

/-- Does the value count as true? -/
def isTrue : Value → Bool
  | null => false
  | bool b => b
  | int n => n != 0
  | real x => x != 0
  | text s => !s.isEmpty
  | list items => !items.isEmpty
  | map entries => !entries.isEmpty
  | _ => true

/-- The value of a truth value or a whole number. -/
def asInt? : Value → Option Int
  | bool b => some (if b then 1 else 0)
  | int n => some n
  | _ => none

/-- Are the values equal?  Truth values and numbers compare by number,
    mappings without regard to order. -/
def equals : Value → Value → Bool
  | list xs, list ys => allEqual xs ys
  | map xs, map ys => xs.length == ys.length && allFound xs ys
  | null, null => true
  | shell, shell => true
  | path p, path q => p == q
  | fault f, fault g => f == g
  | object a, object b => a == b
  | real x, real y => x == y
  | real x, w =>
      match w.asInt? with
      | some n => x == Float.ofInt n
      | none => false
  | v, real y =>
      match v.asInt? with
      | some n => Float.ofInt n == y
      | none => false
  | v, w =>
      match v.asInt?, w.asInt? with
      | some m, some n => m == n
      | _, _ =>
          match v.asText?, w.asText? with
          | some s, some t => s == t
          | _, _ => false
where
  /-- Item by item. -/
  allEqual : List Value → List Value → Bool
    | [], [] => true
    | x :: xs, y :: ys => equals x y && allEqual xs ys
    | _, _ => false
  /-- Every entry has an equal one of its name. -/
  allFound : List (String × Value) → List (String × Value) → Bool
    | [], _ => true
    | (name, x) :: rest, ys =>
        (match OrderedMap.find name ys with
          | some y => equals x y
          | none => false) && allFound rest ys

/-- What a value is a sequence of: the characters of a text, the items of
    a list, the names of a mapping. -/
def items? : Value → Option (List Value)
  | list items => some items
  | map entries => some (entries.map fun pair => text pair.1)
  | v => v.asText?.map fun s =>
      s.toList.map fun c => text (String.singleton c)

/-- A list of texts as a value. -/
def texts (items : List String) : Value :=
  list (items.map text)

/-- Pairs of names and texts as a value. -/
def ofPairs (pairs : List (String × Value)) : Value :=
  list (pairs.map fun pair => list [text pair.1, pair.2])

end Value

end LineShell
