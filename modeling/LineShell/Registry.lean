import LineShell.Class.Documentation

/-! # Registries — handlers, help producers and completers by name

    Scanning an object goes through its lineage from the farthest ancestor
    to its own class, and through the members of each in order.  A name
    counts where it is first a function; what is recorded is the member as
    the object sees it.  A name that starts with a *marker* is a handler,
    a help producer or a completer of what follows the marker; besides, a
    member handles the commands it is marked with.

    Beside what is recorded, a registry keeps two lists that can be
    replaced: the commands that can be dispatched, and the help topics. -/

namespace LineShell

/-- A handler and where it came from. -/
structure Handler where
  member : Bound
  source : String
  deriving Inhabited

/-- What is recorded of the objects that were scanned. -/
structure Registry where
  handlers : OrderedMap Handler
  helpers : OrderedMap Bound
  completers : OrderedMap Bound
  dispatchable : List String
  topics : List String
  deriving Inhabited

namespace Registry

/-- The registry of no objects. -/
def empty : Registry := ⟨.empty, .empty, .empty, [], []⟩

/-- What starts the name of a handler. -/
def handlerMarker : String := "do_"

/-- What starts the name of a help producer. -/
def helpMarker : String := "help_"

/-- What starts the name of a completer. -/
def completerMarker : String := "complete_"

/-- What follows a marker, if anything does. -/
def afterMarker? (marker name : String) : Option String :=
  if marker.toList.isPrefixOf name.toList then
    match name.toList.drop marker.length with
    | [] => none
    | cs => some (String.ofList cs)
  else none

/-- Adds a name at the end unless it is there. -/
def addOnce (name : String) (names : List String) : List String :=
  if names.contains name then names else names ++ [name]

/-- The names of a list, each at its first place only. -/
def withoutRepeats (names : List String) : List String :=
  names.foldl (fun kept name => addOnce name kept) []

/-- Records a handler. -/
def addHandler (r : Registry) (name : String) (h : Handler) : Registry :=
  { r with
    handlers := r.handlers.insert name h
    dispatchable := addOnce name r.dispatchable
    topics := if h.member.hasDoc then addOnce name r.topics else r.topics }

/-- Records a help producer. -/
def addHelp (r : Registry) (topic : String) (b : Bound) : Registry :=
  { r with
    helpers := r.helpers.insert topic b
    topics := addOnce topic r.topics }

/-- Records a completer. -/
def addCompleter (r : Registry) (name : String) (b : Bound) : Registry :=
  { r with completers := r.completers.insert name b }

/-- Records a member by its name. -/
def addByName (r : Registry) (source : String) (b : Bound) : Registry :=
  match afterMarker? handlerMarker b.name with
  | some name => r.addHandler name ⟨b, source⟩
  | none =>
      match afterMarker? helpMarker b.name with
      | some topic => r.addHelp topic b
      | none =>
          match afterMarker? completerMarker b.name with
          | some name => r.addCompleter name b
          | none => r

/-- The commands that a member is marked with, as the object sees it. -/
def markedCommands (b : Bound) : List String :=
  (b.definitions.head?.map Attribute.commands).getD []

/-- Records a member under all names it handles. -/
def addMember (r : Registry) (source : String) (b : Bound) : Registry :=
  (markedCommands b).foldl (fun r name => r.addHandler name ⟨b, source⟩)
    (r.addByName source b)

/-- The members of an object that count, farthest ancestor first, each
    where it is first a function. -/
def scannedNames (c : Class) : List String :=
  withoutRepeats (c.lineage.reverse.flatMap fun ancestor =>
    (ancestor.members.toList.filter fun pair => pair.2.isFunction).map
      Prod.fst)

/-- Records the members of an object. -/
def scan (r : Registry) (c : Class) (source : String) : Registry :=
  (scannedNames c).foldl (fun r name => r.addMember source (c.bind name)) r

/-- The registry of objects, scanned in order. -/
def discover (objects : List Class) : Registry :=
  objects.foldl (fun r c => r.scan c c.name) empty

/-- Is a handler recorded under a name? -/
def has (r : Registry) (name : String) : Bool :=
  r.handlers.contains name

/-- The handler recorded under a name. -/
def handler? (r : Registry) (name : String) : Option Handler :=
  r.handlers.get? name

/-- The recorded handlers, in the order of the dispatchable commands. -/
def descriptors (r : Registry) : List (String × Handler) :=
  r.dispatchable.filterMap fun name =>
    (r.handler? name).map fun h => (name, h)

/-- The handler that a command is dispatched to. -/
def dispatch? (r : Registry) (name : String) : Option Bound :=
  if r.dispatchable.contains name then
    match r.handler? name with
    | some h => if h.member.isNull then none else some h.member
    | none => none
  else none

/-- What answers for a help topic. -/
inductive Helper where
  /-- A member that is called. -/
  | member (b : Bound)
  /-- The documentation of a handler. -/
  | doc (text : String)
  deriving Inhabited

/-- What answers for a help topic: the producer, or else the
    documentation of the handler. -/
def helper? (r : Registry) (topic : String) : Option Helper :=
  match r.helpers.get? topic with
  | some b => if b.isNull then docHelper? else some (.member b)
  | none => docHelper?
where
  /-- The documentation of the handler, unless it says nothing. -/
  docHelper? : Option Helper :=
    match (r.handler? topic).bind fun h => h.member.doc? with
    | some doc => if doc.isEmpty then none else some (.doc doc)
    | none => none

/-- The completer of a command. -/
def completer? (r : Registry) (name : String) : Option Bound :=
  match r.completers.get? name with
  | some b => if b.isNull then none else some b
  | none => none

/-- Replaces the dispatchable commands. -/
def setDispatchable (r : Registry) (names : List String) : Registry :=
  { r with dispatchable := withoutRepeats names }

/-- Replaces the help topics. -/
def setTopics (r : Registry) (names : List String) : Registry :=
  { r with topics := withoutRepeats names }

end Registry

end LineShell
