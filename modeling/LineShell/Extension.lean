import LineShell.Class

/-! # Extensions — names, hooks and chains

    Extensions are registered under names.  A member of an extension that
    is marked for a hook becomes an *implementation* in the chain of that
    hook.  A chain is run from the front where each implementation
    rewrites a value, and from the back where the first answer counts:
    those that ask to be last stand in front, those that ask to be first
    stand at the end, and the others between them in order of
    registration.

    Registering goes step by step: the name is recorded, and then the
    members are added one after the other, up to the first that its hook
    refuses.  What was done until then stays done.

    A name can be blocked: the extension that has it is taken out, and
    none is registered under it any more. -/

namespace LineShell

/-- What a hook offers its implementations by name. -/
def hookParams? : String → Option (List String)
  | "precmd" => some ["shell", "line"]
  | "postcmd" => some ["shell", "output"]
  | "default" => some ["shell", "command", "args"]
  | "emptycommand" => some ["shell"]
  | "intro" => some ["shell"]
  | "outro" => some ["shell"]
  | "on_error" => some ["stage", "error", "line"]
  | _ => none

/-- A member of an extension in the chain of a hook. -/
structure Implementation where
  /-- The name of the extension. -/
  extension : String
  /-- The number of the extension object. -/
  serial : Nat
  member : Bound
  mark : HookMark
  deriving Inhabited

/-- Adds an implementation to a chain. -/
def insertImplementation (i : Implementation)
    (chain : List Implementation) : List Implementation :=
  if i.mark.tryLast then i :: chain
  else if i.mark.tryFirst then chain ++ [i]
  else
    let firsts := chain.reverse.takeWhile fun other => other.mark.tryFirst
    let others := chain.reverse.dropWhile fun other => other.mark.tryFirst
    others.reverse ++ i :: firsts.reverse

/-- The names of extensions, with the number of the object that has each,
    or nothing for a blocked name; and the chains by hook. -/
structure Extensions where
  names : OrderedMap (Option Nat)
  chains : OrderedMap (List Implementation)
  deriving Inhabited

namespace Extensions

/-- No extensions. -/
def empty : Extensions := ⟨.empty, .empty⟩

/-- The chain of a hook. -/
def chain (e : Extensions) (hook : String) : List Implementation :=
  (e.chains.get? hook).getD []

/-- Adds an implementation to the chain of a hook.  A hook that offers
    something refuses an implementation that takes something else. -/
def addImplementation (e : Extensions) (hook : String)
    (i : Implementation) : Except Fault Extensions :=
  let allowed :=
    match hookParams? hook with
    | none => true
    | some offered => i.mark.params.all offered.contains
  if allowed then
    .ok { e with chains :=
            e.chains.insert hook (insertImplementation i (e.chain hook)) }
  else .error .badExtension

/-- The members of a class that are marked for a hook, sorted by name. -/
def markedMembers (c : Class) : List (String × HookMark) :=
  (c.memberNames.mergeSort fun a b => decide (a ≤ b)).filterMap fun name =>
    match c.lookup? name with
    | some (.function f) => f.hook.map fun mark => (name, mark)
    | _ => none

/-- The hook that a marked member belongs to. -/
def hookOf (name : String) (mark : HookMark) : String :=
  match mark.hook with
  | some hook => if hook.isEmpty then name else hook
  | none => name

/-- Adds the implementations of an extension one after the other, up to the
    first that is refused; what is left then. -/
def addMembers (e : Extensions) (c : Class) (extension : String)
    (serial : Nat) :
    List (String × HookMark) → Except Fault Unit × Extensions
  | [] => (.ok (), e)
  | (name, mark) :: rest =>
      match e.addImplementation (hookOf name mark)
          ⟨extension, serial, c.bind name, mark⟩ with
      | .ok e => e.addMembers c extension serial rest
      | .error f => (.error f, e)

/-- Registers an extension object under a name; `label` is how a blocked
    extension is called.  A name that is taken or blocked and an object
    that has a name are refused before anything is done.  Where a member is
    refused, the name is taken and the members before it are in their
    chains. -/
def register (e : Extensions) (c : Class) (name : String) (serial : Nat)
    (label : String) : Except Fault Unit × Extensions :=
  match e.names.get? name with
  | some none => (.error (.refused (.blockedExtension label)), e)
  | some (some _) => (.error (.refused .takenExtension), e)
  | none =>
      if e.names.values.contains (some serial) then
        (.error (.refused .takenExtension), e)
      else
        { e with names := e.names.insert name (some serial) }.addMembers c
          name serial (markedMembers c)

/-- Takes the first implementation of an extension object out of a
    chain. -/
def dropFirst (serial : Nat) :
    List Implementation → List Implementation
  | [] => []
  | i :: rest => if i.serial == serial then rest else i :: dropFirst serial rest

/-- Blocks a name. -/
def block (e : Extensions) (name : String) : Extensions :=
  match e.names.get? name with
  | some (some serial) =>
      { names := (e.names.erase name).insert name none
        chains := e.chains.map (dropFirst serial) }
  | _ => { e with names := e.names.insert name none }

/-- The names of the extensions in each chain, sorted by hook.  Hooks
    without implementations are left out, and so are hooks with a leading
    underscore. -/
def report (e : Extensions) : List (String × List String) :=
  let entries := (e.chains.toList.filter fun entry =>
    !entry.1.startsWith "_" && !entry.2.isEmpty).map fun entry =>
      (entry.1, entry.2.map Implementation.extension)
  entries.mergeSort fun a b => decide (a.1 ≤ b.1)

end Extensions

end LineShell
