import LineShell.Session.Call

/-! # Registration — adding extensions to a running session

    Every extension object has a number; one that is registered without a
    name is named by its number.  What an extension handles is scanned
    after its hooks are in place.  Where a hook is refused nothing is
    scanned, and what was done for the hooks before it stays, unless the
    library takes it back. -/

namespace LineShell

/-- The name of an extension object that was given none. -/
def serialName (serial : Nat) : String :=
  s!"<ext{serial}>"

/-- A name that says something. -/
def givenName? (name : Option String) : Option String :=
  name.filter fun s => !s.isEmpty

/-- The session after a registration was refused: it is taken back, or the
    extensions stay as they were left. -/
def Session.refused (s : Session) (left : Extensions) : Session :=
  if s.takesBack then s else { s with extensions := left }

namespace Run

/-- A new extension object; its number. -/
def newExtension : Run Nat := do
  let n := (← get).serial
  modify fun s => { s with serial := n + 1 }
  pure n

/-- Registers an extension object and scans it; the name it got. -/
def registerExtension (c : Class) (serial : Nat) (name : Option String) :
    Run String := do
  let label := (givenName? name).getD c.name
  let name := (givenName? name).getD (serialName serial)
  let s ← get
  match s.extensions.register c name serial label with
  | (.ok (), extensions) =>
      set { s with extensions, registry := s.registry.scan c name }
      record [.extensionRegistered name]
      pure name
  | (.error f, extensions) =>
      set (s.refused extensions)
      throw f

/-- Registers a new object of a class. -/
def registerNew (c : Class) (name : Option String) (twice : Bool) :
    Run Value := do
  let serial ← newExtension
  let first ← registerExtension c serial name
  if twice then pure (.text (← registerExtension c serial name))
  else pure (.text first)

end Run

end LineShell
