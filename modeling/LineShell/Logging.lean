import LineShell.Event
import LineShell.Fault
import LineShell.Text.Capital

/-! # Logging — which records reach the error stream

    Logging is configured for a level once: asking again for the level
    that is recorded changes nothing.  Asking for another level first
    closes the sink that is open; where the level is unknown, none is
    opened in its place and the recorded level stays. -/

namespace LineShell

/-- The state of logging: the level that is recorded as configured, and
    the level of the open sink. -/
structure Logging where
  configured : Option String
  sink : Option Level
  deriving DecidableEq, Repr, Inhabited

/-- A record as it reaches a sink. -/
structure LogLine where
  level : String
  message : String
  deriving DecidableEq, Repr, Inhabited

/-- All levels. -/
def Level.all : List Level :=
  [.trace, .debug, .info, .success, .warning, .error, .critical]

/-- The level of a name. -/
def Level.ofName? (name : String) : Option Level :=
  Level.all.find? fun level => level.name == name

namespace Logging

/-- Logging before it is configured. -/
def unconfigured : Logging := ⟨none, none⟩

/-- The level when nothing is said. -/
def standardLevel : String := "WARNING"

/-- The variable that names a level. -/
def levelVariable : String := "SHELLBASE_LOG_LEVEL"

/-- The first text that is not empty. -/
def firstGiven (texts : List (Option String)) (standard : String) :
    String :=
  (texts.findSome? fun text => text.filter fun s => !s.isEmpty).getD standard

/-- The name of the level that is asked for. -/
def resolve (vars : List (String × String)) (level : Option String) :
    String :=
  let given := firstGiven
    [level, (vars.find? fun pair => pair.1 == levelVariable).map
      Prod.snd]
    standardLevel
  String.ofList (Text.capitals given.toList)

/-- Configures logging for a level: the state afterwards, and the fault
    if one came up. -/
def configure (l : Logging) (vars : List (String × String))
    (level : Option String) : Logging × Option Fault :=
  let name := resolve vars level
  if l.configured == some name then (l, none)
  else
    match Level.ofName? name with
    | some level => (⟨some name, some level⟩, none)
    | none =>
        ({ l with sink := none }, some (.refused (.unknownLevel name)))

/-- Does a record reach the sink? -/
def reaches (l : Logging) (event : Event) : Bool :=
  match l.sink with
  | some level => level.weight ≤ event.level.weight
  | none => false

/-- A name filled up to the width of a column. -/
def padded (width : Nat) (name : String) : String :=
  name ++ String.ofList (List.replicate (width - name.length) ' ')

/-- A record as it is written. -/
def line (event : Event) : LogLine :=
  ⟨padded 6 event.level.name, event.message⟩

/-- The records that reach the sink. -/
def written (l : Logging) (events : List Event) : List LogLine :=
  (events.filter l.reaches).map line

end Logging

end LineShell
