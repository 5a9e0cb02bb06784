import LineShell.OrderedMap
import LineShell.Value

/-! # Environments — variables with scoped overlays

    An environment is an ordered map from names to values.  What is set
    later is stored as text; what an environment starts with is kept as it
    is.  An *overlay* is entered and left: entering remembers the value or
    the absence of every overlaid name and sets the names; leaving brings
    back what was remembered, name by name, and lets all other names be. -/

namespace LineShell

/-- Variables by name. -/
abbrev Environment := OrderedMap Value

namespace Environment

/-- What an overlay remembers: the overlaid names and what they were. -/
abbrev Saved := List (String × Option Value)

/-- What the overlaid names are before the overlay. -/
def save (env : Environment) (names : List String) : Saved :=
  names.map fun name => (name, env.get? name)

/-- Sets names to texts. -/
def overlay (env : Environment) (values : OrderedMap String) :
    Environment :=
  env.insertAll ((values.map Value.text).toList)

/-- Brings one name back to what it was. -/
def restoreOne (env : Environment) (saved : String × Option Value) :
    Environment :=
  match saved.2 with
  | some value => env.insert saved.1 value
  | none => env.erase saved.1

/-- Brings names back to what they were. -/
def restore (env : Environment) (saved : Saved) : Environment :=
  saved.foldl restoreOne env

/-- The environment in an overlay, and what brings it back. -/
def enter (env : Environment) (values : OrderedMap String) :
    Environment × Saved :=
  (env.overlay values, env.save values.names)

/-- Are two environments equal, order aside? -/
def sameAs (env : Environment) (other : List (String × Value)) : Bool :=
  (Value.map env.toList).equals (.map other)

/-- How an environment presents itself. -/
def text (env : Environment) : String :=
  s!"ShellEnvironment({env.size} vars)"

/-- What leaving an overlay does to one name: an overlaid name is what it
    was remembered to be, every other name is what it is. -/
theorem get?_restoreOne (env : Environment) (saved : String × Option Value)
    (name : String) :
    (env.restoreOne saved).get? name =
      if saved.1 = name then saved.2 else env.get? name := by
  obtain ⟨key, value⟩ := saved
  cases value with
  | none => simp [restoreOne, OrderedMap.get?_erase]
  | some v => simp [restoreOne, OrderedMap.get?_insert]

end Environment

end LineShell
