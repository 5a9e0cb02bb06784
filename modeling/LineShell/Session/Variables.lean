import LineShell.Session

/-! # Variables — what code can do to the environment of its session

    Names that are no texts are never found; lists and mappings cannot
    even be looked up.  What is set is stored as text.  Overlays are
    entered and left one by one, in any order; each remembers what it
    found, and leaving one twice changes nothing. -/

namespace LineShell

namespace Run

/-- The text of a name that is looked up, or nothing for a name that no
    environment has. -/
def nameOf (name : Value) : Run (Option String) := do
  if name.isUnhashable then
    throw (.mismatch (.unhashable (name.kindName (← identity))))
  else pure name.asText?

/-- The value of a name. -/
def find? (name : Value) : Run (Option Value) := do
  let key ← nameOf name
  pure (key.bind (← get).env.get?)

/-- The fault of a name that is not there. -/
def missing (name : Value) : Run Fault := do
  pure (.missingKey (name.shown (← identity)))

/-- The value of a name that must be there. -/
def variableOf (name : Value) : Run Value := do
  match ← find? name with
  | some v => pure v
  | none => throw (← missing name)

/-- Sets a name to the text of a value. -/
def setVariable (name v : Value) : Run Unit := do
  let key ← nameOf name
  let me ← identity
  modifyEnv fun env =>
    env.insert (key.getD (name.display me)) (.text (v.display me))

/-- Sets names to the texts of values. -/
def setVariables (pairs : List (String × Value)) : Run Unit :=
  pairs.forM fun pair => setVariable (.text pair.1) pair.2

/-- Removes a name that is there. -/
def removeVariable (name : Value) : Run Unit := do
  let _ ← variableOf name
  modifyEnv fun env => env.erase (name.asText?.getD "")

/-- The texts of the values of an overlay. -/
def overlayTexts (values : OrderedMap Value) : Run (OrderedMap String) := do
  let me ← identity
  pure (values.map fun v => v.display me)

/-- Enters an overlay and says what brings the environment back. -/
def enterOverlay (values : OrderedMap Value) : Run Environment.Saved := do
  let texts ← overlayTexts values
  let (env, saved) := (← get).env.enter texts
  modifyEnv fun _ => env
  pure saved

/-- Brings the environment back. -/
def leaveOverlay (saved : Environment.Saved) : Run Unit :=
  modifyEnv fun env => env.restore saved

/-- Runs a step in an overlay. -/
def withOverlay {α : Type} (values : OrderedMap Value) (step : Run α) :
    Run α := do
  let saved ← enterOverlay values
  step.andFinally (leaveOverlay saved)

/-- Enters an overlay by hand. -/
def pushOverlay (pairs : List (String × Value)) : Run Unit := do
  let saved ← enterOverlay (.ofList pairs)
  modify fun s => { s with overlays := s.overlays ++ [some saved] }

/-- Leaves an overlay that was entered by hand. -/
def dropOverlay (index : Nat) : Run Unit := do
  match ((← get).overlays[index]?).join with
  | some saved =>
      modify fun s => { s with overlays := s.overlays.set index none }
      leaveOverlay saved
  | none => pure ()

/-- Answers a request about the environment. -/
def answerEnvironment : EnvironmentRequest → Run Value
  | .set name v => do
      setVariable name v
      pure .null
  | .get name => variableOf name
  | .delete name => do
      removeVariable name
      pure .null
  | .contains name => do pure (.bool (← find? name).isSome)
  | .size => do pure (.int (← get).env.size)
  | .text => do pure (.text (← get).env.text)
  | .sameAs pairs => do
      pure (.bool ((← get).env.sameAs (OrderedMap.ofList pairs).toList))
  | .names => do pure (.texts (← get).env.names)
  | .values => do pure (.list (← get).env.values)
  | .items => do pure (.ofPairs (← get).env.toList)
  | .update pairs => do
      setVariables (OrderedMap.ofList pairs).toList
      pure .null
  | .lookup name fallback => do pure ((← find? name).getD fallback)
  | .pop name fallback => do
      match ← find? name, fallback with
      | some v, _ =>
          removeVariable name
          pure v
      | none, some fallback => pure fallback
      | none, none => throw (← missing name)
  | .popFirst => do
      match (← get).env.toList with
      | [] => throw (.missingKey "")
      | (name, v) :: _ =>
          modifyEnv fun env => env.erase name
          pure (.list [.text name, v])
  | .setDefault name fallback => do
      match ← find? name with
      | some v => pure v
      | none =>
          setVariable name fallback
          pure fallback
  | .clear => do
      modifyEnv fun _ => .empty
      pure .null
  | .toMap => do pure (.map (← get).env.toList)
  | .enter pairs => do
      pushOverlay pairs
      pure (.bool true)
  | .leave index _ => do
      dropOverlay index
      pure (.bool false)

end Run

end LineShell
