import LineShell.Session.Call

/-! # Help — topics and what is said about them

    Without a topic, help lists the topics.  A topic is answered by its
    producer, called with the further values, or by the documentation of
    its handler; a producer that fails or says nothing counts as none. -/

namespace LineShell

/-- The topics, one a line, sorted. -/
def helpListing (topics : List String) : String :=
  match topics.mergeSort fun a b => decide (a ≤ b) with
  | [] => "No help topics are available."
  | sorted =>
      "\n".intercalate
        ("Help is available for the following topics:" ::
          sorted.map fun topic => s!"  {topic}")

/-- The answer for a topic without help. -/
def noHelp (topic : String) : String :=
  s!"No help available for {topic}."

namespace Run

variable (execute : Executor)

/-- What a producer says, or that there is no help. -/
def helpFrom (b : Bound) (topic : String) (args : List Value) :
    Run String := do
  let v ← contain (callBound execute b (.ofArgs args)) fun _ => do
    record [.helpFailed topic]
    pure .null
  if v.isNull then pure (noHelp topic)
  else pure (v.display (← identity))

/-- What is said about a topic. -/
def helpTopic (topic : Value) (args : List Value) : Run String := do
  let s ← get
  let shown := topic.display s.identity
  if topic.isUnhashable then
    throw (.mismatch (.unhashable (topic.kindName s.identity)))
  else
    match topic.asText?.bind s.registry.helper? with
    | some (.member b) => helpFrom execute b shown args
    | some (.doc text) => pure text
    | none => pure (noHelp shown)

/-- The answer of the help system. -/
def helpText : List Value → Run String
  | [] => do pure (helpListing (← get).registry.topics)
  | topic :: args => helpTopic execute topic args

end Run

end LineShell
