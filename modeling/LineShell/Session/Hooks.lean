import LineShell.Session.Call

/-! # Hooks — running chains of implementations

    A failing implementation is passed over: the failure is recorded and
    the observers are told, and the chain goes on as if the implementation
    had answered nothing.  Observers are the implementations of the hook
    `on_error`; their own failures are recorded and told to nobody. -/

namespace LineShell

namespace Run

variable (execute : Executor)

/-- Calls an implementation with those of the given values that it
    takes. -/
def callImplementation (i : Implementation)
    (given : List (String × Value)) : Run Value :=
  let taken := i.mark.params.filterMap fun name =>
    (OrderedMap.find name given).map fun v => (name, v)
  let absent := i.mark.params.filter fun name =>
    (OrderedMap.find name given).isNone
  if absent.isEmpty then callBound execute i.member ⟨[], taken⟩
  else
    throw (.mismatch (.missingArguments
      s!"{i.member.owner.name}.{i.member.name}" absent))

/-- Tells one observer about a fault. -/
def notifyOne (stage : String) (fault : Fault) (line : Value)
    (i : Implementation) : Run Unit :=
  contain
    (do
      let _ ← callImplementation execute i
        [("stage", .text stage), ("error", .fault fault), ("line", line)])
    fun _ => record [.observerFailed stage i.extension]

/-- Tells all observers about a fault, in the order of their chain. -/
def notify (stage : String) (fault : Fault) (line : Value) : Run Unit := do
  ((← get).extensions.chain "on_error").forM
    (notifyOne execute stage fault line)

/-- The line among the values of a hook, if it is a text. -/
def lineAmong (given : List (String × Value)) : Value :=
  match OrderedMap.find "line" given with
  | some v => if v.isText then v else .null
  | none => .null

/-- Runs one implementation; what it answers, or nothing. -/
def runImplementation (hook : String) (i : Implementation)
    (given : List (String × Value)) : Run Value :=
  contain (callImplementation execute i given) fun f => do
    record [.hookFailed hook i.extension]
    notify execute s!"{hook}:{i.extension}" f (lineAmong given)
    pure .null

/-- Runs implementations until one answers. -/
def firstAnswer (hook : String) (given : List (String × Value)) :
    List Implementation → Run Value
  | [] => pure .null
  | i :: rest => do
      let v ← runImplementation execute hook i given
      if v.isNull then firstAnswer hook given rest else pure v

/-- Lets every implementation rewrite a value. -/
def rewrite (hook key : String) (given : List (String × Value))
    (value : Value) : List Implementation → Run Value
  | [] => pure value
  | i :: rest => do
      let v ← runImplementation execute hook i
        ((key, value) :: given.filter fun pair => pair.1 != key)
      rewrite hook key given (if v.isNull then value else v) rest

/-- The first answer of a hook, asking from the back of its chain. -/
def callFirst (hook : String) (given : List (String × Value)) :
    Run Value := do
  firstAnswer execute hook given ((← get).extensions.chain hook).reverse

/-- What the chain of a hook makes of a value, from the front. -/
def callChain (hook key : String) (value : Value)
    (given : List (String × Value)) : Run Value := do
  rewrite execute hook key given value ((← get).extensions.chain hook)

/-- The shell among the values of a hook. -/
def shellParam : Run (String × Value) := do
  pure ("shell", (← get).shellValue)

/-- The first answer of a hook, or what the member of the shell answers
    that stands in for it. -/
def firstResult (hook : String) (args : List Value)
    (given : List (String × Value)) : Run Value := do
  let v ← callFirst execute hook ((← shellParam) :: given)
  if v.isNull then callShell execute hook args else pure v

end Run

end LineShell
