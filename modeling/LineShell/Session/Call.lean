import LineShell.Session.Variables

/-! # Calls — running the members of classes

    A call goes to the first definition of a member.  Its values are
    counted, and then its code is executed; the code knows the
    definitions after its own.  How code is executed is a parameter here:
    everything a session does is written over it, and the knot is tied
    once, where the depth of calls is counted. -/

namespace LineShell

/-- Where code stands: the object it belongs to, the name it was found
    under, the definitions after its own, and its call. -/
structure Frame where
  owner : Option Class
  name : String
  rest : List Attribute
  call : Call
  deriving Inhabited

/-- Code that belongs to no member. -/
def Frame.outside : Frame := ⟨none, "", [], ⟨[], []⟩⟩

/-- A way to execute code. -/
abbrev Executor := Frame → Program → Run Value

namespace Run

variable (execute : Executor)

/-- Calls the first of some definitions. -/
def callDefinitions (owner : Option Class) (name : String)
    (call : Call) : List Attribute → Run Value
  | [] => throw (.noAttribute "super" name)
  | .data v :: _ => do
      throw (.mismatch (.notCallable (v.kindName (← identity))))
  | .function f :: rest =>
      match f.signature.mismatch? name call.args.length with
      | some m => throw (.mismatch m)
      | none => execute ⟨owner, name, rest, call⟩ (f.body call)

/-- Calls a member. -/
def callBound (b : Bound) (call : Call) : Run Value :=
  callDefinitions execute (some b.owner) b.name call b.definitions

/-- Calls the next definition of a running member, with the same call. -/
def callInherited (frame : Frame) : Run Value :=
  callDefinitions execute frame.owner frame.name frame.call frame.rest

/-- Calls a member of an object by name. -/
def callNamed (c : Class) (name : String) (args : List Value) :
    Run Value :=
  callBound execute (c.bind name) (.ofArgs args)

/-- Calls a member of the shell by name. -/
def callShell (name : String) (args : List Value) : Run Value := do
  match (← get).shell with
  | some c => callNamed execute c name args
  | none => throw (.noAttribute "NoneType" name)

/-- Calls the code of a prompt. -/
def callCode (code : List Value → Program) (args : List Value) :
    Run Value :=
  execute .outside (code args)

/-- The text or value that a prompt renders to. -/
def render (p : Prompt) : Run Value := do
  match p with
  | .literal text => pure text
  | .generated code args =>
      let v ← callCode execute code ((← get).shellValue :: args)
      pure (.text (v.display (← identity)))

/-- Renders the prompt of the shell; a prompt that fails is replaced by
    the default prompt. -/
def renderPrompt : Run Value := do
  contain (render execute (← get).prompt) fun _ => do
    record [.promptFailed (← identity).className]
    callShell execute "default_prompt" []

/-- Writes a value through the shell. -/
def emit (v : Value) : Run Unit := do
  let _ ← callShell execute "emit" [v]

/-- Writes a value through the shell, unless it is missing. -/
def emitPresent (v : Value) : Run Unit :=
  if v.isNull then pure () else emit execute v

end Run

end LineShell
