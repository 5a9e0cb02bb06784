import LineShell.Program

/-! # Prompts — a fixed text, or code that makes one

    A prompt that is code is a function of the shell and further
    arguments.  Only code takes arguments. -/

namespace LineShell

/-- A prompt. -/
inductive Prompt where
  | literal (text : Value)
  | generated (code : List Value → Program) (args : List Value)
  deriving Inhabited

namespace Prompt

/-- The name of the kind of prompt. -/
def kindName : Prompt → String
  | literal _ => "LiteralPrompt"
  | generated .. => "GeneratedPrompt"

/-- A prompt from what stands for one. -/
def ofPlain (me : Identity) (p : PlainPrompt) (args : List Value) :
    Except Fault Prompt :=
  match p with
  | .literal text =>
      if args.isEmpty then .ok (literal text)
      else .error (.mismatch .extraPromptArguments)
  | .value v =>
      if v.isText then
        if args.isEmpty then .ok (literal v)
        else .error (.mismatch .extraPromptArguments)
      else .error (.mismatch (.unsupportedPrompt (v.shown me)))

/-- A prompt from code.  Code that carries its arguments takes no more. -/
def ofCode (code : List Value → Program) (bound : Option (List Value))
    (args : List Value) : Except Fault Prompt :=
  match bound with
  | none => .ok (generated code args)
  | some bound =>
      if args.isEmpty then .ok (generated code bound)
      else .error (.mismatch .extraPromptArguments)

end Prompt

end LineShell
