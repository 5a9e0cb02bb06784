import LineShell.Class

/-! # Scripts — user code in written form

    A script is an expression over the call it is evaluated in.  It is
    turned into a program by going through it from left to right: each
    part hands its value to what comes after it, and what a part asks of
    the session is asked when its turn comes. -/

namespace LineShell

/-- User code in written form. -/
inductive Script where
  | constant (v : Value)
  | list (items : List Script)
  /-- A value of the call by position. -/
  | argument (index : Nat)
  | arguments
  | argumentCount
  /-- The texts of the values of the call, with a text between them. -/
  | join (separator : String)
  /-- A value of the call by name. -/
  | param (name : String)
  /-- The texts of the items of a list, joined. -/
  | concat (parts : Script)
  /-- The last item of a list. -/
  | last (steps : Script)
  | branch (test yes no : Script)
  | equal (a b : Script)
  | startsWith (a : Script) (lead : String)
  | isText (a : Script)
  /-- The text of a value without its first characters. -/
  | dropChars (a : Script) (count : Int)
  | kindOf (a : Script)
  | raise (kind : String) (message : Script) (reason : String)
  /-- Raises a fault without a message. -/
  | raiseBare (kind reason : String)
  | trace (a : Script)
  /-- A request that needs no value. -/
  | ask (r : Request)
  | runLine (line : Script)
  | help (args : Script)
  | escape (args : Script)
  | getVariable (name : Script)
  | deleteVariable (name : Script)
  | setVariable (name value : Script)
  | emit (a : Script)
  /-- Hands over a prompt that is code. -/
  | promptCode (use : PromptUse) (body : Script)
      (bound : Option (List Value)) (args : List Value)
  deriving Inhabited

namespace Script

/-- The characters of a text after the first so many; a negative count
    says how many are kept at the end. -/
def dropLeading (cs : List Char) (count : Int) : List Char :=
  if count < 0 then cs.drop (cs.length - count.natAbs)
  else cs.drop count.natAbs

/-- Goes on with what a value is a sequence of. -/
def withItems (v : Value) (next : List Value → Program) : Program :=
  match v.items? with
  | some items => next items
  | none =>
      .ask (.kindOf v) fun kind =>
        .fail (.mismatch (.notIterable (kind.asText?.getD "")))

/-- Goes on with the text of a value. -/
def withText (v : Value) (next : String → Program) : Program :=
  .ask (.display v) fun shown => next (shown.asText?.getD "")

/-- Goes on with the texts of values, with a text between them. -/
def withJoined (separator : String) (next : String → Program) :
    List Value → Program
  | [] => next ""
  | [v] => withText v next
  | v :: rest =>
      withText v fun text =>
        withJoined separator (fun joined => next (text ++ separator ++ joined))
          rest

/-- Raises a fault with a message. -/
def raising (kind : String) (message : Value) (reason : String) :
    Program :=
  withText message fun text =>
    .ask (.shown message) fun quoted =>
      .fail (.ofKind kind text (quoted.asText?.getD "") reason)

mutual

/-- The program of a script within a call, and what comes after it. -/
def compile (call : Call) : Script → (Value → Program) → Program
  | constant v, next => next v
  | list items, next => compileAll call items fun vs => next (.list vs)
  | argument index, next => next (call.args[index]?.getD .null)
  | arguments, next => next (.list call.args)
  | argumentCount, next => next (.int call.args.length)
  | join separator, next =>
      withJoined separator (fun text => next (.text text)) call.args
  | param name, next =>
      next ((OrderedMap.find name call.params).getD .null)
  | concat parts, next =>
      compile call parts fun v => withItems v fun items =>
        withJoined "" (fun text => next (.text text)) items
  | last steps, next =>
      compile call steps fun v => withItems v fun items =>
        next (items.getLast?.getD .null)
  | branch test yes no, next =>
      compile call test fun v =>
        if v.isTrue then compile call yes next else compile call no next
  | equal a b, next =>
      compile call a fun v => compile call b fun w =>
        next (.bool (v.equals w))
  | startsWith a lead, next =>
      compile call a fun v => withText v fun text =>
        next (.bool (lead.toList.isPrefixOf text.toList))
  | isText a, next => compile call a fun v => next (.bool v.isText)
  | dropChars a count, next =>
      compile call a fun v => withText v fun text =>
        next (.text (String.ofList (dropLeading text.toList count)))
  | kindOf a, next => compile call a fun v => .ask (.kindOf v) next
  | raise kind message reason, _ =>
      compile call message fun v => raising kind v reason
  | raiseBare kind reason, _ => .fail (.ofKind kind "" "" reason)
  | trace a, next => compile call a fun v => .ask (.trace v) next
  | ask r, next => .ask r next
  | runLine line, next =>
      compile call line fun v => .ask (.runLine v) next
  | help args, next =>
      compile call args fun v => withItems v fun items =>
        .ask (.help items) next
  | escape args, next =>
      compile call args fun v => withItems v fun items =>
        .ask (.escape items) next
  | getVariable name, next =>
      compile call name fun v =>
        .ask (.environment (.lookup v .null)) next
  | deleteVariable name, next =>
      compile call name fun v => .ask (.environment (.delete v)) next
  | setVariable name value, next =>
      compile call name fun v => compile call value fun w =>
        .ask (.environment (.set v w)) next
  | emit a, next => compile call a fun v => .ask (.emit v) next
  | promptCode use body bound args, next =>
      .promptCode use (fun given => compile ⟨given, []⟩ body .done) bound
        args fun
          | .ok v => next v
          | .error f => .fail f

/-- The program of scripts one after the other. -/
def compileAll (call : Call) :
    List Script → (List Value → Program) → Program
  | [], next => next []
  | s :: rest, next =>
      compile call s fun v => compileAll call rest fun vs => next (v :: vs)

end

/-- The program of a script within a call. -/
def program (s : Script) (call : Call) : Program :=
  s.compile call .done

end Script

end LineShell
