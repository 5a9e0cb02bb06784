import LineShell.Session.Command

/-! # Completion — candidates for the word at the cursor

    The text before the word decides.  Where no command stands before it,
    the candidates are the dispatchable commands and the words of special
    form; otherwise the completer of the command is asked, and one that
    fails has none.  Candidates start with what is typed already; they are
    sorted and each stands once. -/

namespace LineShell

open LineShell.Text

/-- The first characters of a text; a negative count leaves so many out
    at the end. -/
def leading (cs : List Char) (count : Int) : List Char :=
  if count < 0 then cs.take (cs.length - count.natAbs)
  else cs.take count.natAbs

/-- The names that start with a text, sorted, each once. -/
def candidatesFor (typed : String) (names : List String) : List String :=
  ((names.filter fun name => typed.toList.isPrefixOf name.toList).mergeSort
    fun a b => decide (a ≤ b)).eraseDups

/-- The run of characters that are not blank at the end of a text. -/
def lastWord (cs : List Char) : List Char :=
  (cs.reverse.takeWhile fun c => !isBlank c).reverse

namespace Run

variable (execute : Executor)

/-- What a completer hands over, item by item. -/
def completerItems (command : String) (b : Bound) (typed line : String)
    (start : Int) : Run (List Value) := do
  let v ← contain
    (callBound execute b
      (.ofArgs [.text typed, .text line, .int start]))
    fun _ => do
      record [.completerFailed command]
      pure .null
  if v.isTrue then
    match v.items? with
    | some items => pure items
    | none => throw (.mismatch (.notIterable (v.kindName (← identity))))
  else pure []

/-- The candidates for a word that starts at a position of a line. -/
def complete (typed line : String) (start : Int) : Run (List String) := do
  let s ← get
  match Line.read (String.ofList (leading line.toList start)) with
  | .error _ => pure []
  | .ok before =>
      if before.isEmpty then
        pure (candidatesFor typed
          (s.registry.dispatchable ++ helpWords ++ quitWords))
      else
        match s.registry.completer? before.command with
        | none => pure []
        | some b => do
            let items ←
              completerItems execute before.command b typed line start
            let me ← identity
            pure (candidatesFor typed (items.map fun v => v.display me))

/-- The candidates for the word before a cursor, each with where it
    starts, counted back from the cursor. -/
def completeWord (text : String) (cursor : Int) : Run Value := do
  let cs := text.toList
  if (cs.length : Int) < cursor then
    throw (.outside
      s!"cursor_position={cursor}, len_text={cs.length}")
  else
    let before := leading cs cursor
    let typed := lastWord before
    let names ← complete execute (String.ofList typed)
      (String.ofList before) (before.length - typed.length : Nat)
    pure (.list (names.map fun name =>
      .list [.text name, .int (-(typed.length : Int))]))

end Run

end LineShell
