import LineShell.Program

/-! # Launches — running external programs

    A table says of each program what running it comes to.  What a
    finished program wrote is one text, its output before its complaints,
    without line feeds at the end. -/

namespace LineShell

/-- What running a program comes to. -/
inductive Launch where
  | finished (out err : Option String) (code : Int)
  /-- The program could not be run; the shell answers for it. -/
  | failed (message : String)
  /-- Something else went wrong. -/
  | raised (f : Fault)
  deriving Inhabited

namespace Launch

/-- Drops line feeds at the end. -/
def dropLineFeeds (cs : List Char) : List Char :=
  (cs.reverse.dropWhile (· == '\n')).reverse

/-- What a program wrote. -/
def outputText (out err : Option String) : String :=
  String.ofList (dropLineFeeds (out.getD "" ++ err.getD "").toList)

/-- The answer to a program that was run. -/
def report : Launch → Answer
  | finished out err code =>
      let text := outputText out err
      if code != 0 then
        .ok (.text (if text.isEmpty then s!"error: exit={code}"
          else s!"error: exit={code}\n{text}"))
      else if text.isEmpty then .ok .null
      else .ok (.text text)
  | failed message => .ok (.text s!"error: {message}")
  | raised f => .error f

end Launch

end LineShell
