import LineShell.RcFile.Load

/-! # Histories — the lines that were read, and the file that keeps them

    A history is a list of entries, the newest last.  Its file holds one
    entry a line.  Blank entries and entries of several lines are not
    written; a limit keeps the newest entries.  A file that cannot be
    opened is reported and otherwise passed over, in both directions. -/

namespace LineShell

open LineShell.Text

namespace History

/-- An entry that is written: one line, not blank. -/
def isKept (entry : String) : Bool :=
  !isBlankText entry && !entry.toList.contains '\n'

/-- The newest entries up to a limit; a negative limit says how many of
    the oldest are left out. -/
def newest (limit : Int) (entries : List String) : List String :=
  if limit < 0 then entries.drop limit.natAbs
  else entries.drop (entries.length - limit.natAbs)

/-- What is written of a history. -/
def kept (limit : Int) (entries : List String) : List String :=
  newest limit (entries.filter isKept)

/-- The text of a history file. -/
def fileText (entries : List String) : String :=
  String.join (entries.map fun entry => entry ++ "\n")

/-- The entries in the text of a history file: its lines, without blank
    ones. -/
def ofFileText (text : String) : List String :=
  ((lines text.toList).map String.ofList).filter
    fun line => !isBlankText line

/-- Reads a history file.  No path and no file give no entries. -/
def load (files : FileTree) (homes : Homes) :
    Option Path → Except Fault (List String) × List Event
  | none => (.ok [], [])
  | some p =>
      match p.expandHome homes with
      | .error f => (.error f, [])
      | .ok p =>
          match files.present p with
          | .error f => (.error f, [])
          | .ok false => (.ok [], [])
          | .ok true =>
              match files.read p with
              | .error _ => (.ok [], [.historyUnreadable p.text])
              | .ok bytes => ((textOfBytes bytes).map ofFileText, [])

/-- Writes a history file, after the directories above it: the files
    afterwards, whether a fault came up, and what is to be recorded. -/
def save (files : FileTree) (homes : Homes) (entries : List String)
    (limit : Int) :
    Option Path → FileTree × Except Fault Unit × List Event
  | none => (files, .ok (), [])
  | some p =>
      match p.expandHome homes with
      | .error f => (files, .error f, [])
      | .ok p =>
          let entries := kept limit entries
          if p.parent.hasNull then
            (files, .error (.refused .embeddedNull), [])
          else
            match files.makeDirectories p.parent with
            | .error _ => (files, .ok (), [.historyUnwritten p.text])
            | .ok files =>
                if p.hasNull then
                  (files, .error (.refused .embeddedNull), [])
                else
                  match files.write p (encodeUtf8 (fileText entries)) with
                  | .error _ =>
                      (files, .ok (), [.historyUnwritten p.text])
                  | .ok files =>
                      (files, .ok (),
                        [.historyWritten p.text entries.length])

/-- A number at the right end of a column. -/
def rightAligned (width : Nat) (text : String) : String :=
  String.ofList (List.replicate (width - text.length) ' ') ++ text

/-- The numbered entries from a position on, with a column as wide as the
    number of the newest entry; nothing when there are none. -/
def listing (entries : List String) (start : Nat) : Option String :=
  let width := (toString entries.length).length
  let rows := (entries.drop start).mapIdx fun index entry =>
    rightAligned width (toString (start + index + 1)) ++ "  " ++ entry
  if rows.isEmpty then none else some ("\n".intercalate rows)

/-- Where the newest entries start. -/
def startOfNewest (entries : List String) (count : Nat) : Nat :=
  entries.length - count

end History

end LineShell
