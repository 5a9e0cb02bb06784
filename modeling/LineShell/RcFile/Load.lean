import LineShell.RcFile
import LineShell.Event

/-! # Configuration files — read in order and merged

    Files that do not exist are skipped.  A file that exists and cannot be
    read stops the loading; so do bytes that are no text. -/

namespace LineShell

open LineShell.Text

/-- The text of bytes with every line end as a line feed. -/
def textOfBytes (bytes : List UInt8) : Except Fault String :=
  match decodeUtf8 bytes with
  | .ok cs => .ok (String.ofList (unifyNewlines cs))
  | .error e => .error (.undecodable e)

/-- The path with its home directory, or a fault. -/
def Path.expandHome (homes : Homes) (p : Path) : Except Fault Path :=
  match p.expandHome? homes with
  | some p => .ok p
  | none => .error .noHome

/-- Does a text hold the null character?  No file has such a name. -/
def Path.hasNull (p : Path) : Bool :=
  p.text.toList.any fun c => c.toNat == 0

/-- Does anything stand at the path? -/
def FileTree.present (files : FileTree) (p : Path) : Except Fault Bool :=
  if p.hasNull then .ok false
  else
    match files.has p with
    | .ok b => .ok b
    | .error e => .error (.file e)

namespace Config

/-- The configuration of a text, with the events of reading it. -/
def readFrom (source text : String) : Config × List Event :=
  (read text,
    (malformed text).map fun entry =>
      .malformedLine source entry.1 entry.2)

/-- Reads one file; `none` when it does not exist. -/
def readFile (files : FileTree) (homes : Homes) (p : Path) :
    Except Fault (Option Config) × List Event :=
  match p.expandHome homes with
  | .error f => (.error f, [])
  | .ok p =>
      match files.present p with
      | .error f => (.error f, [])
      | .ok false => (.ok none, [.configMissing p.text])
      | .ok true =>
          match files.read p with
          | .error e => (.error (.unreadableConfig p.text e.message), [])
          | .ok bytes =>
              match textOfBytes bytes with
              | .error f => (.error f, [])
              | .ok text =>
                  let (config, events) := readFrom p.text text
                  (.ok (some config),
                    events ++ [.configLoaded p.text config.size])

/-- Reads files in order into a configuration that is there already. -/
def loadInto (files : FileTree) (homes : Homes) (merged : Config) :
    List Path → Except Fault Config × List Event
  | [] => (.ok merged, [])
  | p :: rest =>
      match readFile files homes p with
      | (.error f, events) => (.error f, events)
      | (.ok none, events) =>
          let (result, more) := loadInto files homes merged rest
          (result, events ++ more)
      | (.ok (some config), events) =>
          let (result, more) :=
            loadInto files homes (merged.insertAll config.toList) rest
          (result, events ++ more)

/-- Reads files in order and merges them. -/
def load (files : FileTree) (homes : Homes) (paths : List Path) :
    Except Fault Config × List Event :=
  loadInto files homes .empty paths

end Config

end LineShell
