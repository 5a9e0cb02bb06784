import LineShell.Path
import LineShell.Text.Quoted

/-! # File trees — the files that a session reads and writes

    A tree says of every location whether it is a directory or a file and
    what the file holds.  A path is walked from the root or from the
    working directory; every name but the last must lead to a directory. -/

namespace LineShell

/-- What stands at a location. -/
inductive Entry where
  | directory
  | file (bytes : List UInt8)
  deriving DecidableEq, Repr, Inhabited

/-- Why the file tree refuses. -/
inductive FileTrouble where
  | notFound
  | exists
  | notDirectory
  | isDirectory
  | nameTooLong
  deriving DecidableEq, Repr

/-- A refusal and the path it is about. -/
structure FileError where
  trouble : FileTrouble
  path : String
  deriving DecidableEq, Repr

/-- The number of a refusal. -/
def FileTrouble.number : FileTrouble → Nat
  | .notFound => 2
  | .exists => 17
  | .notDirectory => 20
  | .isDirectory => 21
  | .nameTooLong => 36

/-- A refusal in words. -/
def FileTrouble.words : FileTrouble → String
  | .notFound => "No such file or directory"
  | .exists => "File exists"
  | .notDirectory => "Not a directory"
  | .isDirectory => "Is a directory"
  | .nameTooLong => "File name too long"

/-- The message of a refusal. -/
def FileError.message (e : FileError) : String :=
  s!"[Errno {e.trouble.number}] {e.trouble.words}: {Text.quote e.path}"

/-- Directories and files by location, and the working directory.
    Locations are lists of names from the root. -/
structure FileTree where
  entries : List (List String × Entry)
  working : List String
  deriving Inhabited

namespace FileTree

/-- What stands at a location. -/
def entry? (t : FileTree) (location : List String) : Option Entry :=
  if location.isEmpty then some .directory
  else
    (t.entries.find? fun pair => pair.1 == location).map Prod.snd

/-- Puts an entry at a location. -/
def set (t : FileTree) (location : List String) (e : Entry) : FileTree :=
  { t with entries :=
      (t.entries.filter fun pair => pair.1 != location) ++ [(location, e)] }

/-- A tree with its working directory and the directories above it. -/
def ofWorking (working : List String) : FileTree :=
  (List.range working.length).foldl
    (fun t n => t.set (working.take (n + 1)) .directory)
    ⟨[], working⟩

/-- One name further down, or up for `..`. -/
def step (here : List String) (part : String) : List String :=
  if part == ".." then here.dropLast else here ++ [part]

/-- Walks down a list of names. -/
def walk (t : FileTree) (here : List String) :
    List String → Except FileTrouble (List String)
  | [] => .ok here
  | part :: rest =>
      match t.entry? here with
      | some .directory =>
          if 255 < part.utf8ByteSize then .error .nameTooLong
          else t.walk (step here part) rest
      | some (.file _) => .error .notDirectory
      | none => .error .notFound

/-- The location a path leads to, whether or not anything stands there. -/
def locate (t : FileTree) (p : Path) : Except FileTrouble (List String) :=
  if 4095 < p.text.utf8ByteSize then .error .nameTooLong
  else t.walk (if p.isAbsolute then [] else t.working) p.parts

/-- Does anything stand at the path?  Names that cannot exist are an
    error, names that merely do not are not. -/
def has (t : FileTree) (p : Path) : Except FileError Bool :=
  match t.locate p with
  | .ok location => .ok (t.entry? location).isSome
  | .error .nameTooLong => .error ⟨.nameTooLong, p.text⟩
  | .error _ => .ok false

/-- The bytes of the file at a path. -/
def read (t : FileTree) (p : Path) : Except FileError (List UInt8) :=
  match t.locate p with
  | .error trouble => .error ⟨trouble, p.text⟩
  | .ok location =>
      match t.entry? location with
      | some (.file bytes) => .ok bytes
      | some .directory => .error ⟨.isDirectory, p.text⟩
      | none => .error ⟨.notFound, p.text⟩

/-- Writes a file in an existing directory. -/
def write (t : FileTree) (p : Path) (bytes : List UInt8) :
    Except FileError FileTree :=
  match t.locate p with
  | .error trouble => .error ⟨trouble, p.text⟩
  | .ok location =>
      match t.entry? location with
      | some .directory => .error ⟨.isDirectory, p.text⟩
      | _ => .ok (t.set location (.file bytes))

/-- Makes one directory unless it is there. -/
def makeDirectory (t : FileTree) (p : Path) : Except FileError FileTree :=
  match t.locate p with
  | .error trouble => .error ⟨trouble, p.text⟩
  | .ok location =>
      match t.entry? location with
      | some .directory => .ok t
      | some (.file _) => .error ⟨.exists, p.text⟩
      | none => .ok (t.set location .directory)

/-- Makes a directory and all directories above it. -/
def makeDirectories (t : FileTree) (p : Path) :
    Except FileError FileTree :=
  (List.range p.parts.length).foldlM
    (fun t n => t.makeDirectory ⟨p.root, p.parts.take (n + 1)⟩) t

end FileTree

end LineShell
