/-! # Paths — normal form and the home directory

    A path is a root and a list of names.  Reading a path drops empty
    names and single points; `..` stays, for only the file tree knows
    where it leads.  A leading `~` stands for a home directory. -/

namespace LineShell

/-- A path in normal form.  The root is empty, one slash, or exactly two
    slashes. -/
structure Path where
  root : String
  parts : List String
  deriving DecidableEq, Repr, Inhabited

/-- What is known of home directories. -/
structure Homes where
  /-- The value of the variable that names the home directory. -/
  named : Option String
  /-- The home directory when there is no such variable. -/
  own : String
  /-- The home directories of other accounts. -/
  accounts : List (String × String)
  deriving Inhabited

namespace Path

/-- The root of a path text. -/
def rootOf (text : String) : String :=
  match (text.toList.takeWhile (· == '/')).length with
  | 0 => ""
  | 2 => "//"
  | _ => "/"

/-- Cuts a list of characters at a mark, keeping empty pieces. -/
def cut (mark : Char) : List Char → List (List Char)
  | [] => [[]]
  | c :: rest =>
      if c == mark then [] :: cut mark rest
      else
        match cut mark rest with
        | [] => [[c]]
        | piece :: more => (c :: piece) :: more

/-- The names of a path text, without empty ones and single points. -/
def partsOf (text : String) : List String :=
  ((cut '/' text.toList).map String.ofList).filter
    fun part => part != "" && part != "."

/-- Reads a path. -/
def ofText (text : String) : Path :=
  ⟨rootOf text, partsOf text⟩

/-- Writes a path; the path without root and names is a point. -/
def text (p : Path) : String :=
  if p.root.isEmpty && p.parts.isEmpty then "."
  else p.root ++ "/".intercalate p.parts

/-- Does the path start at the root of the file tree? -/
def isAbsolute (p : Path) : Bool :=
  !p.root.isEmpty

/-- The path without its last name. -/
def parent (p : Path) : Path :=
  ⟨p.root, p.parts.dropLast⟩

/-- The directory that a name with a leading `~` stands for. -/
def homeText? (homes : Homes) (name : String) : Option String :=
  if name == "~" then
    let home := homes.named.getD homes.own
    let trimmed := String.ofList
      ((home.toList.reverse.dropWhile (· == '/')).reverse)
    some (if trimmed.isEmpty then "/" else trimmed)
  else
    (homes.accounts.find? fun account => "~" ++ account.1 == name).map
      Prod.snd

/-- Replaces a leading `~` name by the home directory it stands for;
    `none` when there is no such directory. -/
def expandHome? (homes : Homes) (p : Path) : Option Path :=
  match p.parts with
  | first :: rest =>
      if p.root.isEmpty && first.startsWith "~" then
        match homeText? homes first with
        | some home =>
            if home.startsWith "~" then none
            else
              let base := ofText home
              some ⟨base.root, base.parts ++ rest⟩
        | none => none
      else some p
  | [] => some p

end Path

end LineShell
