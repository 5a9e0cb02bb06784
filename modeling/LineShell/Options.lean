import LineShell.Value
import LineShell.OrderedMap
import LineShell.Decimal.Numeral

/-! # Options — what a shell is constructed with

    Three options are understood: the history file, the configuration
    files, and how many history entries are kept.  Each accepts several
    forms of a value; a value of no accepted form is an error with its
    place.  All errors are found, in the order of the options.  Other
    options are kept as they are. -/

namespace LineShell

open LineShell.Decimal

/-- The options that are understood. -/
structure Options where
  histfile : Option Path
  rcfiles : List Path
  histsize : Int
  deriving DecidableEq, Repr, Inhabited

/-- What a value is checked to: the checked value, or where it fails. -/
abbrev Checked (α : Type) := Except (List OptionError) α

namespace Options

/-- How many history entries are kept when nothing is said. -/
def standardSize : Int := 1000

/-- A path, from a text or a path. -/
def path? : Value → Option Path
  | .path p => some p
  | v => v.asText?.map Path.ofText

/-- Checks a path that may be missing. -/
def checkPath (place : List String) : Value → Checked (Option Path)
  | .null => .ok none
  | v =>
      match path? v with
      | some p => .ok (some p)
      | none => .error [⟨place, .notPath⟩]

/-- The paths in a text, between colons. -/
def pathsOf (text : String) : List Path :=
  (((Path.cut ':' text.toList).filter fun cs => !cs.isEmpty).map
    String.ofList).map Path.ofText

/-- Checks the items of a list of paths, numbered from `index`. -/
def checkItems (place : String) (index : Nat) :
    List Value → List OptionError × List Path
  | [] => ([], [])
  | v :: rest =>
      let (errors, paths) := checkItems place (index + 1) rest
      match path? v with
      | some p => (errors, p :: paths)
      | none => (⟨[place, toString index], .notPath⟩ :: errors, paths)

/-- Checks a list of paths. -/
def checkPaths (place : String) : Value → Checked (List Path)
  | .null => .ok []
  | .list items =>
      match checkItems place 0 items with
      | ([], paths) => .ok paths
      | (errors, _) => .error errors
  | .path p => .ok (pathsOf p.text)
  | v =>
      match v.asText? with
      | some text => .ok (pathsOf text)
      | none => .error [⟨[place], .notList⟩]

/-- The whole number that a number with a point is. -/
def wholePart (x : Float) : Except OptionProblem Int :=
  if x.isNaN || x.isInf then .error .notFinite
  else if x.floor != x then .error .fractional
  else if x.abs < 9223372036854775808.0 then
    .ok (if x < 0 then -Int.ofNat x.abs.toUInt64.toNat
      else Int.ofNat x.toUInt64.toNat)
  else .error .integerTooLong

/-- The whole number that a value stands for. -/
def wholeNumber : Value → Except OptionProblem Int
  | .bool b => .ok (if b then 1 else 0)
  | .int n => .ok n
  | .real x => wholePart x
  | v =>
      match v.asText? with
      | none => .error .notInteger
      | some text =>
          match optionNumber? text with
          | .ok n => .ok n
          | .error .unreadable => .error .unreadableInteger
          | .error .tooLong => .error .integerTooLong

/-- Checks a number that is not negative. -/
def checkSize (place : String) (v : Value) : Checked Int :=
  match wholeNumber v with
  | .error problem => .error [⟨[place], problem⟩]
  | .ok n =>
      if n < 0 then .error [⟨[place], .belowMinimum⟩] else .ok n

/-- Checks a value if there is one. -/
def checkGiven {α : Type} (args : OrderedMap Value) (name : String)
    (standard : α) (check : Value → Checked α) : Checked α :=
  match args.get? name with
  | some v => check v
  | none => .ok standard

/-- The errors of a checked value. -/
def errorsOf {α : Type} : Checked α → List OptionError
  | .ok _ => []
  | .error errors => errors

/-- Checks options. -/
def check (args : OrderedMap Value) : Checked Options :=
  let histfile := checkGiven args "histfile" none (checkPath ["histfile"])
  let rcfiles := checkGiven args "rcfiles" [] (checkPaths "rcfiles")
  let histsize :=
    checkGiven args "histsize" standardSize (checkSize "histsize")
  match histfile, rcfiles, histsize with
  | .ok histfile, .ok rcfiles, .ok histsize =>
      .ok ⟨histfile, rcfiles, histsize⟩
  | _, _, _ =>
      .error (errorsOf histfile ++ errorsOf rcfiles ++ errorsOf histsize)

/-- A path that may be missing, as a value. -/
def pathValue : Option Path → Value
  | some p => .path p
  | none => .null

/-- The understood options as values. -/
def values (o : Options) : List (String × Value) :=
  [("histfile", pathValue o.histfile),
    ("rcfiles", .list (o.rcfiles.map .path)),
    ("histsize", .int o.histsize)]

/-- All options of a shell: those given, in their order, with the
    understood ones in checked form. -/
def merged (o : Options) (args : OrderedMap Value) : OrderedMap Value :=
  args.insertAll o.values

/-- All options, the understood ones in front. -/
def listed (o : Options) (args : OrderedMap Value) : OrderedMap Value :=
  (OrderedMap.ofList o.values).insertAll
    (args.toList.filter fun pair =>
      !(o.values.map Prod.fst).contains pair.1)

end Options

end LineShell
