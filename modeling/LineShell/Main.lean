import LineShell.CommandLine

/-! # The program — the command line at work

    Reads the variables, the files and the input that a run can touch,
    runs, and writes back what has changed. -/

open LineShell

/-- The variables that a run looks at. -/
def lookedAt : List String :=
  ["HOME", "SHELLBASE_HISTFILE", "SHELLBASE_RCFILES", "SHELLBASE_PROMPT",
    "SHELLBASE_LOG_LEVEL"]

/-- The values of variables. -/
def readVariables : IO (List (String × String)) := do
  let found ← lookedAt.mapM fun name => do
    pure ((← IO.getEnv name).map fun text => (name, text))
  pure (found.filterMap id)

/-- Puts what stands at a path into a tree. -/
def readInto (files : FileTree) (p : Path) : IO FileTree := do
  let add (bytes : List UInt8) : FileTree :=
    match files.makeDirectories p.parent with
    | .ok files =>
        match files.write p bytes with
        | .ok files => files
        | .error _ => files
    | .error _ => files
  try
    let bytes ← IO.FS.readBinFile p.text
    pure (add bytes.toList)
  catch _ => pure files

/-- The paths that a run may read or write. -/
def pathsOf (world : World) (argv : List String) : List Path :=
  let given := (CommandLine.parse argv).getD .none
  let named := fun name => OrderedMap.find name world.vars
  let histfiles := [given.histfile, named "SHELLBASE_HISTFILE"]
  let texts := histfiles.filterMap id ++ given.rcfiles
  let paths := texts.map Path.ofText
    ++ Options.pathsOf ((named "SHELLBASE_RCFILES").getD "")
  (Path.ofText Settings.fileName :: paths).filterMap fun p =>
    p.expandHome? world.homes

/-- Writes back a file that has changed. -/
def writeBack (before after : FileTree) (p : Path) : IO Unit := do
  match after.read p with
  | .ok bytes =>
      let unchanged := match before.read p with
        | .ok old => old == bytes
        | .error _ => false
      if unchanged then pure ()
      else
        IO.FS.createDirAll p.parent.text
        IO.FS.writeBinFile p.text (ByteArray.mk bytes.toArray)
  | .error _ => pure ()

/-- Runs the program. -/
def main (argv : List String) : IO UInt32 := do
  let vars ← readVariables
  let home := OrderedMap.find "HOME" vars
  let world : World := ⟨⟨home, "/", []⟩, vars, []⟩
  let paths := pathsOf world argv
  let files ← paths.foldlM readInto (FileTree.ofWorking ["work"])
  let input ← (← IO.getStdin).readToEnd
  match CommandLine.run world files argv input with
  | none =>
      IO.eprintln "shellbase: too many nested calls"
      pure 1
  | some outcome =>
      IO.print outcome.out
      outcome.err.forM fun line => IO.eprintln line
      paths.forM (writeBack files outcome.files)
      match outcome.exit with
      | .ok code => pure code.toUInt32
      | .error f =>
          IO.eprintln s!"{f.kindName}: {f.message}"
          pure 1
