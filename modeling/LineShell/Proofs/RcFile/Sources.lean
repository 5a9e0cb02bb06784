import LineShell.Proofs.History.Damage

/-! # Naming configuration files — every way comes to the same

    A list of configuration files reaches a shell by a variable of the
    process, by options of the command line or as an option of the shell,
    as one text or as a list.  On the way it is cut at colons, kept or
    turned into paths, and checked again by the shell.  Whichever way it
    takes, the shell ends up with the same paths in the same order, and
    with what loading them gives (`sources_agree`).

    The ways differ in what else they need.  Settings are read from the
    variable file and name a history file, and a program configures its
    log; each of these can fail where the configuration files do not
    (`sources_fail_apart`). -/

namespace LineShell

open LineShell.Text

/-! ## Paths in one text -/

namespace Path

theorem cut_of_notMem {mark : Char} {cs : List Char} (h : mark ∉ cs) :
    cut mark cs = [cs] := by
  induction cs with
  | nil => rfl
  | cons c rest ih =>
      obtain ⟨hne, hrest⟩ := not_or.mp (mt List.mem_cons.mpr h)
      have hother : (c == mark) = false := beq_false_of_ne (Ne.symm hne)
      rw [cut, hother, ih hrest]
      rfl

/-- A mark ends the first piece. -/
theorem cut_append_mark {mark : Char} {cs : List Char} (h : mark ∉ cs)
    (rest : List Char) :
    cut mark (cs ++ mark :: rest) = cs :: cut mark rest := by
  induction cs with
  | nil =>
      rw [List.nil_append, cut, beq_self_eq_true]
      rfl
  | cons c more ih =>
      obtain ⟨hne, hmore⟩ := not_or.mp (mt List.mem_cons.mpr h)
      have hother : (c == mark) = false := beq_false_of_ne (Ne.symm hne)
      rw [List.cons_append, cut, hother, ih hmore]
      rfl

/-- Cutting brings back what was joined. -/
theorem cut_intercalate {mark : Char} {pieces : List (List Char)}
    (hne : pieces ≠ []) (h : ∀ cs ∈ pieces, mark ∉ cs) :
    cut mark ([mark].intercalate pieces) = pieces := by
  induction pieces with
  | nil => exact absurd rfl hne
  | cons cs rest ih =>
      have hcs := h cs List.mem_cons_self
      have hrest := fun x hx => h x (List.mem_cons_of_mem cs hx)
      cases rest with
      | nil => rw [List.intercalate_singleton, cut_of_notMem hcs]
      | cons next more =>
          rw [List.intercalate_cons_cons, List.append_assoc,
            List.singleton_append, cut_append_mark hcs,
            ih (List.cons_ne_nil _ _) hrest]

end Path

/-- The text of a path that can stand among others in one text: it is not
    empty and holds no colon. -/
def IsPathText (text : String) : Prop :=
  text ≠ "" ∧ ':' ∉ text.toList

namespace Options

variable {texts : List String}

theorem pathsOf_intercalate (hne : texts ≠ [])
    (htexts : ∀ text ∈ texts, IsPathText text) :
    pathsOf (":".intercalate texts) = texts.map Path.ofText := by
  have hpieces : Path.cut ':' (":".intercalate texts).toList =
      texts.map String.toList := by
    rw [String.toList_intercalate]
    refine Path.cut_intercalate (mt List.map_eq_nil_iff.mp hne) ?_
    intro cs hcs
    obtain ⟨text, htext, rfl⟩ := List.mem_map.mp hcs
    exact (htexts text htext).2
  have hkept : (texts.map String.toList).filter (fun cs => !cs.isEmpty) =
      texts.map String.toList := by
    refine List.filter_eq_self.mpr ?_
    intro cs hcs
    obtain ⟨text, htext, rfl⟩ := List.mem_map.mp hcs
    simpa using (htexts text htext).1
  rw [pathsOf, hpieces, hkept, List.map_map, List.map_map]
  refine List.map_congr_left ?_
  intro text _
  exact congrArg Path.ofText String.ofList_toList

/-- Texts are accepted as the paths that they are read as. -/
theorem checkItems_texts (place : String) (index : Nat)
    (texts : List String) :
    checkItems place index (texts.map .text) =
      ([], texts.map Path.ofText) := by
  induction texts generalizing index with
  | nil => rfl
  | cons text rest ih =>
      rw [List.map_cons, checkItems, ih]
      rfl

/-- The two forms in which the paths of texts are given to a shell. -/
inductive Names (texts : List String) : Value → Prop where
  | joined : Names texts (.text (":".intercalate texts))
  | list : Names texts (.list (texts.map .text))

theorem Names.accepted {v : Value} (h : Names texts v) (hne : texts ≠ [])
    (htexts : ∀ text ∈ texts, IsPathText text) (place : String) :
    checkPaths place v = .ok (texts.map Path.ofText) := by
  cases h with
  | joined =>
      show Except.ok (pathsOf (":".intercalate texts)) = _
      rw [pathsOf_intercalate hne htexts]
  | list => rw [checkPaths, checkItems_texts]

/-- The paths are among the options of a shell in checked form. -/
theorem merged_rcfiles (o : Options) (args : OrderedMap Value) :
    (o.merged args).get? "rcfiles" =
      some (.list (o.rcfiles.map .path)) := by
  rw [merged, OrderedMap.get?_insertAll (by simp [values])]
  rfl

end Options

/-! ## Paths in a variable -/

namespace Settings

/-- A variable for a setting stands once among those of the process, in
    whatever letter case, and has a value. -/
def SaidOnce (process : List (String × String)) (setting text : String) :
    Prop :=
  ∃ before name after, process = before ++ (name, text) :: after ∧
    smallName name = variableStart ++ setting ∧
    ∀ pair ∈ before ++ after, smallName pair.1 ≠ variableStart ++ setting

/-- Variables of other names do not matter to a value. -/
theorem foldl_of_others {vars : List (String × Option String)}
    {name : String} (h : ∀ pair ∈ vars, smallName pair.1 ≠ name)
    (found : Option String) :
    vars.foldl (fun found pair =>
      if smallName pair.1 == name then pair.2 else found) found = found := by
  induction vars with
  | nil => rfl
  | cons pair rest ih =>
      have hother : (smallName pair.1 == name) = false :=
        beq_false_of_ne (h pair List.mem_cons_self)
      rw [List.foldl_cons, hother, if_neg Bool.false_ne_true]
      exact ih fun x hx => h x (List.mem_cons_of_mem pair hx)

theorem SaidOnce.given {process : List (String × String)}
    {setting text : String} (h : SaidOnce process setting text)
    (file : OrderedMap (Option String)) :
    given? process file setting = some text := by
  obtain ⟨before, name, after, rfl, hname, hothers⟩ := h
  have hnone : ∀ vars : List (String × String), (∀ pair ∈ vars,
      pair ∈ before ++ after) → ∀ pair ∈ vars.map fun pair =>
        (pair.1, some pair.2), smallName pair.1 ≠ variableStart ++ setting := by
    intro vars hvars pair hpair
    obtain ⟨other, hother, rfl⟩ := List.mem_map.mp hpair
    exact hothers other (hvars other hother)
  have hlast : lastValue? ((before ++ (name, text) :: after).map
      fun pair => (pair.1, some pair.2)) (variableStart ++ setting) =
        some text := by
    rw [lastValue?, List.map_append, List.foldl_append,
      foldl_of_others (hnone before fun _ => List.mem_append_left _),
      List.map_cons, List.foldl_cons, hname, beq_self_eq_true, if_pos rfl]
    exact foldl_of_others (hnone after fun _ => List.mem_append_right _) _
  rw [given?, hlast]
  rfl

/-- The variable file can be read, if there is one that the file tree does
    not refuse. -/
def FileReads (files : FileTree) : Prop :=
  ∀ bytes, files.read (Path.ofText fileName) = .ok bytes →
    ∃ cs, decodeUtf8 bytes = .ok cs

theorem FileReads.variables {files : FileTree} (h : FileReads files)
    (process : List (String × String)) :
    ∃ file, fileVariables files process = .ok file := by
  rw [fileVariables]
  cases hread : files.read (Path.ofText fileName) with
  | error _ => exact ⟨_, rfl⟩
  | ok bytes =>
      obtain ⟨cs, hcs⟩ := h bytes hread
      refine ⟨EnvFile.read process
        (String.ofList (unifyNewlines cs)), ?_⟩
      dsimp only
      rw [textOfBytes, hcs]
      rfl

/-- The history file that settings name, if they name one, can be loaded or
    passed over. -/
def HistoryLoads (s : Settings) (files : FileTree) (homes : Homes) : Prop :=
  ∀ histfile, s.histfile = Options.pathValue histfile →
    ∃ entries, (History.load files homes histfile).1 = .ok entries

end Settings

/-! ## Making the shell -/

/-- A shell that was given some paths and holds what loading them gives. -/
structure Session.Configured (s : Session) (paths : List Path)
    (config : Config) : Prop where
  rcfiles : s.options.get? "rcfiles" = some (.list (paths.map .path))
  config_eq : s.config = config

namespace Run

variable {execute : Executor} {plan : ShellPlan} {o : Options}
variable {config : Config} {prompt : Prompt} {s : Session}

theorem buildReader_ok {histfile : Option Path} {entries : List String}
    (h : (History.load s.files s.world.homes histfile).1 = .ok entries)
    (source : Source) (histsize : Int) :
    ∃ reader events, buildReader source histfile histsize s =
      some (.ok reader, s.recording events) := by
  rcases hload : History.load s.files s.world.homes histfile with ⟨r, events⟩
  rw [hload] at h
  obtain rfl : r = .ok entries := h
  exact ⟨_, events, buildReader_eq hload source histsize⟩

/-- A plan brings a reader or has one built, which leaves the options and
    the configuration as they are. -/
theorem firstReader_ok {entries : List String}
    (hentries : (History.load s.files s.world.homes o.histfile).1 =
      .ok entries) (reader? : Option Reader) :
    ∃ reader s', firstReader reader? o s = some (.ok reader, s') ∧
      s'.options = s.options ∧ s'.config = s.config := by
  cases reader? with
  | some reader => exact ⟨reader, s, rfl, rfl, rfl⟩
  | none =>
      obtain ⟨reader, events, hreader⟩ :=
        buildReader_ok hentries .keyboard o.histsize
      exact ⟨reader, _, hreader, rfl, rfl⟩

/-- Where the options of a plan are well, its configuration files and its
    history can be read, and it has a prompt, a shell is made with the
    paths of the options and what the files say. -/
theorem start_configured (hcheck : Options.check plan.args = .ok o)
    (hload : (Config.load s.files s.world.homes o.rcfiles).1 = .ok config)
    {entries : List String}
    (hentries : (History.load s.files s.world.homes o.histfile).1 =
      .ok entries)
    (hprompt : ∀ t, firstPrompt execute plan.shellClass plan.givenPrompt t =
      some (.ok prompt, t)) (hextensions : plan.extensions = []) :
    ∃ s', start execute plan s = some (.ok (), s') ∧
      s'.Configured o.rcfiles config := by
  obtain ⟨t, hfiles, hworld, -, hoptions, hconfig, hbuilt, -⟩ :=
    start_reads hcheck hload hprompt hextensions
  rw [← hfiles, ← hworld] at hentries
  obtain ⟨reader, t', hread, hoptions', hconfig'⟩ :=
    firstReader_ok hentries plan.reader
  obtain ⟨s', hstart, -, hsame, hsaid⟩ := hbuilt reader t' hread
  refine ⟨s', hstart, ?_, hsaid.trans (hconfig'.trans hconfig)⟩
  rw [hsame, hoptions', hoptions, Options.merged_rcfiles]

end Run

namespace Options

/-- The stock shell with one option, the configuration files. -/
def planNaming (v : Value) (reader : Option Reader) (output : Output) :
    ShellPlan where
  shellClass := (Catalogue.base.find? BaseShell.className).getD default
  options := [("rcfiles", v)]
  reader
  output
  prompt := none
  extensions := []

variable {texts : List String} {files : FileTree} {world : World}
variable {config : Config}

/-- The stock shell is made with the paths of an option in either form. -/
theorem Names.configured {v : Value} (h : Names texts v) (hne : texts ≠ [])
    (htexts : ∀ text ∈ texts, IsPathText text) {s : Session}
    (hload : (Config.load s.files s.world.homes
      (texts.map Path.ofText)).1 = .ok config)
    (reader : Option Reader) (output : Output) :
    ∃ s', Run.start Run.executeFully (planNaming v reader output) s =
        some (.ok (), s') ∧
      s'.Configured (texts.map Path.ofText) config := by
  have hgiven : checkGiven (planNaming v reader output).args "rcfiles" []
      (checkPaths "rcfiles") = .ok (texts.map Path.ofText) :=
    h.accepted hne htexts "rcfiles"
  have hcheck : check (planNaming v reader output).args =
      .ok ⟨none, texts.map Path.ofText, standardSize⟩ := by
    rw [check, hgiven]
    rfl
  have hprompt : ∀ t, Run.firstPrompt Run.executeFully
      (planNaming v reader output).shellClass none t =
        some (.ok (.literal (.text "ShellBase> ")), t) := by
    have hfully : Run.executeFully = Run.executeWithin (99999 + 1) := rfl
    rw [hfully]
    exact fun _ => rfl
  have hnone : (History.load s.files s.world.homes none).1 = .ok [] := rfl
  exact Run.start_configured hcheck hload hnone hprompt rfl

end Options

namespace Settings

variable {settings : Settings} {files : FileTree} {world : World}
variable {paths : List Path} {config : Config} {histfile : Option Path}

/-- Making the shell of a process from settings that can be. -/
theorem Formed.start_configured (h : settings.Formed histfile paths)
    {s : Session}
    (hload : (Config.load s.files s.world.homes paths).1 = .ok config)
    {entries : List String}
    (hentries : (History.load s.files s.world.homes histfile).1 =
      .ok entries) (reader : Option Reader) (terminal : Bool) :
    ∃ s', Run.start Run.executeFully (settings.plan reader terminal) s =
        some (.ok (), s') ∧
      s'.Configured paths config := by
  obtain ⟨prompt, hprompt⟩ := Run.firstPrompt_base h
  have hcheck : Options.check (settings.plan reader terminal).args =
      .ok ⟨histfile, paths, Options.standardSize⟩ := h.check
  exact Run.start_configured hcheck hload hentries hprompt rfl

theorem Formed.streamReader_eq (h : settings.Formed histfile paths)
    (input : String) :
    settings.streamReader input =
      Run.buildReader (streamReader.source input) histfile
        Options.standardSize := by
  rw [streamReader, h.histfile]
  cases histfile <;> rfl

/-- Settings make a shell with their paths, at a terminal and elsewhere. -/
theorem Formed.configured (h : settings.Formed histfile paths)
    (hload : (Config.load files world.homes paths).1 = .ok config)
    (hhistory : settings.HistoryLoads files world.homes) (terminal : Bool)
    (input : String) :
    ∃ s, settings.buildShell terminal input (.bare world files .base) =
        some (.ok (), s) ∧
      s.Configured paths config := by
  obtain ⟨entries, hentries⟩ := hhistory histfile h.histfile
  generalize hbare : Session.bare world files .base = bare
  have hfiles : files = bare.files := by rw [← hbare]; rfl
  have hworld : world = bare.world := by rw [← hbare]; rfl
  have hcatalogue : bare.catalogue = .base := by rw [← hbare]; rfl
  rw [hfiles, hworld] at hload hentries
  cases terminal with
  | true =>
      obtain ⟨s', hstart, hconfigured⟩ :=
        h.start_configured hload hentries none true
      refine ⟨s', ?_, hconfigured⟩
      rw [buildShell, Run.get_bind_eq, hcatalogue]
      exact hstart
  | false =>
      obtain ⟨reader, events, hreader⟩ := Run.buildReader_ok hentries
        (streamReader.source input) Options.standardSize
      rw [← h.streamReader_eq] at hreader
      obtain ⟨s', hstart, hconfigured⟩ := h.start_configured
        (s := bare.recording events) hload hentries (some reader) false
      refine ⟨s', ?_, hconfigured⟩
      rw [buildShell, Run.get_bind_eq, hcatalogue,
        if_neg Bool.false_ne_true, Run.bind_ok (Run.map_ok some hreader)]
      exact hstart

end Settings

/-! ## The program -/

namespace CommandLine

variable {texts argv : List String} {a : Arguments} {settings : Settings}
variable {files : FileTree} {world : World} {config : Config}

/-- The command line names files by an option that is repeated, each time
    with the path as the next argument or behind an equals sign. -/
inductive Repeats : List String → List String → Prop where
  | nil : Repeats [] []
  | apart {text : String} {texts argv : List String}
      (h : Repeats texts argv) :
      Repeats (text :: texts) ("--rcfile" :: text :: argv)
  | joined {text : String} {texts argv : List String}
      (h : Repeats texts argv) :
      Repeats (text :: texts) (("--rcfile=" ++ text) :: argv)

theorem splitAtEquals_rcfile (text : String) :
    splitAtEquals ("--rcfile=" ++ text) = some ("--rcfile", text) := by
  have hchars : ("--rcfile=" ++ text).toList =
      "--rcfile".toList ++ '=' :: text.toList := by
    rw [String.toList_append]
    rfl
  have hname : ∀ c ∈ "--rcfile".toList, (c != '=') = true :=
    List.all_eq_true.mp rfl
  rw [splitAtEquals, hchars, List.dropWhile_append_of_pos hname,
    List.takeWhile_append_of_pos hname,
    List.dropWhile_cons_of_neg (by decide),
    List.takeWhile_cons_of_neg (by decide)]
  simp

/-- A path behind an equals sign, and the path as the next argument. -/
theorem parseFrom_rcfile (a : Arguments) (text : String)
    (argv : List String) :
    parseFrom a (("--rcfile=" ++ text) :: argv) =
        parseFrom { a with rcfiles := a.rcfiles ++ [text] } argv ∧
      parseFrom a ("--rcfile" :: text :: argv) =
        parseFrom { a with rcfiles := a.rcfiles ++ [text] } argv := by
  have hset : a.set? "--rcfile" text =
      some { a with rcfiles := a.rcfiles ++ [text] } := rfl
  constructor
  · have hsplit := splitAtEquals_rcfile text
    generalize "--rcfile=" ++ text = first at hsplit ⊢
    have hne : first ≠ "--" := by
      rintro rfl
      cases hsplit
    have hread : parseFrom a (first :: argv) =
        (a.set? "--rcfile" text).bind fun a => parseFrom a argv := by
      -- whether more arguments follow does not matter to this form
      cases argv <;>
      · rw [parseFrom, hsplit]
        exact fun h => absurd h hne
    rw [hread, hset, Option.bind_some]
  · have hnone : splitAtEquals "--rcfile" = none := by decide
    rw [parseFrom]
    · rw [hnone]
      dsimp only
      rw [hset, Option.bind_some]
    · nofun

/-- Repeated options are read as the paths that they name, in order. -/
theorem Repeats.parseFrom_eq (h : Repeats texts argv) (a : Arguments) :
    parseFrom a argv = some { a with rcfiles := a.rcfiles ++ texts } := by
  induction h generalizing a with
  | nil => simp [parseFrom]
  | apart _ ih =>
      rw [(parseFrom_rcfile _ _ _).2, ih]
      simp
  | joined _ ih =>
      rw [(parseFrom_rcfile _ _ _).1, ih]
      simp

/-- A program whose shell is made runs it. -/
theorem run_eq_session (hparse : parse argv = some a)
    (hsettings : Settings.load files world.vars a.overrides = .ok settings)
    (hlogging : (Logging.unconfigured.configure world.vars
      (levelText? settings.logLevel)).2 = none) {input : String}
    {s : Session}
    (hbuild : settings.buildShell false input (.bare world files .base) =
      some (.ok (), s)) :
    run world files argv input =
      (Run.session Run.executeFully s).map .ofSession := by
  rw [run_eq_runShell hparse hsettings hlogging, runShell_ok hbuild,
    Option.map_map]
  congr 1
  funext result
  obtain ⟨_ | _, s'⟩ := result <;> rfl

/-- **ONE RESULT**: some paths that can stand in one text, where the files
    at them load.  They can be said in a variable of the process, once,
    joined by colons; on the command line, whatever the variables say; or
    as an option of the shell, joined or as a list.  Each way makes a shell
    whose option holds these paths, in order, and whose configuration is
    what loading them gives.  The first two need a variable file that is
    missing, refused or a text, and a history file that loads; and a
    program goes on to run its shell if the level of its log is known. -/
theorem sources_agree (hne : texts ≠ [])
    (htexts : ∀ text ∈ texts, IsPathText text)
    (hload : (Config.load files world.homes (texts.map Path.ofText)).1 =
      .ok config) :
    (Settings.SaidOnce world.vars "rcfiles" (":".intercalate texts) →
      Settings.FileReads files →
      ∃ settings, Settings.load files world.vars [] = .ok settings ∧
        (settings.HistoryLoads files world.homes → ∀ terminal input,
          ∃ s, settings.buildShell terminal input (.bare world files .base) =
              some (.ok (), s) ∧
            s.Configured (texts.map Path.ofText) config)) ∧
    (∀ argv a, parse argv = some a → a.rcfiles = texts →
      Settings.FileReads files →
      ∃ settings, Settings.load files world.vars a.overrides = .ok settings ∧
        (settings.HistoryLoads files world.homes → ∀ terminal input,
          ∃ s, settings.buildShell terminal input (.bare world files .base) =
              some (.ok (), s) ∧
            s.Configured (texts.map Path.ofText) config ∧
            (terminal = false →
              (Logging.unconfigured.configure world.vars
                (levelText? settings.logLevel)).2 = none →
              run world files argv input =
                (Run.session Run.executeFully s).map .ofSession))) ∧
    ∀ v, Options.Names texts v → ∀ reader output,
      ∃ s, Run.start Run.executeFully (Options.planNaming v reader output)
          (.bare world files .base) = some (.ok (), s) ∧
        s.Configured (texts.map Path.ofText) config := by
  refine ⟨?_, ?_, ?_⟩
  · intro honce hfile
    obtain ⟨file, hfile⟩ := hfile.variables world.vars
    have hsettings : Settings.load files world.vars [] =
        .ok (Settings.ofVariables world.vars file) := by
      rw [Settings.load, hfile]
      rfl
    have hformed := Settings.ofVariables_formed world.vars file
    rw [honce.given file] at hformed
    have hpaths := Options.pathsOf_intercalate hne htexts
    rw [Option.map_some, Option.getD_some, hpaths] at hformed
    exact ⟨_, hsettings, hformed.configured hload⟩
  · rintro argv a hparse rfl hfile
    obtain ⟨file, hfile⟩ := hfile.variables world.vars
    obtain ⟨settings, hsettings⟩ : ∃ settings,
        Settings.load files world.vars a.overrides = .ok settings := by
      rw [Settings.load, hfile]
      exact ⟨_, rfl⟩
    obtain ⟨histfile, rcfiles, hformed, hgiven⟩ :=
      Settings.load_formed hsettings
    rw [hgiven hne] at hformed
    refine ⟨settings, hsettings, ?_⟩
    intro hhistory terminal input
    obtain ⟨s, hbuild, hconfigured⟩ :=
      hformed.configured hload hhistory terminal input
    refine ⟨s, hbuild, hconfigured, ?_⟩
    rintro rfl hlogging
    exact run_eq_session hparse hsettings hlogging hbuild
  · intro v hnames reader output
    exact hnames.configured hne htexts hload reader output

/-- A process with a variable for two configuration files. -/
def namingWorld : World :=
  ⟨default, [("ShellBase_RcFiles", "rc:missing")], []⟩

/-- A tree with a configuration file that says one name. -/
def namingFiles : FileTree := oneEntry (.file [0x78])

theorem stands_namingFiles :
    List.Forall₂ (Config.Stands namingFiles namingWorld.homes)
      [.ofText "rc", .ofText "missing"] [some "x", none] := by
  have hread : namingFiles.read (.ofText "rc") = .ok [0x78] := by
    decide +kernel
  have hdecode : decodeUtf8 [0x78] = .ok ['x'] := rfl
  have hfirst : Config.Stands namingFiles namingWorld.homes (.ofText "rc")
      (some "x") :=
    .text (by decide +kernel) (by decide +kernel) hread hdecode
  have hsecond : Config.Stands namingFiles namingWorld.homes
      (.ofText "missing") none :=
    .missing (q := .ofText "missing") (by decide +kernel) (by decide +kernel)
  exact .cons hfirst (.cons hsecond .nil)

/-- The two files, said by the variable and on the command line. -/
theorem sources_agree_two :
    (∀ text ∈ ["rc", "missing"], IsPathText text) ∧
    (Config.load namingFiles namingWorld.homes
      [.ofText "rc", .ofText "missing"]).1 = .ok (Config.read "x") ∧
    Settings.SaidOnce namingWorld.vars "rcfiles" "rc:missing" ∧
    Settings.FileReads namingFiles ∧
    (∃ settings, Settings.load namingFiles namingWorld.vars [] =
        .ok settings ∧
      ∀ terminal input, ∃ s, settings.buildShell terminal input
          (.bare namingWorld namingFiles .base) = some (.ok (), s) ∧
        s.Configured [.ofText "rc", .ofText "missing"] (Config.read "x")) ∧
    ∀ input, ∃ s : Session,
      s.Configured [.ofText "rc", .ofText "missing"] (Config.read "x") ∧
      run namingWorld namingFiles ["--rcfile", "rc", "--rcfile=missing"]
        input = (Run.session Run.executeFully s).map .ofSession := by
  have htexts : ∀ text ∈ ["rc", "missing"], IsPathText text := by
    simp only [IsPathText]
    decide
  have hload : (Config.load namingFiles namingWorld.homes
      [.ofText "rc", .ofText "missing"]).1 = .ok (Config.read "x") := by
    rw [Config.load_stands stands_namingFiles]
    rfl
  have honce : Settings.SaidOnce namingWorld.vars "rcfiles" "rc:missing" :=
    ⟨[], _, [], rfl, by decide, List.forall_mem_nil _⟩
  have hfile : Settings.FileReads namingFiles := by
    intro bytes hread
    have hnone : (namingFiles.read (.ofText ".env")).isOk = false := by
      decide +kernel
    rw [Settings.fileName] at hread
    rw [hread] at hnone
    cases hnone
  have hrepeats : Repeats ["rc", "missing"]
      ["--rcfile", "rc", "--rcfile=" ++ "missing"] :=
    .apart (.joined .nil)
  have hparse : parse ["--rcfile", "rc", "--rcfile=missing"] =
      some ⟨none, ["rc", "missing"], none, none⟩ :=
    hrepeats.parseFrom_eq .none
  obtain ⟨hvariable, hoptions, -⟩ :=
    sources_agree (List.cons_ne_nil _ _) htexts hload
  obtain ⟨said, hsaid, hshell⟩ := hvariable honce hfile
  obtain ⟨named, hnamed, hprogram⟩ := hoptions _ _ hparse rfl hfile
  have hhistory : ∀ settings : Settings, settings.histfile = .null →
      settings.HistoryLoads namingFiles namingWorld.homes := by
    intro settings hnull histfile hpath
    rw [hnull] at hpath
    cases histfile with
    | none => exact ⟨[], rfl⟩
    | some p => cases hpath
  refine ⟨htexts, hload, honce, hfile, ⟨said, hsaid, ?_⟩, ?_⟩
  · obtain rfl := Except.ok.inj (hsaid.symm.trans rfl)
    exact hshell (hhistory _ rfl)
  · intro input
    obtain rfl := Except.ok.inj (hnamed.symm.trans rfl)
    obtain ⟨s, -, hconfigured, hrun⟩ := hprogram (hhistory _ rfl) false input
    exact ⟨s, hconfigured, hrun rfl (by decide +kernel)⟩

/-- The configuration files load, and yet no shell is made:

    * the variable names them, and the variable file is no text;
    * the command line names them, and the level of the log is unknown. -/
theorem sources_fail_apart :
    (Settings.SaidOnce [("SHELLBASE_RCFILES", "rc")] "rcfiles" "rc" ∧
      (Config.load (namingFiles.set ["h", ".env"] (.file [0xff])) default
        [.ofText "rc"]).1.isOk = true ∧
      Settings.load (namingFiles.set ["h", ".env"] (.file [0xff]))
          [("SHELLBASE_RCFILES", "rc")] [] =
        .error (.undecodable ⟨0xff, 0, 1, .invalidStart⟩)) ∧
    (parse ["--rcfile", "rc"] = some ⟨none, ["rc"], none, none⟩ ∧
      (Config.load namingFiles default [.ofText "rc"]).1.isOk = true ∧
      ∃ f, run ⟨default, [("SHELLBASE_LOG_LEVEL", "NOPE")], []⟩ namingFiles
          ["--rcfile", "rc"] "" = some ⟨.error f, "", [], namingFiles⟩) := by
  refine ⟨⟨⟨[], _, [], rfl, by decide, List.forall_mem_nil _⟩,
    by decide +kernel, rfl⟩, rfl, by decide +kernel, _, rfl⟩

end CommandLine

end LineShell
