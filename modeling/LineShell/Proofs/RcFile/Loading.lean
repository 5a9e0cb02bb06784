import LineShell.CommandLine
import LineShell.Proofs.RcFile.Merging
import LineShell.Proofs.Session.Behaviour

/-! # Loading configurations — which failures are reported

    Loading stops at the first file that fails (`Stops`), and the fault is
    that of the file.  No shell is made then: the fault is what starting
    ends in (`Run.start_stops`).  A program reports it and exits in order
    if the file tree refused the file.  It does not if the bytes of the
    file are no text: that fault is none of the shell's own, and it leaves
    the program as it is (`CommandLine.run_stops`). -/

namespace LineShell

open LineShell.Text

namespace Config

variable {files : FileTree} {homes : Homes}

/-! ## The first file that fails -/

/-- What fails at the path of a configuration file: there is no home
    directory to put in, the path cannot be looked for, the file tree
    refuses the file, or its bytes are no text. -/
inductive Fails (files : FileTree) (homes : Homes) : Path → Fault → Prop where
  | homeless {p : Path} (hhome : p.expandHome? homes = none) :
      Fails files homes p .noHome
  | unlocated {p q : Path} {e : FileError}
      (hhome : p.expandHome? homes = some q)
      (hpresent : files.present q = .error (.file e)) :
      Fails files homes p (.file e)
  | refused {p q : Path} {e : FileError}
      (hhome : p.expandHome? homes = some q)
      (hpresent : files.present q = .ok true)
      (hread : files.read q = .error e) :
      Fails files homes p (.unreadableConfig q.text e.message)
  | undecodable {p q : Path} {bytes : List UInt8} {e : Utf8Error}
      (hhome : p.expandHome? homes = some q)
      (hpresent : files.present q = .ok true)
      (hread : files.read q = .ok bytes)
      (hdecode : decodeUtf8 bytes = .error e) :
      Fails files homes p (.undecodable e)

/-- The first of the files that fails does so with a fault: those before it
    are missing or hold texts. -/
inductive Stops (files : FileTree) (homes : Homes) :
    List Path → Fault → Prop where
  | here {p : Path} {rest : List Path} {f : Fault}
      (hp : Fails files homes p f) : Stops files homes (p :: rest) f
  | later {p : Path} {text : Option String} {rest : List Path} {f : Fault}
      (hp : Stands files homes p text) (hrest : Stops files homes rest f) :
      Stops files homes (p :: rest) f

/-- A path cannot be looked for by reason of the file tree only. -/
theorem present_error {p : Path} {f : Fault}
    (h : files.present p = .error f) : ∃ e, f = .file e := by
  rw [FileTree.present] at h
  split at h
  · cases h
  · split at h
    · cases h
    · cases h
      exact ⟨_, rfl⟩

/-- A file is missing, holds a text, or fails. -/
theorem stands_or_fails (files : FileTree) (homes : Homes) (p : Path) :
    (∃ text, Stands files homes p text) ∨ ∃ f, Fails files homes p f := by
  cases hhome : p.expandHome? homes with
  | none => exact .inr ⟨_, .homeless hhome⟩
  | some q =>
      rcases hpresent : files.present q with f | _ | _
      · obtain ⟨e, rfl⟩ := present_error hpresent
        exact .inr ⟨_, .unlocated hhome hpresent⟩
      · exact .inl ⟨_, .missing hhome hpresent⟩
      · cases hread : files.read q with
        | error e => exact .inr ⟨_, .refused hhome hpresent hread⟩
        | ok bytes =>
            cases hdecode : decodeUtf8 bytes with
            | error e =>
                exact .inr ⟨_, .undecodable hhome hpresent hread hdecode⟩
            | ok cs => exact .inl ⟨_, .text hhome hpresent hread hdecode⟩

/-- All files are missing or hold texts, or one of them is the first that
    fails. -/
theorem stand_or_stops (files : FileTree) (homes : Homes)
    (paths : List Path) :
    (∃ texts, List.Forall₂ (Stands files homes) paths texts) ∨
      ∃ f, Stops files homes paths f := by
  induction paths with
  | nil => exact .inl ⟨[], .nil⟩
  | cons p rest ih =>
      rcases stands_or_fails files homes p with ⟨text, hp⟩ | ⟨f, hp⟩
      · rcases ih with ⟨texts, hrest⟩ | ⟨f, hrest⟩
        · exact .inl ⟨text :: texts, .cons hp hrest⟩
        · exact .inr ⟨f, .later hp hrest⟩
      · exact .inr ⟨f, .here hp⟩

/-- Reading a file that fails. -/
theorem readFile_fails {p : Path} {f : Fault} (h : Fails files homes p f) :
    (readFile files homes p).1 = .error f := by
  cases h with
  | homeless hhome =>
      rw [readFile, Path.expandHome, hhome]
  | unlocated hhome hpresent =>
      rw [readFile, Path.expandHome, hhome]
      dsimp only
      rw [hpresent]
  | refused hhome hpresent hread =>
      rw [readFile, Path.expandHome, hhome]
      dsimp only
      rw [hpresent]
      dsimp only
      rw [hread]
  | undecodable hhome hpresent hread hdecode =>
      rw [readFile, Path.expandHome, hhome]
      dsimp only
      rw [hpresent]
      dsimp only
      rw [hread]
      dsimp only
      rw [textOfBytes, hdecode]

/-- Loading ends in the fault of the first file that fails, whatever was
    merged before it. -/
theorem loadInto_stops {paths : List Path} {f : Fault}
    (h : Stops files homes paths f) (merged : Config) :
    (loadInto files homes merged paths).1 = .error f := by
  induction h generalizing merged with
  | here hp => rw [loadInto_cons, readFile_fails hp]
  | @later p text rest f hp _ ih =>
      rw [loadInto_cons, readFile_stands hp]
      cases text with
      | none => exact ih merged
      | some text => exact ih _

theorem load_stops {paths : List Path} {f : Fault}
    (h : Stops files homes paths f) :
    (load files homes paths).1 = .error f :=
  loadInto_stops h .empty

/-- A program reports that a file was refused, and nothing else of what
    can fail. -/
theorem isReported_of_stops {paths : List Path} {f : Fault}
    (h : Stops files homes paths f) :
    (∃ path cause, f = .unreadableConfig path cause) ∨
      CommandLine.isReported f = false := by
  induction h with
  | here hp =>
      cases hp with
      | homeless => exact .inr rfl
      | unlocated => exact .inr rfl
      | refused => exact .inl ⟨_, _, rfl⟩
      | undecodable => exact .inr rfl
  | later _ _ ih => exact ih

end Config

/-! ## Starting -/

/-- The session with more in its log. -/
def Session.recording (s : Session) (events : List Event) : Session :=
  { s with events := s.events ++ events }

namespace Run

/-- Recording and ending as an answer does. -/
theorem recorded_eq {α : Type} (result : Except Fault α × List Event)
    (s : Session) :
    recorded result s = some (result.1, s.recording result.2) := by
  obtain ⟨_ | a, events⟩ := result <;> rfl

theorem map_ok {α β : Type} {step : Run α} {s s' : Session} {a : α}
    (g : α → β) (h : step s = some (.ok a, s')) :
    (g <$> step) s = some (.ok (g a), s') := by
  show (step >>= fun a => pure (g a)) s = _
  rw [bind_ok h]
  rfl

/-- Where the options of a plan are well and a configuration file fails,
    starting does nothing but record, and ends in the fault. -/
theorem start_stops (execute : Executor) (plan : ShellPlan) {s : Session}
    {o : Options} (hcheck : Options.check plan.args = .ok o) {f : Fault}
    (hstops : Config.Stops s.files s.world.homes o.rcfiles f) :
    ∃ events, start execute plan s = some (.error f, s.recording events) := by
  have hoptions : checkOptions plan.args s = some (.ok o, s) := by
    rw [checkOptions, hcheck]
    rfl
  have hload : loadConfig o.rcfiles s = some (.error f,
      s.recording (Config.load s.files s.world.homes o.rcfiles).2) := by
    rw [loadConfig, get_bind_eq, recorded_eq, Config.load_stops hstops]
  refine ⟨(Config.load s.files s.world.homes o.rcfiles).2, ?_⟩
  rw [start, bind_ok hoptions, bind_error hload]

/-- Building the reader of a process does nothing but record. -/
theorem streamReader_ok {settings : Settings} {input : String}
    {s s' : Session} {reader : Reader}
    (h : settings.streamReader input s = some (.ok reader, s')) :
    ∃ events, s' = s.recording events := by
  have hbuild : ∀ histfile,
      buildReader (Settings.streamReader.source input) histfile
          Options.standardSize s = some (.ok reader, s') →
        ∃ events, s' = s.recording events := by
    intro histfile hbuilt
    rw [buildReader, get_bind_eq, recorded_eq] at hbuilt
    exact ⟨_, (Prod.mk.inj (Option.some.inj hbuilt)).2.symm⟩
  rw [Settings.streamReader] at h
  generalize settings.histfile = histfile at h
  cases histfile with
  | null => exact hbuild none h
  | path p => exact hbuild (some p) h
  | _ => cases h

end Run

/-! ## The program -/

namespace CommandLine

variable {world : World} {files : FileTree} {argv : List String}
variable {input : String} {paths : List Path} {f : Fault}

/-- A program comes as far as its configuration files, and these are the
    ones it reads: the command line is used rightly, the settings can be
    read, logging is configured, the history can be read, and the options
    are well. -/
inductive Prepared (world : World) (files : FileTree) (argv : List String)
    (input : String) : List Path → Prop where
  | intro {a : Arguments} {settings : Settings} {reader : Reader}
      {s : Session} {o : Options} (hparse : parse argv = some a)
      (hsettings :
        Settings.load files world.vars a.overrides = .ok settings)
      (hlogging : (Logging.unconfigured.configure world.vars
        (levelText? settings.logLevel)).2 = none)
      (hreader : settings.streamReader input (.bare world files .base) =
        some (.ok reader, s))
      (hcheck : Options.check
        ((OrderedMap.ofList settings.shellOptions).erase "prompt") = .ok o) :
      Prepared world files argv input o.rcfiles

/-- What a program comes to when no shell can be made. -/
def Outcome.ofFailure (files : FileTree) (f : Fault) : Outcome :=
  if isReported f then ⟨.ok 1, "", [s!"shellbase: {f.message}"], files⟩
  else ⟨.error f, "", [], files⟩

/-- A shell for which a configuration file fails is not run. -/
theorem runShell_stops {settings : Settings} {reader : Reader}
    {s s' : Session} {o : Options}
    (hreader : settings.streamReader input s = some (.ok reader, s'))
    (hcheck : Options.check
      ((OrderedMap.ofList settings.shellOptions).erase "prompt") = .ok o)
    (hstops : Config.Stops s.files s.world.homes o.rcfiles f) :
    ∃ events, runShell settings input s =
      some (if isReported f then .ok (1, [s!"shellbase: {f.message}"])
        else .error f, s.recording events) := by
  obtain ⟨first, rfl⟩ := Run.streamReader_ok hreader
  obtain ⟨more, hstart⟩ := Run.start_stops Run.executeFully
    ⟨(s.catalogue.find? BaseShell.className).getD default,
      settings.shellOptions, some reader, .stream, none, []⟩
    (s := s.recording first) hcheck hstops
  have hbuild : settings.buildShell false input s =
      some (.error f, (s.recording first).recording more) := by
    rw [Settings.buildShell, Run.get_bind_eq, if_neg Bool.false_ne_true,
      Run.bind_ok (Run.map_ok some hreader)]
    exact hstart
  refine ⟨first ++ more, ?_⟩
  rw [runShell, Run.bind_ok (Run.attempt_eq hbuild)]
  dsimp only
  rw [Session.recording, Session.recording]
  dsimp only
  rw [List.append_assoc, ← Session.recording]
  split <;> rfl

/-- A program that is used rightly, with settings that can be read and a log
    that can be configured, makes its shell and runs it. -/
theorem run_eq_runShell {a : Arguments} {settings : Settings}
    (hparse : parse argv = some a)
    (hsettings : Settings.load files world.vars a.overrides = .ok settings)
    (hlogging : (Logging.unconfigured.configure world.vars
      (levelText? settings.logLevel)).2 = none) (input : String) :
    run world files argv input =
      (runShell settings input (.bare world files .base)).map fun
        | (.ok (code, err), s) => ⟨.ok code, s.printed, err, s.files⟩
        | (.error f, s) => ⟨.error f, s.printed, [], s.files⟩ := by
  rw [run, hparse]
  dsimp only
  have hbare : Settings.load (Session.bare world files .base).files
      (Session.bare world files .base).world.vars a.overrides =
        .ok settings := hsettings
  rw [runIn, hbare]
  dsimp only
  have hworld : (Session.bare world files .base).world = world := rfl
  rw [hworld]
  rcases hlogs : Logging.unconfigured.configure world.vars
    (levelText? settings.logLevel) with ⟨logging, failed⟩
  rw [hlogs] at hlogging
  dsimp only at hlogging
  subst hlogging
  rfl

/-- A program that comes as far as its configuration files, where one of
    them fails: a fault of the shell's own is reported, any other is what
    the program ends in. -/
theorem run_stops (hprepared : Prepared world files argv input paths)
    (hstops : Config.Stops files world.homes paths f) :
    run world files argv input = some (.ofFailure files f) := by
  cases hprepared with
  | @intro a settings reader s o hparse hsettings hlogging hreader hcheck =>
      obtain ⟨events, hrun⟩ := runShell_stops hreader hcheck hstops
      rw [run_eq_runShell hparse hsettings hlogging]
      generalize hbare : Session.bare world files .base = bare at hrun
      have hfiles : bare.files = files := by rw [← hbare]; rfl
      have hprinted : bare.printed = "" := by rw [← hbare]; rfl
      rw [hrun, Outcome.ofFailure]
      cases isReported f with
      | true =>
          exact congrArg₂ (fun printed files => some
            (⟨.ok 1, printed, [s!"shellbase: {f.message}"], files⟩ : Outcome))
            hprinted hfiles
      | false =>
          exact congrArg₂ (fun printed files => some
            (⟨.error f, printed, [], files⟩ : Outcome)) hprinted hfiles

/-! ## Failures from the files to the program -/

/-- Loading files that are missing or hold texts gives what is merged of
    them; otherwise one of them is the first that fails, and its fault is
    what loading ends in, what making a shell for these files ends in, and
    what a program that reads them comes to.  If the file tree refused the
    file, the program says so on the error stream and exits with 1; every
    other fault, such as that of bytes that are no text, is none of the
    shell's own, and nothing contains it. -/
theorem load_fails (files : FileTree) (homes : Homes) (paths : List Path) :
    (∃ texts, List.Forall₂ (Config.Stands files homes) paths texts ∧
      (Config.load files homes paths).1 =
        .ok (Config.read ("\n\n".intercalate texts.reduceOption))) ∨
    ∃ f, Config.Stops files homes paths f ∧
      (Config.load files homes paths).1 = .error f ∧
      (∀ execute plan s o, s.files = files → s.world.homes = homes →
        Options.check plan.args = .ok o → o.rcfiles = paths →
        ∃ s', Run.start execute plan s = some (.error f, s') ∧
          s'.shell = s.shell) ∧
      ((∃ path cause, f = .unreadableConfig path cause ∧
        ∀ world argv input, world.homes = homes →
          Prepared world files argv input paths →
          run world files argv input = some ⟨.ok 1, "",
            [s!"shellbase: cannot read rc file {path}: {cause}"], files⟩) ∨
      (isReported f = false ∧
        ∀ world argv input, world.homes = homes →
          Prepared world files argv input paths →
          run world files argv input = some ⟨.error f, "", [], files⟩)) := by
  rcases Config.stand_or_stops files homes paths with
    ⟨texts, htexts⟩ | ⟨f, hstops⟩
  · exact .inl ⟨texts, htexts, Config.load_stands htexts⟩
  · refine .inr ⟨f, hstops, Config.load_stops hstops, ?_, ?_⟩
    · rintro execute plan s o rfl rfl hcheck rfl
      obtain ⟨events, hstart⟩ := Run.start_stops execute plan hcheck hstops
      exact ⟨_, hstart, rfl⟩
    · rcases Config.isReported_of_stops hstops with
        ⟨path, cause, rfl⟩ | hreported
      · refine .inl ⟨path, cause, rfl, ?_⟩
        rintro world argv input rfl hprepared
        exact run_stops hprepared hstops
      · refine .inr ⟨hreported, ?_⟩
        rintro world argv input rfl hprepared
        rw [run_stops hprepared hstops, Outcome.ofFailure, hreported,
          if_neg Bool.false_ne_true]

/-- A tree with one entry, in its working directory. -/
def oneEntry (e : Entry) : FileTree :=
  (FileTree.ofWorking ["h"]).set ["h", "rc"] e


/-- The settings of a program that is told of the entry. -/
def entrySettings : Settings :=
  ⟨.null, .list [.path (.ofText "rc")], .null, .text "WARNING"⟩

/-- A program that is told of the entry comes to read it. -/
theorem prepared_oneEntry (e : Entry) :
    Prepared default (oneEntry e) ["--rcfile", "rc"] "" [.ofText "rc"] := by
  have hsettings : Settings.load (oneEntry e) (default : World).vars
      (Arguments.overrides ⟨none, ["rc"], none, none⟩) =
        .ok entrySettings := by
    rfl
  have hreader : ∃ reader s, entrySettings.streamReader ""
      (.bare default (oneEntry e) .base) = some (.ok reader, s) :=
    ⟨_, _, rfl⟩
  obtain ⟨reader, s, hreader⟩ := hreader
  have hlogging : (Logging.unconfigured.configure (default : World).vars
      (levelText? entrySettings.logLevel)).2 = none := by
    decide +kernel
  have hcheck : Options.check
      ((OrderedMap.ofList entrySettings.shellOptions).erase "prompt") =
        .ok ⟨none, [.ofText "rc"], 1000⟩ := by
    rfl
  exact .intro rfl hsettings hlogging hreader hcheck

/-- Where a directory stands at the path, the file tree refuses to read
    it, and the program reports this. -/
theorem load_fails_directory :
    Config.Stops (oneEntry .directory) default [.ofText "rc"]
        (.unreadableConfig "rc" "[Errno 21] Is a directory: 'rc'") ∧
      Prepared default (oneEntry .directory) ["--rcfile", "rc"] ""
        [.ofText "rc"] ∧
      run default (oneEntry .directory) ["--rcfile", "rc"] "" =
        some ⟨.ok 1, "",
          ["shellbase: cannot read rc file rc: [Errno 21] Is a directory: 'rc'"],
          oneEntry .directory⟩ := by
  have hstops : Config.Stops (oneEntry .directory) default [.ofText "rc"]
      (.unreadableConfig "rc" "[Errno 21] Is a directory: 'rc'") :=
    .here (.refused (q := .ofText "rc") (e := ⟨.isDirectory, "rc"⟩)
      (by decide +kernel) (by decide +kernel) (by decide +kernel))
  have hload := Config.load_stops hstops
  have hprepared := prepared_oneEntry .directory
  refine ⟨hstops, hprepared, ?_⟩
  rcases load_fails (oneEntry .directory) default [.ofText "rc"] with
    ⟨texts, -, hmerged⟩ | ⟨f, -, herror, -, hrun⟩
  · cases hload.symm.trans hmerged
  · cases hload.symm.trans herror
    rcases hrun with ⟨path, cause, hf, hrun⟩ | ⟨hreported, -⟩
    · cases hf
      exact hrun default ["--rcfile", "rc"] "" rfl hprepared
    · cases hreported

/-- Where a file stands there whose second byte is in no text, loading does
    not end in a fault of the shell's own, and the program reports
    nothing. -/
theorem load_fails_undecodable :
    (Config.load (oneEntry (.file [0x61, 0xff])) default
        [.ofText "rc"]).1 =
      .error (.undecodable ⟨0xff, 1, 1, .invalidStart⟩) ∧
    isReported (.undecodable ⟨0xff, 1, 1, .invalidStart⟩) = false ∧
    run default (oneEntry (.file [0x61, 0xff])) ["--rcfile", "rc"] "" =
      some ⟨.error (.undecodable ⟨0xff, 1, 1, .invalidStart⟩), "", [],
        oneEntry (.file [0x61, 0xff])⟩ := by
  have hread : (oneEntry (.file [0x61, 0xff])).read (.ofText "rc") =
      .ok [0x61, 0xff] := by
    decide +kernel
  have hstops : Config.Stops (oneEntry (.file [0x61, 0xff])) default
      [.ofText "rc"] (.undecodable ⟨0xff, 1, 1, .invalidStart⟩) :=
    .here (.undecodable (by decide +kernel) (by decide +kernel) hread rfl)
  exact ⟨Config.load_stops hstops, rfl,
    run_stops (prepared_oneEntry _) hstops⟩

end CommandLine

end LineShell
