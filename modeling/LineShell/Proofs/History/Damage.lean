import LineShell.Proofs.History.File
import LineShell.Proofs.RcFile.Loading
import LineShell.Proofs.Settings

/-! # Damaged history files — which of them stop a shell

    What *stands* at the path of a history file decides what loading it
    comes to (`History.Comes`).  A missing file and one that the file tree
    refuses give no entries, and the refusal is recorded.  A file of bytes
    gives entries if the bytes are those of a text; if they are not, the
    fault of the decoder comes out, and nothing contains it: no reader is
    built, no shell is started and the program ends in the fault.  So it is
    where the path is too long for the file tree to look for. -/

namespace LineShell

open LineShell.Text

/-! ## Loading -/

/-- What stands at a path, as far as loading asks. -/
inductive Standing where
  | missing
  /-- The path cannot be looked for. -/
  | unlocated (e : FileError)
  /-- Something is there, and it cannot be read. -/
  | refused (e : FileError)
  | holds (bytes : List UInt8)

/-- What stands at a path in a file tree. -/
def FileTree.standing (files : FileTree) (p : Path) : Standing :=
  if p.hasNull then .missing
  else
    match files.has p with
    | .error e => .unlocated e
    | .ok false => .missing
    | .ok true =>
        match files.read p with
        | .error e => .refused e
        | .ok bytes => .holds bytes

namespace FileTree

variable {files : FileTree} {p : Path}

/-- What looking for a path comes to. -/
theorem present_eq (files : FileTree) (p : Path) :
    files.present p =
      match files.standing p with
      | .missing => .ok false
      | .unlocated e => .error (.file e)
      | .refused _ | .holds _ => .ok true := by
  rw [present, standing]
  cases p.hasNull with
  | true => rfl
  | false =>
      rw [if_neg Bool.false_ne_true, if_neg Bool.false_ne_true]
      cases files.has p with
      | error e => rfl
      | ok there =>
          cases there with
          | false => rfl
          | true => cases files.read p <;> rfl

/-- Reading comes to what stands there. -/
theorem read_of_refused {e : FileError} (h : files.standing p = .refused e) :
    files.read p = .error e := by
  grind [standing]

theorem read_of_holds {bytes : List UInt8}
    (h : files.standing p = .holds bytes) : files.read p = .ok bytes := by
  grind [standing]

end FileTree

namespace History

variable {files : FileTree} {homes : Homes} {p q : Path}

/-- What loading comes to, and what it records, by what stands at the
    path. -/
inductive Comes (q : Path) :
    Standing → Except Fault (List String) → List Event → Prop where
  | missing : Comes q .missing (.ok []) []
  | refused (e : FileError) :
      Comes q (.refused e) (.ok []) [.historyUnreadable q.text]
  | text (t : String) :
      Comes q (.holds (encodeUtf8 t))
        (.ok (ofFileText (String.ofList (unifyNewlines t.toList)))) []
  | undecodable {bytes : List UInt8} {e : Utf8Error}
      (hnone : ∀ t, bytes ≠ encodeUtf8 t)
      (hdecode : decodeUtf8 bytes = .error e) :
      Comes q (.holds bytes) (.error (.undecodable e)) []
  | unlocated (e : FileError) : Comes q (.unlocated e) (.error (.file e)) []

/-- Bytes that the decoder refuses are those of no text. -/
theorem Comes.of_undecodable {bytes : List UInt8} {e : Utf8Error}
    (hdecode : decodeUtf8 bytes = .error e) :
    Comes q (.holds bytes) (.error (.undecodable e)) [] := by
  refine .undecodable ?_ hdecode
  intro t ht
  rw [(decodeUtf8_ok_iff bytes t).mpr ht] at hdecode
  cases hdecode

/-- No fault of loading is one of the shell's own. -/
theorem Comes.isReported {standing : Standing} {f : Fault}
    {events : List Event} (h : Comes q standing (.error f) events) :
    CommandLine.isReported f = false := by
  cases h <;> rfl

/-- Whatever stands there, loading comes to something. -/
theorem exists_comes (q : Path) (standing : Standing) :
    ∃ r events, Comes q standing r events := by
  cases standing with
  | missing => exact ⟨_, _, .missing⟩
  | unlocated e => exact ⟨_, _, .unlocated e⟩
  | refused e => exact ⟨_, _, .refused e⟩
  | holds bytes =>
      cases hdecode : decodeUtf8 bytes with
      | ok cs =>
          rw [← String.toList_ofList (l := cs)] at hdecode
          rw [(decodeUtf8_ok_iff _ _).mp hdecode]
          exact ⟨_, _, .text _⟩
      | error e => exact ⟨_, _, .of_undecodable hdecode⟩

/-- Loading a file comes to what what stands there comes to. -/
theorem load_eq_of_comes (hhome : p.expandHome? homes = some q)
    {r : Except Fault (List String)} {events : List Event}
    (h : Comes q (files.standing q) r events) :
    load files homes (some p) = (r, events) := by
  rw [load, Path.expandHome, hhome]
  dsimp only
  rw [files.present_eq q]
  generalize hstanding : files.standing q = standing at h ⊢
  cases h with
  | missing => rfl
  | unlocated e => rfl
  | refused e =>
      dsimp only
      rw [FileTree.read_of_refused hstanding]
  | text t =>
      dsimp only
      rw [FileTree.read_of_holds hstanding]
      dsimp only
      rw [textOfBytes, decodeUtf8_encodeUtf8]
      rfl
  | undecodable hnone hdecode =>
      dsimp only
      rw [FileTree.read_of_holds hstanding]
      dsimp only
      rw [textOfBytes, hdecode]
      rfl

/-- A reader is built with what loading comes to. -/
theorem build_eq_of_comes (hhome : p.expandHome? homes = some q)
    {r : Except Fault (List String)} {events : List Event}
    (h : Comes q (files.standing q) r events) (source : Source)
    (histsize : Int) :
    Reader.build files homes source (some p) histsize =
      (r.map fun entries => ⟨source, some p, histsize, entries⟩, events) := by
  rw [Reader.build, load_eq_of_comes hhome h]

end History

/-! ## Starting with a history file -/

namespace Run

variable {execute : Executor} {plan : ShellPlan} {o : Options}
variable {config : Config} {prompt : Prompt} {s : Session}

/-- A reader is built with what loading its history comes to. -/
theorem buildReader_eq {histfile : Option Path}
    {r : Except Fault (List String)} {events : List Event}
    (h : History.load s.files s.world.homes histfile = (r, events))
    (source : Source) (histsize : Int) :
    buildReader source histfile histsize s =
      some (r.map fun entries => ⟨source, histfile, histsize, entries⟩,
        s.recording events) := by
  rw [buildReader, get_bind_eq, recorded_eq, Reader.build, h]

/-- Where the options of a plan are well, its configuration files can be
    read and it has a prompt, starting comes as far as the reader; and what
    the reader comes to is what becomes of the shell. -/
theorem start_reads (hcheck : Options.check plan.args = .ok o)
    (hload : (Config.load s.files s.world.homes o.rcfiles).1 = .ok config)
    (hprompt : ∀ t, firstPrompt execute plan.shellClass plan.givenPrompt t =
      some (.ok prompt, t))
    (hextensions : plan.extensions = []) :
    ∃ t : Session, t.files = s.files ∧ t.world = s.world ∧
      t.printed = s.printed ∧ t.options = o.merged plan.args ∧
      t.config = config ∧
      (∀ reader t', firstReader plan.reader o t = some (.ok reader, t') →
        ∃ s', start execute plan s = some (.ok (), s') ∧
          s'.reader = reader ∧ s'.options = t'.options ∧
          s'.config = t'.config) ∧
      ∀ f t', firstReader plan.reader o t = some (.error f, t') →
        start execute plan s = some (.error f, t') := by
  have hoptions : checkOptions plan.args s = some (.ok o, s) := by
    rw [checkOptions, hcheck]
    rfl
  have hconfig : loadConfig o.rcfiles s = some (.ok config,
      s.recording (Config.load s.files s.world.homes o.rcfiles).2) := by
    rw [loadConfig, get_bind_eq, recorded_eq, hload]
  refine ⟨{ s.recording
      (Config.load s.files s.world.homes o.rcfiles).2 with
    options := o.merged plan.args
    config
    registry := .discover [plan.shellClass]
    prompt }, rfl, rfl, rfl, rfl, rfl, ?_, ?_⟩
  · intro reader t' hreader
    refine ⟨{ t' with
      reader
      output := plan.output
      serial := plan.extensions.length
      shell := some plan.shellClass }, ?_, rfl, rfl, rfl⟩
    rw [start, bind_ok hoptions, bind_ok hconfig]
    refine (bind_ok rfl).trans ((bind_ok (hprompt _)).trans
      ((bind_ok rfl).trans ((bind_ok hreader).trans ?_)))
    rw [hextensions]
    rfl
  · intro f t' hreader
    rw [start, bind_ok hoptions, bind_ok hconfig]
    exact (bind_ok rfl).trans ((bind_ok (hprompt _)).trans
      ((bind_ok rfl).trans (bind_error hreader)))

/-- The base class is prompted for by its name, or by what the settings
    say. -/
theorem firstPrompt_base {settings : Settings} {histfile : Option Path}
    {rcfiles : List Path} (h : settings.Formed histfile rcfiles) :
    ∃ prompt, ∀ t, firstPrompt executeFully
      ((Catalogue.base.find? BaseShell.className).getD default)
      (some (.plain (.value settings.prompt))) t = some (.ok prompt, t) := by
  have hfully : executeFully = executeWithin (99999 + 1) := rfl
  rw [hfully]
  rcases h.prompt with hprompt | ⟨text, hprompt⟩
  · rw [hprompt]
    exact ⟨.literal (.text "ShellBase> "), fun _ => rfl⟩
  · rw [hprompt]
    exact ⟨.literal (.text text), fun _ => rfl⟩

end Run

namespace Settings

variable {settings : Settings} {p q : Path} {files : FileTree}
variable {world : World} {paths : List Path}
variable {texts : List (Option String)} {r : Except Fault (List String)}
variable {events : List Event}

/-- The reader of a process is built with what loading comes to. -/
theorem streamReader_of_comes (hhistfile : settings.histfile = .path p)
    (hhome : p.expandHome? world.homes = some q)
    (h : History.Comes q (files.standing q) r events) (input : String)
    {s : Session} (hfiles : s.files = files) (hworld : s.world = world) :
    settings.streamReader input s =
      some (r.map fun entries =>
        ⟨streamReader.source input, some p, Options.standardSize, entries⟩,
        s.recording events) := by
  rw [← hworld] at hhome
  rw [← hfiles] at h
  rw [streamReader, hhistfile]
  exact Run.buildReader_eq (History.load_eq_of_comes hhome h) _ _

/-- What a process makes its shell from. -/
def plan (settings : Settings) (reader : Option Reader)
    (terminal : Bool) : ShellPlan where
  shellClass := (Catalogue.base.find? BaseShell.className).getD default
  options := settings.shellOptions
  reader
  output := if terminal then .standard else .stream
  prompt := none
  extensions := []

/-- Making the shell of a process comes as far as its reader. -/
theorem start_plan_reads (hformed : settings.Formed (some p) paths)
    (htexts : List.Forall₂ (Config.Stands files world.homes) paths texts)
    (reader : Option Reader) (terminal : Bool) {s : Session}
    (hfiles : s.files = files) (hworld : s.world = world) :
    ∃ t : Session, t.files = files ∧ t.world = world ∧
      t.printed = s.printed ∧
      (∀ built t', Run.firstReader reader
          ⟨some p, paths, Options.standardSize⟩ t = some (.ok built, t') →
        ∃ s', Run.start Run.executeFully (settings.plan reader terminal) s =
            some (.ok (), s') ∧ s'.reader = built) ∧
      ∀ f t', Run.firstReader reader
          ⟨some p, paths, Options.standardSize⟩ t = some (.error f, t') →
        Run.start Run.executeFully (settings.plan reader terminal) s =
          some (.error f, t') := by
  obtain ⟨prompt, hprompt⟩ := Run.firstPrompt_base hformed
  have hload := Config.load_stands htexts
  rw [← hfiles, ← hworld] at hload ⊢
  have hcheck : Options.check (settings.plan reader terminal).args =
      .ok ⟨some p, paths, Options.standardSize⟩ := hformed.check
  obtain ⟨t, htfiles, htworld, htprinted, -, -, hbuilt, hfailed⟩ :=
    Run.start_reads hcheck hload hprompt rfl
  refine ⟨t, htfiles, htworld, htprinted, ?_, hfailed⟩
  intro built t' hreader
  obtain ⟨s', hs', hsame, -⟩ := hbuilt built t' hreader
  exact ⟨s', hs', hsame⟩

/-- The shell of a process is built with the entries of its history file,
    or building it ends in the fault of loading them; at a terminal and
    elsewhere. -/
theorem buildShell_of_comes (hformed : settings.Formed (some p) paths)
    (htexts : List.Forall₂ (Config.Stands files world.homes) paths texts)
    (hhome : p.expandHome? world.homes = some q)
    (h : History.Comes q (files.standing q) r events) (terminal : Bool)
    (input : String) :
    (∀ entries, r = .ok entries →
      ∃ s, settings.buildShell terminal input (.bare world files .base) =
          some (.ok (), s) ∧
        s.reader.history = entries) ∧
    ∀ f, r = .error f →
      ∃ s, settings.buildShell terminal input (.bare world files .base) =
          some (.error f, s) ∧
        s.printed = "" ∧ s.files = files := by
  generalize hbare : Session.bare world files .base = bare
  have hfiles : bare.files = files := by rw [← hbare]; rfl
  have hworld : bare.world = world := by rw [← hbare]; rfl
  have hcatalogue : bare.catalogue = .base := by rw [← hbare]; rfl
  have hprinted : bare.printed = "" := by rw [← hbare]; rfl
  cases terminal with
  | true =>
      obtain ⟨t, htfiles, htworld, htprinted, hbuilt, hfailed⟩ :=
        start_plan_reads hformed htexts none true hfiles hworld
      -- at a terminal the reader is built on the way
      have hreader : Run.firstReader none
          ⟨some p, paths, Options.standardSize⟩ t = some
            (r.map fun entries =>
              ⟨.keyboard, some p, Options.standardSize, entries⟩,
              t.recording events) := by
        rw [← htworld] at hhome
        rw [← htfiles] at h
        exact Run.buildReader_eq (History.load_eq_of_comes hhome h) _ _
      have hstart : settings.buildShell true input bare =
          Run.start Run.executeFully (settings.plan none true) bare := by
        rw [buildShell, Run.get_bind_eq, hcatalogue]
        rfl
      rw [hstart]
      constructor
      · rintro entries rfl
        obtain ⟨s', hs', hsame⟩ := hbuilt _ _ hreader
        exact ⟨s', hs', by rw [hsame]⟩
      · rintro f rfl
        exact ⟨_, hfailed _ _ hreader, htprinted.trans hprinted, htfiles⟩
  | false =>
      have hreader := streamReader_of_comes hformed.histfile hhome h input
        hfiles hworld
      rw [buildShell, Run.get_bind_eq, hcatalogue,
        if_neg Bool.false_ne_true]
      constructor
      · rintro entries rfl
        obtain ⟨t, -, -, -, hbuilt, -⟩ := start_plan_reads hformed htexts
          (some ⟨streamReader.source input, some p, Options.standardSize,
            entries⟩) false (s := bare.recording events) hfiles hworld
        obtain ⟨s', hs', hsame⟩ := hbuilt _ _ rfl
        refine ⟨s', ?_, by rw [hsame]⟩
        rw [Run.bind_ok (Run.map_ok some hreader)]
        exact hs'
      · rintro f rfl
        exact ⟨_, Run.bind_error (Run.bind_error hreader), hprinted, hfiles⟩

end Settings

/-! ## The program -/

namespace CommandLine

variable {world : World} {files : FileTree} {argv : List String}
variable {settings : Settings} {p : Path} {paths : List Path}

/-- A program that is told of a history file comes as far as reading it,
    and the file is all that can keep its shell from being made: the
    command line is used rightly, the settings can be read, logging is
    configured, and the configuration files are missing or hold texts. -/
structure Told (world : World) (files : FileTree) (argv : List String)
    (settings : Settings) (p : Path) (paths : List Path) : Prop where
  loaded : ∃ a, parse argv = some a ∧
    Settings.load files world.vars a.overrides = .ok settings
  histfile : settings.histfile = .path p
  rcfiles : settings.rcfiles = .list (paths.map .path)
  logging : (Logging.unconfigured.configure world.vars
    (levelText? settings.logLevel)).2 = none
  texts : ∃ texts, List.Forall₂ (Config.Stands files world.homes) paths texts

theorem Told.formed (h : Told world files argv settings p paths) :
    settings.Formed (some p) paths := by
  obtain ⟨a, -, hload⟩ := h.loaded
  obtain ⟨_, _, hformed, -⟩ := Settings.load_formed hload
  exact ⟨h.histfile, h.rcfiles, hformed.prompt⟩

/-- What a program comes to whose shell was made. -/
def Outcome.ofSession : Except Fault Unit × Session → Outcome
  | (.ok (), s) => ⟨.ok 0, s.printed, [], s.files⟩
  | (.error f, s) => ⟨.error f, s.printed, [], s.files⟩

/-- The program makes its shell and runs it. -/
theorem Told.run_eq (h : Told world files argv settings p paths)
    (input : String) :
    run world files argv input =
      (runShell settings input (.bare world files .base)).map fun
        | (.ok (code, err), s) => ⟨.ok code, s.printed, err, s.files⟩
        | (.error f, s) => ⟨.error f, s.printed, [], s.files⟩ := by
  obtain ⟨a, hparse, hload⟩ := h.loaded
  exact run_eq_runShell hparse hload h.logging input

/-- A shell that is made is run. -/
theorem runShell_ok {input : String} {s s' : Session}
    (hbuild : settings.buildShell false input s = some (.ok (), s')) :
    runShell settings input s =
      (Run.session Run.executeFully s').map fun
        | (.ok (), s) => (.ok (0, []), s)
        | (.error f, s) => (.error f, s) := by
  rw [runShell, Run.bind_ok (Run.attempt_eq hbuild)]
  dsimp only
  cases hsession : Run.session Run.executeFully s' with
  | none =>
      show (Run.session Run.executeFully s').bind _ = _
      rw [hsession]
      rfl
  | some result =>
      obtain ⟨_ | _, s''⟩ := result
      · exact Run.bind_error hsession
      · exact (Run.bind_ok hsession).trans rfl

/-- A shell that cannot be made, for no reason of its own, is what the
    program ends in. -/
theorem runShell_error {input : String} {s s' : Session} {f : Fault}
    (hbuild : settings.buildShell false input s = some (.error f, s'))
    (hreported : isReported f = false) :
    runShell settings input s = some (.error f, s') := by
  rw [runShell, Run.bind_ok (Run.attempt_eq hbuild)]
  dsimp only
  rw [hreported, if_neg Bool.false_ne_true]
  rfl

/-- What can stand at the path of a history file decides what loading it
    comes to.  The entries of a missing file, of one that the file tree
    refuses, and of one that holds a text are what a reader of any source is
    built with, and what the shell of a program that is told of the file
    starts with, at a terminal and elsewhere; the program goes on to run
    that shell.  Bytes that are those of no text, and a path that cannot be
    looked for, are faults in all of these places: no reader is built, no
    shell is made, and the program ends in the fault without a report. -/
theorem load_damaged {homes : Homes} {q : Path}
    (hhome : p.expandHome? homes = some q) (files : FileTree) :
    ∃ r events, History.Comes q (files.standing q) r events ∧
      History.load files homes (some p) = (r, events) ∧
      (∀ source histsize,
        Reader.build files homes source (some p) histsize =
          (r.map fun entries => ⟨source, some p, histsize, entries⟩,
            events)) ∧
      ∀ world argv settings paths, world.homes = homes →
        Told world files argv settings p paths →
        ∀ input,
          (∀ entries, r = .ok entries →
            (∀ terminal, ∃ s, settings.buildShell terminal input
                (.bare world files .base) = some (.ok (), s) ∧
              s.reader.history = entries) ∧
            ∃ s, settings.buildShell false input
                (.bare world files .base) = some (.ok (), s) ∧
              run world files argv input =
                (Run.session Run.executeFully s).map .ofSession) ∧
          ∀ f, r = .error f →
            (∀ terminal, ∃ s, settings.buildShell terminal input
                (.bare world files .base) = some (.error f, s)) ∧
            run world files argv input =
              some ⟨.error f, "", [], files⟩ := by
  obtain ⟨r, events, hcomes⟩ := History.exists_comes q (files.standing q)
  refine ⟨r, events, hcomes, History.load_eq_of_comes hhome hcomes,
    History.build_eq_of_comes hhome hcomes, ?_⟩
  rintro world argv settings paths rfl htold input
  obtain ⟨texts, htexts⟩ := htold.texts
  have hbuild := fun terminal => Settings.buildShell_of_comes htold.formed
    htexts hhome hcomes terminal input
  constructor
  · rintro entries rfl
    refine ⟨fun terminal => (hbuild terminal).1 entries rfl, ?_⟩
    obtain ⟨s, hs, -⟩ := (hbuild false).1 entries rfl
    refine ⟨s, hs, ?_⟩
    rw [htold.run_eq, runShell_ok hs, Option.map_map]
    congr 1
    funext result
    obtain ⟨_ | _, s'⟩ := result <;> rfl
  · rintro f rfl
    constructor
    · intro terminal
      obtain ⟨s, hs, -⟩ := (hbuild terminal).2 f rfl
      exact ⟨s, hs⟩
    · obtain ⟨s, hs, hprinted, hfiles⟩ := (hbuild false).2 f rfl
      rw [htold.run_eq, runShell_error hs hcomes.isReported]
      dsimp only [Option.map]
      rw [hprinted, hfiles]

/-- The settings of a program that is told of the entry as its history. -/
def historySettings : Settings :=
  ⟨.path (.ofText "rc"), .list [], .null, .text "WARNING"⟩

/-- A program that is told of the entry as its history comes to read it. -/
theorem told_oneEntry (e : Entry) :
    Told default (oneEntry e) ["--histfile", "rc"] historySettings
      (.ofText "rc") [] where
  loaded := ⟨⟨some "rc", [], none, none⟩, rfl, rfl⟩
  histfile := rfl
  rcfiles := rfl
  logging := by decide +kernel
  texts := ⟨[], .nil⟩

/-- Where a directory stands at the path, it is no file to be read, and the
    program runs its shell. -/
theorem load_damaged_directory :
    (Path.ofText "rc").expandHome? (default : World).homes =
        some (.ofText "rc") ∧
      Told default (oneEntry .directory) ["--histfile", "rc"] historySettings
        (.ofText "rc") [] ∧
      History.load (oneEntry .directory) default (some (.ofText "rc")) =
        (.ok [], [.historyUnreadable "rc"]) ∧
      ∃ s, historySettings.buildShell false ""
          (.bare default (oneEntry .directory) .base) = some (.ok (), s) ∧
        run default (oneEntry .directory) ["--histfile", "rc"] "" =
          (Run.session Run.executeFully s).map .ofSession := by
  have hhome : (Path.ofText "rc").expandHome? (default : World).homes =
      some (.ofText "rc") := by
    decide +kernel
  have hstanding : (oneEntry .directory).standing (.ofText "rc") =
      .refused ⟨.isDirectory, "rc"⟩ := by
    rfl
  have htold := told_oneEntry .directory
  refine ⟨hhome, htold, ?_⟩
  obtain ⟨r, events, hcomes, hload, -, hprogram⟩ :=
    load_damaged hhome (oneEntry .directory)
  rw [hstanding] at hcomes
  cases hcomes
  exact ⟨hload, ((hprogram default _ _ _ rfl htold "").1 [] rfl).2⟩

/-- Where a file stands there whose only byte is in no text, loading it
    fails, no reader is built and the program ends in the fault. -/
theorem load_damaged_undecodable :
    History.load (oneEntry (.file [0xff])) default (some (.ofText "rc")) =
      (.error (.undecodable ⟨0xff, 0, 1, .invalidStart⟩), []) ∧
    (Reader.build (oneEntry (.file [0xff])) default .keyboard
        (some (.ofText "rc")) 10).1.isOk = false ∧
    run default (oneEntry (.file [0xff])) ["--histfile", "rc"] "" =
      some ⟨.error (.undecodable ⟨0xff, 0, 1, .invalidStart⟩), "", [],
        oneEntry (.file [0xff])⟩ := by
  have hhome : (Path.ofText "rc").expandHome? (default : World).homes =
      some (.ofText "rc") := by
    decide +kernel
  have hstanding : (oneEntry (.file [0xff])).standing (.ofText "rc") =
      .holds [0xff] := by
    rfl
  have hcomes : History.Comes (.ofText "rc")
      ((oneEntry (.file [0xff])).standing (.ofText "rc"))
      (.error (.undecodable ⟨0xff, 0, 1, .invalidStart⟩)) [] := by
    rw [hstanding]
    exact .of_undecodable rfl
  refine ⟨History.load_eq_of_comes hhome hcomes, ?_, ?_⟩
  · have hbuild := History.build_eq_of_comes hhome hcomes .keyboard 10
    exact congrArg (fun built => built.1.isOk) hbuild
  · have htold := told_oneEntry (.file [0xff])
    obtain ⟨s, hs, hprinted, hfiles⟩ :=
      (Settings.buildShell_of_comes htold.formed .nil hhome hcomes false
        "").2 _ rfl
    rw [htold.run_eq, runShell_error hs rfl]
    dsimp only [Option.map]
    rw [hprinted, hfiles]

end CommandLine

end LineShell
