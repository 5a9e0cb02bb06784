import LineShell.CommandLine

/-! # Settings — what comes of them as options

    Settings are made of paths and texts, whatever the variables, the
    variable file and the command line say (`Settings.load_formed`); so the
    options that they make are always well (`Settings.Formed.check`). -/

namespace LineShell

namespace Settings

/-- What settings are made of: paths and texts. -/
structure Formed (s : Settings) (histfile : Option Path)
    (rcfiles : List Path) : Prop where
  histfile : s.histfile = Options.pathValue histfile
  rcfiles : s.rcfiles = .list (rcfiles.map .path)
  prompt : s.prompt = .null ∨ ∃ text, s.prompt = .text text

variable {s : Settings} {histfile : Option Path} {rcfiles : List Path}

theorem ofVariables_formed (process : List (String × String))
    (file : OrderedMap (Option String)) :
    (ofVariables process file).Formed
      ((given? process file "histfile").map Path.ofText)
      (((given? process file "rcfiles").map Options.pathsOf).getD []) := by
  refine ⟨rfl, rfl, ?_⟩
  rw [ofVariables]
  cases given? process file "prompt" with
  | none => exact .inl rfl
  | some text => exact .inr ⟨text, rfl⟩

theorem Formed.override_histfile (h : s.Formed histfile rcfiles)
    (given : Option Path) :
    ∃ histfile, (s.override "histfile" (Options.pathValue given)).Formed
      histfile rcfiles := by
  cases given with
  | none => exact ⟨_, h⟩
  | some p => exact ⟨some p, rfl, h.rcfiles, h.prompt⟩

theorem Formed.override_rcfiles (h : s.Formed histfile rcfiles)
    (given : List Path) :
    (s.override "rcfiles" (.list (given.map .path))).Formed histfile
      (if given.isEmpty then rcfiles else given) := by
  cases given with
  | nil => exact h
  | cons p rest => exact ⟨h.histfile, rfl, h.prompt⟩

theorem Formed.override_prompt (h : s.Formed histfile rcfiles)
    (given : Option String) :
    (s.override "prompt" ((given.map Value.text).getD .null)).Formed
      histfile rcfiles := by
  cases given with
  | none => exact h
  | some text => exact ⟨h.histfile, h.rcfiles, .inr ⟨text, rfl⟩⟩

theorem Formed.override_logLevel (h : s.Formed histfile rcfiles)
    (v : Value) : (s.override "log_level" v).Formed histfile rcfiles := by
  rw [override]
  split
  · exact h
  · exact ⟨h.histfile, h.rcfiles, h.prompt⟩

/-- Settings with what the command line says are paths and texts, and the
    configuration files that it names are theirs. -/
theorem load_formed {files : FileTree} {process : List (String × String)}
    {a : CommandLine.Arguments}
    (h : load files process a.overrides = .ok s) :
    ∃ histfile rcfiles, s.Formed histfile rcfiles ∧
      (a.rcfiles ≠ [] → rcfiles = a.rcfiles.map Path.ofText) := by
  rw [load] at h
  cases hfile : fileVariables files process with
  | error f =>
      rw [hfile] at h
      cases h
  | ok file =>
      rw [hfile] at h
      obtain rfl := Except.ok.inj h
      obtain ⟨histfile, h₁⟩ := (ofVariables_formed process file).override_histfile
        (a.histfile.map Path.ofText)
      have h₂ := h₁.override_rcfiles (a.rcfiles.map Path.ofText)
      have h₃ := h₂.override_prompt a.prompt
      have h₄ := h₃.override_logLevel ((a.logLevel.map Value.text).getD .null)
      rw [List.map_map] at h₄
      refine ⟨histfile, _, h₄, ?_⟩
      intro hne
      rw [if_neg (by simpa using hne)]

/-- Paths are accepted as the paths that they are. -/
theorem checkItems_paths (place : String) (index : Nat)
    (paths : List Path) :
    Options.checkItems place index (paths.map .path) = ([], paths) := by
  induction paths generalizing index with
  | nil => rfl
  | cons p rest ih =>
      rw [List.map_cons, Options.checkItems, ih]
      rfl

/-- The options that settings make are well. -/
theorem Formed.check (h : s.Formed histfile rcfiles) :
    Options.check ((OrderedMap.ofList s.shellOptions).erase "prompt") =
      .ok ⟨histfile, rcfiles, Options.standardSize⟩ := by
  obtain ⟨hhistfile, hrcfiles, -⟩ := h
  have hpath : Options.checkPath ["histfile"]
      (Options.pathValue histfile) = .ok histfile := by
    cases histfile <;> rfl
  have hpaths : Options.checkPaths "rcfiles" (.list (rcfiles.map .path)) =
      .ok rcfiles := by
    rw [Options.checkPaths, checkItems_paths]
  have hargs : (OrderedMap.ofList s.shellOptions).erase "prompt" =
      .ofList [("histfile", s.histfile), ("rcfiles", s.rcfiles)] := rfl
  rw [hargs, Options.check, hhistfile, hrcfiles]
  have hgiven : Options.checkGiven (OrderedMap.ofList
      [("histfile", Options.pathValue histfile),
        ("rcfiles", .list (rcfiles.map .path))]) "histfile" none
      (Options.checkPath ["histfile"]) = .ok histfile := hpath
  have hgivens : Options.checkGiven (OrderedMap.ofList
      [("histfile", Options.pathValue histfile),
        ("rcfiles", .list (rcfiles.map .path))]) "rcfiles" []
      (Options.checkPaths "rcfiles") = .ok rcfiles := hpaths
  rw [hgiven, hgivens]
  rfl

end Settings

end LineShell
