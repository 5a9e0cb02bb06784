import LineShell.History
import LineShell.Proofs.Text.Lines
import LineShell.Proofs.Text.Utf8

/-! # The history file — what comes back of a history that was written

    What is written to a path that can be written is read there again, byte
    for byte, and its bytes are the text that was written.  So what comes
    back of a history is a matter of lines only: of every entry that was
    kept, the lines that are not blank (`History.load_saved`).  The writer
    leaves out entries with a line feed; an entry with another line
    boundary in it is written, and comes back in pieces. -/

namespace LineShell

open LineShell.Text

/-! ## Files -/

namespace FileTree

variable {t t' : FileTree} {location other : List String} {e : Entry}

theorem entry_set_self (h : location ≠ []) :
    FileTree.entry? (t.set location e) location = some e := by
  have hempty : location.isEmpty = false := by
    cases location with
    | nil => exact absurd rfl h
    | cons _ _ => rfl
  have hothers : (t.entries.filter fun pair => pair.1 != location).find?
      (fun pair => pair.1 == location) = none := by
    refine List.find?_eq_none.mpr ?_
    intro pair hpair
    have hne := (List.mem_filter.mp hpair).2
    rw [bne_iff_ne] at hne
    rw [beq_iff_eq]
    exact hne
  unfold FileTree.entry?
  rw [hempty, if_neg Bool.false_ne_true, set, List.find?_append, hothers,
    Option.none_or, List.find?_cons]
  simp only [beq_self_eq_true, Option.map_some]

theorem entry_set_other (h : other ≠ location) :
    FileTree.entry? (t.set location e) other = t.entry? other := by
  have hne : (location == other) = false := beq_false_of_ne (Ne.symm h)
  unfold FileTree.entry?
  rw [set]
  have hfind : ∀ l : List (List String × Entry),
      ((l.filter fun pair => pair.1 != location) ++
        [(location, e)]).find? (fun pair => pair.1 == other) =
        l.find? fun pair => pair.1 == other := by
    intro l
    induction l with
    | nil => simp [hne]
    | cons pair rest ih =>
        by_cases hp : pair.1 = location
        · simpa [hp, hne] using ih
        · have hkeep : (pair.1 != location) = true := bne_iff_ne.mpr hp
          rw [List.filter_cons, if_pos hkeep, List.cons_append,
            List.find?_cons, List.find?_cons, ih]
  rw [hfind]

/-- A walk goes through directories only, so an entry that is put where no
    directory stands is not in its way. -/
theorem walk_set {here there : List String} {parts : List String}
    (hw : t.walk here parts = .ok there)
    (hl : t.entry? location ≠ some .directory) :
    (t.set location e).walk here parts = .ok there := by
  induction parts generalizing here with
  | nil => exact hw
  | cons part rest ih =>
      rw [walk] at hw ⊢
      have hhere : t.entry? here = some .directory := by
        split at hw
        · assumption
        · cases hw
        · cases hw
      have hne : here ≠ location := fun h => hl (h ▸ hhere)
      rw [entry_set_other hne, hhere]
      rw [hhere] at hw
      simp only at hw ⊢
      split at hw
      · cases hw
      · rename_i hshort
        rw [if_neg hshort]
        exact ih hw

theorem locate_set {p : Path} {there : List String}
    (hp : t.locate p = .ok there)
    (hl : t.entry? location ≠ some .directory) :
    (t.set location e).locate p = .ok there := by
  rw [locate] at hp ⊢
  split at hp
  · cases hp
  · rename_i hshort
    rw [if_neg hshort]
    exact walk_set hp hl

/-- A path that leads to no directory can be written, and then it is there
    and holds what was written. -/
theorem write_read {p : Path} (hp : t.locate p = .ok location)
    (hl : t.entry? location ≠ some .directory) (bytes : List UInt8) :
    ∃ t', t.write p bytes = .ok t' ∧ t'.has p = .ok true ∧
      t'.read p = .ok bytes := by
  have hroot : location ≠ [] := by
    rintro rfl
    exact hl rfl
  have hwrite : t.write p bytes = .ok (t.set location (.file bytes)) := by
    rw [write, hp]
    simp only
  refine ⟨_, hwrite, ?_, ?_⟩
  · rw [has, locate_set hp hl]
    simp only [entry_set_self hroot, Option.isSome_some]
  · rw [read, locate_set hp hl]
    simp only [entry_set_self hroot]

/-- A path that can be written: its home directory is known, its names hold
    no null character, the directories above it are there or can be made,
    and then it leads to no directory. -/
structure Writable (files : FileTree) (homes : Homes) (p : Path) : Prop where
  leads : ∃ q tree location, p.expandHome homes = .ok q ∧
    q.parent.hasNull = false ∧ q.hasNull = false ∧
    files.makeDirectories q.parent = .ok tree ∧
    tree.locate q = .ok location ∧
    tree.entry? location ≠ some .directory

end FileTree

/-! ## Texts of history files -/

namespace History

theorem isBlankText_ofList (cs : List Char) :
    isBlankText (String.ofList cs) = cs.all isBlank := by
  rw [isBlankText, String.toList_ofList]

theorem ofFileText_eq (text : String) :
    ofFileText text = (content text.toList).map String.ofList := by
  rw [ofFileText, content, List.filter_map]
  congr 2
  funext cs
  exact congrArg not (isBlankText_ofList cs)

theorem toList_fileText (entries : List String) :
    (fileText entries).toList =
      (entries.map String.toList).flatMap fun cs => cs ++ ['\n'] := by
  rw [fileText, String.toList_join, List.flatMap_map, List.flatMap_map]
  congr 1
  funext entry
  exact String.toList_append

/-- A file of entries holds of each the lines that are not blank. -/
theorem textOfBytes_fileText (entries : List String) :
    (textOfBytes (encodeUtf8 (fileText entries))).map ofFileText =
      .ok (entries.flatMap ofFileText) := by
  have hcontent : content (unifyNewlines (fileText entries).toList) =
      (entries.map String.toList).flatMap content := by
    rw [content_eq, pieces_unifyNewlines, ← content_eq, toList_fileText,
      content_flatMap_closed]
  rw [textOfBytes, decodeUtf8_encodeUtf8]
  show Except.ok (ofFileText (String.ofList _)) = _
  rw [ofFileText_eq, String.toList_ofList, hcontent, List.map_flatMap,
    List.flatMap_map]
  congr 2
  funext entry
  exact (ofFileText_eq entry).symm

/-- Entries come back as they are just when none holds a line boundary. -/
theorem flatMap_ofFileText_eq_iff {entries : List String}
    (h : ∀ entry ∈ entries, isKept entry = true) :
    entries.flatMap ofFileText = entries ↔
      ∀ entry ∈ entries, ∀ c ∈ entry.toList, isLineBoundary c = false := by
  constructor
  · intro heq entry hentry
    -- whatever comes back is a line, and no line holds a boundary
    rw [← heq] at hentry
    obtain ⟨other, -, hline⟩ := List.mem_flatMap.mp hentry
    rw [ofFileText_eq, content_eq] at hline
    obtain ⟨cs, hcs, rfl⟩ := List.mem_map.mp hline
    rw [String.toList_ofList]
    exact notMem_pieces (List.mem_filter.mp hcs).1
  · intro hall
    have hone : ∀ entry ∈ entries, ofFileText entry = [entry] := by
      intro entry hentry
      have hkept := h entry hentry
      rw [isKept, Bool.and_eq_true] at hkept
      rw [ofFileText_eq, (content_eq_singleton_iff hkept.1).mpr
        (hall entry hentry), List.map_singleton, String.ofList_toList]
    induction entries with
    | nil => rfl
    | cons entry rest ih =>
        rw [List.flatMap_cons, hone entry List.mem_cons_self, ih]
        · rfl
        · exact fun e he => h e (List.mem_cons_of_mem _ he)
        · exact fun e he => hall e (List.mem_cons_of_mem _ he)
        · exact fun e he => hone e (List.mem_cons_of_mem _ he)

/-- What is kept are the newest of the entries that are one line. -/
theorem kept_suffix (limit : Nat) (entries : List String) :
    kept limit entries <:+ entries.filter isKept ∧
      (kept limit entries).length =
        min limit (entries.filter isKept).length := by
  have hkept : kept limit entries = (entries.filter isKept).drop
      ((entries.filter isKept).length - limit) := by
    rw [kept, newest, if_neg (Int.not_lt.mpr (Int.natCast_nonneg limit)),
      Int.natAbs_natCast]
  rw [hkept, List.length_drop]
  exact ⟨List.drop_suffix _ _, by omega⟩

/-! ## Writing and reading back -/

theorem save_load {files : FileTree} {homes : Homes} {p : Path}
    (hw : files.Writable homes p) (entries : List String) (limit : Int) :
    ∃ files' events,
      save files homes entries limit (some p) = (files', .ok (), events) ∧
      load files' homes (some p) =
        (.ok ((kept limit entries).flatMap ofFileText), []) := by
  obtain ⟨q, tree, location, hhome, hparent, hnull, hmake, hlocate, hfree⟩ :=
    hw.leads
  obtain ⟨files', hwrite, hhas, hread⟩ := FileTree.write_read hlocate hfree
    (encodeUtf8 (fileText (kept limit entries)))
  refine ⟨files', [.historyWritten q.text (kept limit entries).length], ?_, ?_⟩
  · simp only [save, hhome, hparent, hmake, hnull, hwrite, Bool.false_eq_true,
      if_false]
  · have hpresent : files'.present q = .ok true := by
      rw [FileTree.present, hnull, if_neg Bool.false_ne_true, hhas]
    simp only [load, hhome, hpresent, hread, textOfBytes_fileText]

/-- A file in the directory at hand can be written. -/
theorem writable_here : (FileTree.ofWorking ["home"]).Writable default
    (.ofText "h") := by
  have hhome : Path.expandHome? default (.ofText "h") =
      some (.ofText "h") := by decide +kernel
  refine ⟨⟨.ofText "h", FileTree.ofWorking ["home"], ["home", "h"], ?_⟩⟩
  refine ⟨?_, by decide +kernel, by decide +kernel, rfl, rfl, by decide⟩
  rw [Path.expandHome, hhome]

/-- A history that is written to a path comes back as the lines of the
    newest entries that were kept, up to the limit; and those entries come
    back as they are just when none of them holds a line boundary. -/
theorem load_saved {files : FileTree} {homes : Homes} {p : Path}
    (hw : files.Writable homes p) (entries : List String) (limit : Nat) :
    ∃ files' events newest,
      save files homes entries limit (some p) = (files', .ok (), events) ∧
      newest <:+ entries.filter isKept ∧
      newest.length = min limit (entries.filter isKept).length ∧
      load files' homes (some p) = (.ok (newest.flatMap ofFileText), []) ∧
      (newest.flatMap ofFileText = newest ↔
        ∀ entry ∈ newest, ∀ c ∈ entry.toList, isLineBoundary c = false) := by
  obtain ⟨files', events, hsave, hload⟩ := save_load hw entries limit
  obtain ⟨hsuffix, hlength⟩ := kept_suffix limit entries
  refine ⟨files', events, kept limit entries, hsave, hsuffix, hlength, hload,
    flatMap_ofFileText_eq_iff ?_⟩
  intro entry hentry
  exact (List.mem_filter.mp (hsuffix.subset hentry)).2

/-- A history of three lines, of which a shell keeps two. -/
theorem load_saved_here :
    (FileTree.ofWorking ["home"]).Writable default (.ofText "h") ∧
    ∃ files events newest,
      save (.ofWorking ["home"]) default ["one", "two", " ", "three"] 2
        (some (.ofText "h")) = (files, .ok (), events) ∧
      newest <:+ ["one", "two", " ", "three"].filter isKept ∧
      newest.length =
        min 2 (["one", "two", " ", "three"].filter isKept).length ∧
      load files default (some (.ofText "h")) =
        (.ok (newest.flatMap ofFileText), []) ∧
      (newest.flatMap ofFileText = newest ↔
        ∀ entry ∈ newest, ∀ c ∈ entry.toList, isLineBoundary c = false) :=
  ⟨writable_here, load_saved writable_here ["one", "two", " ", "three"] 2⟩

/-- An entry with a carriage return in it is kept, and comes back as two. -/
theorem load_saved_torn :
    kept 10 ["a\rb"] = ["a\rb"] ∧
    ∃ files events,
      save (.ofWorking ["home"]) default ["a\rb"] 10 (some (.ofText "h")) =
        (files, .ok (), events) ∧
      load files default (some (.ofText "h")) = (.ok ["a", "b"], []) := by
  obtain ⟨files, events, hsave, hload⟩ :=
    save_load writable_here ["a\rb"] 10
  have htorn : (kept 10 ["a\rb"]).flatMap ofFileText = ["a", "b"] := by decide
  exact ⟨by decide, files, events, hsave, htorn ▸ hload⟩

end History

end LineShell
