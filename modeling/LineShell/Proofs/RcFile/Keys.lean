import LineShell.Proofs.RcFile.Layout
import LineShell.Proofs.RcFile.Loading

/-! # Keys of configurations — names, and what denials leave

    A key comes from a name at the start of a line.  An assignment and a
    flag keep the name as it is, but a denial cuts two letters off it, and
    what is left starts with any character that a name may go on with.  So
    a key is a name, or it is such a rest that is no name (`Leftover`), and
    then it is off (`Keyed`).  Where a line starts, a text and the text
    after it are read one after the other (`read_append`): a name is
    overridden by any later line that sets it, and a rest that is no name
    stays off whatever comes after it (`Config.keys_settled`). -/

namespace LineShell

open LineShell.Text

namespace Config

/-! ## What can be a key -/

/-- What is left of a name when `no` is cut off its front, where that is no
    name itself. -/
structure Leftover (name : String) : Prop where
  ne_nil : name.toList ≠ []
  all : ∀ c ∈ name.toList, isConfigNameChar c = true
  unnamed : ¬ IsConfigName name.toList

/-- A key with its setting: a name may be set to anything, and a rest that
    is no name is off. -/
inductive Keyed : String → Setting → Prop where
  | name {name : String} {setting : Setting}
      (hname : IsConfigName name.toList) : Keyed name setting
  | leftover {name : String} (hleftover : Leftover name) :
      Keyed name (.flag false)

/-- Before what names may go on with, `no` makes a name. -/
theorem isConfigName_no {cs : List Char}
    (h : ∀ c ∈ cs, isConfigNameChar c = true) :
    IsConfigName ('n' :: 'o' :: cs) :=
  ⟨'n', 'o' :: cs, rfl, by decide,
    List.forall_mem_cons.mpr ⟨by decide, h⟩⟩

theorem Form.keyed {cs : List Char} {name : String} {setting : Setting}
    (h : Form cs name setting) : Keyed name setting := by
  cases h with
  | text hname hgap => exact .name hname
  | affirmed hname hdenial => exact .name hname
  | denied hname hne =>
      -- nothing says what is left of the name starts with
      have hall : ∀ c ∈ name.toList, isConfigNameChar c = true := fun c hc =>
        hname.all c (List.mem_cons_of_mem _ (List.mem_cons_of_mem _ hc))
      by_cases hleft : IsConfigName name.toList
      · exact .name hleft
      · exact .leftover ⟨hne, hall, hleft⟩

/-- What a group sets is what its form says. -/
theorem mem_effect_iff {number : Nat} {cs : List Char} {name : String}
    {setting : Setting} :
    (name, setting) ∈ (effect number cs).filterMap Statement.setting? ↔
      Form cs name setting := by
  constructor
  · intro h
    obtain ⟨done, hdone, hset⟩ := List.mem_filterMap.mp h
    rw [effect] at hdone
    split at hdone
    · cases hdone
    · obtain rfl := List.mem_singleton.mp hdone
      cases hstatement : statement number cs with
      | set other value =>
          rw [hstatement] at hset
          cases hset
          exact form_of_statement hstatement
      | malformed line content =>
          rw [hstatement] at hset
          cases hset
  · intro h
    rw [effect_of_ne_nil h.ne_nil, statement_of_form h]
    exact List.mem_cons_self

section Groups

variable {text : String} {gs : List (List (List Char))}

/-- The pairs of a configuration are what groups of the text say. -/
theorem Grouped.form_of_mem (h : Grouped (lines text.toList) gs)
    {pair : String × Setting} (hpair : pair ∈ (read text).toList) :
    ∃ group ∈ gs, Form (said group) pair.1 pair.2 := by
  rw [h.read_eq] at hpair
  obtain ⟨group, hgroup, hset⟩ :=
    List.mem_flatMap.mp (OrderedMap.mem_of_mem_ofList hpair)
  exact ⟨group, hgroup, mem_effect_iff.mp hset⟩

/-- The keys are all that groups of the text set. -/
theorem Grouped.mem_names (h : Grouped (lines text.toList) gs)
    {name : String} :
    name ∈ (read text).names ↔
      ∃ group ∈ gs, ∃ setting, Form (said group) name setting := by
  rw [h.read_eq, OrderedMap.names_ofList, List.mem_eraseDups, List.mem_map]
  simp only [Prod.exists, List.mem_flatMap, mem_effect_iff]
  constructor
  · rintro ⟨other, setting, ⟨group, hgroup, hform⟩, rfl⟩
    exact ⟨group, hgroup, setting, hform⟩
  · rintro ⟨group, hgroup, setting, hform⟩
    exact ⟨name, setting, ⟨group, hgroup, hform⟩, rfl⟩

end Groups

theorem read_keyed {text : String} {pair : String × Setting}
    (h : pair ∈ (read text).toList) : Keyed pair.1 pair.2 := by
  obtain ⟨gs, hgs⟩ := Grouped.exists_groups (lines text.toList)
  obtain ⟨group, -, hform⟩ := hgs.form_of_mem h
  exact hform.keyed

/-- What leaves a key that is no name is a denial. -/
theorem Form.eq_denied {cs : List Char} {name : String} {setting : Setting}
    (h : Form cs name setting) (hname : ¬ IsConfigName name.toList) :
    cs = 'n' :: 'o' :: name.toList := by
  cases h with
  | text hname' hgap => exact absurd hname' hname
  | affirmed hname' hdenial => exact absurd hname' hname
  | denied hname' hne => rfl

/-- All keys of a text are names just when no group denies what starts as
    no name does. -/
theorem Grouped.all_names_iff {text : String}
    {gs : List (List (List Char))} (h : Grouped (lines text.toList) gs) :
    (∀ name ∈ (read text).names, IsConfigName name.toList) ↔
      ∀ group ∈ gs, ∀ name, Leftover name →
        said group ≠ 'n' :: 'o' :: name.toList := by
  constructor
  · intro hnames group hgroup name hleftover hsaid
    have hform : Form (said group) name (.flag false) :=
      hsaid ▸ .denied (isConfigName_no hleftover.all) hleftover.ne_nil
    exact hleftover.unnamed
      (hnames name (h.mem_names.mpr ⟨group, hgroup, _, hform⟩))
  · intro hsaid name hmem
    obtain ⟨group, hgroup, setting, hform⟩ := h.mem_names.mp hmem
    by_contra hname
    have hkeyed := hform.keyed
    cases hkeyed with
    | name hname' => exact hname hname'
    | leftover hleftover =>
        exact hsaid group hgroup name hleftover (hform.eq_denied hname)

/-! ## Files -/

section Files

variable {files : FileTree} {homes : Homes} {paths : List Path}

/-- What is loaded is what some text says, and its keys are those of the
    texts that were loaded. -/
theorem load_names {texts : List (Option String)} {config : Config}
    (hstands : List.Forall₂ (Stands files homes) paths texts)
    (hload : (load files homes paths).1 = .ok config) :
    (∃ text, config = read text) ∧ ∀ name, name ∈ config.names ↔
      ∃ text ∈ texts.reduceOption, name ∈ (read text).names := by
  rw [load_stands hstands] at hload
  obtain rfl := Except.ok.inj hload
  refine ⟨⟨_, rfl⟩, fun name => ?_⟩
  have hnames : ∀ text, name ∈ (read text).names ↔
      name ∈ (settings (lines text.toList)).map Prod.fst := by
    intro text
    rw [read_eq, OrderedMap.names_ofList, List.mem_eraseDups]
  simp only [hnames, settings_intercalate, List.map_flatMap,
    List.mem_flatMap]

/-- Where loading comes to a configuration, all files are missing or hold
    texts. -/
theorem stand_of_load {config : Config}
    (h : (load files homes paths).1 = .ok config) :
    ∃ texts, List.Forall₂ (Stands files homes) paths texts := by
  refine (stand_or_stops files homes paths).resolve_right ?_
  rintro ⟨f, hstops⟩
  rw [load_stops hstops] at h
  cases h

end Files

/-! ## Texts one after the other -/

/-- Where a line starts and nothing is to be gone on with, what a text sets
    and what the text after it sets are set one after the other. -/
theorem read_append {text later : String}
    (h : LineStart text.toList later.toList) :
    read (text ++ later) = (read text).insertAll (read later).toList := by
  have hnumbers := unnumbered_told (1 + (lines text.toList).length) 1
    (lines later.toList)
  have hstatements : statements (text ++ later).toList =
      statements text.toList ++
        told (1 + (lines text.toList).length) (lines later.toList) := by
    show told 1 (lines (text ++ later).toList) = _
    rw [String.toList_append, h.ends.lines_append h.apart,
      told_append h.settled]
    rfl
  rw [read_eq_ofList, hstatements, List.filterMap_append,
    filterMap_setting?_of_unnumbered hnumbers, OrderedMap.ofList,
    OrderedMap.insertAll_append, read_eq_ofList, read_eq_ofList,
    OrderedMap.insertAll_ofList]
  rfl

/-- A text overrides what stands before it, where it sets anything. -/
theorem get?_read_append {text later : String}
    (h : LineStart text.toList later.toList) (name : String) :
    (read (text ++ later)).get? name =
      ((read later).get? name).or ((read text).get? name) := by
  rw [read_append h, OrderedMap.get?_insertAll (read later).nodup]
  rfl

/-- A line that says one thing, as a text. -/
theorem read_writtenLine {name : String} {setting : Setting}
    (hset : Says (writtenLine name setting) name setting)
    (hline : ∀ c ∈ writtenLine name setting, isLineBoundary c = false) :
    read (String.ofList (writtenLine name setting ++ ['\n'])) =
      .ofList [(name, setting)] := by
  have hlines : lines (writtenLine name setting ++ ['\n']) =
      writtenLines [(name, setting)] := by
    have hclosed := @lines_closed _ ['\n'] [] hline (.single rfl)
      fun _ h => nomatch h
    rwa [List.append_nil] at hclosed
  have hstatements : statements (writtenLine name setting ++ ['\n']) =
      [.set name setting] := by
    rw [statements, hlines]
    refine statements_of_says 1 fun pair hpair => ?_
    obtain rfl := List.mem_singleton.mp hpair
    exact hset
  rw [read_eq_ofList, String.toList_ofList, hstatements]
  rfl

/-- No text sets a rest that is no name to anything but off. -/
theorem Leftover.get?_read {name : String} (h : Leftover name)
    (text : String) :
    (read text).get? name = none ∨
      (read text).get? name = some (.flag false) := by
  cases hget : (read text).get? name with
  | none => exact .inl rfl
  | some setting =>
      have hkeyed := read_keyed (OrderedMap.mem_of_find hget)
      cases hkeyed with
      | name hname => exact absurd hname h.unnamed
      | leftover => exact .inr rfl

/-- So it stays off whatever comes after it. -/
theorem Leftover.stays {name : String} (h : Leftover name)
    {text later : String} (hstart : LineStart text.toList later.toList)
    (hoff : (read text).get? name = some (.flag false)) :
    (read (text ++ later)).get? name = some (.flag false) := by
  rw [get?_read_append hstart, hoff]
  rcases h.get?_read later with hlater | hlater <;> rw [hlater] <;> rfl

/-- A line that can be written overrides what stands before it. -/
theorem get?_read_writtenLine {text name : String} {setting : Setting}
    (hstart : LineStart text.toList []) (h : Writable name setting) :
    (read (text ++ String.ofList (writtenLine name setting ++ ['\n']))).get?
      name = some setting := by
  have hline := unbroken_writtenLine h
  have hset := says_writtenLine h
  have hne : writtenLine name setting ≠ [] := by
    obtain ⟨chars, hchars, hpart⟩ := hset
    intro hempty
    have hsame := (hpart 0).1
    rw [hempty] at hsame
    exact hchars (congrArg Part.chars hsame).symm
  have hhead : (writtenLine name setting ++ ['\n']).head? ≠ some '\n' := by
    rw [List.head?_append_of_ne_nil _ hne]
    intro hbreak
    cases hline _ (List.mem_of_head? hbreak)
  have hnext : LineStart text.toList
      (String.ofList (writtenLine name setting ++ ['\n'])).toList := by
    rw [String.toList_ofList]
    exact ⟨hstart.ends, fun _ => hhead, hstart.settled⟩
  rw [get?_read_append hnext, read_writtenLine hset hline,
    OrderedMap.get?_ofList]
  simp [OrderedMap.find]

/-! ## Keys -/

/-- **KEYS**: a key of a text is a name, or it is no name and off; and all
    keys are names just when no group of lines denies what starts as no
    name does.  Where a line starts and nothing is to be gone on with, a
    name is set anew by any line that can be written for it, but a key that
    is no name stays off whatever text comes after it.  The keys of files
    that are loaded are the keys of their texts. -/
theorem keys_settled (text : String) :
    (∀ pair ∈ (read text).toList, Keyed pair.1 pair.2) ∧
    (∀ gs, Grouped (lines text.toList) gs →
      ((∀ name ∈ (read text).names, IsConfigName name.toList) ↔
        ∀ group ∈ gs, ∀ name, Leftover name →
          said group ≠ 'n' :: 'o' :: name.toList)) ∧
    (∀ name setting, LineStart text.toList [] → Writable name setting →
      (read (text ++ String.ofList
        (writtenLine name setting ++ ['\n']))).get? name = some setting) ∧
    (∀ later name, LineStart text.toList later.toList → Leftover name →
      (read text).get? name = some (.flag false) →
      (read (text ++ later)).get? name = some (.flag false)) ∧
    ∀ files homes paths config, (load files homes paths).1 = .ok config →
      (∀ pair ∈ config.toList, Keyed pair.1 pair.2) ∧
      ∃ texts, List.Forall₂ (Stands files homes) paths texts ∧
        ∀ name, name ∈ config.names ↔
          ∃ t ∈ texts.reduceOption, name ∈ (read t).names := by
  refine ⟨fun pair hpair => read_keyed hpair, fun gs hgs => hgs.all_names_iff,
    fun name setting hstart hwritable =>
      get?_read_writtenLine hstart hwritable,
    fun later name hstart hleftover hoff => hleftover.stays hstart hoff, ?_⟩
  intro files homes paths config hload
  obtain ⟨texts, hstands⟩ := stand_of_load hload
  obtain ⟨⟨merged, rfl⟩, hnames⟩ := load_names hstands hload
  exact ⟨fun pair hpair => read_keyed hpair, texts, hstands, hnames⟩

/-- A denial of what starts with a hyphen leaves a key that is no name, and
    no text that comes after it, such as one that sets this key, changes
    it. -/
theorem keys_settled_hyphen :
    (read "no-x").toList = [("-x", .flag false)] ∧
      ¬ IsConfigName "-x".toList ∧
      ∀ later : String,
        (read ("no-x\n" ++ later)).get? "-x" = some (.flag false) := by
  have hunnamed : ¬ IsConfigName "-x".toList := by
    rintro ⟨first, rest, heq, hfirst, -⟩
    obtain ⟨rfl, -⟩ := List.cons.inj heq
    cases hfirst
  have hall : "-x".toList.all isConfigNameChar = true := by decide
  have hleftover : Leftover "-x" :=
    ⟨by decide, List.all_eq_true.mp hall, hunnamed⟩
  refine ⟨by decide, hunnamed, fun later => ?_⟩
  have hstart : LineStart "no-x\n".toList later.toList := by
    refine ⟨fun c hc => ?_, fun h => ?_, by decide⟩
    · obtain rfl := Option.some.inj hc
      decide
    · cases h
  exact hleftover.stays hstart (by decide)

end Config

end LineShell
