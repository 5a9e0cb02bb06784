import LineShell.RcFile.Load
import LineShell.Proofs.OrderedMap
import LineShell.Proofs.RcFile.Merging
import LineShell.Proofs.Text.Blank

/-! # Writing configurations — one line a setting

    A configuration is written with a line for each setting, in order.  A
    line that is written is closed, holds nothing but what was written, and
    says only one thing (`Says`), whichever form it has: names do not start
    an assignment by themselves, and an assignment is no flag.  So what is
    written is read back, and nothing of it is malformed
    (`Config.readFrom_written`). -/

namespace LineShell

open LineShell.Text

namespace Config

/-! ## Names -/

/-- A name as it stands in a configuration. -/
def IsConfigName (cs : List Char) : Prop :=
  ∃ first rest, cs = first :: rest ∧ isNameStart first = true ∧
    ∀ c ∈ rest, isConfigNameChar c = true

theorem isConfigNameChar_of_isNameStart {c : Char}
    (h : isNameStart c = true) : isConfigNameChar c = true := by
  have hascii : c.toNat < 128 := by
    simp only [isNameStart, isAsciiLetter, Bool.or_eq_true, Bool.and_eq_true,
      decide_eq_true_eq, beq_iff_eq] at h
    rcases h with (h | h) | rfl
    · exact Nat.lt_of_le_of_lt (UInt32.le_iff_toNat_le.mp h.2) (by decide)
    · exact Nat.lt_of_le_of_lt (UInt32.le_iff_toNat_le.mp h.2) (by decide)
    · decide
  have hword : isWordChar c = true := by
    rw [isWordChar, if_pos hascii]
    rw [isNameStart, Bool.or_eq_true] at h
    rcases h with h | h <;> simp [h]
  simp [isConfigNameChar, hword]

theorem isBlank_of_isConfigNameChar {c : Char}
    (h : isConfigNameChar c = true) : isBlank c = false := by
  rw [isConfigNameChar, Bool.or_eq_true, Bool.or_eq_true, beq_iff_eq,
    beq_iff_eq] at h
  rcases h with (h | rfl) | rfl
  · exact isBlank_of_isWordChar h
  · decide
  · decide

namespace IsConfigName

variable {name : List Char}

theorem all (h : IsConfigName name) :
    ∀ c ∈ name, isConfigNameChar c = true := by
  obtain ⟨first, rest, rfl, hfirst, hrest⟩ := h
  intro c hc
  rcases List.mem_cons.mp hc with rfl | hc
  · exact isConfigNameChar_of_isNameStart hfirst
  · exact hrest c hc

theorem ne_nil (h : IsConfigName name) : name ≠ [] := by
  obtain ⟨first, rest, rfl, _⟩ := h
  exact List.cons_ne_nil first rest

/-- A name that is denied is a name. -/
theorem denied (h : IsConfigName name) :
    IsConfigName ('n' :: 'o' :: name) := by
  refine ⟨'n', 'o' :: name, rfl, by decide, ?_⟩
  intro c hc
  rcases List.mem_cons.mp hc with rfl | hc
  · decide
  · exact h.all c hc

theorem trimmed (h : IsConfigName name) : Trimmed name := by
  constructor
  · intro c hc
    exact isBlank_of_isConfigNameChar (h.all c (List.mem_of_head? hc))
  · intro c hc
    exact isBlank_of_isConfigNameChar (h.all c (List.mem_of_getLast? hc))

/-- A name is cut off before anything that it cannot go on with. -/
theorem name?_append (h : IsConfigName name) {rest : List Char}
    (hrest : ∀ c ∈ rest.head?, isConfigNameChar c = false) :
    name? (name ++ rest) = some (name, rest) := by
  have htake : rest.takeWhile isConfigNameChar = [] := by
    cases rest with
    | nil => rfl
    | cons c rest => rw [List.takeWhile_cons_of_neg (by simp [hrest c rfl])]
  have hdrop : rest.dropWhile isConfigNameChar = rest := by
    cases rest with
    | nil => rfl
    | cons c rest => rw [List.dropWhile_cons_of_neg (by simp [hrest c rfl])]
  obtain ⟨first, more, rfl, hfirst, hmore⟩ := h
  rw [List.cons_append, name?, if_pos hfirst,
    List.takeWhile_append_of_pos hmore, List.dropWhile_append_of_pos hmore,
    htake, hdrop, List.append_nil]

end IsConfigName

/-! ## Written settings -/

/-- The line of a setting. -/
def writtenLine (name : String) : Setting → List Char
  | .flag true => name.toList
  | .flag false => 'n' :: 'o' :: name.toList
  | .text value => name.toList ++ ' ' :: '=' :: ' ' :: value.toList

/-- The lines of a configuration, one for each setting. -/
def writtenLines (pairs : List (String × Setting)) : List (List Char) :=
  pairs.map fun pair => writtenLine pair.1 pair.2

/-- A configuration as a text. -/
def written (config : Config) : String :=
  String.ofList
    ((writtenLines config.toList).flatMap fun line => line ++ ['\n'])

/-- A name that denies another one. -/
def IsDenial (name : String) : Prop :=
  ∃ c rest, name.toList = 'n' :: 'o' :: c :: rest

/-- A setting that can be written: a flag, of which one that is set must not
    have a name that denies another one, or a text that is stripped, stands
    on one line, holds no number sign and does not end in a backslash. -/
inductive Writable (name : String) : Setting → Prop where
  | affirmed (hname : IsConfigName name.toList)
      (hdenial : ¬ IsDenial name) : Writable name (.flag true)
  | denied (hname : IsConfigName name.toList) : Writable name (.flag false)
  | text {value : String} (hname : IsConfigName name.toList)
      (hstrip : strip value.toList = value.toList)
      (hcomment : '#' ∉ value.toList)
      (hunbroken : ∀ c ∈ value.toList, isLineBoundary c = false)
      (hlast : value.toList.getLast? ≠ some '\\') :
      Writable name (.text value)

/-- What a line says alone, wherever it stands: it is closed and sets a
    name. -/
def Says (line : List Char) (name : String) (setting : Setting) : Prop :=
  ∃ chars, chars ≠ [] ∧ ∀ number,
    partOf number line = ⟨number, chars, false⟩ ∧
      statement number chars = .set name setting

/-- A line without a comment is what is left of it when it is stripped, and
    it is closed unless that ends in a backslash. -/
theorem partOf_closed {line : List Char} (hcomment : '#' ∉ line)
    (hlast : (strip line).getLast? ≠ some '\\') (number : Nat) :
    partOf number line = ⟨number, strip line, false⟩ := by
  have hwhole : line.takeWhile (· != '#') = line := by
    refine List.takeWhile_eq_self_iff.mpr ?_
    intro c hc
    exact bne_iff_ne.mpr fun e => hcomment (e ▸ hc)
  rw [partOf, hwhole]
  split
  · rename_i h
    exact absurd h hlast
  · rfl

theorem IsConfigName.notMem {name : List Char} (h : IsConfigName name)
    {c : Char} (hc : isConfigNameChar c = false) : c ∉ name := by
  intro hmem
  rw [h.all c hmem] at hc
  cases hc

/-- A name by itself is closed and sets a flag. -/
theorem says_flag {line : List Char} {name : String} {b : Bool}
    (h : IsConfigName line)
    (hflag : flagStatement line = .set name (.flag b)) :
    Says line name (.flag b) := by
  have hstrip := strip_of_trimmed h.trimmed
  have hclosed : (strip line).getLast? ≠ some '\\' := by
    rw [hstrip]
    exact fun hlast => h.notMem (by decide) (List.mem_of_getLast? hlast)
  have hname : name? line = some (line, []) := by
    have hcut := h.name?_append fun c (hc : c ∈ [].head?) => nomatch hc
    rwa [List.append_nil] at hcut
  refine ⟨line, h.ne_nil, fun number => ⟨?_, ?_⟩⟩
  · rw [partOf_closed (h.notMem (by decide)) hclosed, hstrip]
  · rw [statement, hname]
    exact hflag

theorem flagStatement_affirmed {name : String} (h : ¬ IsDenial name) :
    flagStatement name.toList = .set name (.flag true) := by
  rw [flagStatement, String.ofList_toList]
  intro c rest heq
  exact h ⟨c, rest, heq⟩

theorem flagStatement_denied {name : String} (h : name.toList ≠ []) :
    flagStatement ('n' :: 'o' :: name.toList) = .set name (.flag false) := by
  obtain ⟨c, rest, heq⟩ := List.exists_cons_of_ne_nil h
  rw [heq, flagStatement, ← heq, String.ofList_toList]

/-- An assignment ends as what stands behind its name does. -/
theorem getLast?_assignment (name tail : List Char) :
    (name ++ ' ' :: '=' :: tail).getLast? = ('=' :: tail).getLast? := by
  rw [List.getLast?_append_of_ne_nil _ (List.cons_ne_nil _ _),
    List.getLast?_cons_cons]

theorem IsConfigName.trimmed_assignment {name tail : List Char}
    (h : IsConfigName name)
    (hlast : ∀ c ∈ ('=' :: tail).getLast?, isBlank c = false) :
    Trimmed (name ++ ' ' :: '=' :: tail) := by
  constructor
  · intro c hc
    rw [List.head?_append_of_ne_nil _ h.ne_nil] at hc
    exact h.trimmed.head c hc
  · intro c hc
    rw [getLast?_assignment] at hc
    exact hlast c hc

/-- What is left of the line of a text: the blank after the equals sign goes
    when there is nothing behind it. -/
theorem strip_writtenLine {name value : String}
    (hname : IsConfigName name.toList)
    (hstrip : strip value.toList = value.toList) :
    ∃ tail, strip (writtenLine name (.text value)) =
        name.toList ++ ' ' :: '=' :: tail ∧ strip tail = value.toList ∧
      (value.toList = [] ∧ tail = [] ∨
        tail = ' ' :: value.toList ∧ value.toList ≠ []) := by
  have htrimmed := strip_eq_self_iff.mp hstrip
  have hblank : ∀ c ∈ [' '], isBlank c = true :=
    List.forall_mem_singleton.mpr rfl
  have hnone : ∀ c ∈ ([] : List Char), isBlank c = true :=
    List.forall_mem_nil _
  by_cases hvalue : value.toList = []
  · refine ⟨[], ?_, by rw [hvalue]; rfl, Or.inl ⟨hvalue, rfl⟩⟩
    have hline : writtenLine name (.text value) =
        [] ++ (name.toList ++ [' ', '=']) ++ [' '] := by
      rw [writtenLine, hvalue]
      simp
    rw [hline, strip_between hnone hblank]
    refine strip_of_trimmed (hname.trimmed_assignment ?_)
    intro c hc
    obtain rfl := Option.some.inj hc
    rfl
  · refine ⟨' ' :: value.toList, ?_, ?_, Or.inr ⟨rfl, hvalue⟩⟩
    · refine strip_of_trimmed (hname.trimmed_assignment ?_)
      rw [List.getLast?_cons_cons, List.getLast?_cons_of_ne_nil hvalue]
      exact htrimmed.last
    · have hbetween := strip_between hblank hnone value.toList
      rw [List.append_nil, List.singleton_append, hstrip] at hbetween
      exact hbetween

/-- A name, an equals sign and a text are closed and set the name to the
    text. -/
theorem says_text {name value : String}
    (h : Writable name (.text value)) :
    Says (writtenLine name (.text value)) name (.text value) := by
  cases h with
  | text hname hstrip hcomment hunbroken hlast =>
      obtain ⟨tail, hline, htail, hends⟩ := strip_writtenLine hname hstrip
      have hnone : '#' ∉ writtenLine name (.text value) := by
        intro hmem
        rcases List.mem_append.mp hmem with hmem | hmem
        · exact hname.notMem (by decide) hmem
        · simp only [List.mem_cons] at hmem
          rcases hmem with hmem | hmem | hmem | hmem
          · cases hmem
          · cases hmem
          · cases hmem
          · exact hcomment hmem
      have hclosed : (strip (writtenLine name (.text value))).getLast? ≠
          some '\\' := by
        rw [hline, getLast?_assignment]
        rcases hends with ⟨_, rfl⟩ | ⟨rfl, hvalue⟩
        · decide
        · rwa [List.getLast?_cons_cons, List.getLast?_cons_of_ne_nil hvalue]
      refine ⟨_, ?_, fun number => ⟨partOf_closed hnone hclosed number, ?_⟩⟩
      · rw [hline]
        exact List.append_ne_nil_of_left_ne_nil hname.ne_nil _
      · have hcut : ∀ c ∈ (' ' :: '=' :: tail).head?,
            isConfigNameChar c = false := by
          rintro c ⟨⟩
          decide
        have hequals : (' ' :: '=' :: tail).dropWhile isBlank =
            '=' :: tail := rfl
        rw [hline, statement, hname.name?_append hcut]
        dsimp only
        rw [hequals]
        show Statement.set (String.ofList name.toList)
          (.text (String.ofList (strip tail))) = _
        rw [htail, String.ofList_toList, String.ofList_toList]

/-- Every setting that can be written is what its line says. -/
theorem says_writtenLine {name : String} {setting : Setting}
    (h : Writable name setting) :
    Says (writtenLine name setting) name setting := by
  cases h with
  | affirmed hname hdenial =>
      exact says_flag hname (flagStatement_affirmed hdenial)
  | denied hname =>
      exact says_flag hname.denied (flagStatement_denied hname.ne_nil)
  | text hname hstrip hcomment hunbroken hlast =>
      exact says_text (.text hname hstrip hcomment hunbroken hlast)

/-! ## Written configurations -/

/-- The groups of lines that say one thing each say these things. -/
theorem statements_of_says (number : Nat) {pairs : List (String × Setting)}
    (h : ∀ pair ∈ pairs,
      Says (writtenLine pair.1 pair.2) pair.1 pair.2) :
    ((groups (partsFrom number (writtenLines pairs))).filterMap
      fun group =>
        let cs := joined group
        if cs.isEmpty then none
        else some (statement (firstNumber group) cs)) =
      pairs.map fun pair => Statement.set pair.1 pair.2 := by
  induction pairs generalizing number with
  | nil => rfl
  | cons pair rest ih =>
      obtain ⟨chars, hne, hsays⟩ := h pair List.mem_cons_self
      obtain ⟨hpart, hstatement⟩ := hsays number
      have hempty : chars.isEmpty = false := by simpa using hne
      have hjoined : joined [⟨number, chars, false⟩] = chars := by
        rw [joined, List.map_singleton,
          List.filter_cons_of_pos (by simp [hempty])]
        rfl
      have hgroups : groups (partsFrom number (writtenLines (pair :: rest))) =
          [⟨number, chars, false⟩] ::
            groups (partsFrom (number + 1) (writtenLines rest)) := by
        rw [writtenLines, List.map_cons, partsFrom, hpart]
        rfl
      rw [hgroups, List.filterMap_cons_some (b := .set pair.1 pair.2),
        ih (number + 1) fun other hother =>
          h other (List.mem_cons_of_mem _ hother)]
      · rfl
      · dsimp only
        rw [hjoined, hempty]
        exact congrArg some hstatement

/-- A name stands on one line. -/
theorem IsConfigName.unbroken {name : List Char} (h : IsConfigName name) :
    ∀ c ∈ name, isLineBoundary c = false := by
  intro c hc
  refine Bool.eq_false_iff.mpr fun hb => ?_
  have hblank := isBlank_of_isConfigNameChar (h.all c hc)
  rw [isBlank_of_isLineBoundary hb] at hblank
  cases hblank

/-- A line that is written stands on one line. -/
theorem unbroken_writtenLine {name : String} {setting : Setting}
    (h : Writable name setting) :
    ∀ c ∈ writtenLine name setting, isLineBoundary c = false := by
  cases h with
  | affirmed hname hdenial => exact hname.unbroken
  | denied hname => exact hname.denied.unbroken
  | text hname hstrip hcomment hunbroken hlast =>
      intro c hc
      rcases List.mem_append.mp hc with hc | hc
      · exact hname.unbroken c hc
      · simp only [List.mem_cons] at hc
        rcases hc with rfl | rfl | rfl | hc
        · decide
        · decide
        · decide
        · exact hunbroken c hc

/-- What is written says what was to be written. -/
theorem statements_written {config : Config}
    (h : ∀ pair ∈ config.toList, Writable pair.1 pair.2) :
    statements (written config).toList =
      config.toList.map fun pair => Statement.set pair.1 pair.2 := by
  have hlines : lines (written config).toList =
      writtenLines config.toList := by
    rw [written, String.toList_ofList]
    refine lines_flatMap_closed ?_
    intro line hline
    obtain ⟨pair, hpair, rfl⟩ := List.mem_map.mp hline
    exact unbroken_writtenLine (h pair hpair)
  rw [statements, hlines]
  exact statements_of_says 1 fun pair hpair => says_writtenLine (h pair hpair)

/-- A configuration whose settings can be written is read back as it was
    from what is written, and nothing is reported. -/
theorem readFrom_written (config : Config) (source : String)
    (h : ∀ pair ∈ config.toList, Writable pair.1 pair.2) :
    readFrom source (written config) = (config, []) := by
  have hread : read (written config) = config := by
    have hentries : (config.toList.map fun pair =>
        Statement.set pair.1 pair.2).filterMap Statement.setting? =
          config.toList := by
      rw [List.filterMap_map]
      exact List.filterMap_some
    rw [read, statements_written h, foldl_apply, hentries]
    exact config.ofList_toList
  have hmalformed : malformed (written config) = [] := by
    rw [malformed, statements_written h, List.filterMap_map]
    exact List.filterMap_eq_nil_iff.mpr fun _ _ => rfl
  rw [readFrom, hread, hmalformed]
  rfl

/-- Names that begin as denials do, a name with a letter of another script,
    and texts that begin with an equals sign or are empty. -/
def hardConfig : Config :=
  .ofList [("no", .flag true), ("nope", .flag false),
    ("x.é-1", .text "= a \\ b"), ("note", .text "")]

/-- They are written, and read back. -/
theorem readFrom_written_hard :
    written hardConfig = "no\nnonope\nx.é-1 = = a \\ b\nnote = \n" ∧
      (∀ pair ∈ hardConfig.toList, Writable pair.1 pair.2) ∧
      readFrom "f" (written hardConfig) = (hardConfig, []) := by
  have hwritable : ∀ pair ∈ hardConfig.toList, Writable pair.1 pair.2 := by
    have hpairs : hardConfig.toList = [("no", .flag true),
        ("nope", .flag false), ("x.é-1", .text "= a \\ b"),
        ("note", .text "")] := by
      decide
    have hno : IsConfigName "no".toList :=
      ⟨'n', ['o'], by simp, by decide, List.all_eq_true.mp rfl⟩
    have hnope : IsConfigName "nope".toList :=
      ⟨'n', ['o', 'p', 'e'], by simp, by decide, List.all_eq_true.mp rfl⟩
    have hletter : IsConfigName "x.é-1".toList :=
      ⟨'x', ['.', 'é', '-', '1'], by simp, by decide, List.all_eq_true.mp rfl⟩
    have hnote : IsConfigName "note".toList :=
      ⟨'n', ['o', 't', 'e'], by simp, by decide, List.all_eq_true.mp rfl⟩
    have hunbroken : ∀ c ∈ "= a \\ b".toList, isLineBoundary c = false := by
      have hall : "= a \\ b".toList.all (fun c => !isLineBoundary c) = true :=
        rfl
      intro c hc
      exact Bool.not_eq_true' _ |>.mp (List.all_eq_true.mp hall c hc)
    intro pair hpair
    rw [hpairs] at hpair
    simp only [List.mem_cons, List.not_mem_nil, or_false] at hpair
    rcases hpair with rfl | rfl | rfl | rfl
    · refine .affirmed hno ?_
      rintro ⟨c, rest, heq⟩
      simp at heq
    · exact .denied hnope
    · exact .text hletter (by decide) (by decide) hunbroken (by decide)
    · exact .text hnote rfl (by decide) (List.forall_mem_nil _) (by decide)
  exact ⟨by decide, hwritable, readFrom_written hardConfig "f" hwritable⟩

end Config

end LineShell
