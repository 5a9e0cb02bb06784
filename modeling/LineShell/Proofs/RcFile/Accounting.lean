import LineShell.Proofs.RcFile.Writing

/-! # Accounting for lines — groups, and the one effect of each

    The lines of a text fall into groups: a group ends at the first line
    that does not go on, or with the text, and there is one way to see them
    so (`Grouped.unique`).  What a group says, if it says anything, has a
    form and sets one name, or has none and is reported with the number of
    its first line (`statement_eq_set_iff`, `statement_of_no_form`).
    A text comes to what its groups do, one after the other
    (`Grouped.told_eq`), and what is reported leaves no trace in the
    configuration (`Config.readFrom_accounts`). -/

namespace LineShell

open LineShell.Text

namespace Config

/-! ## Lines that go on -/

/-- A line without its comment and the blanks at its ends. -/
def uncommented (line : List Char) : List Char :=
  strip (line.takeWhile (· != '#'))

/-- A line that goes on with the next: what is left of it ends in a
    backslash. -/
def GoesOn (line : List Char) : Prop :=
  (uncommented line).getLast? = some '\\'

instance : DecidablePred GoesOn := fun _ =>
  inferInstanceAs (Decidable (_ = _))

theorem partOf_goesOn {line : List Char} (h : GoesOn line) (number : Nat) :
    partOf number line =
      ⟨number, strip (uncommented line).dropLast, true⟩ := by
  rw [GoesOn, uncommented] at h
  rw [partOf, h]
  rfl

theorem partOf_ends {line : List Char} (h : ¬ GoesOn line) (number : Nat) :
    partOf number line = ⟨number, uncommented line, false⟩ := by
  rw [partOf]
  split
  · rename_i hlast
    exact absurd hlast h
  · rfl

/-- What is left of a line has no blanks at its ends. -/
theorem trimmed_chars (number : Nat) (line : List Char) :
    Trimmed (partOf number line).chars := by
  by_cases h : GoesOn line
  · rw [partOf_goesOn h]
    exact trimmed_strip _
  · rw [partOf_ends h]
    exact trimmed_strip _

/-- What the lines of a group say together. -/
def said (group : List (List Char)) : List Char :=
  joined (group.map (partOf 0))

theorem joined_partsFrom (number : Nat) (group : List (List Char)) :
    joined (partsFrom number group) = said group := by
  have hchars : (partsFrom number group).map Part.chars =
      (group.map (partOf 0)).map Part.chars := by
    induction group generalizing number with
    | nil => rfl
    | cons line rest ih =>
        rw [partsFrom, List.map_cons, List.map_cons, List.map_cons, ih,
          partOf_eq]
  rw [joined, hchars, said, joined]

/-- A piece that is not empty shows where the pieces are joined. -/
theorem head?_joinBySpace {pieces : List (List Char)}
    (h : ∀ piece ∈ pieces, piece ≠ []) :
    (joinBySpace pieces).head? = pieces.head?.bind List.head? := by
  cases pieces with
  | nil => rfl
  | cons piece rest =>
      have hpiece := h piece List.mem_cons_self
      cases rest with
      | nil => rfl
      | cons next rest =>
          exact List.head?_append_of_ne_nil _ hpiece

/-- What a group says is blank only if it is nothing. -/
theorem said_eq_nil_of_blank {group : List (List Char)}
    (h : ∀ c ∈ said group, isBlank c = true) : said group = [] := by
  rw [said, joined] at h ⊢
  generalize hkept : ((group.map (partOf 0)).map Part.chars).filter
    (fun chars => !chars.isEmpty) = kept at h ⊢
  have hfull : ∀ piece ∈ kept, piece ≠ [] ∧ Trimmed piece := by
    intro piece hpiece
    rw [← hkept, List.map_map] at hpiece
    obtain ⟨hmem, hne⟩ := List.mem_filter.mp hpiece
    obtain ⟨line, -, rfl⟩ := List.mem_map.mp hmem
    exact ⟨by simpa using hne, trimmed_chars 0 line⟩
  cases kept with
  | nil => rfl
  | cons piece rest =>
      -- the first piece would show a character that is not blank
      obtain ⟨hne, htrimmed⟩ := hfull piece List.mem_cons_self
      obtain ⟨c, more, rfl⟩ := List.exists_cons_of_ne_nil hne
      have hhead := head?_joinBySpace fun p hp => (hfull p hp).1
      have hblank := h c (List.mem_of_head? hhead)
      rw [htrimmed.head c rfl] at hblank
      cases hblank

/-! ## Groups -/

/-- Lines fall into groups, in order: each ends at the first line that does
    not go on, or with the last line of all. -/
inductive Grouped : List (List Char) → List (List (List Char)) → Prop where
  | nil : Grouped [] []
  | ends {front : List (List Char)} {last : List Char}
      {rest : List (List Char)} {more : List (List (List Char))}
      (hfront : ∀ line ∈ front, GoesOn line) (hlast : ¬ GoesOn last)
      (hrest : Grouped rest more) :
      Grouped (front ++ last :: rest) ((front ++ [last]) :: more)
  | unfinished {front : List (List Char)} (hne : front ≠ [])
      (hfront : ∀ line ∈ front, GoesOn line) : Grouped front [front]

/-- The parts of the lines of each group, numbered throughout. -/
def numbered (number : Nat) :
    List (List (List Char)) → List (List Part)
  | [] => []
  | group :: rest =>
      partsFrom number group :: numbered (number + group.length) rest

theorem length_partsFrom (number : Nat) (ls : List (List Char)) :
    (partsFrom number ls).length = ls.length := by
  induction ls generalizing number with
  | nil => rfl
  | cons line rest ih => rw [partsFrom, List.length_cons, ih, List.length_cons]

theorem map_length_numbered (number : Nat) (gs : List (List (List Char))) :
    (numbered number gs).map List.length = gs.map List.length := by
  induction gs generalizing number with
  | nil => rfl
  | cons group rest ih =>
      rw [numbered, List.map_cons, List.map_cons, ih, length_partsFrom]

theorem partsFrom_append (number : Nat) (front rest : List (List Char)) :
    partsFrom number (front ++ rest) =
      partsFrom number front ++ partsFrom (number + front.length) rest := by
  induction front generalizing number with
  | nil => rfl
  | cons line front ih =>
      rw [List.cons_append, partsFrom, partsFrom, ih, List.cons_append,
        List.length_cons, Nat.add_right_comm, Nat.add_assoc]

/-- Parts that go on belong to the group of what follows them. -/
theorem groups_front {front : List (List Char)}
    (h : ∀ line ∈ front, GoesOn line) (number : Nat) {parts : List Part}
    {group : List Part} {more : List (List Part)}
    (hparts : groups parts = group :: more) :
    groups (partsFrom number front ++ parts) =
      (partsFrom number front ++ group) :: more := by
  induction front generalizing number with
  | nil => exact hparts
  | cons line front ih =>
      have hrest := ih (fun l hl => h l (List.mem_cons_of_mem _ hl))
        (number + 1)
      rw [partsFrom, List.cons_append, groups, hrest,
        partOf_goesOn (h line List.mem_cons_self)]
      rfl

namespace Grouped

variable {ls : List (List Char)} {gs : List (List (List Char))}

theorem flatten_eq (h : Grouped ls gs) : gs.flatten = ls := by
  induction h with
  | nil => rfl
  | ends _ _ _ ih => simp [ih]
  | unfinished => simp

/-- Every group has a line. -/
theorem ne_nil (h : Grouped ls gs) : ∀ group ∈ gs, group ≠ [] := by
  induction h with
  | nil => exact fun group hgroup => nomatch hgroup
  | ends _ _ _ ih =>
      intro group hgroup
      rcases List.mem_cons.mp hgroup with rfl | hgroup
      · exact List.append_ne_nil_of_right_ne_nil _ (List.cons_ne_nil _ _)
      · exact ih group hgroup
  | unfinished hne _ =>
      intro group hgroup
      obtain rfl := List.mem_singleton.mp hgroup
      exact hne

/-- The groups of the parts of lines are the groups of the lines. -/
theorem groups_eq (h : Grouped ls gs) (number : Nat) :
    groups (partsFrom number ls) = numbered number gs := by
  induction h generalizing number with
  | nil => rfl
  | @ends front last rest more hfront hlast _ ih =>
      have hends : groups (partsFrom (number + front.length) (last :: rest)) =
          partsFrom (number + front.length) [last] ::
            numbered (number + front.length + 1) more := by
        rw [partsFrom, groups, partOf_ends hlast, if_neg Bool.false_ne_true,
          ← ih, partsFrom, partOf_ends hlast]
        rfl
      rw [partsFrom_append, groups_front hfront number hends, numbered,
        partsFrom_append, List.length_append, List.length_singleton,
        Nat.add_assoc]
  | @unfinished front hne hfront =>
      -- the last of the lines is a group by itself, and the others join it
      obtain ⟨others, line, rfl⟩ :=
        (List.eq_nil_or_concat front).resolve_left hne
      have hline := hfront line (by simp)
      have hlast : groups (partsFrom (number + others.length) [line]) =
          [partsFrom (number + others.length) [line]] := by
        rw [partsFrom, partsFrom, groups, partOf_goesOn hline]
        rfl
      have hothers : ∀ l ∈ others, GoesOn l :=
        fun l hl => hfront l (by simp [hl])
      rw [List.concat_eq_append, partsFrom_append,
        groups_front hothers number hlast, numbered, numbered,
        partsFrom_append]

/-- There is one way to see lines in groups. -/
theorem unique {others : List (List (List Char))} (h : Grouped ls gs)
    (h' : Grouped ls others) : others = gs := by
  refine List.eq_iff_flatten_eq.mpr ⟨?_, ?_⟩
  · rw [h.flatten_eq, h'.flatten_eq]
  · rw [← map_length_numbered 0 others, ← map_length_numbered 0 gs,
      ← h.groups_eq, ← h'.groups_eq]

/-- All lines fall into groups. -/
theorem exists_groups (ls : List (List Char)) : ∃ gs, Grouped ls gs := by
  induction ls with
  | nil => exact ⟨[], .nil⟩
  | cons line rest ih =>
      obtain ⟨gs, hgs⟩ := ih
      by_cases hline : GoesOn line
      · have hcons : ∀ {front : List (List Char)},
            (∀ l ∈ front, GoesOn l) → ∀ l ∈ line :: front, GoesOn l :=
          fun hfront => List.forall_mem_cons.mpr ⟨hline, hfront⟩
        cases hgs with
        | nil =>
            exact ⟨[[line]], .unfinished (List.cons_ne_nil _ _)
              (hcons (List.forall_mem_nil _))⟩
        | @ends front last rest more hfront hlast hrest =>
            exact ⟨_, .ends (hcons hfront) hlast hrest⟩
        | unfinished _ hfront =>
            exact ⟨_, .unfinished (List.cons_ne_nil _ _) (hcons hfront)⟩
      · exact ⟨[line] :: gs,
          @Grouped.ends [] line rest gs (List.forall_mem_nil _) hline hgs⟩

end Grouped

/-! ## Forms -/

/-- What a statement sets: a name and an equals sign set a text, a name by
    itself affirms it, and a name after `no` denies what is left of it. -/
inductive Form : List Char → String → Setting → Prop where
  | text {name : String} {gap value : List Char}
      (hname : IsConfigName name.toList)
      (hgap : ∀ c ∈ gap, isBlank c = true) :
      Form (name.toList ++ (gap ++ '=' :: value)) name
        (.text (String.ofList (strip value)))
  | affirmed {name : String} (hname : IsConfigName name.toList)
      (hdenial : ¬ IsDenial name) : Form name.toList name (.flag true)
  | denied {name : String} (hname : IsConfigName ('n' :: 'o' :: name.toList))
      (hne : name.toList ≠ []) :
      Form ('n' :: 'o' :: name.toList) name (.flag false)

/-- What is cut off the front is a name. -/
theorem of_name? {cs name rest : List Char}
    (h : name? cs = some (name, rest)) :
    cs = name ++ rest ∧ IsConfigName name := by
  cases cs with
  | nil => cases h
  | cons first more =>
      rw [name?, Option.ite_none_right_eq_some, Option.some.injEq,
        Prod.mk.injEq] at h
      obtain ⟨hfirst, rfl, rfl⟩ := h
      refine ⟨?_, first, _, rfl, hfirst, fun c hc =>
        List.mem_takeWhile_imp hc⟩
      rw [List.cons_append, List.takeWhile_append_dropWhile]

/-- A name by itself has a form. -/
theorem form_of_flagStatement {cs : List Char} {name : String}
    {setting : Setting} (hcs : IsConfigName cs)
    (h : flagStatement cs = .set name setting) : Form cs name setting := by
  unfold flagStatement at h
  split at h
  · rename_i c rest
    obtain ⟨rfl, rfl⟩ := Statement.set.inj h
    have hform := @Form.denied (String.ofList (c :: rest))
    rw [String.toList_ofList] at hform
    exact hform hcs (List.cons_ne_nil c rest)
  · rename_i hother
    obtain ⟨rfl, rfl⟩ := Statement.set.inj h
    have hform := @Form.affirmed (String.ofList cs)
    rw [IsDenial, String.toList_ofList] at hform
    exact hform hcs fun ⟨c, rest, heq⟩ => hother c rest heq

theorem form_of_statement {number : Nat} {cs : List Char} {name : String}
    {setting : Setting} (h : statement number cs = .set name setting) :
    Form cs name setting := by
  rw [statement] at h
  split at h
  · rename_i front rest hname
    obtain ⟨rfl, hfront⟩ := of_name? hname
    split at h
    · rename_i hrest
      rw [List.isEmpty_iff.mp hrest, List.append_nil]
      exact form_of_flagStatement hfront h
    · split at h
      · rename_i value hequals
        obtain ⟨rfl, rfl⟩ := Statement.set.inj h
        have hform :=
          @Form.text (String.ofList front) (rest.takeWhile isBlank) value
        rw [String.toList_ofList, ← hequals,
          List.takeWhile_append_dropWhile] at hform
        exact hform hfront fun c hc => List.mem_takeWhile_imp hc
      · cases h
  · cases h

/-- A statement of a form sets what the form says. -/
theorem statement_of_form {cs : List Char} {name : String}
    {setting : Setting} (h : Form cs name setting) (number : Nat) :
    statement number cs = .set name setting := by
  have halone : ∀ {cs : List Char}, IsConfigName cs →
      name? cs = some (cs, []) := by
    intro cs hcs
    have hcut := @IsConfigName.name?_append cs hcs [] fun c hc => nomatch hc
    rwa [List.append_nil] at hcut
  cases h with
  | @text _ gap value hname hgap =>
      have hhead : ∀ c ∈ (gap ++ '=' :: value).head?,
          isConfigNameChar c = false := by
        intro c hc
        refine Bool.eq_false_iff.mpr fun hchar => ?_
        have hblank := isBlank_of_isConfigNameChar hchar
        cases gap with
        | nil =>
            obtain rfl := Option.some.inj hc
            exact absurd hchar (by decide)
        | cons d gap =>
            obtain rfl := Option.some.inj hc
            rw [hgap d List.mem_cons_self] at hblank
            cases hblank
      have hrest : (gap ++ '=' :: value).isEmpty = false := by simp
      have hequals : (gap ++ '=' :: value).dropWhile isBlank =
          '=' :: value := dropWhile_blank_append hgap _
      rw [statement, hname.name?_append hhead]
      dsimp only
      rw [hrest, if_neg Bool.false_ne_true, hequals, String.ofList_toList]
      rfl
  | affirmed hname hdenial =>
      rw [statement, halone hname]
      exact flagStatement_affirmed hdenial
  | denied hname hne =>
      rw [statement, halone hname]
      exact flagStatement_denied hne

/-- A statement sets a name just when it has the form to do so. -/
theorem statement_eq_set_iff {number : Nat} {cs : List Char} {name : String}
    {setting : Setting} :
    statement number cs = .set name setting ↔ Form cs name setting :=
  ⟨form_of_statement, fun h => statement_of_form h number⟩

/-- A statement has one form at most. -/
theorem Form.unique {cs : List Char} {name other : String}
    {setting setting' : Setting} (h : Form cs name setting)
    (h' : Form cs other setting') : other = name ∧ setting' = setting :=
  Statement.set.inj
    ((statement_of_form h' 0).symm.trans (statement_of_form h 0))

/-- What is malformed is so as it stands. -/
theorem eq_of_malformed {number other : Nat} {cs : List Char}
    {content : String} (h : statement number cs = .malformed other content) :
    other = number ∧ content = String.ofList cs := by
  rw [statement] at h
  split at h
  · split at h
    · unfold flagStatement at h
      split at h <;> cases h
    · split at h
      · cases h
      · cases h
        exact ⟨rfl, rfl⟩
  · cases h
    exact ⟨rfl, rfl⟩

/-- A statement of no form is malformed. -/
theorem statement_of_no_form {cs : List Char}
    (h : ∀ name setting, ¬ Form cs name setting) (number : Nat) :
    statement number cs = .malformed number (String.ofList cs) := by
  cases hsaid : statement number cs with
  | set name setting => exact absurd (form_of_statement hsaid) (h name setting)
  | malformed other content =>
      obtain ⟨rfl, rfl⟩ := eq_of_malformed hsaid
      rfl

/-! ## What groups do -/

/-- What is reported of a statement, if anything is. -/
def Statement.report? : Statement → Option (Nat × String)
  | .malformed number content => some (number, content)
  | .set _ _ => none

/-- What a group does that says something and whose first line has a
    number: nothing if it says nothing. -/
def effect (number : Nat) (cs : List Char) : List Statement :=
  if cs.isEmpty then [] else [statement number cs]

/-- What groups do, one after the other, the first of them from a line of
    some number on. -/
def account (number : Nat) : List (List (List Char)) → List Statement
  | [] => []
  | group :: rest =>
      effect number (said group) ++ account (number + group.length) rest

/-- What lines do, the first of them with a number. -/
def told (number : Nat) (ls : List (List Char)) : List Statement :=
  (groups (partsFrom number ls)).filterMap fun group =>
    let cs := joined group
    if cs.isEmpty then none else some (statement (firstNumber group) cs)

/-- Lines do what their groups do. -/
theorem Grouped.told_eq {ls : List (List Char)}
    {gs : List (List (List Char))} (h : Grouped ls gs) (number : Nat) :
    told number ls = account number gs := by
  rw [told, h.groups_eq]
  have hne := h.ne_nil
  clear h
  induction gs generalizing number with
  | nil => rfl
  | cons group rest ih =>
      obtain ⟨line, more, rfl⟩ :=
        List.exists_cons_of_ne_nil (hne group List.mem_cons_self)
      have hfirst : firstNumber (partsFrom number (line :: more)) =
          number := by
        rw [partsFrom, partOf_eq]
        rfl
      have hrest := ih (number + (line :: more).length)
        fun g hg => hne g (List.mem_cons_of_mem _ hg)
      rw [numbered, List.filterMap_cons, hrest, account, effect,
        joined_partsFrom, hfirst]
      dsimp only
      by_cases hempty : (said (line :: more)).isEmpty = true
      · rw [if_pos hempty, if_pos hempty]
        rfl
      · rw [if_neg hempty, if_neg hempty]
        rfl

/-- What groups do: a blank group nothing, any other one thing — it sets
    the one name that its form says, or it has none and is reported, with
    the number of its first line. -/
inductive Accounts :
    Nat → List (List (List Char)) → List Statement → Prop where
  | nil {number : Nat} : Accounts number [] []
  | blank {number : Nat} {group : List (List Char)}
      {rest : List (List (List Char))} {done : List Statement}
      (hblank : ∀ c ∈ said group, isBlank c = true)
      (hrest : Accounts (number + group.length) rest done) :
      Accounts number (group :: rest) done
  | set {number : Nat} {group : List (List Char)}
      {rest : List (List (List Char))} {done : List Statement}
      {name : String} {setting : Setting}
      (hform : Form (said group) name setting)
      (hrest : Accounts (number + group.length) rest done) :
      Accounts number (group :: rest) (.set name setting :: done)
  | report {number : Nat} {group : List (List Char)}
      {rest : List (List (List Char))} {done : List Statement}
      (hfilled : ∃ c ∈ said group, isBlank c = false)
      (hform : ∀ name setting, ¬ Form (said group) name setting)
      (hrest : Accounts (number + group.length) rest done) :
      Accounts number (group :: rest)
        (.malformed number (String.ofList (said group)) :: done)

theorem Form.ne_nil {cs : List Char} {name : String} {setting : Setting}
    (h : Form cs name setting) : cs ≠ [] := by
  cases h with
  | text hname hgap => exact List.append_ne_nil_of_left_ne_nil hname.ne_nil _
  | affirmed hname hdenial => exact hname.ne_nil
  | denied hname hne => exact List.cons_ne_nil _ _

theorem effect_of_ne_nil {cs : List Char} (h : cs ≠ []) (number : Nat) :
    effect number cs = [statement number cs] := by
  rw [effect, if_neg fun hempty => h (List.isEmpty_iff.mp hempty)]

namespace Accounts

variable {number : Nat} {gs : List (List (List Char))}
variable {done : List Statement}

/-- What groups do is settled. -/
theorem eq_account (h : Accounts number gs done) :
    done = account number gs := by
  induction h with
  | nil => rfl
  | @blank number group rest done hblank _ ih =>
      rw [account, effect, said_eq_nil_of_blank hblank, ih]
      rfl
  | @set number group rest done name setting hform _ ih =>
      rw [account, effect_of_ne_nil hform.ne_nil, statement_of_form hform, ih]
      rfl
  | @report number group rest done hfilled hform _ ih =>
      obtain ⟨c, hc, -⟩ := hfilled
      rw [account, effect_of_ne_nil (List.ne_nil_of_mem hc),
        statement_of_no_form hform, ih]
      rfl

/-- Nothing is reported of lines before the first one. -/
theorem le_of_mem_reports (h : Accounts number gs done) :
    ∀ entry ∈ done.filterMap Statement.report?, number ≤ entry.1 := by
  induction h with
  | nil => exact fun entry hentry => nomatch hentry
  | blank _ _ ih =>
      exact fun entry hentry => le_trans (by omega) (ih entry hentry)
  | set _ _ ih =>
      exact fun entry hentry => le_trans (by omega) (ih entry hentry)
  | report _ _ _ ih =>
      intro entry hentry
      rcases List.mem_cons.mp hentry with rfl | hentry
      · exact le_rfl
      · exact le_trans (by omega) (ih entry hentry)

/-- Groups are reported in the order of their lines. -/
theorem increasing (h : Accounts number gs done)
    (hne : ∀ group ∈ gs, group ≠ []) :
    (done.filterMap Statement.report?).Pairwise fun a b => a.1 < b.1 := by
  induction h with
  | nil => exact .nil
  | blank _ _ ih => exact ih fun g hg => hne g (List.mem_cons_of_mem _ hg)
  | set _ _ ih => exact ih fun g hg => hne g (List.mem_cons_of_mem _ hg)
  | @report number group rest done _ _ hrest ih =>
      have hlines := List.length_pos_iff.mpr (hne group List.mem_cons_self)
      refine List.pairwise_cons.mpr ⟨fun entry hentry => ?_,
        ih fun g hg => hne g (List.mem_cons_of_mem _ hg)⟩
      have hlater := hrest.le_of_mem_reports entry hentry
      show number < entry.1
      omega

end Accounts

/-- Each group sets one name, is reported once, or is blank. -/
theorem accounts_account (number : Nat) (gs : List (List (List Char))) :
    Accounts number gs (account number gs) := by
  induction gs generalizing number with
  | nil => exact .nil
  | cons group rest ih =>
      rw [account]
      by_cases hblank : ∀ c ∈ said group, isBlank c = true
      · rw [effect, said_eq_nil_of_blank hblank]
        exact .blank hblank (ih _)
      · have hfilled : ∃ c ∈ said group, isBlank c = false := by
          simpa using hblank
        obtain ⟨c, hc, -⟩ := id hfilled
        rw [effect_of_ne_nil (List.ne_nil_of_mem hc)]
        by_cases hform : ∃ name setting, Form (said group) name setting
        · obtain ⟨name, setting, hform⟩ := hform
          rw [statement_of_form hform]
          exact .set hform (ih _)
        · have hnone : ∀ name setting, ¬ Form (said group) name setting :=
            fun name setting h => hform ⟨name, setting, h⟩
          rw [statement_of_no_form hnone]
          exact .report hfilled hnone (ih _)

/-! ## What is set and what is reported -/

/-- What a text comes to when its groups have done what they do: names are
    set one after the other, each at its first place and to its last
    setting, and the rest is reported in the order of the lines. -/
structure ComesTo (source text : String) (done : List Statement) :
    Prop where
  config : (readFrom source text).1 =
    .ofList (done.filterMap Statement.setting?)
  names : (readFrom source text).1.names =
    ((done.filterMap Statement.setting?).map Prod.fst).eraseDups
  value : ∀ name, (readFrom source text).1.get? name =
    OrderedMap.find name (done.filterMap Statement.setting?).reverse
  reports : (readFrom source text).2 =
    (done.filterMap Statement.report?).map fun entry =>
      .malformedLine source entry.1 entry.2
  increasing :
    (done.filterMap Statement.report?).Pairwise fun a b => a.1 < b.1

theorem read_eq_ofList (text : String) :
    read text =
      .ofList ((statements text.toList).filterMap Statement.setting?) :=
  foldl_apply .empty _

/-- Groups that are left when one is taken out are groups of their lines. -/
theorem Grouped.without {before after : List (List (List Char))}
    {group : List (List Char)} {ls : List (List Char)}
    (h : Grouped ls (before ++ group :: after)) :
    Grouped (before ++ after).flatten (before ++ after) := by
  induction before generalizing ls with
  | nil =>
      cases h with
      | ends _ _ hrest =>
          have hlines := hrest.flatten_eq
          rw [List.nil_append, hlines]
          exact hrest
      | unfinished _ _ => exact .nil
  | cons first before ih =>
      rw [List.cons_append] at h
      generalize hmore : before ++ group :: after = more at h
      cases h with
      | @ends front last _ _ hfront hlast hrest =>
          have hends := Grouped.ends hfront hlast (ih (hmore ▸ hrest))
          rw [List.cons_append, List.flatten_cons, List.append_assoc]
          exact hends
      | unfinished _ _ =>
          exact absurd hmore (List.append_ne_nil_of_right_ne_nil _
            (List.cons_ne_nil _ _))

/-- What groups set does not depend on the numbers of their lines. -/
theorem filterMap_account (number : Nat) (gs : List (List (List Char))) :
    (account number gs).filterMap Statement.setting? =
      gs.flatMap fun group =>
        (effect 0 (said group)).filterMap Statement.setting? := by
  induction gs generalizing number with
  | nil => rfl
  | cons group rest ih =>
      rw [account, List.filterMap_append, ih, List.flatMap_cons]
      congr 1
      rw [effect, effect]
      split
      · rfl
      · rw [List.filterMap_cons, List.filterMap_cons, setting?_statement,
          setting?_statement]

/-- The configuration of a text is what its groups set. -/
theorem Grouped.read_eq {text : String} {gs : List (List (List Char))}
    (h : Grouped (lines text.toList) gs) :
    read text = .ofList (gs.flatMap fun group =>
      (effect 0 (said group)).filterMap Statement.setting?) := by
  have hstatements : statements text.toList = account 1 gs := h.told_eq 1
  rw [read_eq_ofList, hstatements, filterMap_account]

/-- What has no form sets nothing. -/
theorem filterMap_effect_of_no_form {cs : List Char}
    (h : ∀ name setting, ¬ Form cs name setting) (number : Nat) :
    (effect number cs).filterMap Statement.setting? = [] := by
  rw [effect, statement_of_no_form h]
  split <;> rfl

/-- **LINES ACCOUNTED FOR**: the lines of a text fall into groups in one
    way, and each group that is not blank does one thing: it sets one name,
    or is reported once, with the number of its first line and what it
    says.  The configuration is what is set, in order; the reports come in
    the order of the lines; and where the lines of a group that sets
    nothing are taken out, wherever they stand, the configuration is the
    same. -/
theorem readFrom_accounts (source text : String) :
    ∃ gs done, Grouped (lines text.toList) gs ∧ Accounts 1 gs done ∧
      (∀ gs' done', Grouped (lines text.toList) gs' →
        Accounts 1 gs' done' → gs' = gs ∧ done' = done) ∧
      gs.flatten = lines text.toList ∧ ComesTo source text done ∧
      ∀ before group after other, gs = before ++ group :: after →
        (∀ name setting, ¬ Form (said group) name setting) →
        lines other.toList = (before ++ after).flatten →
        read other = read text := by
  obtain ⟨gs, hgs⟩ := Grouped.exists_groups (lines text.toList)
  have hstatements : statements text.toList = account 1 gs := hgs.told_eq 1
  have haccounts := accounts_account 1 gs
  have hread : read text =
      .ofList ((account 1 gs).filterMap Statement.setting?) := by
    rw [read_eq_ofList, hstatements]
  refine ⟨gs, account 1 gs, hgs, haccounts, ?_, hgs.flatten_eq, ?_, ?_⟩
  · intro gs' done' hgs' hdone'
    obtain rfl := hgs.unique hgs'
    exact ⟨rfl, hdone'.eq_account⟩
  · refine ⟨hread, ?_, ?_, ?_, haccounts.increasing hgs.ne_nil⟩
    · rw [readFrom, hread]
      exact OrderedMap.names_ofList _
    · intro name
      rw [readFrom, hread]
      exact OrderedMap.get?_ofList _ name
    · rw [readFrom, malformed, hstatements]
      rfl
  · rintro before group after other rfl hform hlines
    have hother : Grouped (lines other.toList) (before ++ after) :=
      hlines ▸ hgs.without
    rw [hother.read_eq, hgs.read_eq, List.flatMap_append,
      List.flatMap_append, List.flatMap_cons,
      filterMap_effect_of_no_form hform, List.nil_append]

end Config

end LineShell
