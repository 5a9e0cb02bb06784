import LineShell.Proofs.RcFile.Accounting

/-! # Layout of lines — how a statement is spread over lines

    A statement may stand on one line or be cut at single spaces and go on
    from line to line, with blanks and comments around each piece
    (`LaidOut`).  Whatever is chosen, the lines make one group that says
    the statement again (`LaidOut.lines_eq`).  What a text does is
    therefore the same for every layout of a statement in it, but for the
    numbers of the lines that follow (`statements_laidOut`), and so are
    what it sets and what it reports (`Config.read_laidOut`). -/

namespace LineShell

open LineShell.Text

namespace Config

/-! ## Layouts -/

/-- A text without line boundaries. -/
def Unbroken (cs : List Char) : Prop :=
  ∀ c ∈ cs, isLineBoundary c = false

instance : DecidablePred Unbroken := List.decidableBAll _

/-- Blanks within a line. -/
def Gap (cs : List Char) : Prop :=
  ∀ c ∈ cs, isBlank c = true ∧ isLineBoundary c = false

instance : DecidablePred Gap := List.decidableBAll _

/-- A comment up to the end of its line, or none. -/
structure Remark (cs : List Char) : Prop where
  mark : ∀ c ∈ cs.head?, c = '#'
  unbroken : Unbroken cs

/-- What can stand on a line between blanks: it neither starts nor ends
    with one, and holds no comment and no line boundary. -/
structure OnLine (cs : List Char) : Prop where
  stripped : strip cs = cs
  uncommented : '#' ∉ cs
  unbroken : Unbroken cs

/-- A line is cut into pieces, at single spaces that no blank stands
    beside. -/
inductive Cut : List Char → List (List Char) → Prop where
  | whole {line : List Char} : Cut line [line]
  | space {front rest : List Char} {a b : Char}
      {pieces : List (List Char)} (ha : isBlank a = false)
      (hb : isBlank b = false) (hrest : Cut (b :: rest) pieces) :
      Cut (front ++ [a] ++ ' ' :: b :: rest) ((front ++ [a]) :: pieces)

/-- Pieces are laid out on lines of their own: each stands between blanks,
    all but the last have a backslash and more blanks behind them, and a
    comment may close the line. -/
inductive LaidOut : List (List Char) → List Char → Prop where
  | last {before piece after remark ending : List Char}
      (hbefore : Gap before) (hafter : Gap after) (hremark : Remark remark)
      (hending : LineEnd ending) :
      LaidOut [piece] (before ++ piece ++ after ++ remark ++ ending)
  | goesOn {before piece after margin remark ending text : List Char}
      {rest : List (List Char)} (hbefore : Gap before) (hafter : Gap after)
      (hmargin : Gap margin) (hremark : Remark remark)
      (hending : LineEnd ending) (hrest : LaidOut rest text) :
      LaidOut (piece :: rest)
        (before ++ (piece ++ after ++ ['\\']) ++ margin ++ remark ++ ending
          ++ text)

/-! ## One line of a layout -/

theorem Gap.blank {cs : List Char} (h : Gap cs) :
    ∀ c ∈ cs, isBlank c = true :=
  fun c hc => (h c hc).1

theorem Gap.unbroken {cs : List Char} (h : Gap cs) : Unbroken cs :=
  fun c hc => (h c hc).2

theorem Remark.nil : Remark [] :=
  ⟨fun c (hc : c ∈ none) => (nomatch hc), List.forall_mem_nil _⟩

theorem Remark.mark_cons {cs : List Char} (h : Unbroken cs) :
    Remark ('#' :: cs) := by
  refine ⟨fun c hc => (Option.some.inj hc).symm, ?_⟩
  exact List.forall_mem_cons.mpr ⟨by decide, h⟩

theorem Gap.uncommented {cs : List Char} (h : Gap cs) : '#' ∉ cs :=
  fun hmem => absurd (h.blank _ hmem) (by decide)

/-- Blanks and a comment around a text do not matter to what is left of
    its line. -/
theorem uncommented_framed {before cs after remark : List Char}
    (hbefore : Gap before) (hcs : '#' ∉ cs) (hafter : Gap after)
    (hremark : Remark remark) :
    uncommented (before ++ cs ++ after ++ remark) = strip cs := by
  have hcut : ∀ front : List Char, '#' ∉ front →
      (front ++ remark).takeWhile (· != '#') = front := by
    intro front hfront
    have hall : ∀ c ∈ front, (c != '#') = true :=
      fun c hc => bne_iff_ne.mpr fun e => hfront (e ▸ hc)
    have hnone : remark.takeWhile (· != '#') = [] := by
      cases remark with
      | nil => rfl
      | cons c rest =>
          rw [hremark.mark c rfl]
          rfl
    rw [List.takeWhile_append_of_pos hall, hnone, List.append_nil]
  have hnone : '#' ∉ before ++ cs ++ after := by
    simp [hbefore.uncommented, hcs, hafter.uncommented]
  rw [uncommented, hcut _ hnone, strip_between hbefore.blank hafter.blank]

/-- The line of the last piece does not go on. -/
theorem partOf_last {before piece after remark : List Char}
    (hbefore : Gap before) (hpiece : OnLine piece)
    (hlast : piece.getLast? ≠ some '\\') (hafter : Gap after)
    (hremark : Remark remark) :
    ¬ GoesOn (before ++ piece ++ after ++ remark) ∧
      (partOf 0 (before ++ piece ++ after ++ remark)).chars = piece := by
  have hleft : uncommented (before ++ piece ++ after ++ remark) = piece := by
    rw [uncommented_framed hbefore hpiece.uncommented hafter hremark,
      hpiece.stripped]
  have hends : ¬ GoesOn (before ++ piece ++ after ++ remark) := by
    rw [GoesOn, hleft]
    exact hlast
  exact ⟨hends, by rw [partOf_ends hends, hleft]⟩

/-- The line of another piece goes on, even if the piece ends in a
    backslash itself. -/
theorem partOf_goesOn_framed {before piece after margin remark : List Char}
    (hbefore : Gap before) (hpiece : OnLine piece) (hne : piece ≠ [])
    (hafter : Gap after) (hmargin : Gap margin) (hremark : Remark remark) :
    GoesOn (before ++ (piece ++ after ++ ['\\']) ++ margin ++ remark) ∧
      (partOf 0 (before ++ (piece ++ after ++ ['\\']) ++ margin ++
        remark)).chars = piece := by
  have htrimmed : Trimmed (piece ++ after ++ ['\\']) := by
    constructor
    · intro c hc
      rw [List.append_assoc, List.head?_append_of_ne_nil _ hne] at hc
      exact (strip_eq_self_iff.mp hpiece.stripped).head c hc
    · intro c hc
      rw [List.getLast?_concat] at hc
      obtain rfl := Option.some.inj hc
      decide
  have hbare : '#' ∉ piece ++ after ++ ['\\'] := by
    simp [hpiece.uncommented, hafter.uncommented]
  have hleft : uncommented (before ++ (piece ++ after ++ ['\\']) ++ margin ++
      remark) = piece ++ after ++ ['\\'] := by
    rw [uncommented_framed hbefore hbare hmargin hremark,
      strip_of_trimmed htrimmed]
  have hgoesOn : GoesOn (before ++ (piece ++ after ++ ['\\']) ++ margin ++
      remark) := by
    rw [GoesOn, hleft, List.getLast?_concat]
  refine ⟨hgoesOn, ?_⟩
  have hstrip := @strip_between [] after (List.forall_mem_nil _)
    hafter.blank piece
  rw [partOf_goesOn hgoesOn, hleft, List.dropLast_concat]
  exact hstrip.trans hpiece.stripped

/-! ## The lines of a layout -/

/-- The pieces that are left when empty ones are not counted. -/
def kept (pieces : List (List Char)) : List (List Char) :=
  pieces.filter fun piece => !piece.isEmpty

theorem said_eq (group : List (List Char)) :
    said group = joinBySpace (piecesOf (group.map (partOf 0))) :=
  rfl

/-- Pieces that can be laid out: one that may be empty, or several that are
    not; the last does not end in a backslash. -/
structure Pieces (pieces : List (List Char)) : Prop where
  onLine : ∀ piece ∈ pieces, OnLine piece
  ne_nil : ∀ piece ∈ pieces, piece = [] → pieces = [[]]
  last : ∀ piece ∈ pieces.getLast?, piece.getLast? ≠ some '\\'

theorem Pieces.filled {piece : List Char} {rest : List (List Char)}
    (h : Pieces (piece :: rest)) (hrest : rest ≠ []) :
    ∀ p ∈ piece :: rest, p ≠ [] := by
  rintro p hp rfl
  exact hrest (List.cons.inj (h.ne_nil [] hp rfl)).2

theorem Pieces.tail {piece : List Char} {rest : List (List Char)}
    (h : Pieces (piece :: rest)) (hrest : rest ≠ []) : Pieces rest where
  onLine := fun p hp => h.onLine p (List.mem_cons_of_mem _ hp)
  ne_nil := fun p hp hempty =>
    absurd hempty (h.filled hrest p (List.mem_cons_of_mem _ hp))
  last := fun p hp => h.last p (by
    rwa [List.getLast?_cons_of_ne_nil hrest])

theorem Unbroken.append {cs rest : List Char} (hcs : Unbroken cs)
    (hrest : Unbroken rest) : Unbroken (cs ++ rest) := by
  intro c hc
  rcases List.mem_append.mp hc with hc | hc
  · exact hcs c hc
  · exact hrest c hc

/-- Blanks and a comment around a text do not break it. -/
theorem Unbroken.framed {before cs after remark : List Char}
    (hbefore : Gap before) (hcs : Unbroken cs) (hafter : Gap after)
    (hremark : Remark remark) :
    Unbroken (before ++ cs ++ after ++ remark) :=
  ((hbefore.unbroken.append hcs).append hafter.unbroken).append
    hremark.unbroken

/-- A text without boundaries that a line end closes is a line. -/
theorem lines_closed {cs ending rest : List Char}
    (hcs : Unbroken cs) (hending : LineEnd ending)
    (hrest : Apart ending rest) :
    lines (cs ++ ending ++ rest) = cs :: lines rest := by
  have hapart : Apart cs ending := fun hlast =>
    absurd (hcs _ (List.mem_of_getLast? hlast)) (by decide)
  rw [lines_append_lineEnd hapart hending hrest, pieces_of_unbroken hcs]
  rfl

/-- A layout starts with its first piece, behind blanks. -/
theorem LaidOut.exists_start {pieces : List (List Char)} {text : List Char}
    (h : LaidOut pieces text) :
    ∃ before piece rest more, Gap before ∧ pieces = piece :: rest ∧
      text = before ++ (piece ++ more) := by
  cases h with
  | @last before piece after remark ending hbefore =>
      refine ⟨before, piece, [], after ++ remark ++ ending, hbefore, rfl, ?_⟩
      simp only [List.append_assoc]
  | @goesOn before piece after margin remark ending text rest hbefore =>
      refine ⟨before, piece, rest,
        after ++ ['\\'] ++ margin ++ remark ++ ending ++ text, hbefore, rfl,
        ?_⟩
      simp only [List.append_assoc]

/-- A layout of pieces that are not empty does not start with a line
    feed. -/
theorem LaidOut.apart {pieces : List (List Char)} {text : List Char}
    (h : LaidOut pieces text) (hpieces : ∀ piece ∈ pieces, OnLine piece)
    (hne : ∀ piece ∈ pieces, piece ≠ []) (cs : List Char) :
    Apart cs text := by
  obtain ⟨before, piece, rest, more, hbefore, rfl, rfl⟩ := h.exists_start
  have hpiece := hpieces piece List.mem_cons_self
  have hfilled := hne piece List.mem_cons_self
  have hfront : Unbroken (before ++ piece) :=
    hbefore.unbroken.append hpiece.unbroken
  have hfrontFilled : before ++ piece ≠ [] :=
    List.append_ne_nil_of_right_ne_nil before hfilled
  intro _ hhead
  rw [← List.append_assoc, List.head?_append_of_ne_nil _ hfrontFilled]
    at hhead
  cases hfront _ (List.mem_of_head? hhead)

/-- A layout is lines that go on and one that does not, and what is left
    of them is the pieces. -/
theorem LaidOut.lines_eq {pieces : List (List Char)} {text : List Char}
    (h : LaidOut pieces text) (hpieces : Pieces pieces) :
    EndsLine text ∧ ∃ front last, lines text = front ++ [last] ∧
      (∀ line ∈ front, GoesOn line) ∧ ¬ GoesOn last ∧
      piecesOf ((front ++ [last]).map (partOf 0)) = kept pieces := by
  induction h with
  | @last before piece after remark ending hbefore hafter hremark hending =>
      have hpiece := hpieces.onLine piece List.mem_cons_self
      have hline := Unbroken.framed hbefore hpiece.unbroken hafter hremark
      have hlines := @lines_closed _ ending [] hline hending
        fun _ h => nomatch h
      rw [List.append_nil] at hlines
      obtain ⟨hends, hchars⟩ := partOf_last hbefore hpiece
        (hpieces.last piece rfl) hafter hremark
      refine ⟨hending.endsLine _, [], _, hlines, List.forall_mem_nil _,
        hends, ?_⟩
      rw [List.nil_append, List.map_singleton, piecesOf_cons, Part.piece,
        hchars, piecesOf_nil, List.append_nil]
      rfl
  | @goesOn before piece after margin remark ending text rest hbefore hafter
      hmargin hremark hending hrest ih =>
      have hmore : rest ≠ [] := by
        cases hrest <;> exact List.cons_ne_nil _ _
      have hpiece := hpieces.onLine piece List.mem_cons_self
      have hfilled := hpieces.filled hmore
      have hne := hfilled piece List.mem_cons_self
      have htail := hpieces.tail hmore
      obtain ⟨hclosed, front, last, hlines, hfront, hlast, hsaid⟩ := ih htail
      obtain ⟨hgoesOn, hchars⟩ := partOf_goesOn_framed hbefore hpiece hne
        hafter hmargin hremark
      have hmark : Unbroken ['\\'] := by decide
      have hmarked := (hpiece.unbroken.append hafter.unbroken).append hmark
      have hline := Unbroken.framed hbefore hmarked hmargin hremark
      have hapart := hrest.apart htail.onLine
        (fun p hp => hfilled p (List.mem_cons_of_mem _ hp)) ending
      refine ⟨?_, _ :: front, last, ?_,
        List.forall_mem_cons.mpr ⟨hgoesOn, hfront⟩, hlast, ?_⟩
      · -- a layout is never empty, so that the text ends as it does
        have htext : text ≠ [] := by
          rintro rfl
          cases front <;> cases hlines
        intro c hc
        rw [List.getLast?_append_of_ne_nil _ htext] at hc
        exact hclosed c hc
      · rw [lines_closed hline hending hapart, hlines, List.cons_append]
      · rw [List.cons_append, List.map_cons, piecesOf_cons, hsaid, Part.piece,
          hchars]
        exact (List.filter_append [piece] rest).symm

/-! ## Cutting a line -/

theorem joinBySpace_cons {piece : List Char} {rest : List (List Char)}
    (h : rest ≠ []) :
    joinBySpace (piece :: rest) = piece ++ ' ' :: joinBySpace rest := by
  cases rest with
  | nil => exact absurd rfl h
  | cons next rest => rfl

/-- Both sides of a space that no blank stands beside can stand on a line
    if the whole can. -/
theorem OnLine.cut {front rest : List Char} {a b : Char}
    (h : OnLine (front ++ [a] ++ ' ' :: b :: rest)) (ha : isBlank a = false)
    (hb : isBlank b = false) : OnLine (front ++ [a]) ∧ OnLine (b :: rest) := by
  have htrimmed := strip_eq_self_iff.mp h.stripped
  constructor
  · refine ⟨strip_of_trimmed ⟨?_, ?_⟩, ?_, ?_⟩
    · intro c hc
      refine htrimmed.head c ?_
      rwa [List.head?_append_of_ne_nil _ (by simp)]
    · intro c hc
      rw [List.getLast?_concat] at hc
      obtain rfl := Option.some.inj hc
      exact ha
    · exact fun hmem => h.uncommented (List.mem_append_left _ hmem)
    · exact fun c hc => h.unbroken c (List.mem_append_left _ hc)
  · refine ⟨strip_of_trimmed ⟨?_, ?_⟩, ?_, ?_⟩
    · intro c hc
      obtain rfl := Option.some.inj hc
      exact hb
    · intro c hc
      refine htrimmed.last c ?_
      rwa [List.getLast?_append_of_ne_nil _ (List.cons_ne_nil _ _),
        List.getLast?_cons_cons]
    · exact fun hmem => h.uncommented
        (List.mem_append_right _ (List.mem_cons_of_mem _ hmem))
    · exact fun c hc => h.unbroken c
        (List.mem_append_right _ (List.mem_cons_of_mem _ hc))

/-- A line is cut into pieces that can be laid out, and they say the
    line. -/
theorem Cut.pieces {line : List Char} {pieces : List (List Char)}
    (h : Cut line pieces) (hline : OnLine line)
    (hlast : line.getLast? ≠ some '\\') :
    Pieces pieces ∧ joinBySpace (kept pieces) = line := by
  induction h with
  | @whole line =>
      refine ⟨⟨?_, ?_, ?_⟩, ?_⟩
      · intro piece hpiece
        obtain rfl := List.mem_singleton.mp hpiece
        exact hline
      · intro piece hpiece hempty
        obtain rfl := List.mem_singleton.mp hpiece
        rw [hempty]
      · intro piece hpiece
        obtain rfl := Option.some.inj hpiece
        exact hlast
      · cases line <;> rfl
  | @space front rest a b pieces ha hb hrest ih =>
      obtain ⟨hfirst, hsecond⟩ := hline.cut ha hb
      rw [List.getLast?_append_of_ne_nil _ (List.cons_ne_nil _ _),
        List.getLast?_cons_cons] at hlast
      obtain ⟨hpieces, hjoin⟩ := ih hsecond hlast
      have hkept : kept pieces ≠ [] := by
        intro hnone
        rw [hnone] at hjoin
        cases hjoin
      have hne : pieces ≠ [] := by
        rintro rfl
        exact hkept rfl
      -- a piece is empty only where the line is, and this one is not
      have hfilled : ∀ piece ∈ (front ++ [a]) :: pieces, piece ≠ [] := by
        rintro piece hpiece rfl
        rcases List.mem_cons.mp hpiece with hpiece | hpiece
        · exact List.cons_ne_nil _ _ (List.append_eq_nil_iff.mp hpiece.symm).2
        · rw [hpieces.ne_nil [] hpiece rfl] at hkept
          exact hkept rfl
      refine ⟨⟨?_, ?_, ?_⟩, ?_⟩
      · exact List.forall_mem_cons.mpr ⟨hfirst, hpieces.onLine⟩
      · exact fun piece hpiece hempty =>
          absurd hempty (hfilled piece hpiece)
      · intro piece hpiece
        rw [List.getLast?_cons_of_ne_nil hne] at hpiece
        exact hpieces.last piece hpiece
      · have hfirstKept : kept ((front ++ [a]) :: pieces) =
            (front ++ [a]) :: kept pieces :=
          List.filter_cons_of_pos (by simp)
        rw [hfirstKept, joinBySpace_cons hkept, hjoin]

/-! ## A layout in a text -/

/-- A statement without the number of its line. -/
def Statement.unnumbered : Statement → Statement
  | .set name setting => .set name setting
  | .malformed _ content => .malformed 0 content

/-- A place in a text where a line starts and nothing is to be gone on
    with: after a line end, or at the start of the text. -/
structure LineStart (before after : List Char) : Prop where
  ends : EndsLine before
  apart : Apart before after
  settled : ∀ line ∈ (lines before).getLast?, ¬ GoesOn line

theorem Grouped.append {ls more : List (List Char)}
    {gs others : List (List (List Char))} (h : Grouped ls gs)
    (hsettled : ∀ line ∈ ls.getLast?, ¬ GoesOn line)
    (hmore : Grouped more others) : Grouped (ls ++ more) (gs ++ others) := by
  induction h with
  | nil => exact hmore
  | @ends front last rest gs hfront hlast hrest ih =>
      have hrest : ∀ line ∈ rest.getLast?, ¬ GoesOn line := by
        intro line hline
        refine hsettled line ?_
        have hne : rest ≠ [] := fun h => by
          rw [h] at hline
          cases hline
        rwa [List.getLast?_append_of_ne_nil _ (List.cons_ne_nil _ _),
          List.getLast?_cons_of_ne_nil hne]
      rw [List.append_assoc, List.cons_append, List.cons_append]
      exact .ends hfront hlast (ih hrest)
  | @unfinished front hne hfront =>
      obtain ⟨others, line, rfl⟩ :=
        (List.eq_nil_or_concat front).resolve_left hne
      exact absurd (hfront line (by simp)) (hsettled line (by simp))

theorem account_append (number : Nat)
    (gs others : List (List (List Char))) :
    account number (gs ++ others) =
      account number gs ++ account (number + gs.flatten.length) others := by
  induction gs generalizing number with
  | nil => rfl
  | cons group gs ih =>
      rw [List.cons_append, account, account, ih, List.append_assoc,
        List.flatten_cons, List.length_append, Nat.add_assoc]

/-- Settled lines do what they do by themselves, and so do the lines after
    them. -/
theorem told_append {ls : List (List Char)}
    (h : ∀ line ∈ ls.getLast?, ¬ GoesOn line) (number : Nat)
    (more : List (List Char)) :
    told number (ls ++ more) =
      told number ls ++ told (number + ls.length) more := by
  obtain ⟨gs, hgs⟩ := Grouped.exists_groups ls
  obtain ⟨others, hothers⟩ := Grouped.exists_groups more
  rw [(hgs.append h hothers).told_eq, hgs.told_eq, hothers.told_eq,
    account_append, hgs.flatten_eq]

/-- Lines that make one group do what it says. -/
theorem told_group {front : List (List Char)} {last : List Char}
    (hfront : ∀ line ∈ front, GoesOn line) (hlast : ¬ GoesOn last)
    (number : Nat) :
    told number (front ++ [last]) =
      effect number (said (front ++ [last])) := by
  rw [(Grouped.ends hfront hlast .nil).told_eq, account, account,
    List.append_nil]

theorem told_empty (number : Nat) (ls : List (List Char)) :
    told number ([] :: ls) = told (number + 1) ls := by
  have hends : ∀ line ∈ [[]].getLast?, ¬ GoesOn line := by
    intro line hline
    obtain rfl := Option.some.inj hline
    decide
  exact told_append hends number ls

theorem unnumbered_statement (number : Nat) (cs : List Char) :
    (statement number cs).unnumbered = (statement 0 cs).unnumbered := by
  by_cases h : ∃ name setting, Form cs name setting
  · obtain ⟨name, setting, hform⟩ := h
    rw [statement_of_form hform, statement_of_form hform]
  · have hnone : ∀ name setting, ¬ Form cs name setting :=
      fun name setting hform => h ⟨name, setting, hform⟩
    rw [statement_of_no_form hnone, statement_of_no_form hnone]
    rfl

/-- What lines do depends on their numbers only where it shows them. -/
theorem unnumbered_told (number other : Nat) (ls : List (List Char)) :
    (told number ls).map Statement.unnumbered =
      (told other ls).map Statement.unnumbered := by
  obtain ⟨gs, hgs⟩ := Grouped.exists_groups ls
  rw [hgs.told_eq, hgs.told_eq]
  clear hgs
  induction gs generalizing number other with
  | nil => rfl
  | cons group gs ih =>
      rw [account, account, List.map_append, List.map_append,
        ih (number + group.length) (other + group.length)]
      congr 1
      rw [effect, effect]
      split
      · rfl
      · rw [List.map_singleton, List.map_singleton, unnumbered_statement,
          unnumbered_statement other]

/-- The lines of a layout do what the statement says, wherever they stand,
    and where the first line feed closes a carriage return before it they
    still do. -/
theorem told_laidOut {front : List (List Char)} {last : List Char}
    (hfront : ∀ line ∈ front, GoesOn line) (hlast : ¬ GoesOn last)
    {ls whole : List (List Char)}
    (h : front ++ [last] ++ ls = whole ∨ front ++ [last] ++ ls = [] :: whole)
    (number : Nat) :
    ∃ other, told number whole =
      effect number (said (front ++ [last])) ++ told other ls := by
  rcases h with rfl | h
  · refine ⟨number + (front ++ [last]).length, ?_⟩
    have hsettled : ∀ line ∈ (front ++ [last]).getLast?, ¬ GoesOn line := by
      intro line hline
      rw [List.getLast?_concat] at hline
      obtain rfl := Option.some.inj hline
      exact hlast
    rw [told_append hsettled, told_group hfront hlast]
  · cases front with
    | nil =>
        obtain ⟨rfl, rfl⟩ := List.cons.inj h
        exact ⟨number, rfl⟩
    | cons line front =>
        -- an empty line does not go on
        obtain ⟨rfl, -⟩ := List.cons.inj h
        exact absurd (hfront [] List.mem_cons_self) (by decide)

/-- **ANY LAYOUT**: where a line starts, a text with a statement laid out
    there does what the lines before it do, then what the statement says
    with the number of its first line, and then what the lines after it do,
    with other numbers. -/
theorem statements_laidOut {before after line layout : List Char}
    {pieces : List (List Char)} (hstart : LineStart before after)
    (hline : OnLine line) (hlast : line.getLast? ≠ some '\\')
    (hcut : Cut line pieces) (hlaid : LaidOut pieces layout) :
    ∃ later, statements (before ++ (layout ++ after)) =
        told 1 (lines before) ++ effect (1 + (lines before).length) line ++
          later ∧
      later.map Statement.unnumbered =
        (statements after).map Statement.unnumbered := by
  obtain ⟨hpieces, hjoin⟩ := hcut.pieces hline hlast
  obtain ⟨hclosed, front, last, hlines, hfront, hends, hsaid⟩ :=
    hlaid.lines_eq hpieces
  obtain ⟨ls, hafter, hls⟩ := hclosed.lines_append_of after
  obtain ⟨whole, hwhole, hmeet⟩ := hstart.ends.lines_append_of (layout ++ after)
  rw [hafter, hlines] at hmeet
  obtain ⟨other, htold⟩ :=
    told_laidOut hfront hends hmeet (1 + (lines before).length)
  have hstatement : said (front ++ [last]) = line := by
    rw [said_eq, hsaid, hjoin]
  refine ⟨told other ls, ?_, ?_⟩
  · show told 1 (lines (before ++ (layout ++ after))) = _
    rw [hwhole, told_append hstart.settled, htold, hstatement,
      List.append_assoc]
  · show _ = (told 1 (lines after)).map Statement.unnumbered
    rcases hls with hls | hls
    · rw [hls]
      exact unnumbered_told other 1 ls
    · rw [hls, told_empty]
      exact unnumbered_told other 2 ls

/-! ## What is set and what is reported -/

theorem setting?_unnumbered (said : Statement) :
    said.unnumbered.setting? = said.setting? := by
  cases said <;> rfl

theorem content_unnumbered (said : Statement) :
    said.unnumbered.report?.map Prod.snd = said.report?.map Prod.snd := by
  cases said <;> rfl

/-- Statements that differ in numbers only set the same. -/
theorem filterMap_setting?_of_unnumbered {said other : List Statement}
    (h : said.map Statement.unnumbered = other.map Statement.unnumbered) :
    said.filterMap Statement.setting? = other.filterMap Statement.setting? := by
  have hsame : ∀ l : List Statement, l.filterMap Statement.setting? =
      (l.map Statement.unnumbered).filterMap Statement.setting? := by
    intro l
    rw [List.filterMap_map]
    exact List.filterMap_congr fun s _ => (setting?_unnumbered s).symm
  rw [hsame, h, ← hsame]

/-- They report the same, but for the numbers. -/
theorem map_report?_of_unnumbered {said other : List Statement}
    (h : said.map Statement.unnumbered = other.map Statement.unnumbered) :
    (said.filterMap Statement.report?).map Prod.snd =
      (other.filterMap Statement.report?).map Prod.snd := by
  have hsame : ∀ l : List Statement,
      (l.filterMap Statement.report?).map Prod.snd =
        (l.map Statement.unnumbered).filterMap
          fun s => s.report?.map Prod.snd := by
    intro l
    rw [List.map_filterMap, List.filterMap_map]
    exact List.filterMap_congr fun s _ => (content_unnumbered s).symm
  rw [hsame, h, ← hsame]

theorem malformed_eq (text : String) :
    malformed text =
      (statements text.toList).filterMap Statement.report? :=
  rfl

/-- A line that stands by itself is laid out so. -/
theorem LaidOut.whole {line ending : List Char} (h : LineEnd ending) :
    LaidOut [line] (line ++ ending) := by
  have hgap : Gap [] := List.forall_mem_nil _
  have hlaid := @LaidOut.last [] line [] [] ending hgap hgap .nil h
  simpa using hlaid

/-- **LAYOUT DOES NOT MATTER**: a statement that stands on one line of a
    text, where a line starts and nothing is to be gone on with, may be cut
    at single spaces and laid out on several lines with blanks and
    comments.  The configuration is the same; what is reported up to the
    statement is the same, with its numbers, and after it come the same
    reports, with the numbers of their lines. -/
theorem read_laidOut {before after line layout ending : List Char}
    {pieces : List (List Char)} (hstart : LineStart before after)
    (hline : OnLine line) (hlast : line.getLast? ≠ some '\\')
    (hcut : Cut line pieces) (hlaid : LaidOut pieces layout)
    (hending : LineEnd ending) :
    read (String.ofList (before ++ (layout ++ after))) =
        read (String.ofList (before ++ (line ++ ending ++ after))) ∧
      ∃ later later',
        malformed (String.ofList (before ++ (layout ++ after))) =
          malformed (String.ofList (before ++ (line ++ ending))) ++ later ∧
        malformed (String.ofList (before ++ (line ++ ending ++ after))) =
          malformed (String.ofList (before ++ (line ++ ending))) ++ later' ∧
        later.map Prod.snd = later'.map Prod.snd := by
  have hend : LineStart before [] :=
    ⟨hstart.ends, fun _ h => (nomatch h), hstart.settled⟩
  obtain ⟨later, hlayout, hlater⟩ :=
    statements_laidOut hstart hline hlast hcut hlaid
  obtain ⟨later', hone, hlater'⟩ :=
    statements_laidOut hstart hline hlast .whole (.whole hending)
  obtain ⟨nothing, halone, hnothing⟩ :=
    statements_laidOut hend hline hlast .whole (.whole hending)
  obtain rfl := List.map_eq_nil_iff.mp hnothing
  rw [List.append_nil, List.append_nil] at halone
  have hsame := hlater.trans hlater'.symm
  constructor
  · rw [read_eq_ofList, read_eq_ofList, String.toList_ofList,
      String.toList_ofList, hlayout, List.filterMap_append,
      filterMap_setting?_of_unnumbered hsame, ← List.filterMap_append, hone]
  · refine ⟨later.filterMap Statement.report?,
      later'.filterMap Statement.report?, ?_, ?_,
      map_report?_of_unnumbered hsame⟩
    · rw [malformed_eq, malformed_eq, String.toList_ofList,
        String.toList_ofList, hlayout, halone, List.filterMap_append]
    · rw [malformed_eq, malformed_eq, String.toList_ofList,
        String.toList_ofList, hone, halone, List.filterMap_append]

/-- A statement with a backslash before a space. -/
def slashedLine : List Char := "x = v\\ w".toList

/-- Its pieces, one of which ends in the backslash. -/
def slashedPieces : List (List Char) :=
  [['x'], ['=', ' ', 'v', '\\'], ['w']]

/-- The pieces on lines that end in different ways, with comments. -/
def slashedLayout : List Char :=
  ['\t'] ++ (['x'] ++ [' '] ++ ['\\']) ++ [' '] ++ "# a\\".toList ++
    ['\r', '\n'] ++
    ([] ++ (['=', ' ', 'v', '\\'] ++ [] ++ ['\\']) ++ [] ++ [] ++ ['\r'] ++
      ([' '] ++ ['w'] ++ [] ++ ['#'] ++ ['\n']))

/-- The statement between other lines, laid out and on one line. -/
theorem read_laidOut_slashed :
    LineStart "a b\r".toList "c d".toList ∧ OnLine slashedLine ∧
      slashedLine.getLast? ≠ some '\\' ∧ Cut slashedLine slashedPieces ∧
      LaidOut slashedPieces slashedLayout ∧ LineEnd ['\r'] ∧
      (read (String.ofList ("a b\r".toList ++
          (slashedLayout ++ "c d".toList))) =
        read (String.ofList ("a b\r".toList ++
          (slashedLine ++ ['\r'] ++ "c d".toList))) ∧
      ∃ later later',
        malformed (String.ofList ("a b\r".toList ++
            (slashedLayout ++ "c d".toList))) =
          malformed (String.ofList ("a b\r".toList ++
            (slashedLine ++ ['\r']))) ++ later ∧
        malformed (String.ofList ("a b\r".toList ++
            (slashedLine ++ ['\r'] ++ "c d".toList))) =
          malformed (String.ofList ("a b\r".toList ++
            (slashedLine ++ ['\r']))) ++ later' ∧
        later.map Prod.snd = later'.map Prod.snd) ∧
      (read (String.ofList ("a b\r".toList ++
          (slashedLayout ++ "c d".toList)))).toList =
        [("x", .text "v\\ w")] ∧
      malformed (String.ofList ("a b\r".toList ++
          (slashedLayout ++ "c d".toList))) = [(1, "a b"), (5, "c d")] := by
  have hstart : LineStart "a b\r".toList "c d".toList := by
    refine ⟨fun c hc => ?_, fun _ => by decide, by decide⟩
    obtain rfl := Option.some.inj hc
    decide
  have hline : OnLine slashedLine := ⟨by decide, by decide, by decide⟩
  have hlast : slashedLine.getLast? ≠ some '\\' := by decide
  have hcut : Cut slashedLine slashedPieces :=
    @Cut.space [] "= v\\ w".toList.tail 'x' '=' _ rfl rfl
      (@Cut.space ['=', ' ', 'v'] [] '\\' 'w' _ rfl rfl .whole)
  have hlaid : LaidOut slashedPieces slashedLayout := by
    refine .goesOn ?_ ?_ ?_ (.mark_cons ?_) .pair
      (.goesOn ?_ ?_ ?_ .nil (.single rfl)
        (.last ?_ ?_ (.mark_cons ?_) (.single rfl)))
    all_goals decide
  have hending : LineEnd ['\r'] := .single rfl
  exact ⟨hstart, hline, hlast, hcut, hlaid, hending,
    read_laidOut hstart hline hlast hcut hlaid hending, by decide, by decide⟩

end Config

end LineShell
