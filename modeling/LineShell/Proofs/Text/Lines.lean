import LineShell.Text.Blank
import LineShell.Text.Lines
import Mathlib.Data.List.Basic

/-! # Lines that say something — what a text holds apart from blanks

    Where a text breaks is settled by its boundaries, but how many empty
    lines stand between them depends on how the boundaries meet: a line
    feed closes a carriage return that stands before it, and one at the end
    opens no line.  The lines that are not blank do not depend on any of
    that: a text that is closed by a line feed adds its own to those of the
    text after it (`content_append_lineFeed`), and they are the same with
    every line end written as a line feed (`pieces_unifyNewlines`).

    Where blank lines count too, a text after two line feeds has its lines
    after those of the text before them and an empty line, or two
    (`lines_append_lineFeeds`). -/

namespace LineShell.Text

/-- A line that is not blank. -/
def saysSomething (line : List Char) : Bool :=
  !line.all isBlank

/-- The lines of a text that are not blank. -/
def content (cs : List Char) : List (List Char) :=
  (lines cs).filter saysSomething

/-- Puts characters in front of the first line. -/
def growBy (front : List Char) : List (List Char) → List (List Char)
  | [] => [front]
  | line :: rest => (front ++ line) :: rest

theorem growBy_nil {ls : List (List Char)} (h : ls ≠ []) :
    growBy [] ls = ls := by
  cases ls with
  | nil => exact absurd rfl h
  | cons line rest => rfl

theorem growBy_growFirst (front : List Char) (c : Char)
    (ls : List (List Char)) :
    growBy front (growFirst c ls) = growBy (front ++ [c]) ls := by
  cases ls with
  | nil => rfl
  | cons line rest => simp [growFirst, growBy]

/-- The last line counts for nothing when it is empty. -/
theorem filter_dropEmptyLast (ls : List (List Char)) :
    (dropEmptyLast ls).filter saysSomething = ls.filter saysSomething := by
  fun_induction dropEmptyLast ls with
  | case1 => rfl
  | case2 => rfl
  | case3 line rest _ ih => rw [List.filter_cons, List.filter_cons, ih]

theorem content_eq (cs : List Char) :
    content cs = (pieces cs).filter saysSomething :=
  filter_dropEmptyLast (pieces cs)

/-! ## Texts without line ends -/

/-- No piece holds a boundary. -/
theorem notMem_pieces {cs piece : List Char} (h : piece ∈ pieces cs) :
    ∀ c ∈ piece, isLineBoundary c = false := by
  fun_induction pieces cs generalizing piece with
  | case1 =>
      obtain rfl := List.mem_singleton.mp h
      exact fun c hc => nomatch hc
  | case2 rest ih =>
      rcases List.mem_cons.mp h with rfl | h
      · exact fun c hc => nomatch hc
      · exact ih h
  | case3 c rest _ hc ih =>
      rcases List.mem_cons.mp h with rfl | h
      · exact fun c hc => nomatch hc
      · exact ih h
  | case4 c rest _ hc ih =>
      have hc' : isLineBoundary c = false := by simpa using hc
      cases hp : pieces rest with
      | nil => exact absurd hp (pieces_ne_nil rest)
      | cons line more =>
          rw [hp, growFirst] at h
          rcases List.mem_cons.mp h with rfl | h
          · intro d hd
            rcases List.mem_cons.mp hd with rfl | hd
            · exact hc'
            · exact ih (hp ▸ List.mem_cons_self) d hd
          · exact ih (hp ▸ List.mem_cons_of_mem _ h)

/-- A text without boundaries is one piece. -/
theorem pieces_of_unbroken {cs : List Char}
    (h : ∀ c ∈ cs, isLineBoundary c = false) : pieces cs = [cs] := by
  fun_induction pieces cs with
  | case1 => rfl
  | case2 rest ih =>
      have := h '\r' List.mem_cons_self
      cases this
  | case3 c rest _ hc ih =>
      rw [h c List.mem_cons_self] at hc
      cases hc
  | case4 c rest _ hc ih =>
      rw [ih fun d hd => h d (List.mem_cons_of_mem _ hd)]
      rfl

/-- So a text that says something is its only line just when it has no
    boundary. -/
theorem content_eq_singleton_iff {cs : List Char}
    (h : saysSomething cs = true) :
    content cs = [cs] ↔ ∀ c ∈ cs, isLineBoundary c = false := by
  rw [content_eq]
  constructor
  · intro heq
    have hmem : cs ∈ (pieces cs).filter saysSomething :=
      heq ▸ List.mem_singleton_self cs
    exact notMem_pieces (List.mem_filter.mp hmem).1
  · intro hall
    rw [pieces_of_unbroken hall, List.filter_cons_of_pos h, List.filter_nil]

/-! ## Line ends -/

/-- A character starts a line or grows the first one, unless it is a
    carriage return with a line feed after it. -/
theorem pieces_cons {c : Char} {rest : List Char}
    (h : ∀ more, c = '\r' → rest ≠ '\n' :: more) :
    pieces (c :: rest) =
      if isLineBoundary c then [] :: pieces rest
      else growFirst c (pieces rest) := by
  rw [pieces]
  intro more hc
  exact h more hc

theorem pieces_lineFeed (rest : List Char) :
    pieces ('\n' :: rest) = [] :: pieces rest :=
  pieces_cons fun _ h => nomatch h

/-- Writing every line end as a line feed moves no break. -/
theorem pieces_unifyNewlines (cs : List Char) :
    pieces (unifyNewlines cs) = pieces cs := by
  fun_induction unifyNewlines cs with
  | case1 => rfl
  | case2 rest ih => rw [pieces_lineFeed, ih, pieces]
  | case3 rest hrest ih =>
      have hreturn : pieces ('\r' :: rest) = [] :: pieces rest :=
        pieces_cons fun more _ h => hrest more h
      rw [pieces_lineFeed, ih, hreturn]
  | case4 c rest _ hc ih =>
      have hother : ∀ others more, c = '\r' → others ≠ '\n' :: more :=
        fun _ _ h => absurd h hc
      rw [pieces_cons (hother _), pieces_cons (hother _), ih]

/-- The lines of a text that a line feed closes, with a start of the first
    line before it. -/
theorem filter_pieces_append (front cs rest : List Char) :
    (growBy front (pieces (cs ++ '\n' :: rest))).filter saysSomething =
      (growBy front (pieces cs)).filter saysSomething ++
        (pieces rest).filter saysSomething := by
  have hclose : ∀ (line : List Char) (ls : List (List Char)),
      (line :: ls).filter saysSomething =
        [line].filter saysSomething ++ ls.filter saysSomething :=
    fun line ls => List.filter_append [line] ls
  fun_induction pieces cs generalizing front with
  | case1 =>
      rw [List.nil_append, pieces_lineFeed]
      exact hclose (front ++ []) (pieces rest)
  | case2 more ih =>
      have ih := ih []
      rw [growBy_nil (pieces_ne_nil _), growBy_nil (pieces_ne_nil _)] at ih
      rw [List.cons_append, List.cons_append, pieces, growBy, growBy,
        hclose, hclose _ (pieces more), ih, List.append_assoc]
  | case3 c more hreturn hc ih =>
      have ih := ih []
      rw [growBy_nil (pieces_ne_nil _), growBy_nil (pieces_ne_nil _)] at ih
      by_cases hlast : c = '\r' ∧ more = []
      · -- the line feed belongs to the carriage return before it
        obtain ⟨rfl, rfl⟩ := hlast
        have hclosed : pieces ('\r' :: '\n' :: rest) = [] :: pieces rest := by
          rw [pieces]
        rw [List.singleton_append, hclosed, growBy, growBy, hclose,
          hclose _ (pieces []), pieces, List.append_assoc]
        rfl
      · have hnext : ∀ others, c = '\r' → more ++ '\n' :: rest ≠
            '\n' :: others := by
          intro others hcr
          cases more with
          | nil => exact absurd ⟨hcr, rfl⟩ hlast
          | cons d more =>
              rintro ⟨⟩
              exact hreturn more hcr rfl
        rw [List.cons_append, pieces_cons hnext, if_pos hc, growBy, growBy,
          hclose, hclose _ (pieces more), ih, List.append_assoc]
  | case4 c more _ hc ih =>
      have hnext : ∀ others, c = '\r' → more ++ '\n' :: rest ≠
          '\n' :: others := by
        rintro others rfl
        exact absurd rfl hc
      rw [List.cons_append, pieces_cons hnext, if_neg hc, growBy_growFirst,
        growBy_growFirst, ih]

/-- A text that a line feed closes adds its lines to those after it. -/
theorem content_append_lineFeed (cs rest : List Char) :
    content (cs ++ '\n' :: rest) = content cs ++ content rest := by
  have h := filter_pieces_append [] cs rest
  rw [growBy_nil (pieces_ne_nil _), growBy_nil (pieces_ne_nil _)] at h
  simpa only [content_eq] using h

/-- So texts that are closed by line feeds, one after the other, hold the
    lines of each. -/
theorem content_flatMap_closed (texts : List (List Char)) :
    content (texts.flatMap fun cs => cs ++ ['\n']) =
      texts.flatMap content := by
  induction texts with
  | nil => rfl
  | cons cs rest ih =>
      rw [List.flatMap_cons, List.append_assoc, List.singleton_append,
        content_append_lineFeed, ih, List.flatMap_cons]

/-! ## Texts one after the other -/

theorem getLast?_cons_of_getLast? {c d : Char} {cs : List Char}
    (h : cs.getLast? = some d) : (c :: cs).getLast? = some d := by
  rw [List.getLast?_cons, h]
  rfl

/-- A text breaks where its parts do, unless the line feed that starts the
    second part closes the carriage return at the end of the first. -/
theorem pieces_append {cs rest : List Char} {more : List (List Char)}
    (hend : cs.getLast? = some '\r' → rest.head? ≠ some '\n')
    (hrest : pieces rest = [] :: more) :
    pieces (cs ++ rest) = pieces cs ++ more := by
  have hnext : ∀ {c : Char} {cs : List Char},
      ((c :: cs).getLast? = some '\r' → rest.head? ≠ some '\n') →
      (∀ others, c = '\r' → cs ≠ '\n' :: others) →
      ∀ others, c = '\r' → cs ++ rest ≠ '\n' :: others := by
    rintro c cs hend hreturn others rfl heq
    cases cs with
    | nil => exact hend rfl (congrArg List.head? heq)
    | cons d cs =>
        obtain ⟨rfl, _⟩ := List.cons.inj heq
        exact hreturn cs rfl rfl
  fun_induction pieces cs with
  | case1 => exact hrest
  | case2 cs ih =>
      have hend := ih fun h =>
        hend (getLast?_cons_of_getLast? (getLast?_cons_of_getLast? h))
      rw [List.cons_append, List.cons_append, pieces, hend, List.cons_append]
  | case3 c cs hreturn hc ih =>
      have hcut := hnext hend fun others h e => hreturn others h e
      rw [List.cons_append, pieces_cons hcut, if_pos hc,
        ih fun h => hend (getLast?_cons_of_getLast? h), List.cons_append]
  | case4 c cs hreturn hc ih =>
      have hcut := hnext hend fun others h e => hreturn others h e
      rw [List.cons_append, pieces_cons hcut, if_neg hc,
        ih fun h => hend (getLast?_cons_of_getLast? h)]
      cases hp : pieces cs with
      | nil => exact absurd hp (pieces_ne_nil cs)
      | cons line ls => rfl

theorem dropEmptyLast_append {ls more : List (List Char)} (h : more ≠ []) :
    dropEmptyLast (ls ++ more) = ls ++ dropEmptyLast more := by
  induction ls with
  | nil => rfl
  | cons line ls ih =>
      have hne : ls ++ more ≠ [] := List.append_ne_nil_of_right_ne_nil ls h
      cases hrest : ls ++ more with
      | nil => exact absurd hrest hne
      | cons next rest =>
          rw [List.cons_append, hrest, dropEmptyLast, ← hrest, ih,
            List.cons_append]
          rintro rfl
          rintro ⟨⟩

/-- All but an empty last one of some lines are left. -/
theorem eq_dropEmptyLast (ls : List (List Char)) :
    ls = dropEmptyLast ls ∨ ls = dropEmptyLast ls ++ [[]] := by
  fun_induction dropEmptyLast ls with
  | case1 => exact Or.inl rfl
  | case2 => exact Or.inr rfl
  | case3 line rest _ ih =>
      rcases ih with ih | ih
      · exact Or.inl (congrArg (line :: ·) ih)
      · exact Or.inr (congrArg (line :: ·) ih)

/-- Two line feeds behind a text close it: its lines stand before one or two
    empty lines, and those of what follows after them. -/
theorem lines_append_lineFeeds (cs rest : List Char) :
    lines (cs ++ '\n' :: '\n' :: rest) = lines cs ++ [] :: lines rest ∨
      lines (cs ++ '\n' :: '\n' :: rest) =
        lines cs ++ [] :: [] :: lines rest := by
  have hdrop : ∀ ls : List (List Char), dropEmptyLast
      (ls ++ [] :: pieces rest) = ls ++ [] :: lines rest := by
    intro ls
    rw [List.append_cons, dropEmptyLast_append (pieces_ne_nil rest),
      List.append_assoc]
    rfl
  by_cases hlast : cs.getLast? = some '\r'
  · -- the first line feed belongs to the carriage return
    obtain ⟨front, rfl⟩ := List.getLast?_eq_some_iff.mp hlast
    have hwhole : pieces (front ++ '\r' :: '\n' :: '\n' :: rest) =
        pieces front ++ [] :: pieces rest :=
      pieces_append (fun _ h => nomatch h) (by rw [pieces, pieces_lineFeed])
    have hfront : pieces (front ++ ['\r']) = pieces front ++ [[]] :=
      pieces_append (fun _ => by decide) (by decide)
    have hlines : lines (front ++ ['\r']) = pieces front := by
      rw [lines, hfront, dropEmptyLast_append (by simp)]
      exact List.append_nil _
    rw [List.append_assoc, List.singleton_append, lines, hwhole, hdrop,
      hlines]
    exact Or.inl rfl
  · have hwhole : pieces (cs ++ '\n' :: '\n' :: rest) =
        pieces cs ++ [] :: pieces rest :=
      pieces_append (fun h => absurd h hlast)
        (by rw [pieces_lineFeed, pieces_lineFeed])
    rw [lines, hwhole, hdrop]
    rcases eq_dropEmptyLast (pieces cs) with h | h
    · exact Or.inl (congrArg (· ++ _) h)
    · refine Or.inr ((congrArg (· ++ _) h).trans ?_)
      rw [List.append_assoc]
      rfl

/-- Writing every line end as a line feed changes no line. -/
theorem lines_unifyNewlines (cs : List Char) :
    lines (unifyNewlines cs) = lines cs := by
  rw [lines, pieces_unifyNewlines, lines]

/-- Lines that hold no boundary and are closed by line feeds are the lines
    of their text. -/
theorem lines_flatMap_closed {ls : List (List Char)}
    (h : ∀ line ∈ ls, ∀ c ∈ line, isLineBoundary c = false) :
    lines (ls.flatMap fun line => line ++ ['\n']) = ls := by
  have hpieces : pieces (ls.flatMap fun line => line ++ ['\n']) =
      ls ++ [[]] := by
    induction ls with
    | nil => rfl
    | cons line rest ih =>
        have hline := h line List.mem_cons_self
        have hend : line.getLast? ≠ some '\r' := fun hlast =>
          absurd (hline '\r' (List.mem_of_getLast? hlast)) (by decide)
        rw [List.flatMap_cons, List.append_assoc, List.singleton_append,
          pieces_append (fun hlast => absurd hlast hend) (pieces_lineFeed _),
          pieces_of_unbroken hline,
          ih fun l hl => h l (List.mem_cons_of_mem _ hl)]
        rfl
  rw [lines, hpieces, dropEmptyLast_append (by simp)]
  exact List.append_nil ls

/-! ## Line ends -/

/-- A line end: a carriage return with its line feed, or one boundary. -/
inductive LineEnd : List Char → Prop where
  | pair : LineEnd ['\r', '\n']
  | single {c : Char} (h : isLineBoundary c = true) : LineEnd [c]

/-- Two texts that do not make one line end of a carriage return and a line
    feed where they meet. -/
def Apart (cs rest : List Char) : Prop :=
  cs.getLast? = some '\r' → rest.head? ≠ some '\n'

/-- A text after which a line starts: none, or one that ends in a
    boundary. -/
def EndsLine (cs : List Char) : Prop :=
  ∀ c ∈ cs.getLast?, isLineBoundary c = true

theorem LineEnd.ne_nil {ending : List Char} (h : LineEnd ending) :
    ending ≠ [] := by
  cases h <;> exact List.cons_ne_nil _ _

theorem LineEnd.endsLine {ending : List Char} (h : LineEnd ending)
    (cs : List Char) : EndsLine (cs ++ ending) := by
  intro c hc
  rw [List.getLast?_append_of_ne_nil _ h.ne_nil] at hc
  cases h with
  | pair =>
      obtain rfl := Option.some.inj hc
      decide
  | single hboundary =>
      obtain rfl := Option.some.inj hc
      exact hboundary

/-- A text is closed by a line end, and its lines come before those that
    follow. -/
theorem lines_append_lineEnd {cs ending rest : List Char}
    (hcs : Apart cs ending) (hending : LineEnd ending)
    (hrest : Apart ending rest) :
    lines (cs ++ ending ++ rest) = pieces cs ++ lines rest := by
  have hbreak : pieces (ending ++ rest) = [] :: pieces rest := by
    cases hending with
    | pair => rfl
    | @single c hboundary =>
        have hcut : ∀ more, c = '\r' → rest ≠ '\n' :: more := by
          rintro more rfl rfl
          exact hrest rfl rfl
        rw [List.singleton_append, pieces_cons hcut, if_pos hboundary]
  have hmeet : cs.getLast? = some '\r' →
      (ending ++ rest).head? ≠ some '\n' := by
    rw [List.head?_append_of_ne_nil _ hending.ne_nil]
    exact hcs
  rw [List.append_assoc, lines, pieces_append hmeet hbreak,
    dropEmptyLast_append (pieces_ne_nil rest)]
  rfl

/-- A text that ends in a boundary is closed by a line end. -/
theorem EndsLine.exists_lineEnd {cs : List Char} (h : EndsLine cs)
    (hne : cs ≠ []) :
    ∃ front ending, cs = front ++ ending ∧ LineEnd ending ∧
      Apart front ending := by
  obtain ⟨front, c, rfl⟩ := (List.eq_nil_or_concat cs).resolve_left hne
  rw [List.concat_eq_append] at h ⊢
  have hboundary : isLineBoundary c = true := h c (by simp)
  by_cases hfeed : front.getLast? = some '\r' ∧ c = '\n'
  · obtain ⟨hlast, rfl⟩ := hfeed
    obtain ⟨front, rfl⟩ := List.getLast?_eq_some_iff.mp hlast
    exact ⟨front, ['\r', '\n'], by simp, .pair, fun _ => by decide⟩
  · refine ⟨front, [c], rfl, .single hboundary, fun hlast hhead => ?_⟩
    exact hfeed ⟨hlast, Option.some.inj hhead⟩

/-- Where a line starts, the lines of a text begin anew. -/
theorem EndsLine.lines_append {cs rest : List Char} (h : EndsLine cs)
    (hrest : Apart cs rest) : lines (cs ++ rest) = lines cs ++ lines rest := by
  by_cases hne : cs = []
  · rw [hne]
    rfl
  · obtain ⟨front, ending, rfl, hending, hfront⟩ := h.exists_lineEnd hne
    have halone := @lines_append_lineEnd front ending [] hfront hending
      fun _ h => nomatch h
    have hmeet : Apart ending rest := by
      rwa [Apart, List.getLast?_append_of_ne_nil _ hending.ne_nil] at hrest
    rw [List.append_nil] at halone
    rw [lines_append_lineEnd hfront hending hmeet, halone]
    exact congrArg (· ++ lines rest) (List.append_nil _).symm

/-- A line feed that closes the carriage return before it opens no line. -/
theorem lines_append_lineFeed {cs rest : List Char}
    (h : cs.getLast? = some '\r') :
    lines (cs ++ '\n' :: rest) = lines cs ++ lines rest := by
  obtain ⟨front, rfl⟩ := List.getLast?_eq_some_iff.mp h
  have hpair := @lines_append_lineEnd front ['\r', '\n'] rest
    (fun _ => by decide) .pair fun h => absurd h (by decide)
  have halone := @lines_append_lineEnd front ['\r'] []
    (fun _ => by decide) (.single (by decide)) fun _ h => nomatch h
  rw [List.append_nil] at halone
  calc lines (front ++ ['\r'] ++ '\n' :: rest)
      = lines (front ++ ['\r', '\n'] ++ rest) := by simp
    _ = pieces front ++ ([] ++ lines rest) := hpair
    _ = lines (front ++ ['\r']) ++ lines rest := by
        rw [halone, ← List.append_assoc]
        rfl

/-- Wherever a line starts, the lines that follow are those of the rest,
    but for an empty one where a line feed closes the carriage return. -/
theorem EndsLine.lines_append_of {cs : List Char} (h : EndsLine cs)
    (rest : List Char) :
    ∃ ls, lines (cs ++ rest) = lines cs ++ ls ∧
      (lines rest = ls ∨ lines rest = [] :: ls) := by
  by_cases hmeet : Apart cs rest
  · exact ⟨lines rest, h.lines_append hmeet, Or.inl rfl⟩
  · obtain ⟨hlast, hhead⟩ := Classical.not_imp.mp hmeet
    obtain ⟨more, rfl⟩ := List.head?_eq_some_iff.mp (not_not.mp hhead)
    have hfeed := @lines_append_lineEnd [] ['\n'] more
      (fun h => nomatch h) (.single (by decide))
      fun h => absurd h (by decide)
    exact ⟨lines more, lines_append_lineFeed hlast, Or.inr hfeed⟩

end LineShell.Text
