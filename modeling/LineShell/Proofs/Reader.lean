import LineShell.Reader
import Mathlib.Data.List.Basic

/-! # Readers — the lines that a text was written with

    A text is written line by line, each closed by a line feed or by a
    carriage return and a line feed; the last one may be left open unless
    it is empty (`WrittenAs`).  Cutting such a text after its line feeds gives
    every line with its end (`feedLines_append`), and the end is all that is
    taken off: a line that ended in a carriage return would lose it, so none
    of the lines does (`WrittenAs.lines_eq`).

    What reads give, one after the other, is settled by the items of the
    source, and so is the history that they leave (`readEach_script`).  The
    two together say that a reader of a text undoes its line ends. -/

namespace LineShell

open LineShell.Text

namespace Text

/-! ## Texts written line by line -/

/-- What may be closed by a line end: it holds no line feed, and no
    carriage return at its end that would be taken for a part of it. -/
structure IsLine (line : List Char) : Prop where
  noFeed : '\n' ∉ line
  noReturn : line.getLast? ≠ some '\r'

/-- The texts that lines are written as. -/
inductive WrittenAs : List (List Char) → List Char → Prop where
  | nil : WrittenAs [] []
  | feed {line text : List Char} {ls : List (List Char)}
      (h : IsLine line) (hrest : WrittenAs ls text) :
      WrittenAs (line :: ls) (line ++ '\n' :: text)
  | returnFeed {line text : List Char} {ls : List (List Char)}
      (h : IsLine line) (hrest : WrittenAs ls text) :
      WrittenAs (line :: ls) (line ++ '\r' :: '\n' :: text)
  | unclosed {line : List Char} (h : IsLine line) (hne : line ≠ []) :
      WrittenAs [line] line

variable {line text : List Char} {ls : List (List Char)}

/-! ## Cutting after line feeds -/

theorem feedLines_cons {c : Char} (hc : c ≠ '\n') (hne : text ≠ []) :
    feedLines (c :: text) = growFirst c (feedLines text) := by
  cases text with
  | nil => exact absurd rfl hne
  | cons d text =>
      rw [feedLines]
      exact hc

/-- A text is cut after its first line feed. -/
theorem feedLines_append (h : '\n' ∉ line) (text : List Char) :
    feedLines (line ++ '\n' :: text) =
      (line ++ ['\n']) :: feedLines text := by
  induction line with
  | nil => rw [List.nil_append, feedLines, List.nil_append]
  | cons c line ih =>
      obtain ⟨hc, hline⟩ := not_or.mp (mt List.mem_cons.mpr h)
      have hne : line ++ '\n' :: text ≠ [] :=
        List.append_ne_nil_of_right_ne_nil line (List.cons_ne_nil _ _)
      rw [List.cons_append, feedLines_cons (Ne.symm hc) hne, ih hline]
      rfl

/-- A text without line feeds is not cut. -/
theorem feedLines_of_notMem (h : '\n' ∉ line) (hne : line ≠ []) :
    feedLines line = [line] := by
  induction line with
  | nil => exact absurd rfl hne
  | cons c line ih =>
      obtain ⟨hc, hline⟩ := not_or.mp (mt List.mem_cons.mpr h)
      by_cases hlast : line = []
      · subst hlast
        rw [feedLines]
        exact Ne.symm hc
      · rw [feedLines_cons (Ne.symm hc) hlast, ih hline hlast]
        rfl

end Text

/-! ## Taking a line end off -/

section LineEnds

variable {line text : List Char} {ls : List (List Char)}

theorem dropLineEnd_feed (h : line.getLast? ≠ some '\r') :
    dropLineEnd (line ++ ['\n']) = line := by
  simp [dropLineEnd, h]

theorem dropLineEnd_returnFeed (line : List Char) :
    dropLineEnd (line ++ ['\r', '\n']) = line := by
  have hsplit : line ++ ['\r', '\n'] = (line ++ ['\r']) ++ ['\n'] := by simp
  rw [hsplit]
  simp [dropLineEnd]

/-- Nothing is taken off a line that is not closed. -/
theorem Text.IsLine.dropLineEnd_eq (h : IsLine line) :
    dropLineEnd line = line := by
  have hfeed : line.getLast? ≠ some '\n' := fun hlast =>
    h.noFeed (List.mem_of_getLast? hlast)
  simp [dropLineEnd, hfeed, h.noReturn]

/-- **The lines of a text that was written line by line.** -/
theorem Text.WrittenAs.lines_eq (h : WrittenAs ls text) :
    (feedLines text).map dropLineEnd = ls := by
  induction h with
  | nil => rfl
  | feed h _ ih =>
      rw [feedLines_append h.noFeed, List.map_cons,
        dropLineEnd_feed h.noReturn, ih]
  | @returnFeed line text ls h _ ih =>
      have hfeed : '\n' ∉ line ++ ['\r'] := by simp [h.noFeed]
      have hsplit : line ++ '\r' :: '\n' :: text =
          (line ++ ['\r']) ++ '\n' :: text := by simp
      rw [hsplit, feedLines_append hfeed, List.map_cons, List.append_assoc]
      exact congrArg₂ List.cons (dropLineEnd_returnFeed line) ih
  | unclosed h hne =>
      rw [feedLines_of_notMem h.noFeed hne, List.map_singleton,
        h.dropLineEnd_eq]

end LineEnds

/-! ## Reads, one after the other -/

/-- What an item of a script is read as. -/
def SourceItem.comesAs : SourceItem → Except Fault String
  | .line text => .ok (String.ofList (dropLineEnd text.toList))
  | .fault f => .error (Reader.sourceFault f)

namespace Reader

/-- What the next read of a script gives. -/
def firstOf : List SourceItem → Except Fault String
  | [] => .error atEnd
  | item :: _ => item.comesAs

/-- The entries that a read leaves in the history: its line, unless it is
    blank. -/
def entries : Except Fault String → List String
  | .ok line => if isBlankText line then [] else [line]
  | .error _ => []

/-- Reads with a prompt each: what they give, and the reader after them. -/
def readEach (me : Identity) (r : Reader) :
    List String → List (Except Fault String) × Reader
  | [] => ([], r)
  | prompt :: prompts =>
      let (result, r, _) := r.read me (.text prompt) ""
      let (results, r) := readEach me r prompts
      (result :: results, r)

variable {me : Identity} {r : Reader} {items : List SourceItem} {echo : Bool}

/-- A read of a script takes its first item off, and leaves what that comes
    as in the history. -/
theorem read_script_text (hs : r.source = .script items echo)
    (prompt keys : String) :
    r.read me (.text prompt) keys =
      (firstOf items,
        { r with
          source := .script items.tail echo
          history := r.history ++ entries (firstOf items) },
        if echo then prompt else "") := by
  have hnext : r.next echo items = (firstOf items,
      { r with
        source := .script items.tail echo
        history := r.history ++ entries (firstOf items) }) := by
    rcases items with _ | ⟨text | f, rest⟩
    · cases r
      cases hs
      simp [next, firstOf, entries]
    · simp only [next, firstOf, SourceItem.comesAs, entries, remember]
      split <;> simp_all
    · simp [next, firstOf, SourceItem.comesAs, entries]
  cases echo with
  | false => simp [read, hs, hnext]
  | true => simp [read, hs, hnext, Value.asText?]

/-- What some reads of a script give: its items in their order, and then
    its end again and again. -/
def resultsOf (items : List SourceItem) (count : Nat) :
    List (Except Fault String) :=
  (items.take count).map SourceItem.comesAs ++
    List.replicate (count - items.length) (.error atEnd)

theorem resultsOf_succ (items : List SourceItem) (count : Nat) :
    resultsOf items (count + 1) =
      firstOf items :: resultsOf items.tail count := by
  cases items with
  | nil => simp [resultsOf, firstOf, List.replicate_succ]
  | cons item items => simp [resultsOf, firstOf]

/-- **Reads of a script give its items**, and leave the lines that are not
    blank in the history. -/
theorem readEach_script (hs : r.source = .script items echo)
    (prompts : List String) :
    r.readEach me prompts =
      (resultsOf items prompts.length,
        { r with
          source := .script (items.drop prompts.length) echo
          history := r.history ++
            (resultsOf items prompts.length).flatMap entries }) := by
  induction prompts generalizing r items with
  | nil =>
      cases r
      cases hs
      simp [readEach, resultsOf]
  | cons prompt prompts ih =>
      rw [readEach, read_script_text hs]
      dsimp only
      rw [ih rfl, List.length_cons, resultsOf_succ]
      simp

/-! ## Readers of texts -/

/-- The items of a text that was written line by line come as its lines. -/
theorem comesAs_ofText {lines : List String} {text : String}
    (h : WrittenAs (lines.map String.toList) text.toList) :
    ((feedLines text.toList).map fun cs =>
      SourceItem.line (String.ofList cs)).map SourceItem.comesAs =
      lines.map .ok := by
  have hitem : SourceItem.comesAs ∘
      (fun cs => SourceItem.line (String.ofList cs)) =
        (fun cs => .ok (String.ofList cs)) ∘ dropLineEnd := by
    funext cs
    simp [SourceItem.comesAs]
  rw [List.map_map, hitem, ← List.map_map, h.lines_eq, List.map_map]
  simp

/-- Items that come as lines are read as those, and then as the end. -/
theorem resultsOf_of_lines {items : List SourceItem} {lines : List String}
    (h : items.map SourceItem.comesAs = lines.map .ok) (count : Nat) :
    resultsOf items count =
      (lines.take count).map .ok ++
        List.replicate (count - lines.length) (.error atEnd) := by
  have hlength : items.length = lines.length := by
    simpa using congrArg List.length h
  rw [resultsOf, List.map_take, h, hlength, ← List.map_take]

/-- Lines leave those of them that are not blank. -/
theorem flatMap_entries_ok (lines : List String) :
    (lines.map Except.ok).flatMap entries =
      lines.filter fun line => !isBlankText line := by
  induction lines with
  | nil => rfl
  | cons line lines ih =>
      rw [List.map_cons, List.flatMap_cons, ih, entries, List.filter_cons]
      cases isBlankText line <;> rfl

/-- **A reader of a text undoes its line ends.** -/
theorem undoes_line_ends :
    (∀ (files : FileTree) (homes : Homes) (histfile : Option Path)
        (histsize : Int) (echo : Bool) (loaded lines : List String)
        (text : String),
      (History.load files homes histfile).1 = .ok loaded →
      WrittenAs (lines.map String.toList) text.toList →
      ∃ r, (build files homes (.ofText text echo) histfile histsize).1 =
          .ok r ∧
        ∀ (me : Identity) (prompts : List String),
          (r.readEach me prompts).1 =
            (lines.take prompts.length).map .ok ++
              List.replicate (prompts.length - lines.length)
                (.error atEnd) ∧
          (r.readEach me prompts).2.history =
            loaded ++ (lines.take prompts.length).filter
              fun line => !isBlankText line) ∧
    ∀ (me : Identity) (r : Reader) (f : Fault) (items : List SourceItem)
        (echo : Bool) (prompt keys : String),
      r.source = .script (.fault f :: items) echo →
      (r.read me (.text prompt) keys).1 = .error (sourceFault f) ∧
        (r.read me (.text prompt) keys).2.1 =
          { r with source := .script items echo } := by
  constructor
  · intro files homes histfile histsize echo loaded lines text hload hw
    refine ⟨⟨.ofText text echo, histfile, histsize, loaded⟩, ?_, ?_⟩
    · simp [build, hload, Except.map]
    · intro me prompts
      rw [readEach_script rfl, resultsOf_of_lines (comesAs_ofText hw)]
      refine ⟨rfl, ?_⟩
      rw [List.flatMap_append, flatMap_entries_ok]
      simp [entries]
  · intro me r f items echo prompt keys hs
    rw [read_script_text hs]
    simp [firstOf, SourceItem.comesAs, entries]

/-- Four lines, one with a carriage return inside, one empty and the last
    left open; and a source that breaks. -/
theorem undoes_line_ends_mixed :
    (∃ r, (build ⟨[], []⟩ ⟨none, "/", []⟩
        (.ofText "a\rb\r\n\n c \nd" true) none 1000).1 = .ok r ∧
      (r.readEach ⟨"Shell", .idle⟩ ["1>", "2>", "3>", "4>", "5>"]).1 =
        [.ok "a\rb", .ok "", .ok " c ", .ok "d", .error atEnd] ∧
      (r.readEach ⟨"Shell", .idle⟩ ["1>", "2>", "3>", "4>", "5>"]).2.history =
        ["a\rb", " c ", "d"]) ∧
    (Reader.read ⟨"Shell", .idle⟩
        ⟨.script [.fault (.raised "ValueError" "closed")] false, none, 1000,
          ["old"]⟩ (.text "> ") "").2.1.history = ["old"] := by
  have hline : ∀ line : List Char,
      '\n' ∉ line ∧ line.getLast? ≠ some '\r' → IsLine line :=
    fun _ h => ⟨h.1, h.2⟩
  have hlast := WrittenAs.unclosed (hline ['d'] (by decide)) (by decide)
  have hw := WrittenAs.returnFeed (hline ['a', '\r', 'b'] (by decide))
    (.feed (hline [] (by decide)) (.feed (hline [' ', 'c', ' ']
      (by decide)) hlast))
  constructor
  · obtain ⟨r, hr, h⟩ := undoes_line_ends.1 ⟨[], []⟩ ⟨none, "/", []⟩ none
      1000 true [] ["a\rb", "", " c ", "d"] "a\rb\r\n\n c \nd" rfl hw
    obtain ⟨hreads, hhistory⟩ := h ⟨"Shell", .idle⟩
      ["1>", "2>", "3>", "4>", "5>"]
    exact ⟨r, hr, hreads, hhistory.trans (by decide)⟩
  · have h := (undoes_line_ends.2 ⟨"Shell", .idle⟩
      ⟨.script [.fault (.raised "ValueError" "closed")] false, none, 1000,
        ["old"]⟩
      (.raised "ValueError" "closed") [] false "> " "" rfl).2
    exact congrArg Reader.history h

end Reader

end LineShell
