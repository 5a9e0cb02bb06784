import LineShell.Proofs.Session.Composition

/-! # The escape to a program — the words that were typed, and no others

    Behind an escape mark a line is a command line of a program, and the
    program can stand apart from the mark or right behind it.  The two
    forms are read and routed in different ways and come to one vector:
    every word is what was quoted, an empty one included, and no word is
    taken for an assignment.  The program is run once, with the
    environment of the shell and the assignments, and a program that
    finishes or that cannot be run gets one answer for both forms
    (`Run.escape_runs_words`).

    They differ in one thing.  Another fault of running it is a fault of
    the command, and the command is the word with the mark in it. -/

namespace LineShell

open LineShell.Text

/-! ## What a program that was run is answered with -/

/-- What is left of a text without the line feeds at its end. -/
def IsLeft (text left : String) : Prop :=
  (∃ feeds, text = left ++ String.ofList (List.replicate feeds '\n')) ∧
    left.toList.getLast? ≠ some '\n'

/-- The answer to a program that finished: what it wrote, its output
    before its complaints, without line feeds at the end, or nothing; if
    it went wrong, an error with its code, and on the next line what it
    wrote. -/
inductive Tells (out err : Option String) : Int → Value → Prop where
  | nothing (hleft : IsLeft (out.getD "" ++ err.getD "") "") :
      Tells out err 0 .null
  | said {text : String} (hleft : IsLeft (out.getD "" ++ err.getD "") text)
      (hne : text ≠ "") : Tells out err 0 (.text text)
  | silent {code : Int} (hcode : code ≠ 0)
      (hleft : IsLeft (out.getD "" ++ err.getD "") "") :
      Tells out err code (.text ("error: exit=" ++ toString code))
  | wrong {code : Int} {text : String} (hcode : code ≠ 0)
      (hleft : IsLeft (out.getD "" ++ err.getD "") text) (hne : text ≠ "") :
      Tells out err code
        (.text ("error: exit=" ++ toString code ++ "\n" ++ text))

namespace Launch

theorem exists_dropLineFeeds (cs : List Char) :
    ∃ feeds, cs = dropLineFeeds cs ++ List.replicate feeds '\n' := by
  refine ⟨(cs.reverse.takeWhile (· == '\n')).length, ?_⟩
  have hfeeds : cs.reverse.takeWhile (· == '\n') =
      List.replicate (cs.reverse.takeWhile (· == '\n')).length '\n' := by
    refine List.eq_replicate_iff.mpr ⟨rfl, ?_⟩
    intro c hc
    have hfeed := List.mem_takeWhile_imp (p := (· == '\n')) hc
    exact eq_of_beq hfeed
  rw [dropLineFeeds, ← List.reverse_replicate, ← hfeeds,
    ← List.reverse_append, List.takeWhile_append_dropWhile,
    List.reverse_reverse]

theorem getLast?_dropLineFeeds (cs : List Char) :
    (dropLineFeeds cs).getLast? ≠ some '\n' := by
  intro hlast
  have hnot := List.head?_dropWhile_not (· == '\n') cs.reverse
  rw [dropLineFeeds, List.getLast?_reverse] at hlast
  rw [hlast] at hnot
  exact absurd hnot (by decide)

theorem isLeft_outputText (out err : Option String) :
    IsLeft (out.getD "" ++ err.getD "") (outputText out err) := by
  obtain ⟨feeds, hfeeds⟩ :=
    exists_dropLineFeeds (out.getD "" ++ err.getD "").toList
  refine ⟨⟨feeds, ?_⟩, ?_⟩
  · rw [outputText, ← String.ofList_append, ← hfeeds, String.ofList_toList]
  · rw [outputText, String.toList_ofList]
    exact getLast?_dropLineFeeds _

/-- A program that finished is answered with what it wrote and its code. -/
theorem report_finished (out err : Option String) (code : Int) :
    ∃ v, (finished out err code).report = .ok v ∧ Tells out err code v := by
  have hleft := isLeft_outputText out err
  rw [report]
  by_cases hcode : code = 0
  · subst hcode
    by_cases htext : outputText out err = ""
    · rw [htext] at hleft ⊢
      exact ⟨.null, rfl, .nothing hleft⟩
    · exact ⟨.text (outputText out err), by simp [htext], .said hleft htext⟩
  · by_cases htext : outputText out err = ""
    · rw [htext] at hleft ⊢
      exact ⟨_, by simp [hcode]; rfl, .silent hcode hleft⟩
    · refine ⟨_, ?_, .wrong hcode hleft htext⟩
      simp [hcode, htext]
      rfl

end Launch

/-- What running a program comes to: what the table says of it, or there
    is no such program. -/
def World.launchOf (w : World) (program : String) : Launch :=
  ((w.programs.find? fun entry => entry.1 == program).map Prod.snd).getD
    (.failed ("[Errno 2] No such file or directory: " ++ quote program))

/-- The record of a program that was run: its command line, and the
    environment that it was given. -/
def launchRecord (argv : List String) (env : Environment) : Value :=
  .list [.text "run", .list (argv.map .text), .ofPairs env.toList]

/-- The session once a program was run. -/
def Session.launched (s : Session) (argv : List String)
    (env : Environment) : Session :=
  { s with trace := s.trace ++ [launchRecord argv env] }

/-! ## The two forms of a line -/

/-- Assignments as values of an environment. -/
def textPairs (pairs : List (String × String)) : List (String × Value) :=
  pairs.map fun pair => (pair.1, .text pair.2)

/-- The lines that escape to a program, with the command of each: the mark
    as a word of its own, or right before the quoted program. -/
inductive Escapes (pairs : List (String × String)) (program : String)
    (args : List String) : String → String → Prop where
  | apart : Escapes pairs program args
      (" ".intercalate
        ((pairs.map fun pair => assignmentText pair.1 pair.2) ++
          "!" :: (program :: args).map singleQuoted)) "!"
  | attached : Escapes pairs program args
      (" ".intercalate
        ((pairs.map fun pair => assignmentText pair.1 pair.2) ++
          ("!" ++ singleQuoted program) :: args.map singleQuoted))
      ("!" ++ program)

/-- A line that was split so that it escapes to a program: the words behind
    the mark make up its command line. -/
structure Line.EscapesTo (split : Line) (pairs : List (String × String))
    (program : String) (args : List String) (command : String) : Prop where
  command_eq : split.command = command
  overlay_eq : split.overlay = .ofList (textPairs pairs)
  words : ∃ behind, command = "!" ++ behind ∧
    programWords behind ++ split.args = (program :: args).map .text

/-- A line of assignments, a word that is no assignment, and quoted
    arguments. -/
theorem read_command {pairs : List (String × String)}
    (named : ∀ pair ∈ pairs, IsName pair.1) {source : String} {d : Draft}
    (reads : Mode.gap.Reads source.toList (.word d))
    (hd : d.word.assignment? = none) (args : List String) :
    Line.read (" ".intercalate
        ((pairs.map fun pair => assignmentText pair.1 pair.2) ++
          source :: args.map singleQuoted)) =
      .ok ⟨d.word.text, .ofList (textPairs pairs), args.map .text⟩ := by
  let others : List (String × Draft) :=
    (source, d) :: args.map fun w => (singleQuoted w, ⟨w.toList, 0, false⟩)
  have hreads : ∀ other ∈ others,
      Mode.gap.Reads other.1.toList (.word other.2) := by
    intro other hother
    rcases List.mem_cons.mp hother with rfl | hother
    · exact reads
    · obtain ⟨w, -, rfl⟩ := List.mem_map.mp hother
      exact Mode.reads_quoted w
  have hsources : others.map Prod.fst = source :: args.map singleQuoted := by
    simp [others, Function.comp_def]
  have hwords : (others.map fun other => other.2.word) =
      d.word :: args.map quotedWord := by
    simp [others, Function.comp_def, Draft.word, quotedWord]
  have htokens := tokenize_assignments pairs named others hreads
  rw [hsources, hwords] at htokens
  rw [Line.read, htokens]
  show Except.ok (Line.ofWords _) = _
  rw [Line.ofWords, ofWordsAfter_assignments pairs named, Line.ofWordsAfter,
    hd]
  simp [text_quotedWord, Function.comp_def, textPairs, OrderedMap.ofList]

namespace Escapes

variable {pairs : List (String × String)} {program : String}
variable {args : List String} {line command : String}

/-- The mark of an attached program stands bare, and what follows it is
    quoted. -/
theorem reads_attached (program : String) :
    Mode.gap.Reads ("!" ++ singleQuoted program).toList
      (.word ⟨'!' :: program.toList, 1, false⟩) := by
  have hchars : ("!" ++ singleQuoted program).toList =
      '!' :: '\'' :: (program.toList.flatMap quotedChar ++ ['\'']) := by
    rw [String.toList_append, singleQuoted]
    simp only [String.toList_ofList]
    rfl
  rw [hchars]
  have hbare : Mode.gap.next '!' = (.word ⟨['!'], 1, true⟩, none) := rfl
  have hopens : (Mode.word ⟨['!'], 1, true⟩).next '\'' =
      (.single ⟨['!'], 1, false⟩, none) := rfl
  exact .cons hbare (.cons hopens (Mode.reads_quoted_tail program ['!'] 1))

/-- Both forms are read with the assignments as the overlay, and the words
    behind the mark make up the same command line. -/
theorem read (h : Escapes pairs program args line command)
    (named : ∀ pair ∈ pairs, IsName pair.1) (hprogram : program ≠ "") :
    ∃ split, Line.read line = .ok split ∧
      split.EscapesTo pairs program args command := by
  cases h with
  | apart =>
      have hmark : Mode.gap.Reads "!".toList (.word ⟨['!'], 1, true⟩) :=
        .single rfl
      refine ⟨_, read_command named hmark rfl (program :: args), rfl, rfl,
        "", rfl, rfl⟩
  | attached =>
      have htext : (Draft.word ⟨'!' :: program.toList, 1, false⟩).text =
          "!" ++ program := by
        rw [Word.text, Draft.word, ← String.toList_inj,
          String.toList_ofList, String.toList_append]
        rfl
      refine ⟨_, read_command named (reads_attached program) rfl args, htext,
        rfl, program, rfl, ?_⟩
      rw [programWords, if_neg hprogram]
      rfl

end Escapes

/-! ## The route of an escape -/

/-- The escape mark is no letter of a key word. -/
theorem not_isWordOf_mark {words : List String} (behind : String)
    (hwords : ∀ word ∈ words, ∃ letter rest, word.toList = letter :: rest ∧
      letter ≠ '!') : ¬ IsWordOf words ("!" ++ behind) := by
  rintro ⟨word, hword, before, body, after, htext, hbefore, -, hbody⟩
  obtain ⟨letter, rest, hletter, hne⟩ := hwords word hword
  have hmark : ("!" ++ behind).toList = '!' :: behind.toList := by
    rw [String.toList_append]
    rfl
  rw [hmark] at htext
  rw [hletter] at hbody
  -- the mark is no blank before the key word, and not its first letter
  cases before with
  | cons c before =>
      obtain ⟨rfl, -⟩ := List.cons.inj htext
      exact absurd (hbefore '!' List.mem_cons_self) (by decide)
  | nil =>
      cases hbody with
      | cons hsame _ =>
          obtain ⟨rfl, -⟩ := List.cons.inj htext
          cases hsame with
          | same => exact hne rfl
          | capital hleast => exact absurd hleast (by decide)

theorem Registry.route_mark (r : Registry) {line : Line} {behind : String}
    (h : line.command = "!" ++ behind) :
    r.route line = .escape (programWords behind ++ line.args) := by
  refine r.route_escape h ?_ ?_
  · rw [h]
    refine not_isWordOf_mark behind ?_
    intro word hword
    simp only [quitWords, List.mem_cons, List.not_mem_nil, or_false] at hword
    rcases hword with rfl | rfl | rfl <;> exact ⟨_, _, rfl, by decide⟩
  · rw [h]
    refine not_isWordOf_mark behind ?_
    intro word hword
    simp only [helpWords, List.mem_cons, List.not_mem_nil, or_false] at hword
    rcases hword with rfl | rfl <;> exact ⟨_, _, rfl, by decide⟩

/-! ## Running it -/

/-- What a line's assignments make of an environment. -/
theorem Session.overlay_textPairs (s : Session) (env : Environment)
    (pairs : List (String × String)) :
    env.overlay (s.texts (.ofList (textPairs pairs))) =
      env.insertAll (textPairs pairs) := by
  have htexts : ((s.texts (.ofList (textPairs pairs))).map Value.text).toList =
      (OrderedMap.ofList (textPairs pairs)).toList := by
    show List.map _ (List.map _ _) = _
    rw [List.map_map]
    refine (List.map_congr_left ?_).trans (List.map_id _)
    intro entry hentry
    obtain ⟨pair, -, rfl⟩ :=
      List.mem_map.mp (OrderedMap.mem_of_mem_ofList hentry)
    rfl
  rw [Environment.overlay, htexts, OrderedMap.insertAll_ofList]

/-- A member of the shell gives back what it is called with. -/
def Class.GivesBack (c : Class) (depth : Nat) (name : String) : Prop :=
  ∀ (s : Session) (v : Value), s.shell = some c →
    Run.callShell (Run.executeWithin depth) name [v] s = some (.ok v, s)

/-- A shell that rewrites neither lines nor results: its members give them
    back, and no hook is there for them. -/
structure Session.Unrewriting (s : Session) (c : Class) (depth : Nat) :
    Prop where
  shell_eq : s.shell = some c
  precmd : c.GivesBack depth "precmd"
  postcmd : c.GivesBack depth "postcmd"
  noLineHooks : s.extensions.chain "precmd" = []
  noResultHooks : s.extensions.chain "postcmd" = []

namespace Session.Unrewriting

variable {s : Session} {c : Class} {depth : Nat}

/-- A class that inherits both members, in a session without hooks. -/
theorem inherited (depth : Nat) (hc : s.shell = some c)
    (hpre : c.lookup? "precmd" = OrderedMap.find "precmd" BaseShell.members)
    (hpost : c.lookup? "postcmd" =
      OrderedMap.find "postcmd" BaseShell.members)
    (hline : s.extensions.chain "precmd" = [])
    (hresult : s.extensions.chain "postcmd" = []) :
    s.Unrewriting c (depth + 1) where
  shell_eq := hc
  precmd _ v hs := precmd_inherited depth hs hpre v
  postcmd _ v hs := Run.postcmd_inherited depth hs hpost v
  noLineHooks := hline
  noResultHooks := hresult

/-- A line that can be split is dispatched as it was split. -/
theorem lineResult (h : s.Unrewriting c depth) {text : String} {line : Line}
    (hread : Line.read text = .ok line) :
    Run.lineResult (Run.executeWithin depth) (.text text) s =
      Run.dispatch (Run.executeWithin depth) line (.text text) s := by
  have htyped : Typed depth text s s :=
    ⟨h.precmd s (.text text) h.shell_eq, h.noLineHooks⟩
  rw [Run.lineResult,
    Run.bind_ok (Run.attempt_eq (htyped.readRewritten hread))]

/-- A result is the result of its line. -/
theorem rewriteResult (h : s.Unrewriting c depth) (v line : Value) :
    Run.rewriteResult (Run.executeWithin depth) v line s =
      some (.ok v, s) := by
  have hshell : Run.shellParam s = some (.ok ("shell", s.shellValue), s) :=
    rfl
  have hkept := h.postcmd s v h.shell_eq
  rw [Run.rewriteResult, Run.bind_ok (Run.attempt_eq hkept)]
  dsimp only
  rw [Run.bind_ok hshell, Run.callChain, Run.get_bind_eq, h.noResultHooks]
  rfl

/-- Running a program leaves it so. -/
theorem launched (h : s.Unrewriting c depth) (argv : List String)
    (env : Environment) : (s.launched argv env).Unrewriting c depth where
  shell_eq := h.shell_eq
  precmd := h.precmd
  postcmd := h.postcmd
  noLineHooks := h.noLineHooks
  noResultHooks := h.noResultHooks

end Session.Unrewriting

namespace Run

variable {s : Session} {c : Class} {depth : Nat}
variable {pairs : List (String × String)} {program : String}
variable {args : List String} {command : String} {line : Line}

/-- Running a program is recorded, and answered as the table says. -/
theorem launch_eq (program : String) (args : List String) (s : Session) :
    launch ((program :: args).map .text) s =
      some ((s.world.launchOf program).report,
        s.launched (program :: args) s.env) := by
  have htrace : addTrace [launchRecord (program :: args) s.env] s =
      some (.ok (), s.launched (program :: args) s.env) := rfl
  rw [launch, get_bind_eq]
  refine (bind_ok htrace).trans ?_
  rw [World.launchOf, List.map_cons]
  dsimp only [Value.asText?, Option.bind_some]
  -- a program that is not in the table is one that could not be run
  cases s.world.programs.find? fun entry => entry.1 == program with
  | none => exact ofAnswer_eq _ _
  | some entry => exact ofAnswer_eq _ _

/-- The base class runs the program. -/
theorem escape_inherited (depth : Nat) (hc : s.shell = some c)
    (hd : c.lookup? "shell_escape" =
      OrderedMap.find "shell_escape" BaseShell.members)
    (program : String) (args : List String) :
    callShell (executeWithin (depth + 1)) "shell_escape"
        ((program :: args).map .text) s =
      some ((s.world.launchOf program).report,
        s.launched (program :: args) s.env) := by
  obtain ⟨rest, hcall⟩ := callShell_variadic hc hd
    ((program :: args).map .text)
  rw [hcall]
  exact perform_answer (launch_eq program args s)

/-- What following a line to a program comes to, within its overlay. -/
theorem follow_escape (depth : Nat) (hc : s.shell = some c)
    (hd : c.lookup? "shell_escape" =
      OrderedMap.find "shell_escape" BaseShell.members)
    (hline : line.EscapesTo pairs program args command) :
    (do follow (executeWithin (depth + 1)) line
          ((← get).registry.route line)) s =
      some ((s.world.launchOf program).report,
        s.launched (program :: args) s.env) := by
  obtain ⟨behind, hmark, hwords⟩ := hline.words
  rw [get_bind_eq, Registry.route_mark _ (hline.command_eq.trans hmark),
    hwords]
  exact escape_inherited depth hc hd program args

/-- What a line to a program comes to: a value or a signal as it is, with
    the environment as it was, and any other fault answered within the
    overlay. -/
theorem dispatch_escape (depth : Nat) (hc : s.shell = some c)
    (hd : c.lookup? "shell_escape" =
      OrderedMap.find "shell_escape" BaseShell.members)
    (hline : line.EscapesTo pairs program args command) (raw : Value) :
    let t := s.launched (program :: args) (s.env.insertAll (textPairs pairs))
    (∀ v, (s.world.launchOf program).report = .ok v →
      dispatch (executeWithin (depth + 1)) line raw s = some (.ok v, t)) ∧
    (∀ f, (s.world.launchOf program).report = .error f →
      f.isSignal = true →
      dispatch (executeWithin (depth + 1)) line raw s =
        some (.error f, t)) ∧
    ∀ f, (s.world.launchOf program).report = .error f →
      f.isSignal = false →
      dispatch (executeWithin (depth + 1)) line raw s =
        withOverlay (.ofList (textPairs pairs))
          (answerFault (executeWithin (depth + 1)) .handler command f raw)
          t := by
  intro t
  -- the program runs in the session that the overlay makes
  let env := s.env.insertAll (textPairs pairs)
  have hfollow := follow_escape (s := { s with env := env }) depth hc hd
    hline
  rw [dispatch, hline.overlay_eq, hline.command_eq]
  have henter := s.overlay_textPairs s.env pairs
  refine ⟨?_, ?_, ?_⟩
  · intro v hv
    rw [hv] at hfollow
    refine withOverlay_undone (t := t) ?_
    rw [henter]
    exact contain_ok hfollow
  · intro f hf hsignal
    rw [hf] at hfollow
    refine withOverlay_undone (t := t) ?_
    rw [henter]
    exact contain_signal hfollow hsignal
  · intro f hf hsignal
    rw [hf] at hfollow
    refine withOverlay_contain (t := t) ?_ hsignal rfl rfl
    rw [henter]
    exact hfollow

/-- So it is with a line that was typed, in either form. -/
theorem lineResult_escape (h : s.Unrewriting c (depth + 1))
    (hd : c.lookup? "shell_escape" =
      OrderedMap.find "shell_escape" BaseShell.members)
    (named : ∀ pair ∈ pairs, IsName pair.1) (hprogram : program ≠ "")
    {text : String} (hescapes : Escapes pairs program args text command) :
    let t := s.launched (program :: args) (s.env.insertAll (textPairs pairs))
    (∀ v, (s.world.launchOf program).report = .ok v →
      lineResult (executeWithin (depth + 1)) (.text text) s =
        some (.ok v, t)) ∧
    (∀ f, (s.world.launchOf program).report = .error f →
      f.isSignal = true →
      lineResult (executeWithin (depth + 1)) (.text text) s =
        some (.error f, t)) ∧
    ∀ f, (s.world.launchOf program).report = .error f →
      f.isSignal = false →
      lineResult (executeWithin (depth + 1)) (.text text) s =
        withOverlay (.ofList (textPairs pairs))
          (answerFault (executeWithin (depth + 1)) .handler command f
            (.text text)) t := by
  obtain ⟨split, hread, hsplit⟩ := hescapes.read named hprogram
  rw [h.lineResult hread]
  exact dispatch_escape depth h.shell_eq hd hsplit (.text text)

/-- **WORDS AS TYPED**: behind an escape mark, a quoted program and quoted
    arguments are run as they were meant, once, with the environment of
    the shell and the assignments of the line, and the environment is
    afterwards as it was.  Whether the mark stands apart or not, the answer
    is what a program that finished wrote, and its code unless that is
    zero, or why the program could not be run.  A signal comes out of the
    line, and any other fault is answered as a fault of the command. -/
theorem escape_runs_words (depth : Nat) (h : s.Unrewriting c (depth + 1))
    (hd : c.lookup? "shell_escape" =
      OrderedMap.find "shell_escape" BaseShell.members)
    (named : ∀ pair ∈ pairs, IsName pair.1) (hprogram : program ≠ "")
    (args : List String) :
    let execute := executeWithin (depth + 1)
    let t := s.launched (program :: args) (s.env.insertAll (textPairs pairs))
    (∀ out err code, s.world.launchOf program = .finished out err code →
      ∃ v, Tells out err code v ∧
        ∀ line command, Escapes pairs program args line command →
          runLine execute (.text line) s = some (.ok v, t)) ∧
    (∀ message, s.world.launchOf program = .failed message →
      ∀ line command, Escapes pairs program args line command →
        runLine execute (.text line) s =
          some (.ok (.text ("error: " ++ message)), t)) ∧
    (∀ f, s.world.launchOf program = .raised f → f.isSignal = true →
      ∀ line command, Escapes pairs program args line command →
        runLine execute (.text line) s = some (.error f, t)) ∧
    ∀ f, s.world.launchOf program = .raised f → f.isSignal = false →
      ∀ line command, Escapes pairs program args line command →
        runLine execute (.text line) s =
          (do
            let answer ← withOverlay (.ofList (textPairs pairs))
              (answerFault execute .handler command f (.text line))
            rewriteResult execute answer (.text line)) t := by
  intro execute t
  have hreturns : ∀ v, (s.world.launchOf program).report = .ok v →
      ∀ text command, Escapes pairs program args text command →
        runLine execute (.text text) s = some (.ok v, t) := by
    intro v hv text command hescapes
    obtain ⟨hvalue, -⟩ := lineResult_escape h hd named hprogram hescapes
    rw [runLine, bind_ok (hvalue v hv)]
    exact (h.launched _ _).rewriteResult v (.text text)
  refine ⟨?_, ?_, ?_, ?_⟩
  · intro out err code hlaunch
    obtain ⟨v, hv, hreports⟩ := Launch.report_finished out err code
    exact ⟨v, hreports, hreturns v (by rw [hlaunch, hv])⟩
  · intro message hlaunch
    exact hreturns _ (by rw [hlaunch]; rfl)
  · intro f hlaunch hsignal text command hescapes
    have hreport : (s.world.launchOf program).report = .error f := by
      rw [hlaunch]
      rfl
    obtain ⟨-, hout, -⟩ := lineResult_escape h hd named hprogram hescapes
    rw [runLine, bind_error (hout f hreport hsignal)]
  · intro f hlaunch hsignal text command hescapes
    have hreport : (s.world.launchOf program).report = .error f := by
      rw [hlaunch]
      rfl
    obtain ⟨-, -, hfault⟩ := lineResult_escape h hd named hprogram hescapes
    exact bind_of_eq (hfault f hreport hsignal)

/-- A program that is run with an assignment and words that need their
    quotes. -/
theorem escape_runs_words_quoted :
    launchingSession.Unrewriting BaseShell.shellClass 1 ∧
    (∀ pair ∈ [("A", "x'y")], IsName pair.1) ∧ "p" ≠ "" ∧
    ∃ v, Tells (some "out") none 0 v ∧
      ∀ line command, Escapes [("A", "x'y")] "p" ["", "#a b"] line command →
        runLine (executeWithin 1) (.text line) launchingSession =
          some (.ok v, launchingSession.launched ["p", "", "#a b"]
            (.ofList [("A", .text "x'y")])) := by
  have h : launchingSession.Unrewriting BaseShell.shellClass 1 :=
    .inherited 0 rfl rfl rfl rfl rfl
  have named : ∀ pair ∈ [("A", "x'y")], IsName pair.1 :=
    List.forall_mem_singleton.mpr
      ⟨'A', [], rfl, by decide, List.forall_mem_nil _⟩
  have hprogram : "p" ≠ "" := by decide
  obtain ⟨hfinished, -⟩ :=
    escape_runs_words 0 h rfl named hprogram ["", "#a b"]
  obtain ⟨v, htells, hruns⟩ := hfinished (some "out") none 0 rfl
  exact ⟨h, named, hprogram, v, htells, hruns⟩

/-- A shell that says something in place of running a program. -/
def refusingShell : Class :=
  ⟨1, "Refusing", .ofList
    [("shell_escape", BaseShell.member [] true none fun _ =>
      BaseShell.saying "not here")], [BaseShell.shellClass]⟩

/-- A session of a class with one program at most. -/
def sessionWith (c : Class) (programs : List (String × Launch)) : Session :=
  { Session.bare ⟨default, [], programs⟩ default default with
    shell := some c }

/-- The text that a line is answered with, and how many programs were run
    for it. -/
def answered (s : Session) (line : String) : Option (Option String × Nat) :=
  (runLine (executeWithin 9) (.text line) s).map fun result =>
    (result.1.toOption.bind Value.asText?, result.2.trace.length)

/-- The answer need not be what a program wrote and its code, and the two
    forms need not get the same one:

    * a shell can do something else than run a program;
    * a program that there is not has neither;
    * a fault of running it names the command. -/
theorem escape_answered_otherwise :
    (Escapes [] "p" [] "! 'p'" "!" ∧ Escapes [] "p" [] "!'p'" "!p") ∧
    answered (sessionWith refusingShell [("p", .finished (some "x") none 0)])
      "! 'p'" = some (some "not here", 0) ∧
    answered (sessionWith BaseShell.shellClass []) "! 'p'" =
      some (some "error: [Errno 2] No such file or directory: 'p'", 1) ∧
    answered (sessionWith BaseShell.shellClass
        [("p", .raised (.raised "ValueError" "bad"))]) "! 'p'" =
      some (some "Error: !: bad", 1) ∧
    answered (sessionWith BaseShell.shellClass
        [("p", .raised (.raised "ValueError" "bad"))]) "!'p'" =
      some (some "Error: !p: bad", 1) := by
  have hlines : " ".intercalate ["!", singleQuoted "p"] = "! 'p'" ∧
      " ".intercalate ["!" ++ singleQuoted "p"] = "!'p'" := by
    decide +kernel
  refine ⟨⟨?_, ?_⟩, by decide +kernel⟩
  · rw [← hlines.1]
    exact .apart
  · rw [← hlines.2]
    exact .attached

end Run

end LineShell
