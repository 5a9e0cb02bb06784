import LineShell.Proofs.Registry.Topics
import LineShell.Proofs.Session.Observers
import LineShell.Proofs.Session.Routing

/-! # Help — what is said about a topic, and what nobody is told

    Two tables answer for a topic: of its producers the one that was
    recorded last, unless it is no value, and else of its handlers the one
    that was recorded last, by its documentation.  The producer may be no
    code, take other arguments, fail or say nothing, and the handler may
    have no documentation; in each of these cases there is the one message
    that there is no help (`Help.Answers`).  So help comes to a text, and
    the only faults that pass are the signals of a producer.

    A line that asks the shell for help is therefore never answered as a
    fault, as long as the shell asks the help system as the base class
    does: the observers may be told of what its hooks raise, but of nothing
    that is raised where the line is routed (`Run.runLine_help_untold`). -/

namespace LineShell

namespace Help

/-! ## Producers -/

/-- What calling a member comes to.  Its first definition settles it: only
    code that takes as many arguments is executed. -/
inductive Called (execute : Executor) (b : Bound) (args : List Value)
    (s : Session) : Except Fault Value → Session → Prop where
  | ran {f : Function} {rest : List Attribute} {r : Except Fault Value}
      {s' : Session} (hfirst : b.definitions = .function f :: rest)
      (htakes : f.signature.mismatch? b.name args.length = none)
      (hrun : execute ⟨some b.owner, b.name, rest, .ofArgs args⟩
        (f.body (.ofArgs args)) s = some (r, s')) :
      Called execute b args s r s'
  | rejected {f : Function} {rest : List Attribute} {m : Mismatch}
      (hfirst : b.definitions = .function f :: rest)
      (hrejects : f.signature.mismatch? b.name args.length = some m) :
      Called execute b args s (.error (.mismatch m)) s
  | uncallable {v : Value} {rest : List Attribute}
      (hfirst : b.definitions = .data v :: rest) :
      Called execute b args s
        (.error (.mismatch (.notCallable (v.kindName s.identity)))) s

/-- The producer that was recorded last is called. -/
inductive Asked (execute : Executor) (producer? : Option Bound)
    (args : List Value) (s : Session) :
    Except Fault Value → Session → Prop where
  | intro {b : Bound} {r : Except Fault Value} {s' : Session}
      (hlast : producer? = some b) (hvalue : b.isNull = false)
      (hcall : Called execute b args s r s') :
      Asked execute producer? args s r s'

/-- Nothing is called where no producer was recorded, or at last one that
    is no value. -/
def Unproduced (producer? : Option Bound) : Prop :=
  ∀ b, producer? = some b → b.isNull = true

/-- What help says about a topic, by the producer and the handler that were
    recorded last for it. -/
inductive Answers (execute : Executor) (topic : String) (args : List Value)
    (producer? : Option Bound) (handler? : Option Handler) (s : Session) :
    Except Fault String → Session → Prop where
  | said {v : Value} {s' : Session}
      (hasked : Asked execute producer? args s (.ok v) s')
      (hv : v.isNull = false) :
      Answers execute topic args producer? handler? s
        (.ok (v.display s'.identity)) s'
  | silent {v : Value} {s' : Session}
      (hasked : Asked execute producer? args s (.ok v) s')
      (hv : v.isNull = true) :
      Answers execute topic args producer? handler? s
        (.ok (noHelp topic)) s'
  | failed {f : Fault} {s' : Session}
      (hasked : Asked execute producer? args s (.error f) s')
      (hf : f.isSignal = false) :
      Answers execute topic args producer? handler? s (.ok (noHelp topic))
        { s' with events := s'.events ++ [.helpFailed topic] }
  | signalled {f : Fault} {s' : Session}
      (hasked : Asked execute producer? args s (.error f) s')
      (hf : f.isSignal = true) :
      Answers execute topic args producer? handler? s (.error f) s'
  | documented {h : Handler} {doc : String}
      (hproducer : Unproduced producer?) (hlast : handler? = some h)
      (hdoc : h.member.doc? = some doc) (hfull : doc ≠ "") :
      Answers execute topic args producer? handler? s (.ok doc) s
  | bare (hproducer : Unproduced producer?)
      (hhandler : ∀ h, handler? = some h → h.member.hasDoc = false) :
      Answers execute topic args producer? handler? s
        (.ok (noHelp topic)) s

section Cases

variable {execute : Executor} {b : Bound} {args : List Value}
variable {s s' : Session} {producer? : Option Bound}
variable {handler? : Option Handler} {topic : String}

/-- Calling a member comes to just that. -/
theorem callBound_of_called {r : Except Fault Value}
    (h : Called execute b args s r s') :
    Run.callBound execute b (.ofArgs args) s = some (r, s') := by
  cases h with
  | @ran f rest r s' hfirst htakes hrun =>
      have htakes : f.signature.mismatch? b.name
          (Call.ofArgs args).args.length = none := htakes
      rw [Run.callBound, hfirst, Run.callDefinitions, htakes]
      exact hrun
  | @rejected f rest m hfirst hrejects =>
      have hrejects : f.signature.mismatch? b.name
          (Call.ofArgs args).args.length = some m := hrejects
      rw [Run.callBound, hfirst, Run.callDefinitions, hrejects]
      rfl
  | uncallable hfirst =>
      rw [Run.callBound, hfirst, Run.callDefinitions]
      rfl

/-- Every member that is a value can be called, whatever it comes to. -/
theorem exists_called (depth : Nat) (args : List Value) (s : Session)
    (hvalue : b.isNull = false) :
    ∃ r s', Called (Run.executeWithin depth) b args s r s' := by
  rw [Bound.isNull] at hvalue
  cases hfirst : b.definitions with
  | nil =>
      rw [hfirst] at hvalue
      cases hvalue
  | cons first rest =>
      cases first with
      | data v => exact ⟨_, _, .uncallable hfirst⟩
      | function f =>
          cases hm : f.signature.mismatch? b.name args.length with
          | some m => exact ⟨_, _, .rejected hfirst hm⟩
          | none =>
              -- code comes to an end, whatever it is
              obtain ⟨r, s', hrun, _⟩ := Run.executeWithin_keeps depth s
                s.keeps_anything ⟨some b.owner, b.name, rest, .ofArgs args⟩
                (f.body (.ofArgs args)) (fun a _ => a.keeps_anything)
                (Program.keeps_anything _) s .refl
              exact ⟨r, s', .ran hfirst hm hrun⟩

/-! ## What is said -/

/-- What a producer gives is said, unless it is nothing. -/
theorem helpFrom_of_ok {v : Value} (topic : String)
    (h : Run.callBound execute b (.ofArgs args) s = some (.ok v, s')) :
    Run.helpFrom execute b topic args s =
      some (.ok (if v.isNull then noHelp topic
        else v.display s'.identity), s') := by
  rw [Run.helpFrom, Run.bind_ok (Run.contain_ok h)]
  cases v.isNull <;> rfl

/-- A producer that fails is recorded, and there is no help. -/
theorem helpFrom_of_error {f : Fault} (topic : String)
    (h : Run.callBound execute b (.ofArgs args) s = some (.error f, s'))
    (hf : f.isSignal = false) :
    Run.helpFrom execute b topic args s = some (.ok (noHelp topic),
      { s' with events := s'.events ++ [.helpFailed topic] }) := by
  rw [Run.helpFrom, Run.bind_ok (Run.contain_error h hf)]
  rfl

theorem helpFrom_of_signal {f : Fault} (topic : String)
    (h : Run.callBound execute b (.ofArgs args) s = some (.error f, s'))
    (hf : f.isSignal = true) :
    Run.helpFrom execute b topic args s = some (.error f, s') := by
  rw [Run.helpFrom, Run.bind_error (Run.contain_signal h hf)]

/-- Help for a topic is what the registry has for it. -/
theorem helpText_eq (execute : Executor) (topic : String)
    (args : List Value) (s : Session) :
    Run.helpText execute (.text topic :: args) s =
      match s.registry.helper? topic with
      | some (.member b) => Run.helpFrom execute b topic args s
      | some (.doc text) => some (.ok text, s)
      | none => some (.ok (noHelp topic), s) := by
  show (match s.registry.helper? topic with
    | some (.member b) => Run.helpFrom execute b topic args
    | some (.doc text) => pure text
    | none => pure (noHelp topic)) s = _
  cases s.registry.helper? topic with
  | none => rfl
  | some helper => cases helper <;> rfl

/-- A producer that is a value answers. -/
theorem helper?_of_producer {r : Registry}
    (hlast : r.helpers.get? topic = some b) (hvalue : b.isNull = false) :
    r.helper? topic = some (.member b) := by
  rw [Registry.helper?, hlast]
  simp only [hvalue, Bool.false_eq_true, if_false]

/-- Without one the handler does. -/
theorem helper?_of_unproduced {r : Registry}
    (h : Unproduced (r.helpers.get? topic)) :
    r.helper? topic = Registry.helper?.docHelper? r topic := by
  rw [Registry.helper?]
  cases hlast : r.helpers.get? topic with
  | none => rfl
  | some b => simp only [h b hlast, if_true]

theorem docHelper?_of_doc {r : Registry} {h : Handler} {doc : String}
    (hlast : r.handler? topic = some h) (hdoc : h.member.doc? = some doc)
    (hfull : doc ≠ "") :
    Registry.helper?.docHelper? r topic = some (.doc doc) := by
  have hempty : doc.isEmpty = false :=
    Bool.eq_false_iff.mpr (mt String.isEmpty_iff.mp hfull)
  rw [Registry.helper?.docHelper?, hlast, Option.bind_some, hdoc]
  simp only [hempty, Bool.false_eq_true, if_false]

/-- Help comes to what is said about the topic. -/
theorem helpText_of_answers {r : Except Fault String}
    (h : Answers execute topic args (s.registry.helpers.get? topic)
      (s.registry.handler? topic) s r s') :
    Run.helpText execute (.text topic :: args) s = some (r, s') := by
  have hmember : ∀ {result : Except Fault Value} {t : Session},
      Asked execute (s.registry.helpers.get? topic) args s result t →
      ∃ b, s.registry.helper? topic = some (.member b) ∧
        Run.callBound execute b (.ofArgs args) s = some (result, t) := by
    rintro result t ⟨hlast, hvalue, hcall⟩
    exact ⟨_, helper?_of_producer hlast hvalue, callBound_of_called hcall⟩
  rw [helpText_eq]
  cases h with
  | said hasked hv =>
      obtain ⟨b, hhelper, hcall⟩ := hmember hasked
      rw [hhelper]
      dsimp only
      rw [helpFrom_of_ok topic hcall, hv]
      rfl
  | silent hasked hv =>
      obtain ⟨b, hhelper, hcall⟩ := hmember hasked
      rw [hhelper]
      dsimp only
      rw [helpFrom_of_ok topic hcall, hv]
      rfl
  | failed hasked hf =>
      obtain ⟨b, hhelper, hcall⟩ := hmember hasked
      rw [hhelper]
      exact helpFrom_of_error topic hcall hf
  | signalled hasked hf =>
      obtain ⟨b, hhelper, hcall⟩ := hmember hasked
      rw [hhelper]
      exact helpFrom_of_signal topic hcall hf
  | documented hproducer hlast hdoc hfull =>
      rw [helper?_of_unproduced hproducer,
        docHelper?_of_doc hlast hdoc hfull]
  | bare hproducer hhandler =>
      rw [Registry.helper?_eq_none.mpr ⟨hproducer, hhandler⟩]

/-- Something is said about every topic, or a signal of its producer
    passes. -/
theorem exists_answers (depth : Nat) (topic : String) (args : List Value)
    (producer? : Option Bound) (handler? : Option Handler) (s : Session) :
    ∃ r s', Answers (Run.executeWithin depth) topic args producer? handler?
      s r s' := by
  by_cases hproducer : Unproduced producer?
  · by_cases hhandler : ∀ h, handler? = some h → h.member.hasDoc = false
    · exact ⟨_, _, .bare hproducer hhandler⟩
    · obtain ⟨h, hhandler⟩ := Classical.not_forall.mp hhandler
      obtain ⟨hlast, hhas⟩ := Classical.not_imp.mp hhandler
      obtain ⟨doc, hdoc, hfull⟩ :=
        Option.any_eq_true _ _ |>.mp (Bool.not_eq_false _ |>.mp hhas)
      refine ⟨_, _, .documented hproducer hlast hdoc ?_⟩
      rintro rfl
      cases hfull
  · obtain ⟨b, hproducer⟩ := Classical.not_forall.mp hproducer
    obtain ⟨hlast, hvalue⟩ := Classical.not_imp.mp hproducer
    have hvalue : b.isNull = false := Bool.not_eq_true _ |>.mp hvalue
    obtain ⟨r, s', hcall⟩ := exists_called depth args s hvalue
    have hasked := Asked.intro hlast hvalue hcall
    cases r with
    | error f =>
        cases hf : f.isSignal with
        | false => exact ⟨_, _, .failed hasked hf⟩
        | true => exact ⟨_, _, .signalled hasked hf⟩
    | ok v =>
        cases hv : v.isNull with
        | false => exact ⟨_, _, .said hasked hv⟩
        | true => exact ⟨_, _, .silent hasked hv⟩

/-- The faults among what is said are signals. -/
theorem Answers.isSignal {f : Fault}
    (h : Answers execute topic args producer? handler? s (.error f) s') :
    f.isSignal = true := by
  cases h with
  | signalled _ hf => exact hf

end Cases

end Help

/-! ## Asking the shell for help -/

/-- The arguments of a line are texts. -/
theorem Line.ofWordsAfter_args (overlay : OrderedMap Value)
    (words : List Word) :
    ∀ v ∈ (ofWordsAfter overlay words).args, ∃ text, v = .text text := by
  induction words generalizing overlay with
  | nil => exact List.forall_mem_nil _
  | cons w rest ih =>
      rw [ofWordsAfter]
      split
      · exact ih _
      · intro v hv
        obtain ⟨w, -, rfl⟩ := List.mem_map.mp hv
        exact ⟨w.text, rfl⟩

/-- Whatever is read in place of a line is made of words. -/
theorem Line.ofValue_args {me : Identity} {v : Value} {line : Line}
    (h : ofValue me v = .ok line) :
    ∀ a ∈ line.args, ∃ text, a = .text text := by
  have hwords : ∃ words, line = ofWords words := by
    simp only [ofValue] at h
    split at h
    · rename_i text _
      cases hread : tokenize text.toList with
      | error e =>
          simp only [read, hread] at h
          cases h
      | ok words =>
          simp only [read, hread] at h
          cases h
          exact ⟨words, rfl⟩
    · split at h
      · split at h
        · cases h
          exact ⟨_, rfl⟩
        · cases h
        · cases h
      · cases h
        exact ⟨[], rfl⟩
      · cases h
      · cases h
  obtain ⟨words, rfl⟩ := hwords
  exact ofWordsAfter_args .empty words

namespace Run

variable {s s' : Session} {c : Class} {depth : Nat} {args : List Value}

/-- Of help for texts, only signals pass. -/
theorem helpText_signals (hargs : ∀ v ∈ args, ∃ text, v = .text text)
    {f : Fault}
    (h : helpText (executeWithin depth) args s = some (.error f, s')) :
    f.isSignal = true := by
  cases args with
  | nil => cases h
  | cons topic args =>
      obtain ⟨topic, rfl⟩ := hargs topic List.mem_cons_self
      obtain ⟨r, t, hanswers⟩ := Help.exists_answers depth topic args
        (s.registry.helpers.get? topic) (s.registry.handler? topic) s
      rw [Help.helpText_of_answers hanswers] at h
      cases h
      exact hanswers.isSignal

/-- A class that inherits `help` asks the help system. -/
theorem callHelp_inherited (hc : s.shell = some c)
    (hd : c.lookup? "help" = OrderedMap.find "help" BaseShell.members)
    {r : Except Fault String}
    (h : helpText (executeWithin depth) args s = some (r, s')) :
    callShell (executeWithin (depth + 1)) "help" args s =
      some (r.map .text, s') := by
  obtain ⟨rest, hcall⟩ := callShell_variadic hc hd args
  rw [hcall]
  refine perform_answer ?_
  show (helpText (executeWithin depth) args >>= fun text =>
    pure (Value.text text)) s = _
  cases r with
  | ok text => exact bind_ok h
  | error f => exact bind_error h

/-- So it raises nothing but signals where it is asked for texts. -/
theorem callHelp_signals (hc : s.shell = some c)
    (hd : c.lookup? "help" = OrderedMap.find "help" BaseShell.members)
    (hargs : ∀ v ∈ args, ∃ text, v = .text text) {f : Fault}
    (h : callShell (executeWithin (depth + 1)) "help" args s =
      some (.error f, s')) : f.isSignal = true := by
  obtain ⟨r, t, hhelp, _⟩ := helpText_behaves (executeWithin_keeps depth)
    s.keeps_anything args s .refl
  rw [callHelp_inherited hc hd hhelp] at h
  cases r with
  | ok text => cases h
  | error g =>
      cases h
      exact helpText_signals hargs hhelp

end Run

/-! ## Lines that ask for help -/

/-- Is it asking the shell for help? -/
def Doing.isForHelp : Doing → Bool
  | .method _ name _ => name == "help"
  | _ => false

/-- Asking for help takes a route. -/
theorem isRouted_of_isForHelp {raw : Value} {doing : Doing}
    (hline : Course.ForLine raw doing) (h : doing.isForHelp = true) :
    doing.isRouted = true := by
  cases hline with
  | routed => rfl
  | _ => cases h

/-- The stage of a hook of a line starts with its name, and no such name
    starts as that of the stage of the handler does. -/
theorem hookStage_ne {hook : String}
    (hhook : hook ∈ ["precmd", "emptycommand", "default", "postcmd"])
    (extension : String) :
    s!"{hook}:{extension}" ≠ Stage.handler.name := by
  have hnames : ∀ name ∈ ["precmd", "emptycommand", "default", "postcmd"],
      name.toList ≠ [] ∧ name.toList.head? ≠ some 'h' := by decide
  obtain ⟨hne, hfirst⟩ := hnames hook hhook
  intro h
  have hhead : (hook ++ (":" ++ extension)).toList.head? = some 'h' := by
    rw [← String.append_assoc]
    exact congrArg (fun text => text.toList.head?) h
  rw [String.toList_append, List.head?_append_of_ne_nil _ hne] at hhead
  exact hfirst hhead

/-- What is reported at the stage of the handler takes a route. -/
theorem isRouted_of_report {raw : Value} {doing : Doing} {f : Fault}
    {report : Report} (hline : Course.ForLine raw doing)
    (h : doing.report? f = some report)
    (hstage : report.stage = Stage.handler.name) :
    doing.isRouted = true := by
  have hplace : ∀ {place : Place}, place.report? f = some report →
      place.stage.name = Stage.handler.name := by
    intro place h
    rw [Place.report?] at h
    split at h
    · cases h
    · obtain rfl := Option.some.inj h
      exact hstage
  cases hline with
  | routed => rfl
  | handler => rfl
  | precmd v => exact absurd (hplace h) (by simp [Stage.name])
  | split v => exact absurd (hplace h) (by simp [Stage.name])
  | postcmd v => exact absurd (hplace h) (by simp [Stage.name])
  | hook hook i given hhook =>
      obtain rfl := Option.some.inj h
      exact absurd hstage (hookStage_ne hhook i.extension)
  | _ => cases h

namespace Course

variable {execute : Executor} {s s' : Session} {raw : Value} {line : Line}
variable {r : Except Fault Value} {deeds : List Deed}

/-- Where a route is taken for the result of a line, the line was split and
    dispatched. -/
theorem of_lineResult_routed
    (h : lineResult execute raw s = some ((r, s'), deeds))
    (hrouted : routed deeds ≠ []) :
    ∃ line s₁ first inner, deeds = first ++ inner ∧ routed first = [] ∧
      Run.readRewritten execute raw s = some (.ok line, s₁) ∧
      dispatch execute line raw s₁ = some ((r, s'), inner) := by
  obtain ⟨result, s₁, first, rest, hfirst, hrest, rfl⟩ := of_attempt_bind h
  have hread := (readRewritten_unrouted _ _ _).routed hfirst
  rw [routed_append, hread, List.nil_append] at hrouted
  have hsplit := run_eq (run_readRewritten ..) hfirst
  cases result with
  | ok line => exact ⟨line, s₁, first, rest, rfl, hread, hsplit, hrest⟩
  | error f =>
      exact absurd ((answerUnread_unrouted _ f).routed hrest) hrouted

/-- Nothing that is done for a line after that takes a route. -/
theorem of_runLine_routed
    (h : runLine execute raw s = some ((r, s'), deeds))
    (hrouted : routed deeds ≠ []) :
    ∃ line s₁ r₁ s₂ first inner rest, deeds = first ++ inner ++ rest ∧
      routed first = [] ∧ routed rest = [] ∧
      Run.readRewritten execute raw s = some (.ok line, s₁) ∧
      dispatch execute line raw s₁ = some ((r₁, s₂), inner) := by
  rcases of_bind h with
    ⟨f, rfl, hline⟩ | ⟨v, s₂, result, rest, hline, hrest, rfl⟩
  · obtain ⟨line, s₁, first, inner, rfl, hfirst, hsplit, hdispatch⟩ :=
      of_lineResult_routed hline hrouted
    exact ⟨line, s₁, _, s', first, inner, [], (List.append_nil _).symm,
      hfirst, rfl, hsplit, hdispatch⟩
  · have hafter := (rewriteResult_unrouted _ _).routed hrest
    rw [routed_append, hafter, List.append_nil] at hrouted
    obtain ⟨line, s₁, first, inner, rfl, hfirst, hsplit, hdispatch⟩ :=
      of_lineResult_routed hline hrouted
    exact ⟨line, s₁, _, s₂, first, inner, rest, rfl, hfirst, hafter, hsplit,
      hdispatch⟩

/-- What takes the route of a line is done to follow it, in a session with
    the same shell. -/
theorem of_dispatch_routed
    (h : dispatch execute line raw s = some ((r, s'), deeds)) :
    ∃ u r₁ u' followed, u.shell = s.shell ∧
      follow execute ⟨.handler, line.command, raw⟩ line
        (u.registry.route line) u = some ((r₁, u'), followed) ∧
      ∀ d ∈ deeds, d.doing.isRouted = true → d ∈ followed := by
  obtain ⟨saved, e, l, inner, u, u', rfl, hentered, -, hleft, -, henter,
    hinner⟩ := of_withOverlay h
  obtain ⟨result, u₁, first, rest, hfirst, hrest, rfl⟩ :=
    of_attempt_bind hinner
  have hshell : u.shell = s.shell := by
    rw [← (Prod.mk.inj (Option.some.inj henter)).2]
  have hhandled : routed rest = [] := by
    cases result with
    | ok a => exact Unrouted.routed (.pure a) hrest
    | error f =>
        dsimp only at hrest
        split at hrest
        · exact Unrouted.routed (.own _) hrest
        · exact (answerFault_unrouted _ _).routed hrest
  rcases of_bind hfirst with ⟨f, rfl, hget⟩ | ⟨t, u₂, _, _, hget, h₁, rfl⟩
  · cases (of_own hget).1
  obtain ⟨hsession, rfl⟩ := of_own hget
  cases hsession
  refine ⟨u, _, _, _, hshell, h₁, ?_⟩
  intro d hd hrouted
  rcases List.mem_append.mp hd with hd | hd
  · rcases List.mem_cons.mp hd with rfl | hd
    · rw [hentered] at hrouted
      cases hrouted
    · rcases List.mem_append.mp hd with hd | hd
      · exact hd
      · have hnone := mem_routed hd hrouted
        rw [hhandled] at hnone
        cases hnone
  · obtain rfl := List.mem_singleton.mp hd
    rw [hleft] at hrouted
    cases hrouted

/-- Something that is not asking the shell for help. -/
def Unasked (doing : Doing) : Prop :=
  doing.isForHelp = false

/-- No other route asks the shell for help. -/
theorem follow_unasked {route : Route} (h : route ≠ .help) :
    Does Unasked
      (follow execute ⟨.handler, line.command, raw⟩ line route) := by
  have hhook : ∀ {hook : String} (i : Implementation)
      (given : List (String × Value)), Unasked (.hook hook i given) :=
    fun _ _ => rfl
  have hobserver : ∀ (report : Report) (i : Implementation),
      Unasked (.observer report i) := fun _ _ => rfl
  have hmember : ∀ {name : String} (args : List Value), name ≠ "help" →
      Unasked (.method ⟨.handler, line.command, raw⟩ name args) :=
    fun _ hname => beq_eq_false_iff_ne.mpr hname
  have hhandler : ∀ b, Unasked
      (.handler ⟨.handler, line.command, raw⟩ b line.args) := fun _ => rfl
  cases route with
  | help => exact absurd rfl h
  | empty =>
      exact firstResult_does hobserver hhook (hmember _ (by decide)) _
  | unknown =>
      exact firstResult_does hobserver hhook (hmember _ (by decide)) _
  | quit => exact .watch (hmember _ (by decide)) _
  | escape argv => exact .watch (hmember _ (by decide)) _
  | handler b => exact .watch (hhandler b) _

/-- Where the shell is asked for help, nothing else is done to follow the
    route of the line. -/
theorem follow_isForHelp {route : Route}
    (h : follow execute ⟨.handler, line.command, raw⟩ line route s =
      some ((r, s'), deeds))
    (hhelp : ∃ d ∈ deeds, d.doing.isForHelp = true) :
    Run.callShell execute "help" line.args s = some (r, s') ∧
      ∀ d ∈ deeds, d.fault? = faultOf? r := by
  obtain ⟨d, hd, hhelp⟩ := hhelp
  by_cases hroute : route = .help
  · subst hroute
    obtain ⟨hcall, rfl⟩ := of_watch h
    refine ⟨hcall, ?_⟩
    intro d hd
    obtain rfl := List.mem_singleton.mp hd
    rfl
  · have hnot : d.doing.isForHelp = false :=
      follow_unasked hroute _ _ _ _ h d hd
    rw [hnot] at hhelp
    cases hhelp

end Course

/-- What is due for something that was done is a report of the ordinary
    fault that it ended in. -/
theorem Deed.of_mem_due {d : Deed} {telling : Telling}
    (h : telling ∈ d.due) :
    ∃ f, d.fault? = some f ∧ f.isSignal = false ∧
      d.doing.report? f = some telling.1 := by
  rw [due] at h
  cases hf : d.fault? with
  | none =>
      rw [hf] at h
      cases h
  | some f =>
      rw [hf] at h
      dsimp only at h
      cases hsignal : f.isSignal with
      | true =>
          rw [hsignal, if_pos rfl] at h
          cases h
      | false =>
          rw [hsignal, if_neg Bool.false_ne_true] at h
          refine ⟨f, rfl, hsignal, ?_⟩
          cases hreport : d.doing.report? f with
          | none =>
              rw [hreport] at h
              cases h
          | some report =>
              rw [hreport] at h
              obtain ⟨i, -, rfl⟩ := List.mem_map.mp h
              rfl

namespace Run

/-- A line that was rewritten and split has texts for arguments. -/
theorem readRewritten_args {execute : Executor} {raw : Value} {line : Line}
    {s s' : Session} (h : readRewritten execute raw s = some (.ok line, s')) :
    ∀ v ∈ line.args, ∃ text, v = .text text := by
  obtain ⟨rewritten, s₁, -, h₁⟩ := of_bind_ok h
  obtain ⟨me, s₂, -, h₂⟩ := of_bind_ok h₁
  rw [ofAnswer_eq] at h₂
  exact Line.ofValue_args (Prod.mk.inj (Option.some.inj h₂)).1

/-- **Nobody is told of a fault of a line that asks for help**, at the
    stage where it is routed. -/
theorem runLine_help_untold {depth : Nat} {s s' : Session} {c : Class}
    {line : Value} {r : Except Fault Value} {deeds : List Deed}
    (hc : s.shell = some c)
    (hd : c.lookup? "help" = OrderedMap.find "help" BaseShell.members)
    (h : Course.runLine (executeWithin (depth + 1)) line s =
      some ((r, s'), deeds))
    (hhelp : ∃ d ∈ deeds, d.doing.isForHelp = true) :
    ∀ telling ∈ told deeds, telling.1.stage ≠ Stage.handler.name := by
  have hdoes := Course.runLine_does line s r s' deeds h
  have hdue := (Course.runLine_settles line s r s' deeds h).2.tellings.1
  obtain ⟨asked, hasked, hforHelp⟩ := hhelp
  have hroute := isRouted_of_isForHelp (hdoes asked hasked) hforHelp
  obtain ⟨split, s₁, r₁, s₂, first, inner, rest, rfl, hfirst, hrest, hsplit,
    hdispatch⟩ := Course.of_runLine_routed h
      (List.ne_nil_of_mem (mem_routed hasked hroute))
  obtain ⟨u, r₂, u', followed, hshell, hfollow, hall⟩ :=
    Course.of_dispatch_routed hdispatch
  have hreads : Behaves .anything s Whatever (fun f => True ∧ True)
      (readRewritten (executeWithin (depth + 1)) line) :=
    readRewritten_behaves (executeWithin_keeps (depth + 1))
      s.keeps_anything line (fun _ _ => trivial) (fun _ _ => trivial)
      fun _ _ _ _ _ => trivial
  have hkept := (hreads.of_eq .refl hsplit).1.shell_eq
  -- whatever takes a route is done to follow it
  have hfollowed : ∀ d ∈ first ++ inner ++ rest, d.doing.isRouted = true →
      d ∈ followed := by
    intro d hd hrouted
    rcases List.mem_append.mp hd with hd | hd
    · rcases List.mem_append.mp hd with hd | hd
      · exact absurd (mem_routed hd hrouted) (by simp [hfirst])
      · exact hall d hd hrouted
    · exact absurd (mem_routed hd hrouted) (by simp [hrest])
  obtain ⟨hcall, hfault⟩ := Course.follow_isForHelp hfollow
    ⟨asked, hfollowed asked hasked hroute, hforHelp⟩
  intro telling htelling hstage
  obtain ⟨d, hmem, hdue⟩ := List.mem_flatMap.mp (hdue.subset htelling)
  obtain ⟨f, hf, hordinary, hreport⟩ := Deed.of_mem_due hdue
  have hrouted := isRouted_of_report (hdoes d hmem) hreport hstage
  -- so the fault is one that asking for help ended in, and those are signals
  rw [hfault d (hfollowed d hmem hrouted)] at hf
  obtain rfl : r₂ = .error f := by
    cases r₂ with
    | ok v => cases hf
    | error g => exact congrArg Except.error (Option.some.inj hf)
  have hsignal := callHelp_signals (hshell.trans (hkept.trans hc)) hd
    (readRewritten_args hsplit) hcall
  rw [hordinary] at hsignal
  cases hsignal

/-- After a life of a registry, help is what is said by what was recorded
    last. -/
theorem helpText_ofLife {execute : Executor} {life : List RegistryChange}
    {topic : String} {args : List Value} {s s' : Session}
    {r : Except Fault String} (hlife : s.registry = .ofLife life)
    (h : Help.Answers execute topic args
      (RegistryChange.lastHelp? life topic)
      (RegistryChange.lastHandler? life topic) s r s') :
    helpText execute (.text topic :: args) s = some (r, s') := by
  have hproducer : s.registry.helpers.get? topic =
      RegistryChange.lastHelp? life topic := by
    rw [hlife]
    exact Registry.finds_help?.ofLife life topic
  have hhandler : s.registry.handler? topic =
      RegistryChange.lastHandler? life topic := by
    rw [hlife]
    exact Registry.handler?_ofLife life topic
  rw [← hproducer, ← hhandler] at h
  exact Help.helpText_of_answers h

/-- **HELP ALWAYS ANSWERS**: after any life of a registry, help for a topic
    comes to an end, and to just one: the text of what the producer gives
    that was recorded last, unless that is no value, and else the
    documentation of the handler that was recorded last; where there is
    neither, and where the producer is no code, takes other arguments,
    fails or gives nothing, the message that there is no help.  Only a
    signal of the producer passes.  And where a shell inherits `help`, a
    line that asks for it is not reported at the stage of its route. -/
theorem help_answers :
    (∀ (depth : Nat) (life : List RegistryChange) (topic : String)
        (args : List Value) (s : Session),
      s.registry = .ofLife life →
      ∃ r s', helpText (executeWithin depth) (.text topic :: args) s =
          some (r, s') ∧
        (∀ r₁ s₁, Help.Answers (executeWithin depth) topic args
            (RegistryChange.lastHelp? life topic)
            (RegistryChange.lastHandler? life topic) s r₁ s₁ ↔
          r₁ = r ∧ s₁ = s') ∧
        ∀ f, r = .error f → f.isSignal = true ∧
          Help.Asked (executeWithin depth)
            (RegistryChange.lastHelp? life topic) args s (.error f) s') ∧
    ∀ (depth : Nat) (c : Class) (line : Value) (s : Session),
      s.shell = some c →
      c.lookup? "help" = OrderedMap.find "help" BaseShell.members →
      ∃ r s' deeds,
        runLine (executeWithin (depth + 1)) line s = some (r, s') ∧
        Course.runLine (executeWithin (depth + 1)) line s =
          some ((r, s'), deeds) ∧
        ((∃ d ∈ deeds, d.doing.isForHelp = true) →
          ∀ telling ∈ told deeds,
            telling.1.stage ≠ Stage.handler.name) := by
  constructor
  · intro depth life topic args s hlife
    obtain ⟨r, s', hanswers⟩ := Help.exists_answers depth topic args
      (RegistryChange.lastHelp? life topic)
      (RegistryChange.lastHandler? life topic) s
    have he := helpText_ofLife hlife hanswers
    refine ⟨r, s', he, ?_, ?_⟩
    · intro r₁ s₁
      constructor
      · intro h
        rw [helpText_ofLife hlife h] at he
        exact Prod.mk.inj (Option.some.inj he)
      · rintro ⟨rfl, rfl⟩
        exact hanswers
    · rintro f rfl
      cases hanswers with
      | signalled hasked hf => exact ⟨hf, hasked⟩
  · intro depth c line s hc hd
    obtain ⟨r, s', deeds, he, hdeeds⟩ := runLine_ends (depth + 1) line s
    exact ⟨r, s', deeds, he, hdeeds, runLine_help_untold hc hd hdeeds⟩

/-- An object with a producer for the topic `x`. -/
def helpingClass (p : Program) : Class :=
  ⟨1, "Helping", .ofList
    [("help_x", BaseShell.member [] true none fun _ => p)], []⟩

/-- The life of a registry that has scanned it. -/
def helpingLife (p : Program) : List RegistryChange :=
  [.scan (helpingClass p) "Helping"]

/-- A shell of the base class with that registry. -/
def helpingSession (p : Program) : Session :=
  { Session.bare default default default with
    shell := some BaseShell.shellClass
    registry := .ofLife (helpingLife p) }

theorem lastHelp?_helping (p : Program) :
    RegistryChange.lastHelp? (helpingLife p) "x" =
      some ((helpingClass p).bind "help_x") := by
  have hhandler :
      Registry.afterMarker? Registry.handlerMarker "help_x" = none := by
    decide
  have hhelp :
      Registry.afterMarker? Registry.helpMarker "help_x" = some "x" := by
    decide
  have hname : Recording.byName "Helping" ((helpingClass p).bind "help_x") =
      [.help "x" ((helpingClass p).bind "help_x")] := by
    rw [Recording.byName]
    simp only [Class.bind, hhandler, hhelp]
  have hlife : (helpingLife p).flatMap RegistryChange.recordings =
      [.help "x" ((helpingClass p).bind "help_x")] := by
    show Recording.byName "Helping" ((helpingClass p).bind "help_x") ++ [] ++
      [] ++ [] = _
    rw [hname]
    rfl
  rw [RegistryChange.lastHelp?, hlife]
  rfl

/-- The producer is called for the topic, and comes to what it does. -/
theorem asked_helping {p : Program} {r : Except Fault Value} {s' : Session}
    (h : ∀ frame,
      executeWithin 1 frame p (helpingSession p) = some (r, s')) :
    Help.Asked (executeWithin 1)
      (RegistryChange.lastHelp? (helpingLife p) "x") [] (helpingSession p) r
      s' :=
  .intro (lastHelp?_helping p) rfl (.ran rfl rfl (h _))

/-- Is the shell asked for help by a line, in a shell with some objects, and
    at which stages are observers told? -/
def helpTellings (l : List Registration) (line : String) :
    Option (Bool × List String) :=
  match registerEach l askingSession with
  | some (.ok (), s) =>
      (Course.runLine (executeWithin 9) (.text line) s).map fun result =>
        (result.2.any fun d => d.doing.isForHelp,
          (told result.2).map fun telling => telling.1.stage)
  | _ => none

/-- A producer that fails, one that gives a number and one that interrupts;
    and a line for the first of them, of which nobody is told. -/
theorem help_answers_helping :
    (∃ s', helpText (executeWithin 1) [.text "x"]
        (helpingSession (.fail (.raised "ValueError" "none"))) =
      some (.ok "No help available for x.", s')) ∧
    (∃ s', helpText (executeWithin 1) [.text "x"]
        (helpingSession (.done (.int 5))) = some (.ok "5", s')) ∧
    (∃ s', helpText (executeWithin 1) [.text "x"]
        (helpingSession (.fail (.interrupt "stop"))) =
      some (.error (.interrupt "stop"), s')) ∧
    ∃ r s' deeds, Course.runLine (executeWithin 2) (.text "help x")
        (helpingSession (.fail (.raised "ValueError" "none"))) =
          some ((r, s'), deeds) ∧
      (∃ d ∈ deeds, d.doing.isForHelp = true) ∧
      ∀ telling ∈ told deeds, telling.1.stage ≠ Stage.handler.name := by
  obtain ⟨hanswers, hlines⟩ := help_answers
  refine ⟨?_, ?_, ?_, ?_⟩
  · obtain ⟨r, s', he, honly, -⟩ := hanswers 1
      (helpingLife (.fail (.raised "ValueError" "none"))) "x" []
      (helpingSession (.fail (.raised "ValueError" "none"))) rfl
    obtain ⟨rfl, -⟩ := (honly _ _).mp
      (.failed (asked_helping fun _ => rfl) rfl)
    exact ⟨s', he⟩
  · obtain ⟨r, s', he, honly, -⟩ := hanswers 1
      (helpingLife (.done (.int 5))) "x" []
      (helpingSession (.done (.int 5))) rfl
    obtain ⟨rfl, -⟩ := (honly _ _).mp
      (.said (asked_helping fun _ => rfl) rfl)
    exact ⟨s', he⟩
  · obtain ⟨r, s', he, honly, -⟩ := hanswers 1
      (helpingLife (.fail (.interrupt "stop"))) "x" []
      (helpingSession (.fail (.interrupt "stop"))) rfl
    obtain ⟨rfl, -⟩ := (honly _ _).mp
      (.signalled (asked_helping fun _ => rfl) rfl)
    exact ⟨s', he⟩
  · obtain ⟨r, s', deeds, -, hdeeds, huntold⟩ := hlines 1
      BaseShell.shellClass (.text "help x")
      (helpingSession (.fail (.raised "ValueError" "none"))) rfl rfl
    have hany : (Course.runLine (executeWithin 2) (.text "help x")
        (helpingSession (.fail (.raised "ValueError" "none")))).any
          (fun result => result.2.any fun d => d.doing.isForHelp) = true := by
      decide +kernel
    rw [hdeeds] at hany
    have hasked := List.any_eq_true.mp hany
    exact ⟨r, s', deeds, hdeeds, hasked, huntold hasked⟩

/-- A producer that interrupts: there is no text, not even the message that
    there is no help.  And the observers are told of what a hook raises on
    a line that asks for help. -/
theorem help_unanswered :
    (Help.Asked (executeWithin 1)
      (RegistryChange.lastHelp? (helpingLife (.fail (.interrupt "stop")))
        "x") [] (helpingSession (.fail (.interrupt "stop")))
      (.error (.interrupt "stop"))
      (helpingSession (.fail (.interrupt "stop"))) ∧
      ∀ text s', helpText (executeWithin 1) [.text "x"]
        (helpingSession (.fail (.interrupt "stop"))) ≠
          some (.ok text, s')) ∧
    helpTellings [⟨failingObserver, 0, none⟩, ⟨failingHook, 1, none⟩]
      "help" = some (true, ["precmd:<ext1>"]) := by
  have hasked := asked_helping (p := .fail (.interrupt "stop")) fun _ => rfl
  refine ⟨⟨hasked, ?_⟩, by decide +kernel⟩
  intro text s' h
  rw [helpText_ofLife rfl (.signalled hasked rfl)] at h
  cases h

end Run

end LineShell
