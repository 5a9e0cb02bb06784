import LineShell.Proofs.Session.Course

/-! # Deeds — what is done in which course

    Everything that is done for a line stands at a place of that line, or
    tells observers, or makes a text of a fault, or enters and leaves
    overlays (`ForLine`).  The loop does besides only what makes a turn
    (`ForTurn`); what is said at a stage is asked of the hook and the
    member of that stage (`ForStage`); and help asks a producer
    (`ForHelp`). -/

namespace LineShell

namespace Course

variable {α β : Type} {P : Doing → Prop} {execute : Executor}

/-- Everything that is done is so. -/
def Does (P : Doing → Prop) (c : Course α) : Prop :=
  ∀ s r s' deeds, c s = some ((r, s'), deeds) → ∀ d ∈ deeds, P d.doing

namespace Does

theorem own (step : Run α) : Does P (own step) := by
  intro s r s' deeds h d hd
  obtain ⟨_, rfl⟩ := of_own h
  cases hd

protected theorem pure (a : α) : Does P (pure a) :=
  .own _

theorem watch {doing : Doing} (h : P doing) (step : Run α) :
    Does P (watch doing step) := by
  intro s r s' deeds he d hd
  obtain ⟨_, rfl⟩ := of_watch he
  cases List.mem_singleton.mp hd
  exact h

protected theorem bind {c : Course α} {next : α → Course β}
    (h : Does P c) (hn : ∀ a, Does P (next a)) : Does P (c >>= next) := by
  intro s r s' deeds he d hd
  rcases of_bind he with ⟨f, rfl, hc⟩ | ⟨a, s₁, first, rest, hc, hnext, rfl⟩
  · exact h _ _ _ _ hc d hd
  · rcases List.mem_append.mp hd with hd | hd
    · exact h _ _ _ _ hc d hd
    · exact hn a _ _ _ _ hnext d hd

theorem attempt {c : Course α} (h : Does P c) : Does P c.attempt := by
  intro s r s' deeds he
  obtain ⟨result, rfl, hc⟩ := of_attempt he
  exact h _ _ _ _ hc

theorem contain {c : Course α} {handle : Fault → Course α} (h : Does P c)
    (hhandle : ∀ f, Does P (handle f)) : Does P (c.contain handle) := by
  refine .bind h.attempt ?_
  intro r
  cases r with
  | ok a => exact .pure a
  | error f =>
      dsimp only
      split
      · exact .own _
      · exact hhandle f

theorem andFinally {c : Course α} {last : Course Unit} (h : Does P c)
    (hl : Does P last) : Does P (c.andFinally last) := by
  refine .bind h.attempt ?_
  intro r
  refine .bind hl ?_
  intro _
  exact .own _

theorem forEach {γ : Type} {each : γ → Course Unit}
    (h : ∀ c, Does P (each c)) (items : List γ) :
    Does P (forEach each items) := by
  induction items with
  | nil => exact .pure ()
  | cons c rest ih =>
      refine .bind (h c) ?_
      intro _
      exact ih

theorem withOverlay {c : Course α} (h : Does P c)
    (hentered : ∀ saved, P (.entered saved))
    (hleft : ∀ saved, P (.left saved)) (values : OrderedMap Value) :
    Does P (withOverlay values c) := by
  refine .bind (.own _) ?_
  intro saved
  refine .bind (.watch (hentered saved) _) ?_
  intro _
  exact .andFinally h (.watch (hleft saved) _)

end Does

/-! ## Hooks and answers -/

section Hooks

variable (hobserver : ∀ report i, P (.observer report i))
include hobserver

theorem notify_does (report : Report) :
    Does P (notify execute report) := by
  refine .bind (.own _) ?_
  intro s
  refine .forEach ?_ _
  intro i
  exact .contain (.watch (hobserver report i) _) fun _ => .own _

theorem runImplementation_does {hook : String}
    (hhook : ∀ i given, P (.hook hook i given)) (i : Implementation)
    (given : List (String × Value)) :
    Does P (runImplementation execute hook i given) := by
  refine .contain (.watch (hhook i given) _) ?_
  intro f
  refine .bind (.own _) ?_
  intro _
  refine .bind (notify_does hobserver _) ?_
  intro _
  exact .pure _

theorem callFirst_does {hook : String}
    (hhook : ∀ i given, P (.hook hook i given))
    (given : List (String × Value)) :
    Does P (callFirst execute hook given) := by
  refine .bind (.own _) ?_
  intro s
  induction (s.extensions.chain hook).reverse with
  | nil => exact .pure _
  | cons i rest ih =>
      refine .bind (runImplementation_does hobserver hhook i given) ?_
      intro v
      split
      · exact ih
      · exact .pure v

theorem callChain_does {hook : String}
    (hhook : ∀ i given, P (.hook hook i given)) (key : String)
    (value : Value) (given : List (String × Value)) :
    Does P (callChain execute hook key value given) := by
  refine .bind (.own _) ?_
  intro s
  induction s.extensions.chain hook generalizing value with
  | nil => exact .pure _
  | cons i rest ih =>
      refine .bind (runImplementation_does hobserver hhook i _) ?_
      intro v
      exact ih _

theorem firstResult_does {place : Place} {hook : String}
    {args : List Value} (hhook : ∀ i given, P (.hook hook i given))
    (hmethod : P (.method place hook args))
    (given : List (String × Value)) :
    Does P (firstResult execute place hook args given) := by
  refine .bind (.own _) ?_
  intro shell
  refine .bind (callFirst_does hobserver hhook _) ?_
  intro v
  split
  · exact .watch hmethod _
  · exact .pure v

variable (hformat : ∀ f, P (.format f))
include hformat

theorem answerFault_does (place : Place) (f : Fault) :
    Does P (answerFault execute place f) := by
  rw [answerFault]
  split
  · exact .own _
  · refine .bind (.own _) ?_
    intro _
    refine .bind (notify_does hobserver _) ?_
    intro _
    exact .watch (hformat _) _

theorem answerUnread_does (place : Place) (f : Fault) :
    Does P (answerUnread execute place f) := by
  rw [answerUnread]
  split
  · refine .bind (.own _) ?_
    intro _
    refine .bind (.own _) ?_
    intro _
    exact .watch (hformat f) _
  · split
    · exact .own _
    · exact answerFault_does hobserver hformat place f

end Hooks

/-! ## Lines -/

/-- What is done for a line, each at its place. -/
inductive ForLine (line : Value) : Doing → Prop where
  | precmd (v : Value) :
      ForLine line (.method ⟨.precmd, "precmd", line⟩ "precmd" [v])
  | split (v : Value) : ForLine line (.split ⟨.precmd, "precmd", line⟩ v)
  /-- The routes that lead to a member of the shell. -/
  | routed (split : Line) (name : String) (args : List Value)
      (h : name ∈ ["emptycommand", "default", "quit", "help",
        "shell_escape"]) :
      ForLine line (.method ⟨.handler, split.command, line⟩ name args)
  | handler (split : Line) (b : Bound) (args : List Value) :
      ForLine line (.handler ⟨.handler, split.command, line⟩ b args)
  | postcmd (v : Value) :
      ForLine line (.method ⟨.postcmd, "postcmd", line⟩ "postcmd" [v])
  | hook (hook : String) (i : Implementation)
      (given : List (String × Value))
      (h : hook ∈ ["precmd", "emptycommand", "default", "postcmd"]) :
      ForLine line (.hook hook i given)
  | observer (report : Report) (i : Implementation) :
      ForLine line (.observer report i)
  | format (f : Fault) : ForLine line (.format f)
  | entered (saved : Environment.Saved) : ForLine line (.entered saved)
  | left (saved : Environment.Saved) : ForLine line (.left saved)

theorem follow_does (line : Value) (split : Line) (route : Route) :
    Does (ForLine line)
      (follow execute ⟨.handler, split.command, line⟩ split route) := by
  cases route with
  | empty =>
      exact firstResult_does .observer
        (fun i given => .hook _ i given (by decide))
        (.routed split _ _ (by decide)) _
  | unknown =>
      exact firstResult_does .observer
        (fun i given => .hook _ i given (by decide))
        (.routed split _ _ (by decide)) _
  | handler b => exact .watch (.handler split b _) _
  | quit => exact .watch (.routed split _ _ (by decide)) _
  | help => exact .watch (.routed split _ _ (by decide)) _
  | escape argv => exact .watch (.routed split _ _ (by decide)) _

theorem dispatch_does (split : Line) (line : Value) :
    Does (ForLine line) (dispatch execute split line) := by
  refine .withOverlay (.contain ?_ ?_) .entered .left _
  · refine .bind (.own _) ?_
    intro s
    exact follow_does line split _
  · intro f
    exact answerFault_does .observer .format _ f

theorem readRewritten_does (line v : Value) :
    Does (ForLine line)
      (readRewritten execute ⟨.precmd, "precmd", line⟩ v) := by
  refine .bind (.watch (.precmd v) _) ?_
  intro w
  refine .bind (.own _) ?_
  intro shell
  refine .bind (callChain_does .observer
    (fun i given => .hook _ i given (by decide)) _ _ _) ?_
  intro w
  exact .watch (.split w) _

theorem lineResult_does (line : Value) :
    Does (ForLine line) (lineResult execute line) := by
  refine .bind (readRewritten_does line line).attempt ?_
  intro r
  cases r with
  | ok split => exact dispatch_does split line
  | error f => exact answerUnread_does .observer .format _ f

theorem rewriteResult_does (result line : Value) :
    Does (ForLine line) (rewriteResult execute result line) := by
  refine .bind (Does.watch (.postcmd result) _).attempt ?_
  intro r
  cases r with
  | ok v =>
      refine .bind (.own _) ?_
      intro shell
      exact callChain_does .observer
        (fun i given => .hook _ i given (by decide)) _ _ _
  | error f =>
      dsimp only
      split
      · exact .own _
      · exact answerFault_does .observer .format _ _

theorem runLine_does (line : Value) :
    Does (ForLine line) (runLine execute line) := by
  refine .bind (lineResult_does line) ?_
  intro result
  exact rewriteResult_does result line

/-! ## Help -/

/-- Asking the producer of a help topic. -/
inductive ForHelp : Doing → Prop where
  | producer (topic : String) (b : Bound) (args : List Value) :
      ForHelp (.producer topic b args)

theorem helpText_does (args : List Value) :
    Does ForHelp (helpText execute args) := by
  cases args with
  | nil => exact .own _
  | cons topic args =>
      refine .bind (.own _) ?_
      intro s
      dsimp only
      split
      · exact .own _
      · split
        · refine .bind (.contain (.watch (.producer _ _ _) _) ?_) ?_
          · intro f
            refine .bind (.own _) ?_
            intro _
            exact .pure _
          · intro v
            split
            · exact .pure _
            · refine .bind (.own _) ?_
              intro me
              exact .pure _
        · exact .pure _
        · exact .pure _

/-! ## Sessions -/

/-- What is done in a turn of the loop. -/
inductive ForTurn : Doing → Prop where
  | prompt (p : Prompt) : ForTurn (.prompt p)
  | plain (name : String) (args : List Value)
      (h : name ∈ ["default_prompt", "emit"]) : ForTurn (.plain name args)
  | read (prompt : Value) : ForTurn (.read prompt)
  | line (line : Value) {doing : Doing} (h : ForLine line doing) :
      ForTurn doing

/-- What is done to say something at a stage. -/
inductive ForStage (stage : Stage) : Doing → Prop where
  | method :
      ForStage stage (.method ⟨stage, stage.name, .null⟩ stage.name [])
  | hook (i : Implementation) (given : List (String × Value)) :
      ForStage stage (.hook stage.name i given)
  | observer (report : Report) (i : Implementation) :
      ForStage stage (.observer report i)
  | format (f : Fault) : ForStage stage (.format f)
  | emit (v : Value) : ForStage stage (.plain "emit" [v])

theorem emitPresent_does {v : Value} (h : P (.plain "emit" [v])) :
    Does P (emitPresent execute v) := by
  rw [emitPresent]
  split
  · exact .pure ()
  · exact .watch h _

theorem sayAt_does (stage : Stage) :
    Does (ForStage stage) (sayAt execute stage) := by
  refine .bind (.contain ?_ ?_) fun v => emitPresent_does (.emit v)
  · exact firstResult_does .observer .hook .method _
  · intro f
    exact answerFault_does .observer .format _ f

theorem renderPrompt_does : Does ForTurn (renderPrompt execute) := by
  refine .bind (.own _) ?_
  intro s
  refine .contain (.watch (.prompt _) _) ?_
  intro f
  refine .bind (.own _) ?_
  intro me
  refine .bind (.own _) ?_
  intro _
  exact .watch (.plain _ _ (by decide)) _

theorem nextLine_does : Does ForTurn (nextLine execute) := by
  refine .bind (Does.attempt (.bind renderPrompt_does ?_)) ?_
  · intro prompt
    exact .watch (.read prompt) _
  · intro r
    split
    · exact .pure _
    · refine .bind (.own _) ?_
      intro _
      exact .pure _
    · exact .own _

theorem turn_does : Does ForTurn (turn execute) := by
  refine .bind nextLine_does ?_
  intro line
  cases line with
  | none => exact .pure _
  | some line =>
      refine .bind ?_ ?_
      · intro s r s' deeds h d hd
        exact .line _ (runLine_does _ s r s' deeds h d hd)
      · intro result
        refine .bind (emitPresent_does (.plain _ _ (by decide))) ?_
        intro _
        refine .bind (.own _) ?_
        intro s
        exact .pure _

theorem turns_does (n : Nat) : Does ForTurn (turns execute n) := by
  induction n with
  | zero => exact .own _
  | succ n ih =>
      refine .bind turn_does ?_
      intro turn
      cases turn with
      | ended => exact .pure ()
      | again => exact ih

theorem conversation_does : Does ForTurn (conversation execute) := by
  refine .bind (Does.attempt (.bind (.own _) ?_)) ?_
  · intro s
    split
    · exact .pure ()
    · exact turns_does _
  · intro r
    split
    · exact .pure ()
    · exact .own _
    · exact .own _

end Course

end LineShell
