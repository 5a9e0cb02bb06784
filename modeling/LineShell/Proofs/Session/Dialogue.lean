import LineShell.Proofs.Session.Containment

/-! # Dialogues — the loop of a session, act by act

    The reference for the loop is an automaton whose steps are *acts*:
    the prompt is rendered, a line is read at it, the line is run, and
    its result is written unless it is missing.  `Act.next` says what
    follows what; between two turns stands a look at the flag that asks
    the loop to stop.  `Loop` is a run of the automaton: every act is
    done once, in the session that the one before it left, and the run
    ends by the flag or by the first fault of an act.

    * The loop of a session is a run of the automaton
      (`conversation_follows`), and it always ends.
    * A run changes a session as code may, and one line at a time
      (`Loop.steps`).
    * The lines that are run are those of the source, in order
      (`Loop.lines_sublist`, `Loop.lines_prefix`). -/

namespace LineShell

/-- One thing that a loop does. -/
inductive Act where
  | prompt
  /-- Reads a line at a prompt. -/
  | read (prompt : Value)
  | run (line : String)
  | write (v : Value)
  deriving Inhabited

namespace Act

/-- Does an act. -/
def perform (execute : Executor) : Act → Run Value
  | prompt => Run.renderPrompt execute
  | read p => do pure (.text (← Run.readLine p ""))
  | run line => Run.runLine execute (.text line)
  | write v => do
      Run.emit execute v
      pure .null

/-- What follows an act that came to a value; nothing follows the end of a
    turn. -/
def next : Act → Value → Option Act
  | prompt, v => some (read v)
  | read _, v => v.asText?.map run
  | run _, v => if v.isNull then none else some (write v)
  | write _, _ => none

/-- The line that an act runs. -/
def line? : Act → Option String
  | run line => some line
  | _ => none

/-- The act that asks the source of the session for a line. -/
def isRead : Act → Bool
  | read _ => true
  | _ => false

end Act

/-- How a loop ends: it was asked to stop, or an act failed. -/
inductive Ending where
  | quit
  | fault (a : Act) (f : Fault)
  deriving Inhabited

/-- What the session makes of the end of its loop, and what it records:
    the end of the input and an interrupt end it well. -/
def Ending.outcome : Ending → Except Fault Unit × List Event
  | .quit => (.ok (), [])
  | .fault _ (.interrupt _) => (.ok (), [.interrupted])
  | .fault .prompt (.endOfInput _) => (.ok (), [.endOfInput])
  | .fault (.read _) (.endOfInput _) => (.ok (), [.endOfInput])
  | .fault _ f => (.error f, [])

/-- A run of the loop: what it is about to do, the session it starts in,
    its acts, how it ends and the session it leaves. -/
inductive Loop (execute : Executor) :
    Option Act → Session → List Act → Ending → Session → Prop where
  | quit {s : Session} (hq : s.quitRequested = true) :
      Loop execute none s [] .quit s
  | turn {s s' : Session} {acts : List Act} {e : Ending}
      (hq : s.quitRequested = false)
      (hl : Loop execute (some .prompt) s acts e s') :
      Loop execute none s acts e s'
  | fault {a : Act} {s s' : Session} {f : Fault}
      (h : a.perform execute s = some (.error f, s')) :
      Loop execute (some a) s [a] (.fault a f) s'
  | act {a : Act} {s s₁ s' : Session} {v : Value} {acts : List Act}
      {e : Ending} (h : a.perform execute s = some (.ok v, s₁))
      (hl : Loop execute (a.next v) s₁ acts e s') :
      Loop execute (some a) s (a :: acts) e s'

/-- The session with more records. -/
def Session.recorded (s : Session) (events : List Event) : Session :=
  { s with events := s.events ++ events }

theorem Session.recorded_nil (s : Session) : s.recorded [] = s := by
  show { s with events := s.events ++ [] } = s
  rw [List.append_nil]

namespace Run

variable {k : Conduct} {execute : Executor} {home s s' : Session}

/-! ## One turn -/

/-- Prompting and reading, before the end of the input is looked at. -/
def promptedLine (execute : Executor) : Run String := do
  let prompt ← renderPrompt execute
  readLine prompt ""

theorem nextLine_line {line : String}
    (h : promptedLine execute s = some (.ok line, s')) :
    nextLine execute s = some (.ok (some line), s') :=
  bind_ok (attempt_eq h)

theorem nextLine_end {text : String}
    (h : promptedLine execute s = some (.error (.endOfInput text), s')) :
    nextLine execute s = some (.ok none, s'.recorded [.endOfInput]) :=
  bind_ok (attempt_eq h)

theorem nextLine_fault {f : Fault}
    (h : promptedLine execute s = some (.error f, s'))
    (hf : ∀ text, f ≠ .endOfInput text) :
    nextLine execute s = some (.error f, s') := by
  refine (bind_ok (attempt_eq h)).trans ?_
  cases f with
  | endOfInput text => exact absurd rfl (hf text)
  | _ => rfl

/-- A turn at the end of the input ends the loop. -/
theorem turn_end (h : nextLine execute s = some (.ok none, s')) :
    turn execute s = some (.ok .ended, s') :=
  bind_ok h

theorem turn_fault {f : Fault}
    (h : nextLine execute s = some (.error f, s')) :
    turn execute s = some (.error f, s') :=
  bind_error h

theorem turn_run_fault {line : String} {s₁ : Session} {f : Fault}
    (h : nextLine execute s = some (.ok (some line), s₁))
    (hr : runLine execute (.text line) s₁ = some (.error f, s')) :
    turn execute s = some (.error f, s') :=
  (bind_ok h).trans (bind_error hr)

theorem turn_write_fault {line : String} {v : Value} {s₁ s₂ : Session}
    {f : Fault} (h : nextLine execute s = some (.ok (some line), s₁))
    (hr : runLine execute (.text line) s₁ = some (.ok v, s₂))
    (hw : emitPresent execute v s₂ = some (.error f, s')) :
    turn execute s = some (.error f, s') :=
  (bind_ok h).trans ((bind_ok hr).trans (bind_error hw))

/-- A whole turn ends with a look at the flag. -/
theorem turn_done {line : String} {v : Value} {s₁ s₂ : Session}
    (h : nextLine execute s = some (.ok (some line), s₁))
    (hr : runLine execute (.text line) s₁ = some (.ok v, s₂))
    (hw : emitPresent execute v s₂ = some (.ok (), s')) :
    turn execute s =
      some (.ok (if s'.quitRequested then .ended else .again), s') :=
  (bind_ok h).trans ((bind_ok hr).trans (bind_ok hw))

variable {n : Nat}

theorem turns_ended (h : turn execute s = some (.ok .ended, s')) :
    turns execute (n + 1) s = some (.ok (), s') :=
  bind_ok h

theorem turns_again (h : turn execute s = some (.ok .again, s')) :
    turns execute (n + 1) s = turns execute n s' :=
  bind_ok h

theorem turns_fault {f : Fault}
    (h : turn execute s = some (.error f, s')) :
    turns execute (n + 1) s = some (.error f, s') :=
  bind_error h

/-! ## The loop follows the automaton -/

/-- What the turns of a loop come to, before interrupts are looked at. -/
def turnsOutcome : Ending → Except Fault Unit × List Event
  | .quit => (.ok (), [])
  | .fault .prompt (.endOfInput _) => (.ok (), [.endOfInput])
  | .fault (.read _) (.endOfInput _) => (.ok (), [.endOfInput])
  | .fault _ f => (.error f, [])

/-- The turns from a session on are a run of the automaton. -/
def Follow (execute : Executor) (n : Nat) (s : Session) : Prop :=
  ∃ acts e s', Loop execute (some .prompt) s acts e s' ∧
    turns execute n s =
      some ((turnsOutcome e).1, s'.recorded (turnsOutcome e).2)

/-- A fault of the prompt or of the reader ends the turns. -/
theorem follow_input_fault {a : Act} {acts : List Act} {f : Fault}
    (ha : a = .prompt ∨ a.isRead = true)
    (hl : Loop execute (some .prompt) s acts (.fault a f) s')
    (h : promptedLine execute s = some (.error f, s')) :
    Follow execute (n + 1) s := by
  refine ⟨acts, .fault a f, s', hl, ?_⟩
  -- the end of the input is recorded and ends the turns well
  by_cases hend : ∃ text, f = .endOfInput text
  · obtain ⟨text, rfl⟩ := hend
    rw [turns_ended (turn_end (nextLine_end h))]
    cases a with
    | prompt => rfl
    | read p => rfl
    | run line => simp [Act.isRead] at ha
    | write v => simp [Act.isRead] at ha
  · have hf : ∀ text, f ≠ .endOfInput text := fun text ht => hend ⟨text, ht⟩
    rw [turns_fault (turn_fault (nextLine_fault h hf))]
    have houtcome : turnsOutcome (.fault a f) = (.error f, []) := by
      cases f with
      | endOfInput text => exact absurd rfl (hf text)
      | _ => cases a <;> rfl
    rw [houtcome, Session.recorded_nil]

/-- A fault of a later act ends them as well. -/
theorem follow_later_fault {a : Act} {acts : List Act} {f : Fault}
    (ha : a ≠ .prompt) (hr : a.isRead = false)
    (hl : Loop execute (some .prompt) s acts (.fault a f) s')
    (h : turn execute s = some (.error f, s')) :
    Follow execute (n + 1) s := by
  refine ⟨acts, .fault a f, s', hl, ?_⟩
  rw [turns_fault h]
  have houtcome : turnsOutcome (.fault a f) = (.error f, []) := by
    cases a with
    | prompt => exact absurd rfl ha
    | read p => cases hr
    | run line => rfl
    | write v => rfl
  rw [houtcome, Session.recorded_nil]

/-- After a whole turn the flag decides whether there is another. -/
theorem follow_done (before : List Act)
    (hl : ∀ {acts : List Act} {e : Ending} {s'' : Session},
      Loop execute none s' acts e s'' →
        Loop execute (some .prompt) s (before ++ acts) e s'')
    (h : turn execute s =
      some (.ok (if s'.quitRequested then .ended else .again), s'))
    (ih : s'.quitRequested = false → Follow execute n s') :
    Follow execute (n + 1) s := by
  cases hq : s'.quitRequested with
  | true =>
      rw [hq, if_pos rfl] at h
      refine ⟨_, .quit, s', hl (.quit hq), ?_⟩
      rw [turns_ended h]
      show _ = some (Except.ok (), s'.recorded [])
      rw [Session.recorded_nil]
  | false =>
      rw [hq, if_neg Bool.false_ne_true] at h
      obtain ⟨acts, e, s'', hloop, hturns⟩ := ih hq
      exact ⟨_, e, s'', hl (.turn hq hloop), (turns_again h).trans hturns⟩

/-! ## What a conversation makes of its end -/

/-- The turns of a session that was not asked to stop before them. -/
def turnsUnlessStopped (execute : Executor) : Run Unit := do
  let s ← get
  if s.quitRequested then pure ()
  else turns execute (s.reader.remaining + 1)

theorem conversation_fault {f : Fault}
    (h : turnsUnlessStopped execute s = some (.error f, s'))
    (hf : ∀ text, f ≠ .interrupt text) :
    conversation execute s = some (.error f, s') := by
  refine (bind_ok (attempt_eq h)).trans ?_
  cases f with
  | interrupt text => exact absurd rfl (hf text)
  | _ => rfl

theorem conversation_outcome (e : Ending)
    (h : turnsUnlessStopped execute s =
      some ((turnsOutcome e).1, s'.recorded (turnsOutcome e).2)) :
    conversation execute s =
      some (e.outcome.1, s'.recorded e.outcome.2) := by
  cases e with
  | quit => exact bind_ok (attempt_eq h)
  | fault a f =>
      cases f with
      | interrupt text =>
          have h' : turnsUnlessStopped execute s =
              some (.error (.interrupt text), s') := by
            rw [← Session.recorded_nil s']
            cases a <;> exact h
          exact bind_ok (attempt_eq h')
      | endOfInput text =>
          -- only a prompt or a read can find the end of the input
          cases a with
          | prompt => exact bind_ok (attempt_eq h)
          | read p => exact bind_ok (attempt_eq h)
          | run line => exact conversation_fault h fun _ => Fault.noConfusion
          | write v => exact conversation_fault h fun _ => Fault.noConfusion
      | _ => cases a <;> exact conversation_fault h fun _ => Fault.noConfusion

/-! ## Reading -/

/-- Reading is a change of the session, wherever lines may be read. -/
theorem readLine_steps {p : Value} {keys : String}
    {r : Except Fault String} (h : readLine p keys s = some (r, s')) :
    Steps k True s s' := by
  rw [readLine_eq] at h
  cases h
  exact .single (.read trivial p keys)

/-- A line that is read is the first item of the source. -/
theorem readLine_line {p : Value} {line : String}
    (h : readLine p "" s = some (.ok line, s')) :
    ∃ text rest echo, s.reader.source = .script (.line text :: rest) echo ∧
      line = String.ofList (dropLineEnd text.toList) ∧
      s'.reader.source = .script rest echo := by
  rw [readLine_eq] at h
  obtain ⟨hr, rfl⟩ := Prod.mk.inj (Option.some.inj h)
  exact Reader.read_line hr

/-- So one item less is left. -/
theorem readLine_remaining {p : Value} {line : String}
    (h : readLine p "" s = some (.ok line, s')) :
    s'.reader.remaining < s.reader.remaining := by
  obtain ⟨text, rest, echo, hs, _, hs'⟩ := readLine_line h
  rw [Reader.remaining_eq, Reader.remaining_eq, hs, hs']
  exact Nat.lt_succ_self rest.length

section Following

variable (hx : execute.Keeps k) (hh : home.Keeps k)
include hx hh

/-- Acts that ask no source raise what code raises. -/
theorem act_behaves {a : Act} (ha : a.isRead = false) :
    Behaves k home Whatever k.raises (a.perform execute) := by
  cases a with
  | read p => cases ha
  | prompt =>
      exact renderPrompt_behaves hx hh (fun f hf => hf.2)
        (callShell_behaves hx hh _ _)
  | run line => exact runLine_behaves hx hh (.all hx hh) _
  | write v => exact (emit_behaves hx hh v).giving _

/-- A result that is missing ends the turn; any other is written first,
    and then the turn ends, unless writing fails. -/
theorem follow_result {line : String} {p v : Value} {s₁ s₂ s₃ : Session}
    (hs₃ : Steps k True home s₃)
    (hp : renderPrompt execute s = some (.ok p, s₁))
    (hr : readLine p "" s₁ = some (.ok line, s₂))
    (hrun : runLine execute (.text line) s₂ = some (.ok v, s₃))
    (ih : ∀ {s' : Session}, Steps k True s₃ s' → s'.quitRequested = false →
      Follow execute n s') :
    Follow execute (n + 1) s := by
  have hread : (Act.read p).perform execute s₁ = some (.ok (.text line), s₂) :=
    bind_ok hr
  have hnext : nextLine execute s = some (.ok (some line), s₂) :=
    nextLine_line ((bind_ok hp).trans hr)
  cases hv : v.isNull with
  | true =>
      have hnone : (Act.run line).next v = none := by
        simp only [Act.next, hv, if_true]
      have hquiet : emitPresent execute v s₃ = some (.ok (), s₃) := by
        simp only [emitPresent, hv, if_true]
        rfl
      refine follow_done [.prompt, .read p, .run line] ?_
        (turn_done hnext hrun hquiet) (ih .refl)
      intro acts e s'' hl
      rw [← hnone] at hl
      exact .act hp (.act hread (.act hrun hl))
  | false =>
      have hsome : (Act.run line).next v = some (.write v) := by
        simp only [Act.next, hv, Bool.false_eq_true, if_false]
      have hloud : emitPresent execute v = emit execute v := by
        simp only [emitPresent, hv, Bool.false_eq_true, if_false]
      obtain ⟨r₄, s₄, hwrite, ht₄, _⟩ := emit_behaves hx hh v s₃ hs₃
      cases r₄ with
      | error f =>
          have hfault : Loop execute ((Act.run line).next v) s₃ [.write v]
              (.fault (.write v) f) s₄ := by
            rw [hsome]
            exact .fault (bind_error hwrite)
          rw [← hloud] at hwrite
          exact follow_later_fault (a := .write v) Act.noConfusion rfl
            (.act hp (.act hread (.act hrun hfault)))
            (turn_write_fault hnext hrun hwrite)
      | ok u =>
          have hdone : (Act.write v).perform execute s₃ =
              some (.ok .null, s₄) := bind_ok hwrite
          rw [← hloud] at hwrite
          refine follow_done [.prompt, .read p, .run line, .write v] ?_
            (turn_done hnext hrun hwrite) (ih (ht₄.mono fun _ => trivial))
          intro acts e s'' hl
          refine .act hp (.act hread (.act hrun ?_))
          rw [hsome]
          exact .act hdone hl

/-- Once a line is read, the turn runs it, writes its result, and goes on
    as `ih` says. -/
theorem follow_line {line : String} {p : Value} {s₁ s₂ : Session}
    (hs₂ : Steps k True home s₂)
    (hp : renderPrompt execute s = some (.ok p, s₁))
    (hr : readLine p "" s₁ = some (.ok line, s₂))
    (ih : ∀ {s' : Session}, Steps k True s₂ s' → s'.quitRequested = false →
      Follow execute n s') :
    Follow execute (n + 1) s := by
  obtain ⟨r₃, s₃, hrun, ht₃, _⟩ :=
    act_behaves hx hh (a := .run line) rfl s₂ hs₂
  have ht₃ : Steps k True s₂ s₃ := ht₃.mono fun _ => trivial
  cases r₃ with
  | error f =>
      have hread : (Act.read p).perform execute s₁ =
          some (.ok (.text line), s₂) := bind_ok hr
      exact follow_later_fault (a := .run line) Act.noConfusion rfl
        (.act hp (.act hread (.fault hrun)))
        (turn_run_fault (nextLine_line ((bind_ok hp).trans hr)) hrun)
  | ok v =>
      exact follow_result hx hh (hs₂.trans ht₃) hp hr hrun
        fun ht hq => ih (ht₃.trans ht) hq

/-- With a turn for every line that is left, and one more, the turns of a
    loop end as the automaton does. -/
theorem turns_follow (hs : Steps k True home s)
    (hn : s.reader.remaining < n) : Follow execute n s := by
  induction n generalizing s with
  | zero => omega
  | succ n ih =>
      obtain ⟨r, s₁, hprompt, ht₁, _⟩ :=
        act_behaves hx hh (a := .prompt) rfl s hs
      have hs₁ := hs.trans (ht₁.mono fun _ => trivial)
      cases r with
      | error f =>
          exact follow_input_fault (Or.inl rfl) (.fault hprompt)
            (bind_error hprompt)
      | ok p =>
          obtain ⟨r, s₂, hread⟩ : ∃ r s₂, readLine p "" s₁ = some (r, s₂) :=
            ⟨_, _, readLine_eq p "" s₁⟩
          have hs₂ := hs₁.trans (readLine_steps hread)
          cases r with
          | error f =>
              exact follow_input_fault (a := .read p) (Or.inr rfl)
                (.act hprompt (.fault (bind_error hread)))
                ((bind_ok hprompt).trans hread)
          | ok line =>
              refine follow_line hx hh hs₂ hprompt hread ?_
              intro s' ht _
              -- the line that was read pays for the turn
              have h₁ := ht₁.remaining_le
              have h₂ := readLine_remaining hread
              have h₃ := ht.remaining_le
              exact ih (hs₂.trans ht) (by omega)

/-- The conversation of a session is a run of the automaton. -/
theorem conversation_follows (hs : Steps k True home s) :
    ∃ acts e s', Loop execute none s acts e s' ∧
      conversation execute s = some (e.outcome.1, s'.recorded e.outcome.2) := by
  cases hq : s.quitRequested with
  | true =>
      refine ⟨[], .quit, s, .quit hq, conversation_outcome .quit ?_⟩
      show (if s.quitRequested then pure () else _ : Run Unit) s =
        some (Except.ok (), s.recorded [])
      rw [hq, if_pos rfl, Session.recorded_nil]
      rfl
  | false =>
      obtain ⟨acts, e, s', hl, hturns⟩ :=
        turns_follow hx hh hs (Nat.lt_succ_self s.reader.remaining)
      refine ⟨acts, e, s', .turn hq hl, conversation_outcome e ?_⟩
      show (if s.quitRequested then _ else
        turns execute (s.reader.remaining + 1) : Run Unit) s = _
      rw [hq, if_neg Bool.false_ne_true]
      exact hturns

end Following

end Run

/-! ## The session around its conversation -/

/-- The session when its loop begins. -/
def Session.begun (s : Session) : Session :=
  { s with phase := .running, quitRequested := false }

namespace Run

variable {execute : Executor} {s : Session}

/-- What a session does once it has begun. -/
def sessionFrom (execute : Executor) : Run Unit := do
  sayAt execute .intro
  conversation execute
  takeLeave execute

theorem session_begun (hp : s.phase ≠ .terminated) :
    session execute s = sessionFrom execute s.begun := by
  have hbeq : (s.phase == .terminated) = false := beq_false_of_ne hp
  show (if s.phase == .terminated then _ else _ : Run Unit) s = _
  rw [hbeq, if_neg Bool.false_ne_true]
  rfl

/-- A session that is over only records that it was to be run. -/
theorem session_over (hp : s.phase = .terminated) :
    session execute s = record [.runAfterEnd s.identity.className] s := by
  have hbeq : (s.phase == .terminated) = true := beq_iff_eq.mpr hp
  show (if s.phase == .terminated then _ else _ : Run Unit) s = _
  rw [hbeq, if_pos rfl]

end Run

/-- The outcome of a run is well, or the fault that ended it. -/
theorem Ending.result_outcome {F : Fault → Prop} (e : Ending)
    (h : ∀ a f, e = .fault a f → F f) : Result Whatever F e.outcome.1 := by
  cases e with
  | quit => trivial
  | fault a f =>
      have hf := h a f rfl
      cases f with
      | interrupt text => cases a <;> trivial
      | endOfInput text =>
          cases a with
          | prompt => trivial
          | read p => trivial
          | run line => exact hf
          | write v => exact hf
      | _ => cases a <;> exact hf

/-! ## What every run of the automaton does to a session -/

variable {k : Conduct} {execute : Executor} {home s s' : Session}

/-- What a read comes to is the line that was read, or the fault. -/
theorem Act.of_read {p : Value} {r : Except Fault Value}
    (h : (Act.read p).perform execute s = some (r, s')) :
    Run.readLine p "" s =
        some ((s.reader.read s.identity p "").1, s') ∧
      r = (s.reader.read s.identity p "").1.map .text := by
  have hr := Run.readLine_eq p "" s
  cases hline : (s.reader.read s.identity p "").1 with
  | error f =>
      rw [hline] at hr
      cases (Run.bind_error hr).symm.trans h
      exact ⟨hr, rfl⟩
  | ok line =>
      rw [hline] at hr
      cases (Run.bind_ok hr).symm.trans h
      exact ⟨hr, rfl⟩

theorem Act.read_eq {p v : Value}
    (h : (Act.read p).perform execute s = some (.ok v, s')) :
    ∃ line, v = .text line ∧ Run.readLine p "" s = some (.ok line, s') := by
  obtain ⟨hread, hv⟩ := Act.of_read h
  cases hline : (s.reader.read s.identity p "").1 with
  | error f =>
      rw [hline] at hv
      cases hv
  | ok line =>
      rw [hline] at hread hv
      cases hv
      exact ⟨line, rfl, hread⟩

/-- Reading changes the session by one line, and fails as its source may. -/
theorem Act.read_behaves (hs : s.Keeps k) {p : Value}
    {r : Except Fault Value}
    (h : (Act.read p).perform execute s = some (r, s')) :
    Steps k True s s' ∧ Result Whatever k.Meets r := by
  obtain ⟨hread, rfl⟩ := Act.of_read h
  refine ⟨Run.readLine_steps hread, ?_⟩
  cases hline : (s.reader.read s.identity p "").1 with
  | error f => exact Reader.read_fault hs.source hline
  | ok line => exact True.intro

section Loops

variable {P : Act → Fault → Prop}
variable (hh : home.Keeps k)
variable (hacts : ∀ a, a.isRead = false →
  Run.Behaves k home Whatever (P a) (a.perform execute))
include hh hacts

/-- An act changes a session as code may, or by one line. -/
theorem Act.steps {a : Act} {r : Except Fault Value}
    (hs : Steps k True home s) (h : a.perform execute s = some (r, s')) :
    Steps k True s s' := by
  cases ha : a.isRead with
  | false => exact ((hacts a ha).of_eq hs h).1.mono fun _ => trivial
  | true =>
      cases a with
      | read p => exact (Act.read_behaves (hs.keeps hh) h).1
      | _ => cases ha

theorem Loop.steps {a : Option Act} {acts : List Act} {e : Ending}
    (hl : Loop execute a s acts e s') (hs : Steps k True home s) :
    Steps k True s s' := by
  induction hl with
  | quit _ => exact .refl
  | turn _ _ ih => exact ih hs
  | fault h => exact Act.steps hh hacts hs h
  | act h _ ih =>
      have ht := Act.steps hh hacts hs h
      exact ht.trans (ih (hs.trans ht))

/-- A run ends in a fault that its last act may end in. -/
theorem Loop.fault_of {a : Option Act} {acts : List Act} {b : Act}
    {f : Fault} (hl : Loop execute a s acts (.fault b f) s')
    (hs : Steps k True home s) :
    (b.isRead = false → P b f) ∧ (b.isRead = true → k.Meets f) := by
  generalize he : Ending.fault b f = e at hl
  induction hl with
  | quit _ => cases he
  | turn _ _ ih => exact ih hs he
  | fault h =>
      cases he
      constructor
      · intro hb
        exact ((hacts b hb).of_eq hs h).2
      · intro hb
        cases b with
        | read p => exact (Act.read_behaves (hs.keeps hh) h).2
        | _ => cases hb
  | act h _ ih => exact ih (hs.trans (Act.steps hh hacts hs h)) he

end Loops

/-! ## The lines that are run -/

/-- The line that an item of a script is read as. -/
def SourceItem.line? : SourceItem → Option String
  | .line text => some (String.ofList (dropLineEnd text.toList))
  | .fault _ => none

/-- The lines that a session has left to read. -/
def Session.lines (s : Session) : List String :=
  s.reader.source.items.filterMap SourceItem.line?

/-- The line that was read and is about to be run. -/
def Act.pending : Option Act → List String
  | some (.run line) => [line]
  | _ => []

/-- A line that is read is the first of those that are left. -/
theorem Session.lines_read {p : Value} {line : String}
    (h : Run.readLine p "" s = some (.ok line, s')) :
    s.lines = line :: s'.lines := by
  obtain ⟨text, rest, echo, hs, rfl, hs'⟩ := Run.readLine_line h
  rw [Session.lines, Session.lines, hs, hs']
  rfl

/-- Where acts that ask no source keep a relation to the lines that are
    left, the lines that a run of the loop runs have it to them. -/
theorem Loop.lines_of {R : List String → List String → Prop}
    (hh : home.Keeps k) (hx : execute.Keeps k)
    (hnil : ∀ l, R [] l) (hcons : ∀ x l l', R l l' → R (x :: l) (x :: l'))
    (hlater : ∀ {s s' : Session}, Steps k k.Reads s s' →
      ∀ l, R l s'.lines → R l s.lines)
    {a : Option Act} {acts : List Act} {e : Ending}
    (hl : Loop execute a s acts e s') (hs : Steps k True home s) :
    R (acts.filterMap Act.line?) (Act.pending a ++ s.lines) := by
  have hacts := fun a ha => Run.act_behaves hx hh (a := a) ha
  induction hl with
  | quit _ => exact hnil _
  | turn _ _ ih => exact ih hs
  | @fault a s s' f h =>
      cases a with
      | run line => exact hcons line _ _ (hnil _)
      | _ => exact hnil _
  | @act a s s₁ s' v acts e h _ ih =>
      have ih := ih (hs.trans (Act.steps hh hacts hs h))
      cases a with
      | prompt => exact hlater ((hacts .prompt rfl).of_eq hs h).1 _ ih
      | read p =>
          -- the line leaves the source, and is pending until it is run
          obtain ⟨line, rfl, hread⟩ := Act.read_eq h
          rw [Session.lines_read hread]
          exact ih
      | run line =>
          have hpending : Act.pending ((Act.run line).next v) = [] := by
            cases hv : v.isNull <;> simp [Act.next, hv, Act.pending]
          rw [hpending] at ih
          exact hcons line _ _
            (hlater ((hacts (.run line) rfl).of_eq hs h).1 _ ih)
      | write w => exact hlater ((hacts (.write w) rfl).of_eq hs h).1 _ ih

/-- The lines that a loop runs are among those of its source, in their
    order: code may read some for itself. -/
theorem Loop.lines_sublist (hh : home.Keeps k) (hx : execute.Keeps k)
    {acts : List Act} {e : Ending} (hl : Loop execute none s acts e s')
    (hs : Steps k True home s) :
    (acts.filterMap Act.line?).Sublist s.lines := by
  refine hl.lines_of (R := List.Sublist) hh hx List.nil_sublist
    (fun x _ _ h => h.cons_cons x) ?_ hs
  intro s s' ht l hl
  exact hl.trans (ht.items_suffix.sublist.filterMap _)

/-- Where code reads no lines, they are the first lines of the source. -/
theorem Loop.lines_prefix (hh : home.Keeps k) (hx : execute.Keeps k)
    (hr : ¬ k.Reads) {acts : List Act} {e : Ending}
    (hl : Loop execute none s acts e s') (hs : Steps k True home s) :
    acts.filterMap Act.line? <+: s.lines := by
  refine hl.lines_of (R := List.IsPrefix) hh hx (fun _ => List.nil_prefix)
    (fun x _ _ h => List.cons_prefix_cons.mpr ⟨rfl, h⟩) ?_ hs
  intro s s' ht l hl
  show l <+: s.reader.source.items.filterMap _
  rw [← ht.source_eq hr]
  exact hl

end LineShell
