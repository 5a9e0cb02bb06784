import LineShell.Proofs.Session.Returns

/-! # The reference session — greeting, loop, leave

    `Plays` says what a whole session does, without saying how: it greets,
    runs its loop as the automaton does, and, if the loop ends by the
    flag, at the end of the input or by an interrupt, it says goodbye,
    writes its history once and is over.  Any other fault of the reader
    comes out as it is, and nothing more happens.

    A session does this and nothing else, and it ends: for every class and
    every extension, and for code that raises ordinary faults that have a
    text, or interrupts while a line is prompted for, read or processed.
    Code may even run sessions inside of this one; the flag that stops a
    loop is theirs too.  The flag is looked at before the first line as
    well: a greeting that sets it leaves nothing to read
    (`Run.session_abandons`). -/

namespace LineShell

/-- What is answered at a stage: the first answer of the hooks and the
    member, or, where that fails, the text that the shell makes of it,
    after the failure was recorded and the observers were told. -/
inductive Answers (execute : Executor) (stage : Stage) (s : Session) :
    Value → Session → Prop where
  | result {v : Value} {s' : Session}
      (h : Run.firstResult execute stage.name [] [] s = some (.ok v, s')) :
      Answers execute stage s v s'
  | errorText {f : Fault} {s₁ s₂ s' : Session} {v : Value}
      (h : Run.firstResult execute stage.name [] [] s =
        some (.error f, s₁))
      (hf : f.isSignal = false) (htext : f.textFault? = none)
      (hn : Run.notify execute stage.name (.inCommand stage.name f) .null
        (s₁.recorded [.commandFailed stage.name]) = some (.ok (), s₂))
      (ht : Run.formatFault execute (.inCommand stage.name f) s₂ =
        some (.ok v, s')) :
      Answers execute stage s v s'

/-- What is said at a stage: the answer is written, unless it is
    missing. -/
inductive Says (execute : Executor) (stage : Stage) (s : Session) :
    List Act → Session → Prop where
  | nothing {v : Value} {s' : Session}
      (h : Answers execute stage s v s') (hv : v.isNull = true) :
      Says execute stage s [] s'
  | spoken {v : Value} {s₁ s' : Session}
      (h : Answers execute stage s v s₁) (hv : v.isNull = false)
      (hw : Run.emit execute v s₁ = some (.ok (), s')) :
      Says execute stage s [.write v] s'

/-- The session when it takes leave of a loop that recorded its end. -/
def Session.leaving (s : Session) (events : List Event) : Session :=
  { s.recorded events with phase := .quitting }

/-- A whole session: its acts, what it comes to and what it leaves. -/
inductive Plays (execute : Executor) (s : Session) :
    List Act → Except Fault Unit → Session → Prop where
  | left {greeting acts farewell : List Act} {e : Ending}
      {events : List Event} {s₁ s₂ s₃ s₄ : Session}
      (hi : Says execute .intro s.begun greeting s₁)
      (hl : Loop execute none s₁ acts e s₂)
      (he : e.outcome = (.ok (), events))
      (ho : Says execute .outro (s₂.leaving events) farewell s₃)
      (hp : Run.persist s₃ = some (.ok (), s₄)) :
      Plays execute s (greeting ++ acts ++ farewell) (.ok ())
        { s₄ with phase := .terminated }
  | failed {greeting acts : List Act} {p : Value} {f : Fault}
      {s₁ s₂ : Session}
      (hi : Says execute .intro s.begun greeting s₁)
      (hl : Loop execute none s₁ acts (.fault (.read p) f) s₂)
      (hf : (Ending.fault (.read p) f).outcome = (.error f, [])) :
      Plays execute s (greeting ++ acts) (.error f) s₂

namespace Run

variable {k : Conduct} {execute : Executor} {s s' : Session}

/-! ## Saying -/

/-- A guarded answer of a stage is its answer. -/
theorem answers_of_guarded {stage : Stage} {v : Value}
    (h : guarded execute stage (firstResult execute stage.name [] []) .null
      s = some (.ok v, s')) :
    Answers execute stage s v s' := by
  obtain ⟨r, s₁, hresult, h⟩ := of_bind_ok h
  have hresult := of_attempt hresult
  cases r with
  | ok w =>
      cases h
      exact .result hresult
  | error f =>
      cases hf : f.isSignal with
      | true =>
          simp only [hf, if_true] at h
          cases h
      | false =>
          simp only [hf, Bool.false_eq_true, if_false, answerFault] at h
          cases htext : f.textFault? with
          | some cause =>
              rw [htext] at h
              cases h
          | none =>
              rw [htext] at h
              obtain ⟨_, s₂, hrecord, hrest⟩ := of_bind_ok h
              obtain ⟨_, s₃, hnotify, hformat⟩ := of_bind_ok hrest
              cases hrecord
              exact .errorText hresult hf htext hnotify hformat

/-- Saying something that came to an end is saying it. -/
theorem said_of_sayAt {stage : Stage}
    (h : sayAt execute stage s = some (.ok (), s')) :
    ∃ acts, Says execute stage s acts s' := by
  obtain ⟨v, s₁, hguarded, hwrite⟩ := of_bind_ok h
  have hanswers := answers_of_guarded hguarded
  cases hv : v.isNull with
  | true =>
      simp only [emitPresent, hv, if_true] at hwrite
      cases hwrite
      exact ⟨[], .nothing hanswers hv⟩
  | false =>
      simp only [emitPresent, hv, Bool.false_eq_true, if_false] at hwrite
      exact ⟨[.write v], .spoken hanswers hv hwrite⟩

/-- And what says something is the step that does. -/
theorem sayAt_of_said {stage : Stage} {acts : List Act}
    (h : Says execute stage s acts s') :
    sayAt execute stage s = some (.ok (), s') := by
  have hguarded : ∀ {v : Value} {s₁ : Session}, Answers execute stage s v s₁ →
      guarded execute stage (firstResult execute stage.name [] []) .null s =
        some (.ok v, s₁) := by
    intro v s₁ h
    cases h with
    | result h => exact bind_ok (attempt_eq h)
    | errorText h hf htext hn ht =>
        refine (bind_ok (attempt_eq h)).trans ?_
        simp only [hf, Bool.false_eq_true, if_false, answerFault, htext]
        exact (bind_ok hn).trans ht
  cases h with
  | nothing h hv =>
      refine (bind_ok (hguarded h)).trans ?_
      simp only [emitPresent, hv, if_true]
      rfl
  | spoken h hv hw =>
      refine (bind_ok (hguarded h)).trans ?_
      simp only [emitPresent, hv, Bool.false_eq_true, if_false]
      exact hw

/-- Saying something runs no line. -/
theorem lines_of_said {stage : Stage} {acts : List Act}
    (h : Says execute stage s acts s') : acts.filterMap Act.line? = [] := by
  cases h <;> rfl

/-- A loop that does not end well ends in the fault of an act, and records
    nothing. -/
theorem of_outcome_error {e : Ending} {f : Fault} {events : List Event}
    (h : e.outcome = (.error f, events)) :
    ∃ a, e = .fault a f ∧ events = [] := by
  cases e with
  | quit => cases h
  | fault a g =>
      have hg : g = f ∧ events = [] := by
        cases g <;> cases a <;> cases h <;> exact ⟨rfl, rfl⟩
      exact ⟨a, by rw [hg.1], hg.2⟩

/-! ## What a session relies on -/

/-- Writing, prompting by default, making a text of a fault that has one
    and writing the history raise no ordinary faults, in whatever the session
    becomes; and the shell says why a line that it rewrites is bad. -/
structure Dependable (k : Conduct) (execute : Executor) (s : Session) :
    Prop where
  emits : ∀ s', Steps k True s s' → ∀ v f s'',
    emit execute v s' = some (.error f, s'') → f.isSignal = true
  prompts : ∀ s', Steps k True s s' → ∀ f s'',
    callShell execute "default_prompt" [] s' = some (.error f, s'') →
      f.isSignal = true
  formats : ∀ s', Steps k True s s' → ∀ g, g.textFault? = none → ∀ f s'',
    formatFault execute g s' = some (.error f, s'') → f.isSignal = true
  explains : Explains k execute s
  persists : ∀ s', Steps k True s s' → ∃ s'', persist s' = some (.ok (), s'')

/-- The greeting and the goodbye of a session raise no signals: these come
    while a line is prompted for, read or processed. -/
structure Calm (execute : Executor) (s : Session) : Prop where
  intro : ∀ f s₁, sayAt execute .intro s.begun = some (.error f, s₁) →
    f.isSignal = false
  outro : ∀ greeting s₁ acts e s₂ events,
    Says execute .intro s.begun greeting s₁ →
    Loop execute none s₁ acts e s₂ → e.outcome = (.ok (), events) →
    ∀ f s₃, sayAt execute .outro (s₂.leaving events) =
      some (.error f, s₃) → f.isSignal = false

section Sessions

variable (hx : execute.Keeps k) (hh : s.Keeps k)
variable (hd : Dependable k execute s)
variable (htexts : ∀ f, k.raises f → f.textFault? = none)
include hx hh hd

include htexts in
theorem Dependable.reports : Reports k s k.Escapes execute where
  escapes _ h := h
  texts f cause hraises hcause := by
    rw [htexts f hraises] at hcause
    cases hcause
  reasons s' hs' line f g s'' he hreason :=
    absurd hreason (hd.explains s' hs' line f s'' he g)
  formats g hg := (callShell_behaves hx hh _ _).escapes
    fun s' hs' f s'' he => hd.formats s' hs' g hg f s'' he

theorem Dependable.emit_escapes (v : Value) :
    Behaves k s Whatever k.Escapes (emit execute v) :=
  (emit_behaves hx hh v).escapes fun s' hs' f s'' he =>
    hd.emits s' hs' v f s'' he

include htexts

/-- Acts that ask no source raise signals of code only. -/
theorem Dependable.act_escapes {a : Act} (ha : a.isRead = false) :
    Behaves k s Whatever k.Escapes (a.perform execute) := by
  cases a with
  | read p => cases ha
  | prompt =>
      refine renderPrompt_behaves hx hh (fun _ h => h) ?_
      exact (callShell_behaves hx hh _ _).escapes hd.prompts
  | run line => exact runLine_behaves hx hh (hd.reports hx hh htexts) _
  | write v =>
      refine .bind (hd.emit_escapes hx hh v) ?_
      intro _ _
      exact .pure True.intro

/-- What is said without signals is said. -/
theorem Dependable.speaks {stage : Stage} {s₁ : Session}
    (hs₁ : Steps k True s s₁)
    (hcalm : ∀ f s₂, sayAt execute stage s₁ = some (.error f, s₂) →
      f.isSignal = false) :
    ∃ acts s₂, Says execute stage s₁ acts s₂ ∧ Steps k k.Reads s₁ s₂ ∧
      sayAt execute stage s₁ = some (.ok (), s₂) := by
  have hsay : Behaves k s Whatever k.Escapes (sayAt execute stage) := by
    refine .bind (guarded_behaves hx hh (hd.reports hx hh htexts)
      (firstResult_behaves hx hh _ _ _) stage .null) ?_
    intro v _
    exact emitPresent_behaves (hd.emit_escapes hx hh v)
  obtain ⟨r, s₂, he, ht, hr⟩ := hsay s₁ hs₁
  cases r with
  | ok u =>
      obtain ⟨acts, hsaid⟩ := said_of_sayAt he
      exact ⟨acts, s₂, hsaid, ht, he⟩
  | error f =>
      have hsignal := hr.1
      rw [hcalm f s₂ he] at hsignal
      cases hsignal

/-- A loop whose code raises no other signals than interrupts fails at the
    reader only. -/
theorem Dependable.fails_reading
    (hk : ∀ f, k.raises f → f.isSignal = true → ∃ text, f = .interrupt text)
    {s₁ s₂ : Session} (hs₁ : Steps k True s s₁) {acts : List Act}
    {e : Ending} (hl : Loop execute none s₁ acts e s₂) {f : Fault}
    {events : List Event} (he : e.outcome = (.error f, events)) :
    ∃ p, e = .fault (.read p) f ∧ events = [] := by
  obtain ⟨a, rfl, rfl⟩ := of_outcome_error he
  have hacts := fun b hb => hd.act_escapes hx hh htexts (a := b) hb
  cases a with
  | read p => exact ⟨p, rfl, rfl⟩
  | _ =>
      -- any other act raises interrupts only, and they end a loop well
      obtain ⟨hsignal, hraises⟩ :=
        (hl.fault_of (P := fun _ => k.Escapes) hh hacts hs₁).1 rfl
      obtain ⟨text, rfl⟩ := hk f hraises hsignal
      cases he

end Sessions

/-- A session that was greeted and went through its loop became what it
    takes its leave from by changes. -/
theorem steps_to_leaving (hx : execute.Keeps k) (hh : s.Keeps k)
    (hp : s.phase ≠ .terminated) {greeting acts : List Act} {e : Ending}
    {s₁ s₂ : Session} (hi : Says execute .intro s.begun greeting s₁)
    (hl : Loop execute none s₁ acts e s₂) (events : List Event) :
    Steps k True s (s₂.leaving events) := by
  have hbegun : Steps k True s s.begun := .single (.begun hp)
  have ht₁ := ((sayAt_behaves hx hh .intro).of_eq hbegun
    (sayAt_of_said hi)).1
  have hs₁ : Steps k True s s₁ := hbegun.trans (ht₁.mono fun _ => True.intro)
  have hacts := fun a ha => act_behaves (k := k) hx hh (a := a) ha
  have hs₂ : Steps k True s s₂ := hs₁.trans (hl.steps hh hacts hs₁)
  exact (hs₂.tail (.recorded events)).tail (.moved .quitting)

/-- The lines of a loop are those that the session had before it was
    greeted, unless code has read some of them. -/
theorem lines_of_loop (hx : execute.Keeps k) (hh : s.Keeps k)
    {acts : List Act} {e : Ending} {s₁ s₂ : Session}
    (hs₁ : Steps k True s s₁) (ht₁ : Steps k k.Reads s.begun s₁)
    (hl : Loop execute none s₁ acts e s₂) :
    (acts.filterMap Act.line?).Sublist s.lines ∧
      (¬ k.Reads → acts.filterMap Act.line? <+: s.lines) := by
  constructor
  · exact (hl.lines_sublist hh hx hs₁).trans
      (hs₁.items_suffix.sublist.filterMap SourceItem.line?)
  · intro hr
    have hlines : s₁.lines = s.lines := by
      show s₁.reader.source.items.filterMap _ = _
      rw [ht₁.source_eq hr]
      rfl
    rw [← hlines]
    exact hl.lines_prefix hh hx hr hs₁

/-- A session is the reference session, and it ends; the lines that it runs
    are those of its source, in order, and all of them from the first on
    where code reads none for itself. -/
theorem session_plays (depth : Nat)
    (hk : ∀ f, k.raises f → f.isSignal = true → ∃ text, f = .interrupt text)
    (htexts : ∀ f, k.raises f → f.textFault? = none)
    (hs : s.Reached k) (hp : s.phase ≠ .terminated)
    (hd : Dependable k (executeWithin depth) s)
    (hc : Calm (executeWithin depth) s) :
    ∃ acts r s', Plays (executeWithin depth) s acts r s' ∧
      session (executeWithin depth) s = some (r, s') ∧
      (acts.filterMap Act.line?).Sublist s.lines ∧
      (¬ k.Reads → acts.filterMap Act.line? <+: s.lines) := by
  have hx := executeWithin_keeps (k := k) depth
  have hh := hs.keeps
  have hbegun : Steps k True s s.begun := .single (.begun hp)
  obtain ⟨greeting, s₁, hi, ht₁, hgreet⟩ :=
    hd.speaks hx hh htexts hbegun hc.intro
  have hs₁ : Steps k True s s₁ := hbegun.trans (ht₁.mono fun _ => True.intro)
  obtain ⟨acts, e, s₂, hl, hconverse⟩ := conversation_follows hx hh hs₁
  have hlines := lines_of_loop hx hh hs₁ ht₁ hl
  rw [session_begun hp]
  cases hout : e.outcome with
  | mk r events =>
      rw [hout] at hconverse
      cases r with
      | error f =>
          -- the loop failed at the reader, so there is no leave to take
          obtain ⟨p, rfl, rfl⟩ := hd.fails_reading hx hh htexts hk hs₁ hl hout
          rw [Session.recorded_nil] at hconverse
          refine ⟨greeting ++ acts, .error f, s₂, .failed hi hl hout,
            (bind_ok hgreet).trans (bind_error hconverse), ?_⟩
          rw [List.filterMap_append, lines_of_said hi]
          exact hlines
      | ok u =>
          have hleaving := steps_to_leaving hx hh hp hi hl events
          obtain ⟨farewell, s₃, ho, ht₃, hbye⟩ :=
            hd.speaks hx hh htexts hleaving (hc.outro _ _ _ _ _ _ hi hl hout)
          obtain ⟨s₄, hpersist⟩ :=
            hd.persists s₃ (hleaving.trans (ht₃.mono fun _ => True.intro))
          have hleave : takeLeave (executeWithin depth) (s₂.recorded events) =
              some (.ok (), { s₄ with phase := .terminated }) :=
            (bind_ok hbye).trans (bind_ok hpersist)
          refine ⟨greeting ++ acts ++ farewell, .ok (), _,
            .left hi hl hout ho hpersist,
            (bind_ok hgreet).trans ((bind_ok hconverse).trans hleave), ?_⟩
          rw [List.filterMap_append, List.filterMap_append, lines_of_said hi,
            lines_of_said ho, List.append_nil]
          exact hlines

/-! ## Shells that inherit -/

/-- Where no extension answers, the member of the shell is called. -/
theorem firstResult_missing {hook : String} {args : List Value}
    {given : List (String × Value)} {v : Value}
    (h : callFirst execute hook (("shell", s.shellValue) :: given) s =
      some (.ok v, s')) (hv : v.isNull = true) :
    firstResult execute hook args given s = callShell execute hook args s' := by
  have hparam : shellParam s = some (.ok ("shell", s.shellValue), s) := rfl
  refine (bind_ok hparam).trans ((bind_ok h).trans ?_)
  rw [if_pos hv]

/-- Where no extension says goodbye and the class does not either, nothing
    is said. -/
theorem sayAt_silent (depth : Nat) {c : Class}
    (hchain : s.extensions.chain "outro" = []) (hc : s.shell = some c)
    (hd : c.lookup? "outro" = OrderedMap.find "outro" BaseShell.members) :
    sayAt (executeWithin (depth + 1)) .outro s = some (.ok (), s) := by
  obtain ⟨rest, hcall⟩ := callShell_function hc hd [] rfl
  have hask : callFirst (executeWithin (depth + 1)) "outro"
      [("shell", s.shellValue)] s = some (.ok .null, s) := by
    show firstAnswer _ _ _ (s.extensions.chain "outro").reverse s = _
    rw [hchain]
    rfl
  have hfirst : firstResult (executeWithin (depth + 1)) "outro" [] [] s =
      some (.ok .null, s) := (firstResult_missing hask rfl).trans hcall
  exact sayAt_of_said (.nothing (.result hfirst) rfl)

/-- Without a history file there is nothing that writing it could fail
    with. -/
theorem persist_without_file (h : s.reader.histfile = none) :
    ∃ s', persist s = some (.ok (), s') := by
  have hok : (s.reader.persist s.files s.world.homes).2.1 = .ok () := by
    rw [Reader.persist, h]
    rfl
  have he := persist_eq s
  rw [hok] at he
  exact ⟨_, he⟩

/-- A class that inherits how lines are rewritten leaves them alone. -/
theorem Explains.inherited (depth : Nat) {c : Class} (hc : s.shell = some c)
    (hd : c.lookup? "precmd" =
      OrderedMap.find "precmd" BaseShell.members) :
    Explains k (executeWithin (depth + 1)) s := by
  intro s' hs' line f s'' he
  obtain ⟨rest, hcall⟩ :=
    callShell_function (hs'.shell_eq.trans hc) hd [line] rfl
  rw [hcall] at he
  cases he

/-- A session without a history file can rely on a class that inherits how
    to write, to prompt, to rewrite lines and to make texts of faults. -/
theorem Dependable.inherited (depth : Nat) {c : Class}
    (hc : s.shell = some c) (hfile : s.reader.histfile = none)
    (hemit : c.lookup? "emit" = OrderedMap.find "emit" BaseShell.members)
    (hprompt : c.lookup? "default_prompt" =
      OrderedMap.find "default_prompt" BaseShell.members)
    (hformat : c.lookup? "format_error" =
      OrderedMap.find "format_error" BaseShell.members)
    (hprecmd : c.lookup? "precmd" =
      OrderedMap.find "precmd" BaseShell.members) :
    Dependable k (executeWithin (depth + 1)) s where
  emits := by
    intro s' hs' v f s'' he
    obtain ⟨_, hok⟩ := emit_inherited depth (hs'.shell_eq.trans hc) hemit v
    cases hok.symm.trans he
  prompts := by
    intro s' hs' f s'' he
    have hok := defaultPrompt_inherited depth (hs'.shell_eq.trans hc) hprompt
    cases hok.symm.trans he
  formats := by
    intro s' hs' g _ f s'' he
    have hok := formatFault_inherited depth (hs'.shell_eq.trans hc) hformat g
    cases hok.symm.trans he
  explains := .inherited depth hc hprecmd
  persists := by
    intro s' hs'
    exact persist_without_file (hs'.histfile_eq.trans hfile)

/-- A session that greets without a signal and says no goodbye is calm:
    where the catalogue is empty, no extension comes to say one. -/
theorem Calm.silent (depth : Nat) {c : Class} (hs : s.Reached k)
    (hp : s.phase ≠ .terminated)
    (hintro : ∀ f s₁, sayAt (executeWithin (depth + 1)) .intro s.begun =
      some (.error f, s₁) → f.isSignal = false)
    (hnone : ∀ c, ¬ s.Knows c) (hchain : s.extensions.chain "outro" = [])
    (hc : s.shell = some c)
    (hd : c.lookup? "outro" = OrderedMap.find "outro" BaseShell.members) :
    Calm (executeWithin (depth + 1)) s where
  intro := hintro
  outro := by
    intro greeting s₁ acts e s₂ events hi hl _ f s₃ he
    have hsteps := steps_to_leaving (executeWithin_keeps (depth + 1)) hs.keeps
      hp hi hl events
    have hquiet := sayAt_silent depth (hsteps.chain_eq_nil hnone hchain)
      (hsteps.shell_eq.trans hc) hd
    cases hquiet.symm.trans he

/-- Code that asks anything and raises ordinary faults that have a text, or
    interrupts. -/
def interruptible : Conduct where
  asks _ := True
  raises f := Conduct.ordinaryOnly.raises f ∨ ∃ text, f = .interrupt text
  hears _ := True
  plain h := .inl (Conduct.ordinaryOnly.plain h)
  causes h hcause := by
    rcases h with h | ⟨text, rfl⟩
    · exact .inl (Conduct.ordinaryOnly.causes h hcause)
    · cases hcause

/-- A shell whose greeting fails, with a command that fails, one that is
    interrupted, and a line after them. -/
def interruptedPlan : ShellPlan where
  shellClass := ⟨1, "Interrupted", .ofList
    [("intro", BaseShell.member [] false none fun _ =>
        .fail (.raised "ValueError" "no greeting")),
      ("do_fail", BaseShell.member [] true none fun _ =>
        .fail (.endOfInput "")),
      ("do_stop", BaseShell.member [] true none fun _ =>
        .fail (.interrupt ""))], [BaseShell.shellClass]⟩
  options := []
  reader := some ⟨.script [.line "fail", .line "stop", .line "never"] false,
    none, 0, []⟩
  output := .stream
  prompt := none
  extensions := []

theorem interruptedPlan_keeps : interruptedPlan.Keeps interruptible where
  shellClass := by
    refine BaseShell.keeps_derived (fun _ _ _ => True.intro) ?_
    intro entry h
    rcases List.mem_cons.mp h with rfl | h
    · exact fun _ => Or.inl ⟨rfl, rfl⟩
    · rcases List.mem_cons.mp h with rfl | h
      · exact fun _ => Or.inl ⟨rfl, rfl⟩
      · obtain rfl := List.mem_singleton.mp h
        exact fun _ => Or.inr ⟨"", rfl⟩
  source := fun _ _ => True.intro
  prompt := by
    intro p h
    cases h
  extensions := by
    intro c h
    cases h

/-- The shell that is made of it: its greeting comes to an error text. -/
theorem interruptedPlan_starts :
    ∃ s, start (executeWithin 1) interruptedPlan
        (.bare default default default) = some (.ok (), s) ∧
      (∃ s₁, sayAt (executeWithin 3) .intro s.begun = some (.ok (), s₁)) ∧
      s.phase = .idle ∧ s.reader.histfile = none ∧
      s.catalogue = default ∧ s.extensions.chain "outro" = [] :=
  ⟨_, rfl, ⟨_, rfl⟩, rfl, rfl, rfl, rfl⟩

/-- A session that greets with an error text, answers a failure, and is
    interrupted by a command. -/
theorem session_plays_interrupted :
    ∃ s acts r s', start (executeWithin 1) interruptedPlan
        (.bare default default default) = some (.ok (), s) ∧
      Plays (executeWithin 3) s acts r s' ∧
      session (executeWithin 3) s = some (r, s') := by
  obtain ⟨s, hstart, ⟨s₁, hgreet⟩, hphase, hfile, hcatalogue, hchain⟩ :=
    interruptedPlan_starts
  have hworld : World.Keeps interruptible default := by
    intro entry h
    cases h
  have hempty : Catalogue.Keeps interruptible default :=
    OrderedMap.All.empty
  have hreached : s.Reached interruptible :=
    .started interruptedPlan_keeps hworld hempty hstart
  have hshell := start_shell hstart
  have hrunning : s.phase ≠ .terminated := by
    rw [hphase]
    exact Phase.noConfusion
  have hcalm : Calm (executeWithin 3) s := by
    refine .silent 2 hreached hrunning ?_ ?_ hchain hshell rfl
    · intro f s₂ he
      cases hgreet.symm.trans he
    · rintro c ⟨name, hc⟩
      rw [hcatalogue] at hc
      cases hc
  have hsignals : ∀ f, interruptible.raises f → f.isSignal = true →
      ∃ text, f = .interrupt text := by
    rintro f (hf | hf) hsignal
    · rw [hf.1] at hsignal
      cases hsignal
    · exact hf
  have htexts : ∀ f, interruptible.raises f → f.textFault? = none := by
    rintro f (hf | ⟨text, rfl⟩)
    · exact hf.2
    · rfl
  obtain ⟨acts, r, s', hplays, he, _⟩ :=
    session_plays 3 hsignals htexts hreached hrunning
      (.inherited 2 hshell hfile rfl rfl rfl rfl) hcalm
  exact ⟨s, acts, r, s', hstart, hplays, he⟩

/-- A shell with a command that fails with a fault without a text. -/
def textlessPlan : ShellPlan :=
  { interruptedPlan with
    shellClass := ⟨1, "Textless", .ofList
      [("do_fail", BaseShell.member [] true none fun _ =>
          .fail (.textless "Wordless" (.raised "TypeError" "no text")))],
      [BaseShell.shellClass]⟩ }

/-- A shell that asks to stop while it greets. -/
def hastyPlan : ShellPlan :=
  { interruptedPlan with
    shellClass := ⟨1, "Hasty", .ofList
      [("intro", BaseShell.member [] false none fun _ => .answer .quit)],
      [BaseShell.shellClass]⟩ }

/-- A session is abandoned in the middle of a line where a command fails
    with a fault that has no text, and where the shell does not say why a
    line is bad; and it reads no line at all if it was asked to stop before
    the first. -/
theorem session_abandons :
    (∃ s s', start (executeWithin 1) textlessPlan
        (.bare default default default) = some (.ok (), s) ∧
      session (executeWithin 3) s =
        some (.error (.raised "TypeError" "no text"), s') ∧
      s'.phase = .running) ∧
    (∃ s s', start (executeWithin 1) { unexplainedPlan with
          reader := interruptedPlan.reader }
        (.bare default default default) = some (.ok (), s) ∧
      session (executeWithin 3) s =
        some (.error (.noAttribute "BadLine" "reason"), s') ∧
      s'.phase = .running) ∧
    ∃ s s', start (executeWithin 1) hastyPlan
        (.bare default default default) = some (.ok (), s) ∧
      session (executeWithin 3) s = some (.ok (), s') ∧
      s'.lines = s.lines ∧ s.lines ≠ [] :=
  ⟨⟨_, _, rfl, rfl, rfl⟩, ⟨_, _, rfl, rfl, rfl⟩,
    _, _, rfl, rfl, rfl, by decide⟩

end Run

end LineShell
