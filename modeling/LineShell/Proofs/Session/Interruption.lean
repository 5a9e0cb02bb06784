import LineShell.Proofs.Session.Reference
import LineShell.Proofs.Session.Scope
import LineShell.Proofs.Session.SessionEnds

/-! # Interruption — signals end lines, and interrupts end sessions well

    A signal that ends anything that is done for a line ends the line: it
    is the last thing that is done, but for leaving the overlay
    (`Course.runLine_stopped`).  Code that lets signals pass passes on the
    signal of a line within its line (`Run.perform_stopped`).  So an
    interrupt comes to the loop from any depth, and there it ends the
    conversation, and the session takes leave
    (`Run.session_interrupted`).

    The greeting is not part of the conversation: an interrupt of it is
    not caught, and the session does not take leave
    (`Run.session_interrupted_greeting`). -/

namespace LineShell

/-! ## Signals in courses -/

section Signals

variable {α : Type} {answers : Bool} {owed : List Telling}
variable {debt : Fault → Session → List Telling} {deeds : List Deed}
variable {d : Deed} {f : Fault} {r : Except Fault α} {s' : Session}

/-- What a signal ends is the last thing that is done, apart from leaving
    overlays, and its fault is the result. -/
def StoppedBy (deeds : List Deed) (d : Deed) : Prop :=
  ∃ before after, deeds = before ++ d :: after ∧ Unstopped before ∧
    ∀ e ∈ after, e.isLeft = true ∧ e.fault? = none

theorem Settled.stoppedBy (h : Settled answers owed debt deeds r s')
    (hd : d ∈ deeds) (hf : d.fault? = some f) (hs : f.isSignal = true) :
    r = .error f ∧ StoppedBy deeds d := by
  have hstops : d.stops = true := by
    rw [Deed.stops, hf]
    exact hs
  have hnot : ∀ {l}, Unstopped l → d ∉ l := by
    intro l hl hmem
    rw [hl d hmem] at hstops
    cases hstops
  cases h with
  | done _ _ hfree => exact absurd hd (hnot hfree)
  | failed _ _ hfree => exact absurd hd (hnot hfree)
  | unsaid _ _ _ _ hfree => exact absurd hd (hnot hfree)
  | stopped g _ before after e hdeeds hbefore he _ hafter =>
      -- it is neither before what stopped the course nor after it
      have heq : d = e := by
        rw [hdeeds] at hd
        rcases List.mem_append.mp hd with hmem | hmem
        · exact absurd hmem (hnot hbefore)
        · rcases List.mem_cons.mp hmem with heq | hmem
          · exact heq
          · rw [(hafter d hmem).2] at hf
            cases hf
      subst heq
      obtain rfl := Option.some.inj (he.symm.trans hf)
      exact ⟨rfl, before, after, hdeeds, hbefore, hafter⟩

/-- A course that fails has done something that failed. -/
theorem Settled.fault_mem
    (h : Settled (α := α) answers owed debt deeds (.error f) s') :
    ∃ d ∈ deeds, d.fault?.isSome = true := by
  cases h with
  | failed _ _ _ _ hd =>
      obtain ⟨d, hd, hf⟩ := hd
      exact ⟨d, hd, hf ▸ rfl⟩
  | unsaid _ _ _ _ _ hd =>
      obtain ⟨d, hd, g, hg, -⟩ := hd
      exact ⟨d, hd, hg ▸ rfl⟩
  | stopped _ _ before after d hdeeds _ hd =>
      refine ⟨d, ?_, hd ▸ rfl⟩
      rw [hdeeds]
      exact List.mem_append_right _ List.mem_cons_self

end Signals

namespace Course

variable {execute : Executor} {s s' : Session} {deeds : List Deed}
variable {d : Deed} {f : Fault}

/-- A signal of anything that is done for a line ends the line, and every
    overlay is left. -/
theorem runLine_stopped {line : Value} {r : Except Fault Value}
    (h : runLine execute line s = some ((r, s'), deeds)) (hd : d ∈ deeds)
    (hf : d.fault? = some f) (hs : f.isSignal = true) :
    r = .error f ∧ StoppedBy deeds d ∧ Nested deeds := by
  obtain ⟨hnested, hsettled⟩ := runLine_settles line s r s' deeds h
  obtain ⟨hr, hstopped⟩ := hsettled.stoppedBy hd hf hs
  exact ⟨hr, hstopped, hnested⟩

/-- An interrupt of anything that is done in a conversation ends it
    well. -/
theorem conversation_interrupted {text : String} {r : Except Fault Unit}
    (h : conversation execute s = some ((r, s'), deeds)) (hd : d ∈ deeds)
    (hf : d.fault? = some (.interrupt text)) :
    r = .ok () ∧ StoppedBy deeds d ∧ Nested deeds := by
  obtain ⟨result, s₁, hturns, hend⟩ := of_conversation h
  obtain ⟨hnested, hsettled⟩ :=
    turnsUnlessStopped_settles s result s₁ deeds hturns
  obtain ⟨rfl, hstopped⟩ := hsettled.stoppedBy hd hf rfl
  rcases hend with ⟨_, _, hr, _⟩ | ⟨hnot, _⟩
  · exact ⟨hr, hstopped, hnested⟩
  · exact absurd rfl (hnot text)

end Course

/-! ## Taking leave -/

namespace Leave

variable {execute : Executor} {s s' : Session} {deeds : List Deed}
variable {r : Except Fault Unit}

/-- Taking leave fails only if something that is done for it fails. -/
theorem ok_of_well (h : Leave execute s deeds r s')
    (hwell : ∀ d ∈ deeds, d.fault? = none) : r = .ok () := by
  cases h with
  | unsaid f said _ hs =>
      obtain ⟨_, hsettled⟩ := Course.sayAt_settles rfl _ _ _ _ hs
      obtain ⟨d, hd, hf⟩ := hsettled.fault_mem
      rw [hwell d (List.mem_cons_of_mem _ hd)] at hf
      cases hf
  | unwritten f said s₁ _ hs hp =>
      have := hwell ⟨.persist, some f, s'⟩
        (List.mem_append_right _ List.mem_cons_self)
      cases this
  | left => rfl

end Leave

/-! ## Code that lets signals pass -/

/-- Code that ends in every signal that it is answered. -/
def Program.Passes : Program → Prop
  | .done _ => True
  | .fail _ => True
  | .request _ next =>
      (∀ f, f.isSignal = true → next (.error f) = .fail f) ∧
        ∀ a, (next a).Passes
  | .promptCode _ _ _ _ next =>
      (∀ f, f.isSignal = true → next (.error f) = .fail f) ∧
        ∀ a, (next a).Passes

namespace Run

/-- What code asks for while it is executed, and the session it asks
    in. -/
inductive Asks (execute : Executor) (frame : Frame) :
    Program → Session → Request → Session → Prop where
  | now (r : Request) (next : Answer → Program) (s : Session) :
      Asks execute frame (.request r next) s r s
  | later {r r' : Request} {next : Answer → Program} {s s₁ s' : Session}
      {a : Answer} (ha : answer execute frame r s = some (a, s₁))
      (h : Asks execute frame (next a) s₁ r' s') :
      Asks execute frame (.request r next) s r' s'
  | prompted {use : PromptUse} {code : List Value → Program}
      {bound : Option (List Value)} {args : List Value} {r' : Request}
      {next : Answer → Program} {s s₁ s' : Session} {a : Answer}
      (ha : answerPromptCode execute use code bound args s = some (a, s₁))
      (h : Asks execute frame (next a) s₁ r' s') :
      Asks execute frame (.promptCode use code bound args next) s r' s'

variable {execute : Executor} {frame : Frame} {p : Program}
variable {s s₁ s' : Session} {f : Fault}

/-- Code that lets signals pass ends in the signal that anything it asks
    for ends in. -/
theorem perform_stopped {r : Request} (hp : p.Passes)
    (h : Asks execute frame p s r s₁)
    (hr : answer execute frame r s₁ = some (.error f, s'))
    (hf : f.isSignal = true) :
    perform execute frame p s = some (.error f, s') := by
  induction h with
  | now r next s =>
      rw [perform, bind_ok (attempt_eq hr), hp.1 f hf]
      rfl
  | later ha _ ih =>
      rw [perform, bind_ok (attempt_eq ha)]
      exact ih (hp.2 _) hr
  | prompted ha _ ih =>
      rw [perform, bind_ok (attempt_eq ha)]
      exact ih (hp.2 _) hr

/-! ## Sessions -/

theorem conversation_returns (depth : Nat) (s : Session) :
    ∃ r s' talk, Course.conversation (executeWithin depth) s =
      some ((r, s'), talk) := by
  obtain ⟨r, s', h, _⟩ := conversation_behaves (executeWithin_keeps depth)
    s.keeps_anything ⟨.run, trivial, rfl⟩ s .refl
  obtain ⟨talk, htalk⟩ := Course.of_run (Course.run_conversation _) h
  exact ⟨r, s', talk, htalk⟩

theorem takeLeave_returns (depth : Nat) (s : Session) :
    ∃ r s' leave, Course.takeLeave (executeWithin depth) s =
      some ((r, s'), leave) := by
  obtain ⟨r, s', h, _⟩ := takeLeave_behaves
    (executeWithin_keeps depth : Executor.Keeps .anything _)
    s.keeps_anything s .refl
  obtain ⟨leave, hleave⟩ := Course.of_run (Course.run_takeLeave _) h
  exact ⟨r, s', leave, hleave⟩

/-- A session that greeted and conversed well ends as it takes leave. -/
theorem session_of_parts {execute : Executor} {s s₁ s₂ s' : Session}
    {greeting talk leave : List Deed} {r : Except Fault Unit}
    (hs : s.phase ≠ .terminated)
    (hg : Course.sayAt execute .intro s.begun =
      some ((.ok (), s₁), greeting))
    (ht : Course.conversation execute s₁ = some ((.ok (), s₂), talk))
    (hl : Course.takeLeave execute s₂ = some ((r, s'), leave)) :
    session execute s = some (r, s') := by
  have hsaid := Course.run_eq (Course.run_sayAt _ _) hg
  have htalked := Course.run_eq (Course.run_conversation _) ht
  rw [session_begun hs, sessionFrom, bind_ok hsaid, bind_ok htalked]
  exact Course.run_eq (Course.run_takeLeave _) hl

/-- Signals end lines at every depth, and an interrupt of anything that is
    done between the greeting and taking leave, after any number of lines,
    ends the session as if it had been asked to stop: every overlay was
    left, the session takes leave once, and unless that fails itself it
    comes back, with goodbye said once, the history written once and the
    session over.  Where code writes nothing to the environment, it is what
    it was. -/
theorem session_interrupted (depth : Nat) (s : Session)
    (hs : s.phase ≠ .terminated) :
    (∀ line t r t' deeds, Course.runLine (executeWithin depth) line t =
        some ((r, t'), deeds) →
      runLine (executeWithin depth) line t = some (r, t') ∧
      ∀ d ∈ deeds, ∀ f, d.fault? = some f → f.isSignal = true →
        r = .error f ∧ StoppedBy deeds d ∧ Nested deeds) ∧
    (∀ frame p t r t₁ t' f, Program.Passes p →
      Asks (executeWithin depth) frame p t r t₁ →
      answer (executeWithin depth) frame r t₁ = some (.error f, t') →
      f.isSignal = true →
      executeWithin (depth + 1) frame p t = some (.error f, t')) ∧
    (∀ greeting s₁, Course.sayAt (executeWithin depth) .intro s.begun =
        some ((.ok (), s₁), greeting) →
      ∃ result s₂ talk, Course.conversation (executeWithin depth) s₁ =
          some ((result, s₂), talk) ∧
        (∀ d ∈ talk, Course.ForTurn d.doing) ∧
        ∀ d ∈ talk, ∀ text, d.fault? = some (.interrupt text) →
          result = .ok () ∧ StoppedBy talk d ∧ Nested talk ∧
          ∃ r s' leave, Course.takeLeave (executeWithin depth) s₂ =
              some ((r, s'), leave) ∧
            Leave (executeWithin depth) s₂ leave r s' ∧
            session (executeWithin depth) s = some (r, s') ∧
            ((∀ e ∈ leave, e.fault? = none) → r = .ok ()) ∧
            (r = .ok () → s'.phase = .terminated ∧
              (greeting ++ talk ++ leave).countP
                (fun e => e.doing.isFarewell) = 1 ∧
              (greeting ++ talk ++ leave).countP
                (fun e => e.doing.isPersist) = 1)) ∧
    ∀ r s', session (unwriting depth) s = some (r, s') →
      session (executeWithin depth) s = some (r, s') ∧ s'.env = s.env := by
  refine ⟨?_, ?_, ?_, ?_⟩
  · intro line t r t' deeds h
    refine ⟨?_, fun d hd f hf hsignal =>
      Course.runLine_stopped h hd hf hsignal⟩
    exact Course.run_eq (Course.run_runLine _ line) h
  · intro frame p t r t₁ t' f hp hasks hr hf
    exact perform_stopped hp hasks hr hf
  · intro greeting s₁ hg
    obtain ⟨result, s₂, talk, ht⟩ := conversation_returns depth s₁
    refine ⟨result, s₂, talk, ht, Course.conversation_does s₁ _ _ _ ht, ?_⟩
    intro d hd text hf
    obtain ⟨rfl, hstopped, hnested⟩ :=
      Course.conversation_interrupted ht hd hf
    obtain ⟨r, s', leave, hl⟩ := takeLeave_returns depth s₂
    have hways := Course.of_takeLeave hl
    refine ⟨rfl, hstopped, hnested, r, s', leave, hl, hways,
      session_of_parts hs hg ht hl, hways.ok_of_well, ?_⟩
    rintro rfl
    obtain ⟨hphase, hleave⟩ := hways.ended
    -- what a session does itself it does only when it takes leave
    have hcount : ∀ q, Framing q →
        (greeting ++ talk ++ leave).countP (fun e => q e.doing) =
          [Doing.moved .quitting, .persist, .moved .terminated].countP q := by
      intro q hq
      rw [List.countP_append, List.countP_append, hq.said hg, hq.talked ht,
        hleave q hq]
      omega
    exact ⟨hphase, hcount _ .farewell, hcount _ .persist⟩
  · intro r s' h
    obtain ⟨_, _, rfl, henv⟩ :=
      session_sees (unwriting_sees depth) s s ⟨rfl, rfl⟩ r s' h
    obtain ⟨_, hruns, rfl⟩ := session_agree free_eq
      (accord_eq (unwriting_agree depth)) mobile_eq s s rfl r s' h
    exact ⟨hruns, henv⟩

/-- Whether a session greets well, is interrupted after that, and takes
    leave well. -/
def interruptedWell (s : Session) : Bool :=
  match Course.sayAt (executeWithin 3) .intro s.begun with
  | some ((.ok (), s₁), _) =>
      match Course.conversation (executeWithin 3) s₁ with
      | some ((_, s₂), talk) =>
          talk.any (fun d => d.fault? matches some (.interrupt _)) &&
            match Course.takeLeave (executeWithin 3) s₂ with
            | some (_, leave) => leave.all fun d => d.fault?.isNone
            | none => false
      | none => false
  | _ => false

/-- A session that a command interrupts, after a line that fails. -/
theorem session_interrupted_command :
    ∃ s s', start (executeWithin 1) interruptedPlan
        (.bare default default default) = some (.ok (), s) ∧
      s.phase ≠ .terminated ∧
      session (executeWithin 3) s = some (.ok (), s') ∧
      s'.phase = .terminated := by
  have hwell : (start (executeWithin 1) interruptedPlan
      (.bare default default default)).any
        (fun result => interruptedWell result.2) = true := by
    decide +kernel
  obtain ⟨s, hstart, _, hphase, _⟩ := interruptedPlan_starts
  have hrunning : s.phase ≠ .terminated := by
    rw [hphase]
    exact Phase.noConfusion
  obtain ⟨_, _, hsession, _⟩ := session_interrupted 3 s hrunning
  rw [hstart, Option.any_some, interruptedWell] at hwell
  split at hwell
  · rename_i s₁ greeting hgreeting
    obtain ⟨_, s₂, talk, htalk, _, hinterrupts⟩ :=
      hsession greeting s₁ hgreeting
    rw [htalk] at hwell
    obtain ⟨hany, hwell⟩ := Bool.and_eq_true_iff.mp hwell
    obtain ⟨d, hd, hinterrupt⟩ := List.any_eq_true.mp hany
    obtain ⟨text, hf⟩ : ∃ text, d.fault? = some (.interrupt text) := by
      split at hinterrupt
      · exact ⟨_, ‹_›⟩
      · cases hinterrupt
    obtain ⟨_, _, _, r, s', leave, hleave, _, hs, hok, hover⟩ :=
      hinterrupts d hd text hf
    rw [hleave] at hwell
    have hr : r = .ok () := hok fun e he =>
      Option.isNone_iff_eq_none.mp (List.all_eq_true.mp hwell e he)
    subst hr
    exact ⟨s, s', hstart, hrunning, hs, (hover rfl).1⟩
  · cases hwell

/-- A shell whose greeting is interrupted. -/
def abruptPlan : ShellPlan :=
  { interruptedPlan with
    shellClass := ⟨1, "Abrupt", .ofList
      [("intro", BaseShell.member [] false none fun _ =>
        .fail (.interrupt ""))], [BaseShell.shellClass]⟩ }

/-- The interrupt of a greeting is not caught: the session neither says
    goodbye nor writes the history, and goes on to be running. -/
theorem session_interrupted_greeting :
    ∃ s s' deeds, start (executeWithin 1) abruptPlan
        (.bare default default default) = some (.ok (), s) ∧
      s.phase = .idle ∧
      session (executeWithin 3) s = some (.error (.interrupt ""), s') ∧
      Course.session (executeWithin 3) s =
        some ((.error (.interrupt ""), s'), deeds) ∧
      s'.phase = .running ∧
      deeds.countP (fun d => d.doing.isPersist) = 0 :=
  ⟨_, _, _, rfl, rfl, rfl, rfl, rfl, rfl⟩

end Run

end LineShell
