import LineShell.Proofs.Session.Behaviour

/-! # Containment — which faults come out of what

    Everything a session does is written over what executes its code.  If
    that keeps a conduct, every step built on it behaves, and the faults
    that come out of it are known:

    * calls raise what code raises;
    * hooks and observers let through signals only (`callFirst_behaves`,
      `notify_behaves`);
    * a line lets through signals, what comes out of attempts to answer a
      fault that is not plain, and what the shell raises while it makes a
      text of a fault (`runLine_behaves`). -/

namespace LineShell

/-- Executing code of a conduct raises what the conduct allows, from every
    session that keeps it. -/
def Executor.Keeps (k : Conduct) (execute : Executor) : Prop :=
  ∀ home, home.Keeps k → ∀ frame p, frame.Keeps k → p.Keeps k →
    Run.Behaves k home Whatever k.raises (execute frame p)

/-- A line is routed to a handler that is recorded. -/
theorem Registry.Keeps.route {k : Conduct} {r : Registry} (hr : r.Keeps k)
    {line : Line} {b : Bound} (h : r.route line = .handler b) :
    b.Keeps k := by
  rw [Registry.route] at h
  split at h
  · cases h
  · split at h
    · cases h
    · split at h
      · cases h
      · split at h
        · cases h
        · cases h
        · split at h
          · rename_i b' hb
            cases h
            exact hr.dispatch? hb
          · cases h

/-- That a fault has no reason to look at is a plain fault. -/
theorem Fault.isPlain_of_lineReason? {f g : Fault}
    (h : f.lineReason? = some (.error g)) : g.isPlain = true := by
  cases f with
  | unexplained kind text =>
      cases h
      rfl
  | _ => cases h

/-- A report of a bad line has a text. -/
theorem Fault.textFault?_of_lineReason? {f : Fault}
    {told : Except Fault (String × String)} (h : f.lineReason? = some told) :
    f.textFault? = none := by
  cases f with
  | textless kind cause => cases h
  | _ => rfl

namespace Run

variable {k : Conduct} {execute : Executor} {home : Session}

/-! ## Calls -/

section Calls

variable (hx : execute.Keeps k) (hh : home.Keeps k)
include hx hh

theorem callDefinitions_behaves {definitions : List Attribute}
    (hd : ∀ a ∈ definitions, a.Keeps k) (owner : Option Class)
    (name : String) (call : Call) :
    Behaves k home Whatever k.raises
      (callDefinitions execute owner name call definitions) := by
  cases definitions with
  | nil => exact .throw (k.plain rfl)
  | cons a rest =>
      cases a with
      | data v =>
          refine .bind identity_behaves ?_
          intro me _
          exact .throw (k.plain rfl)
      | function f =>
          simp only [callDefinitions]
          cases f.signature.mismatch? name call.args.length with
          | some m => exact .throw (k.plain rfl)
          | none =>
              refine hx home hh _ _ ?_
                (hd (.function f) List.mem_cons_self call)
              intro b hb
              exact hd b (List.mem_cons_of_mem _ hb)

theorem callBound_behaves {b : Bound} (hb : b.Keeps k) (call : Call) :
    Behaves k home Whatever k.raises (callBound execute b call) :=
  callDefinitions_behaves hx hh hb _ _ _

theorem callShell_behaves (name : String) (args : List Value) :
    Behaves k home Whatever k.raises (callShell execute name args) := by
  refine .get_bind ?_
  intro s hs
  split
  · rename_i c hc
    exact callBound_behaves hx hh ((hs.keeps hh).shell c hc name) _
  · exact .throw (k.plain rfl)

theorem render_behaves {p : Prompt} (hp : p.Keeps k) :
    Behaves k home Whatever k.raises (render execute p) := by
  cases p with
  | literal text => exact .pure trivial
  | generated code args =>
      refine .get_bind ?_
      intro s _
      refine .bind (hx home hh _ _ Frame.keeps_outside (hp _)) ?_
      intro v _
      exact identity_behaves.giving _

/-- Rendering the prompt raises what the default prompt raises, and the
    signals of the prompt. -/
theorem renderPrompt_behaves {G : Fault → Prop}
    (hescapes : ∀ f, k.Escapes f → G f)
    (hdefault : Behaves k home Whatever G
      (callShell execute "default_prompt" [])) :
    Behaves k home Whatever G (renderPrompt execute) := by
  refine .get_bind ?_
  intro s hs
  refine .contain (render_behaves hx hh (hs.keeps hh).prompt) hescapes ?_
  intro f _
  refine .bind identity_behaves ?_
  intro me _
  refine .bind (record_behaves _) ?_
  intro _ _
  exact hdefault

theorem emit_behaves (v : Value) :
    Behaves k home Whatever k.raises (emit execute v) :=
  (callShell_behaves hx hh _ _).giving _

end Calls

/-- Writing what is there raises what writing raises. -/
theorem emitPresent_behaves {F : Fault → Prop} {v : Value}
    (h : Behaves k home Whatever F (emit execute v)) :
    Behaves k home Whatever F (emitPresent execute v) := by
  rw [emitPresent]
  split
  · exact .pure trivial
  · exact h

/-! ## Hooks -/

section Hooks

variable (hx : execute.Keeps k) (hh : home.Keeps k)
include hx hh

theorem callImplementation_behaves {i : Implementation}
    (hi : i.member.Keeps k) (given : List (String × Value)) :
    Behaves k home Whatever k.raises (callImplementation execute i given) := by
  simp only [callImplementation]
  split
  · exact callBound_behaves hx hh hi _
  · exact .throw (k.plain rfl)

theorem notifyOne_behaves {i : Implementation} (hi : i.member.Keeps k)
    (stage : String) (fault : Fault) (line : Value) :
    Behaves k home Whatever k.Escapes
      (notifyOne execute stage fault line i) := by
  refine .contain ?_ (fun f hf => hf) ?_
  · exact (callImplementation_behaves hx hh hi _).giving _
  · intro f _
    exact record_behaves _

/-- The failures of observers are told to nobody. -/
theorem notify_behaves (stage : String) (fault : Fault) (line : Value) :
    Behaves k home Whatever k.Escapes (notify execute stage fault line) := by
  refine .get_bind ?_
  intro s hs
  refine .forM ?_
  intro i hi
  exact notifyOne_behaves hx hh
    (Extensions.Keeps.chain (hs.keeps hh).extensions _ i hi) _ _ _

theorem runImplementation_behaves {i : Implementation}
    (hi : i.member.Keeps k) (hook : String)
    (given : List (String × Value)) :
    Behaves k home Whatever k.Escapes
      (runImplementation execute hook i given) := by
  refine .contain (callImplementation_behaves hx hh hi given)
    (fun f hf => hf) ?_
  intro f _
  refine .bind (record_behaves _) ?_
  intro _ _
  exact (notify_behaves hx hh _ _ _).giving _

theorem firstAnswer_behaves {chain : List Implementation}
    (hc : ∀ i ∈ chain, i.member.Keeps k) (hook : String)
    (given : List (String × Value)) :
    Behaves k home Whatever k.Escapes
      (firstAnswer execute hook given chain) := by
  induction chain with
  | nil => exact .pure trivial
  | cons i rest ih =>
      refine .bind (runImplementation_behaves hx hh (hc i List.mem_cons_self)
        hook given) ?_
      intro v _
      split
      · refine ih ?_
        intro j hj
        exact hc j (List.mem_cons_of_mem _ hj)
      · exact .pure trivial

theorem rewrite_behaves {chain : List Implementation}
    (hc : ∀ i ∈ chain, i.member.Keeps k) (hook key : String)
    (given : List (String × Value)) (value : Value) :
    Behaves k home Whatever k.Escapes
      (rewrite execute hook key given value chain) := by
  induction chain generalizing value with
  | nil => exact .pure trivial
  | cons i rest ih =>
      refine .bind (runImplementation_behaves hx hh (hc i List.mem_cons_self)
        hook _) ?_
      intro v _
      refine ih ?_ _
      intro j hj
      exact hc j (List.mem_cons_of_mem _ hj)

/-- Asking a chain for an answer lets through signals only. -/
theorem callFirst_behaves (hook : String) (given : List (String × Value)) :
    Behaves k home Whatever k.Escapes (callFirst execute hook given) := by
  refine .get_bind ?_
  intro s hs
  refine firstAnswer_behaves hx hh ?_ hook given
  intro i hi
  exact Extensions.Keeps.chain (hs.keeps hh).extensions _ i
    (List.mem_reverse.mp hi)

/-- So does letting a chain rewrite a value. -/
theorem callChain_behaves (hook key : String) (value : Value)
    (given : List (String × Value)) :
    Behaves k home Whatever k.Escapes
      (callChain execute hook key value given) := by
  refine .get_bind ?_
  intro s hs
  exact rewrite_behaves hx hh
    (Extensions.Keeps.chain (hs.keeps hh).extensions _) hook key given value

theorem firstResult_behaves (hook : String) (args : List Value)
    (given : List (String × Value)) :
    Behaves k home Whatever k.raises
      (firstResult execute hook args given) := by
  refine .get_bind ?_
  intro s _
  refine .bind ((callFirst_behaves hx hh _ _).faults fun f hf => hf.2) ?_
  intro v _
  split
  · exact callShell_behaves hx hh hook args
  · exact .pure trivial

end Hooks

/-! ## Overlays -/

/-- Entering an overlay remembers what it hides. -/
theorem enterOverlay_behaves {F : Fault → Prop} (values : OrderedMap Value) :
    Behaves k home Whatever F (enterOverlay values) := by
  intro s _
  exact ⟨_, _, rfl, .single (.overlaid _), trivial⟩

theorem leaveOverlay_behaves {F : Fault → Prop} (saved : Environment.Saved) :
    Behaves k home Whatever F (leaveOverlay saved) :=
  .changed fun _ _ => .restored saved

theorem withOverlay_behaves {α : Type} {V : α → Prop} {F : Fault → Prop}
    {step : Run α} (h : Behaves k home V F step)
    (values : OrderedMap Value) :
    Behaves k home V F (withOverlay values step) := by
  refine .bind (enterOverlay_behaves values) ?_
  intro saved _
  exact .andFinally h (leaveOverlay_behaves saved)

/-! ## Lines -/

/-- What a line lets through: the signals of code; the causes for which a
    fault of code has no text; that the shell rewrites the line and fails
    with a fault that has no reason to look at; and what the shell raises
    while it makes a text of a fault that has one. -/
structure Reports (k : Conduct) (home : Session) (G : Fault → Prop)
    (execute : Executor) : Prop where
  escapes : ∀ f, k.Escapes f → G f
  texts : ∀ f cause, k.raises f → f.textFault? = some cause → G cause
  reasons : ∀ s, Steps k True home s → ∀ line f g s',
    callShell execute "precmd" [line] s = some (.error f, s') →
      f.lineReason? = some (.error g) → G g
  formats : ∀ f, f.textFault? = none →
    Behaves k home Whatever G (formatFault execute f)

/-- At most everything that code raises is let through. -/
theorem Reports.all (hx : execute.Keeps k) (hh : home.Keeps k) :
    Reports k home k.raises execute where
  escapes _ hf := hf.2
  texts _ _ hf hcause := k.causes hf hcause
  reasons _ _ _ _ _ _ _ hreason :=
    k.plain (Fault.isPlain_of_lineReason? hreason)
  formats _ _ := callShell_behaves hx hh _ _

section Lines

variable {G : Fault → Prop}
variable (hx : execute.Keeps k) (hh : home.Keeps k)
variable (hG : Reports k home G execute)
include hx hh hG

theorem reportFault_behaves (stage : Stage) (title : String) (f : Fault)
    (line : Value) :
    Behaves k home Whatever G (reportFault execute stage title f line) := by
  refine .bind (record_behaves _) ?_
  intro _ _
  refine .bind ((notify_behaves hx hh _ _ _).faults hG.escapes) ?_
  intro _ _
  exact hG.formats _ rfl

/-- A fault of code is answered, or the cause comes out for which it has no
    text. -/
theorem answerFault_behaves (stage : Stage) (title : String) {f : Fault}
    (hf : k.raises f) (line : Value) :
    Behaves k home Whatever G (answerFault execute stage title f line) := by
  rw [answerFault]
  split
  · rename_i cause hcause
    exact .throw (hG.texts f cause hf hcause)
  · exact reportFault_behaves hx hh hG stage title f line

theorem guarded_behaves {step : Run Value}
    (h : Behaves k home Whatever k.raises step) (stage : Stage)
    (line : Value) :
    Behaves k home Whatever G (guarded execute stage step line) := by
  refine .contain h hG.escapes ?_
  intro f hf
  exact answerFault_behaves hx hh hG _ _ hf _

omit hG in
theorem follow_behaves (line : Line) {route : Route}
    (hr : ∀ b, route = .handler b → b.Keeps k) :
    Behaves k home Whatever k.raises (follow execute line route) := by
  cases route with
  | empty => exact firstResult_behaves hx hh _ _ _
  | quit => exact callShell_behaves hx hh _ _
  | help => exact callShell_behaves hx hh _ _
  | escape argv => exact callShell_behaves hx hh _ _
  | handler b => exact callBound_behaves hx hh (hr b rfl) _
  | unknown => exact firstResult_behaves hx hh _ _ _

/-- Whatever the route of a line comes to is contained within its
    overlay. -/
theorem dispatch_behaves (line : Line) (raw : Value) :
    Behaves k home Whatever G (dispatch execute line raw) := by
  refine withOverlay_behaves (.contain ?_ hG.escapes ?_) _
  · refine .get_bind ?_
    intro s hs
    exact follow_behaves hx hh line fun b hb =>
      (hs.keeps hh).registry.route hb
  · intro f hf
    exact answerFault_behaves hx hh hG _ _ hf _

omit hG in
/-- Rewriting and splitting a line raises what code raises; a line that is
    no text is refused with a plain fault.  What is known of the faults of
    the shell is known of all. -/
theorem readRewritten_behaves {P : Fault → Prop} (line : Value)
    (hplain : ∀ f, f.isPlain = true → P f)
    (hsignal : ∀ f, f.isSignal = true → P f)
    (hprecmd : ∀ s, Steps k True home s → ∀ f s',
      callShell execute "precmd" [line] s = some (.error f, s') → P f) :
    Behaves k home Whatever (fun f => P f ∧ k.raises f)
      (readRewritten execute line) := by
  refine .bind (V := Whatever) ?_ ?_
  · refine .bind ((callShell_behaves hx hh _ _).with_faults hprecmd) ?_
    intro line _
    refine .get_bind ?_
    intro s _
    exact (callChain_behaves hx hh _ _ _ _).faults
      fun f hf => ⟨hsignal f hf.1, hf.2⟩
  · intro line _
    refine .bind identity_behaves ?_
    intro me _
    refine .ofAnswer ?_
    cases h : Line.ofValue me line with
    | ok split => trivial
    | error f =>
        exact ⟨hplain f (Line.ofValue_plain h), k.plain (Line.ofValue_plain h)⟩

/-- A line that was not read is bad, or the rewriting of it failed. -/
theorem answerUnread_behaves {f : Fault} (hf : k.raises f)
    (hreason : ∀ g, f.lineReason? = some (.error g) → G g) (line : Value) :
    Behaves k home Whatever G (answerUnread execute f line) := by
  rw [answerUnread]
  split
  · rename_i told htold
    cases told with
    | error g =>
        refine .bind (V := fun _ => False) (.throw (hreason g htold)) ?_
        intro _ hnone
        cases hnone
    | ok reason =>
        refine .bind (V := Whatever) (.pure trivial) ?_
        intro _ _
        refine .bind (record_behaves _) ?_
        intro _ _
        exact hG.formats f (Fault.textFault?_of_lineReason? htold)
  · split
    · rename_i hsignal
      exact .throw (hG.escapes f ⟨hsignal, hf⟩)
    · exact answerFault_behaves hx hh hG _ _ hf _

theorem lineResult_behaves (line : Value) :
    Behaves k home Whatever G (lineResult execute line) := by
  have hread := readRewritten_behaves hx hh line
    (P := fun f => ∀ g, f.lineReason? = some (.error g) → G g) ?_ ?_
    fun s hs f s' he g => hG.reasons s hs line f g s' he
  · refine .bind hread.attempt ?_
    intro r hr
    cases r with
    | ok split => exact dispatch_behaves hx hh hG _ _
    | error f => exact answerUnread_behaves hx hh hG hr.2 hr.1 line
  -- neither a plain fault nor a signal is a bad line without a reason
  · intro f hf g hg
    cases f with
    | unexplained kind text => cases hf
    | _ => cases hg
  · intro f hf g hg
    cases f with
    | unexplained kind text => cases hf
    | _ => cases hg

theorem rewriteResult_behaves (result line : Value) :
    Behaves k home Whatever G (rewriteResult execute result line) := by
  refine .bind (callShell_behaves hx hh _ _).attempt ?_
  intro r hr
  split
  · refine .get_bind ?_
    intro s _
    exact (callChain_behaves hx hh _ _ _ _).faults hG.escapes
  · split
    · rename_i f hsignal
      exact .throw (hG.escapes f ⟨hsignal, hr⟩)
    · exact answerFault_behaves hx hh hG _ _ hr _

/-- A whole line lets through signals, what comes out of attempts to answer
    a fault, and what the shell raises while it makes a text of one. -/
theorem runLine_behaves (line : Value) :
    Behaves k home Whatever G (runLine execute line) := by
  refine .bind (lineResult_behaves hx hh hG line) ?_
  intro result _
  exact rewriteResult_behaves hx hh hG result line

end Lines

end Run

end LineShell
