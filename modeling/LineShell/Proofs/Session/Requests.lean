import LineShell.Proofs.Session.Dialogue

/-! # Requests — code that keeps a conduct, executed

    What a session does for a request behaves, request by request, when
    the code it executes on the way keeps its conduct.  Executing a
    program asks for one thing after the other, so it behaves by induction
    on the program (`perform_behaves`), and executing to a depth of calls
    does by induction on the depth (`executeWithin_keeps`).  There is no
    further assumption: this holds of every program that keeps a conduct,
    at every depth. -/

namespace LineShell

namespace Run

variable {k : Conduct} {execute : Executor} {home : Session}

/-! ## The environment -/

theorem nameOf_behaves (name : Value) :
    Behaves k home Whatever k.raises (nameOf name) := by
  rw [nameOf]
  split
  · refine .bind identity_behaves ?_
    intro me _
    exact .throw (k.plain rfl)
  · exact .pure trivial

theorem find?_behaves (name : Value) :
    Behaves k home Whatever k.raises (find? name) := by
  refine .bind (nameOf_behaves name) ?_
  intro key _
  refine .get_bind ?_
  intro s _
  exact .pure trivial

/-- The fault of a missing name is plain. -/
theorem throw_missing_behaves {α : Type} (name : Value) :
    Behaves k home Whatever k.raises
      (do throw (← missing name) : Run α) := by
  refine .bind (V := k.raises) ?_ ?_
  · refine .bind identity_behaves ?_
    intro me _
    exact .pure (k.plain rfl)
  · intro f hf
    exact .throw hf

theorem variableOf_behaves (name : Value) :
    Behaves k home Whatever k.raises (variableOf name) := by
  refine .bind (find?_behaves name) ?_
  intro v _
  cases v with
  | none => exact throw_missing_behaves name
  | some v => exact .pure trivial

theorem setVariable_behaves (name v : Value) :
    Behaves k home Whatever k.raises (setVariable name v) := by
  refine .bind (nameOf_behaves name) ?_
  intro key _
  refine .bind identity_behaves ?_
  intro me _
  exact .changed fun _ _ => .assigned _ _

theorem setVariables_behaves (pairs : List (String × Value)) :
    Behaves k home Whatever k.raises (setVariables pairs) := by
  refine .forM ?_
  intro pair _
  exact setVariable_behaves _ _

theorem removeVariable_behaves (name : Value) :
    Behaves k home Whatever k.raises (removeVariable name) := by
  refine .bind (variableOf_behaves name) ?_
  intro _ _
  exact .changed fun _ _ => .unset _

theorem pushOverlay_behaves (pairs : List (String × Value)) :
    Behaves k home Whatever k.raises (pushOverlay pairs) := by
  refine .bind (enterOverlay_behaves _) ?_
  intro saved _
  exact .changed fun _ _ => .remembered _

theorem dropOverlay_behaves (index : Nat) :
    Behaves k home Whatever k.raises (dropOverlay index) := by
  refine .get_bind ?_
  intro s _
  split
  · refine .bind (.changed fun _ _ => .remembered _) ?_
    intro _ _
    exact leaveOverlay_behaves _
  · exact .pure trivial

/-- A look at the session that is answered with what is seen. -/
theorem Behaves.look {α : Type} {F : Fault → Prop} (see : Session → α) :
    Behaves k home Whatever F (do pure (see (← get))) := by
  refine .get_bind ?_
  intro s _
  exact .pure trivial

theorem answerEnvironment_behaves (r : EnvironmentRequest) :
    Behaves k home Whatever k.raises (answerEnvironment r) := by
  cases r with
  | set name v => exact (setVariable_behaves name v).giving _
  | get name => exact variableOf_behaves name
  | delete name => exact (removeVariable_behaves name).giving _
  | contains name =>
      refine .bind (find?_behaves name) ?_
      intro v _
      exact .pure trivial
  | update pairs => exact (setVariables_behaves _).giving _
  | lookup name fallback =>
      refine .bind (find?_behaves name) ?_
      intro v _
      exact .pure trivial
  | pop name fallback =>
      refine .bind (find?_behaves name) ?_
      intro v _
      cases v with
      | some v =>
          exact (removeVariable_behaves name).giving _
      | none =>
          cases fallback with
          | some fallback => exact .pure trivial
          | none => exact throw_missing_behaves name
  | popFirst =>
      refine .get_bind ?_
      intro s _
      split
      · exact .throw (k.plain rfl)
      · exact Behaves.giving (.changed fun _ _ => .unset _) _
  | setDefault name fallback =>
      refine .bind (find?_behaves name) ?_
      intro v _
      cases v with
      | some v => exact .pure trivial
      | none =>
          exact (setVariable_behaves name fallback).giving _
  | clear => exact .giving (.changed fun _ _ => .cleared) _
  | enter pairs =>
      exact (pushOverlay_behaves pairs).giving _
  | leave index f =>
      exact (dropOverlay_behaves index).giving _
  | _ => exact .look _

/-! ## Help and completion -/

section Code

variable (hx : execute.Keeps k) (hh : home.Keeps k)
include hx hh

/-- A member that is called for an answer: where it fails, that is
    recorded, and there is none. -/
theorem callOrRecord_behaves {b : Bound} (hb : b.Keeps k) (call : Call)
    (events : List Event) :
    Behaves k home Whatever k.raises
      (contain (callBound execute b call) fun _ => do
        record events
        pure .null) := by
  refine .contain (callBound_behaves hx hh hb call) (fun f hf => hf.2) ?_
  intro f _
  exact (record_behaves events).giving _

theorem helpFrom_behaves {b : Bound} (hb : b.Keeps k) (topic : String)
    (args : List Value) :
    Behaves k home Whatever k.raises (helpFrom execute b topic args) := by
  refine .bind (callOrRecord_behaves hx hh hb _ _) ?_
  intro v _
  split
  · exact .pure trivial
  · exact identity_behaves.giving _

theorem helpText_behaves (args : List Value) :
    Behaves k home Whatever k.raises (helpText execute args) := by
  cases args with
  | nil => exact .look _
  | cons topic args =>
      refine .get_bind ?_
      intro s hs
      extract_lets shown
      split
      · exact .throw (k.plain rfl)
      · split
        · rename_i b hb
          obtain ⟨name, _, hhelper⟩ := Option.bind_eq_some_iff.mp hb
          exact helpFrom_behaves hx hh
            ((hs.keeps hh).registry.helper? hhelper) _ _
        · exact .pure trivial
        · exact .pure trivial

theorem completerItems_behaves {b : Bound} (hb : b.Keeps k)
    (command typed line : String) (start : Int) :
    Behaves k home Whatever k.raises
      (completerItems execute command b typed line start) := by
  refine .bind (callOrRecord_behaves hx hh hb _ _) ?_
  intro v _
  split
  · split
    · exact .pure trivial
    · refine .bind identity_behaves ?_
      intro me _
      exact .throw (k.plain rfl)
  · exact .pure trivial

theorem complete_behaves (typed line : String) (start : Int) :
    Behaves k home Whatever k.raises (complete execute typed line start) := by
  refine .get_bind ?_
  intro s hs
  split
  · exact .pure trivial
  · split
    · exact .pure trivial
    · split
      · exact .pure trivial
      · rename_i b hb
        refine .bind (completerItems_behaves hx hh
          ((hs.keeps hh).registry.completer? hb) _ _ _ _) ?_
        intro items _
        exact identity_behaves.giving _

theorem completeWord_behaves (text : String) (cursor : Int) :
    Behaves k home Whatever k.raises (completeWord execute text cursor) := by
  simp only [completeWord]
  split
  · exact .throw (k.plain rfl)
  · exact (complete_behaves hx hh _ _ _).giving _

/-! ## Prompts -/

theorem applyPrompt_behaves (use : PromptUse) {p : Except Fault Prompt}
    (hp : Result (Prompt.Keeps k) k.raises p) :
    Behaves k home Whatever k.raises (applyPrompt execute use p) := by
  refine .bind (.ofAnswer hp) ?_
  intro p hp
  cases use with
  | render =>
      exact (render_behaves hx hh hp).giving _
  | _ => exact .giving (.changed fun _ _ => .prompted hp) _

end Code

/-! ## Registration -/

/-- Where a hook is refused, what was done for the hooks before it stays,
    unless it is taken back. -/
theorem registerExtension_error {c : Class} {serial : Nat}
    {name : Option String} {s : Session} {f : Fault} {e : Extensions}
    (h : s.extensions.register c ((givenName? name).getD (serialName serial))
      serial ((givenName? name).getD c.name) = (.error f, e)) :
    registerExtension c serial name s =
      some (.error f, s.refused e) := by
  rw [registerExtension, get_bind_eq]
  simp only [h]
  rfl

/-- Registering an extension puts its hooks in place, and then what it
    handles. -/
theorem registerExtension_ok {c : Class} {serial : Nat}
    {name : Option String} {s : Session} {e : Extensions}
    (h : s.extensions.register c ((givenName? name).getD (serialName serial))
      serial ((givenName? name).getD c.name) = (.ok (), e)) :
    registerExtension c serial name s =
      some (.ok ((givenName? name).getD (serialName serial)), { s with
        extensions := e
        registry := s.registry.scan c
          ((givenName? name).getD (serialName serial))
        events := s.events ++ [.extensionRegistered
          ((givenName? name).getD (serialName serial))] }) := by
  rw [registerExtension, get_bind_eq]
  simp only [h]
  rfl

/-- Registering is refused, or the hooks are put in place. -/
theorem registerExtension_cases (c : Class) (serial : Nat)
    (name : Option String) (s : Session) :
    (∃ f e,
      s.extensions.register c ((givenName? name).getD (serialName serial))
        serial ((givenName? name).getD c.name) = (.error f, e) ∧
      registerExtension c serial name s = some (.error f, s.refused e)) ∨
    ∃ e,
      s.extensions.register c ((givenName? name).getD (serialName serial))
        serial ((givenName? name).getD c.name) = (.ok (), e) ∧
      registerExtension c serial name s =
        some (.ok ((givenName? name).getD (serialName serial)), { s with
          extensions := e
          registry := s.registry.scan c
            ((givenName? name).getD (serialName serial))
          events := s.events ++ [.extensionRegistered
            ((givenName? name).getD (serialName serial))] }) := by
  obtain ⟨⟨r, e⟩, hr⟩ :
      ∃ result, s.extensions.register c
        ((givenName? name).getD (serialName serial)) serial
        ((givenName? name).getD c.name) = result := ⟨_, rfl⟩
  cases r with
  | error f => exact .inl ⟨f, e, hr, registerExtension_error hr⟩
  | ok _ => exact .inr ⟨e, hr, registerExtension_ok hr⟩

/-- However it ends, it changes what is registered and nothing else. -/
theorem registerExtension_frame {c : Class} {serial : Nat}
    {name : Option String} {s s' : Session} {r : Except Fault String}
    (h : registerExtension c serial name s = some (r, s')) :
    ∃ extensions registry events,
      s' = { s with extensions, registry, events } := by
  rcases registerExtension_cases c serial name s with
    ⟨f, e, -, hend⟩ | ⟨e, -, hend⟩
  · rw [hend] at h
    cases h
    rw [Session.refused]
    split
    · exact ⟨_, _, _, rfl⟩
    · exact ⟨_, _, _, rfl⟩
  · rw [hend] at h
    cases h
    exact ⟨_, _, _, rfl⟩

/-- A refused extension leaves at most hooks behind. -/
theorem registerExtension_behaves {c : Class} (hc : home.Knows c)
    (serial : Nat) (name : Option String) :
    Behaves k home Whatever k.raises (registerExtension c serial name) := by
  intro s hs
  have hhooks : Steps k k.Reads s { s with
      extensions := (s.extensions.register c
        ((givenName? name).getD (serialName serial)) serial
        ((givenName? name).getD c.name)).2 } :=
    .single (.extended (hs.knows hc) _ _ _)
  rcases registerExtension_cases c serial name s with
    ⟨f, e, hr, hend⟩ | ⟨e, hr, hend⟩
  · rw [hr] at hhooks
    refine ⟨.error f, _, hend, ?_,
      k.plain (Extensions.register_plain (congrArg Prod.fst hr))⟩
    rw [Session.refused]
    split
    · exact .refl
    · exact hhooks
  · rw [hr] at hhooks
    refine ⟨_, _, hend, ?_, True.intro⟩
    have hknows : Session.Knows { s with extensions := e } c := hs.knows hc
    exact (hhooks.tail (.scanned hknows _)).tail (.recorded _)

theorem registerNew_behaves {c : Class} (hc : home.Knows c)
    (name : Option String) (twice : Bool) :
    Behaves k home Whatever k.raises (registerNew c name twice) := by
  refine .bind (V := Whatever) ?_ ?_
  · refine .get_bind ?_
    intro s _
    exact Behaves.giving (.changed fun _ _ => .numbered _) _
  · intro serial _
    refine .bind (registerExtension_behaves hc _ _) ?_
    intro first _
    split
    · exact (registerExtension_behaves hc _ _).giving _
    · exact .pure trivial

/-! ## Answers -/

theorem classOf_behaves (name : String) :
    Behaves k home home.Knows k.raises (classOf name) := by
  refine .get_bind ?_
  intro s hs
  split
  · rename_i c hc
    rw [hs.catalogue_eq] at hc
    exact .pure ⟨name, hc⟩
  · exact .throw (k.plain rfl)

theorem fileText_behaves (path : String) :
    Behaves k home Whatever k.raises (fileText path) := by
  refine .get_bind ?_
  intro s _
  extract_lets files p
  split
  · split
    · exact .pure trivial
    · exact .throw (k.plain rfl)
  · split <;> exact .pure trivial

theorem recorded_behaves {α : Type} {V : α → Prop} {F : Fault → Prop}
    {result : Except Fault α × List Event} (h : Result V F result.1) :
    Behaves k home V F (recorded result) := by
  refine .bind (record_behaves _) ?_
  intro _ _
  exact .ofAnswer h

theorem loadHistory_behaves (path : Option String) :
    Behaves k home Whatever k.raises (loadHistory path) := by
  refine .get_bind ?_
  intro s _
  refine .bind (V := Whatever) (recorded_behaves ?_) ?_
  · cases h : (History.load s.files s.world.homes
        (path.map Path.ofText)).1 with
    | ok entries => trivial
    | error f => exact k.plain (History.load_plain h)
  · intro entries _
    exact .pure trivial

theorem saveHistory_behaves (path : Option String) (entries : List String)
    (limit : Int) :
    Behaves k home Whatever k.raises (saveHistory path entries limit) := by
  intro s _
  let saved := History.save s.files s.world.homes entries limit
    (path.map Path.ofText)
  refine ⟨saved.2.1.map fun _ => .null, _, ?_, filed_recorded s saved.1
    saved.2.2, ?_⟩
  · show (do ofAnswer saved.2.1; pure Value.null : Run Value) _ = _
    cases saved.2.1 <;> rfl
  · cases h : saved.2.1 with
    | ok _ => trivial
    | error f => exact k.plain (History.save_plain h)

theorem needsPaging_behaves (text : String) :
    Behaves k home Whatever k.raises (needsPaging text) := by
  refine .get_bind ?_
  intro s _
  split <;> exact .pure trivial

theorem attributeOf_behaves (owner : Option Class) (name : String) :
    Behaves k home Whatever k.raises (attributeOf owner name) := by
  rw [attributeOf]
  split
  · exact .pure trivial
  · exact .pure trivial
  · exact .throw (k.plain rfl)

theorem setHistory_behaves {F : Fault → Prop} (entries : List String) :
    Behaves k home Whatever F (setHistory entries) :=
  .changed fun _ _ => .recalled entries

section Running

variable (hx : execute.Keeps k) (hh : home.Keeps k)
include hx hh

theorem sayAt_behaves (stage : Stage) :
    Behaves k home Whatever k.raises (sayAt execute stage) := by
  refine .bind (guarded_behaves hx hh (.all hx hh)
    (firstResult_behaves hx hh _ _ _) stage .null) ?_
  intro v _
  exact emitPresent_behaves (emit_behaves hx hh v)

theorem takeLeave_behaves :
    Behaves k home Whatever k.raises (takeLeave execute) := by
  refine .bind (.changed fun _ _ => .moved _) ?_
  intro _ _
  refine .bind (sayAt_behaves hx hh _) ?_
  intro _ _
  refine .bind persist_behaves ?_
  intro _ _
  exact .changed fun _ _ => .moved _

/-- Where code may read lines, the conversation of a nested session is
    one more way to read them. -/
theorem conversation_behaves (hr : k.Reads) :
    Behaves k home Whatever k.Meets (conversation execute) := by
  intro s hs
  obtain ⟨acts, e, s', hl, he⟩ := conversation_follows hx hh hs
  have hacts := fun a ha => act_behaves hx hh (a := a) ha
  have ht : Steps k True s (s'.recorded e.outcome.2) :=
    (hl.steps hh hacts hs).tail (.recorded _)
  refine ⟨_, _, he, ht.mono fun _ => hr, ?_⟩
  refine e.result_outcome ?_
  rintro a f rfl
  obtain ⟨hcode, hsource⟩ := hl.fault_of hh hacts hs
  cases ha : a.isRead with
  | true => exact hsource ha
  | false => exact Or.inl (hcode ha)

theorem session_behaves (hr : k.Reads) :
    Behaves k home Whatever k.Meets (session execute) := by
  intro s hs
  by_cases hp : s.phase = .terminated
  · rw [session_over hp]
    exact record_behaves _ s hs
  · rw [session_begun hp]
    -- from here on the session is one that has begun
    have hbegun : Change k k.Reads s s.begun := .begun hp
    have hsay := fun stage =>
      (sayAt_behaves hx hh stage).faults (G := k.Meets) fun f hf => Or.inl hf
    have hrest : Behaves k home Whatever k.Meets (sessionFrom execute) := by
      refine .bind (hsay .intro) ?_
      intro _ _
      refine .bind (conversation_behaves hx hh hr) ?_
      intro _ _
      exact (takeLeave_behaves hx hh).faults fun f hf => Or.inl hf
    obtain ⟨r, s', he, ht, hresult⟩ :=
      hrest s.begun (hs.tail (hbegun.mono fun _ => trivial))
    exact ⟨r, s', he, .head hbegun ht, hresult⟩

theorem callResolved_behaves {b : Option Bound}
    (hb : ∀ c, b = some c → c.Keeps k) (args : List Value) :
    Behaves k home Whatever k.raises (callResolved execute b args) := by
  cases b with
  | none => exact .pure trivial
  | some c =>
      exact (callBound_behaves hx hh (hb c rfl) _).giving _

theorem answerRegistry_behaves (r : RegistryRequest) :
    Behaves k home Whatever k.raises (answerRegistry execute r) := by
  cases r with
  | scan className source =>
      refine .bind (classOf_behaves className) ?_
      intro c hc
      extract_lets label
      exact .giving (.changed fun _ hs =>
        .scanned (hs.knows hc) _) _
  | resolve role name args =>
      cases role with
      | handler =>
          refine .get_bind ?_
          intro s hs
          exact callResolved_behaves hx hh
            (fun c hc => (hs.keeps hh).registry.dispatch? hc) args
      | completer =>
          refine .get_bind ?_
          intro s hs
          exact callResolved_behaves hx hh
            (fun c hc => (hs.keeps hh).registry.completer? hc) args
      | help =>
          refine .get_bind ?_
          intro s hs
          split
          · rename_i b hb
            refine callResolved_behaves hx hh ?_ args
            intro c hc
            cases hc
            exact (hs.keeps hh).registry.helper? hb
          · exact .pure trivial
          · refine callResolved_behaves hx hh ?_ args
            intro c hc
            cases hc
  | ask args =>
      exact (helpText_behaves hx hh args).giving _
  | _ => exact .look _

theorem describe_behaves :
    Behaves k home Whatever k.raises (describe execute) := by
  refine .bind (renderPrompt_behaves hx hh (fun f hf => hf.2)
    (callShell_behaves hx hh _ _)) ?_
  intro prompt _
  exact .look _

omit hx in
theorem answerReader_behaves (r : ReaderRequest)
    (hr : (Request.reader r).listens = true → k.Reads) :
    Behaves k home Whatever
      (fun f => k.raises f ∨ (Request.reader r).listens = true ∧ k.hears f)
      (answerReader r) := by
  cases r with
  | readLine prompt keys =>
      refine .bind ((readLine_behaves hh (hr rfl) prompt keys).faults ?_) ?_
      · rintro f (hf | hf)
        · exact Or.inl hf
        · exact Or.inr ⟨rfl, hf⟩
      · intro line _
        exact .pure trivial
  | history => exact .look _
  | setHistory entries => exact (setHistory_behaves entries).giving _
  | persist => exact (persist_behaves.faults fun f hf => Or.inl hf).giving _

/-- Requests that cannot read a line raise what code raises. -/
theorem answerAny_behaves {frame : Frame} (hf : frame.Keeps k)
    {r : Request} (hl : r.listens = false) :
    Behaves k home Whatever k.raises (answerAny execute frame r) := by
  have hall : Reports k home k.raises execute := .all hx hh
  cases r with
  | inherited => exact callDefinitions_behaves hx hh hf _ _ _
  | trace v => exact (addTrace_behaves [v]).giving _
  | amend name change =>
      exact .giving (.changed fun _ _ => .amended name change) _
  | fileText path => exact fileText_behaves path
  | runLine line => exact runLine_behaves hx hh hall line
  | dispatch line raw => exact dispatch_behaves hx hh hall line raw
  | run => cases hl
  | quit => exact callShell_behaves hx hh _ _
  | help args => exact callShell_behaves hx hh _ _
  | escape args => exact callShell_behaves hx hh _ _
  | environment r => exact answerEnvironment_behaves r
  | emit v => exact callShell_behaves hx hh _ _
  | complete text line start =>
      exact (complete_behaves hx hh text line start).giving _
  | completeWord text cursor => exact completeWord_behaves hx hh text cursor
  | completions names =>
      refine .bind (V := Whatever) (.forM_option fun _ =>
        .changed fun _ _ => .dispatchable _) ?_
      intro _ _
      exact .look _
  | topics names =>
      refine .bind (V := Whatever) (.forM_option fun _ =>
        .changed fun _ _ => .topics _) ?_
      intro _ _
      exact .look _
  | history entries =>
      refine .bind (V := Whatever) (.forM_option setHistory_behaves) ?_
      intro _ _
      exact .look _
  | register className name twice =>
      refine .bind (classOf_behaves className) ?_
      intro c hc
      exact registerNew_behaves hc name twice
  | block name =>
      exact .giving (.changed fun _ _ => .blocked name) _
  | prompt use p args =>
      refine .bind identity_behaves ?_
      intro me _
      exact applyPrompt_behaves hx hh use (Prompt.result_ofPlain me p args)
  | renderPrompt =>
      exact renderPrompt_behaves hx hh (fun f hf => hf.2)
        (callShell_behaves hx hh _ _)
  | setOption name v =>
      exact .giving (.changed fun _ _ => .chosen name v) _
  | config name => cases name <;> exact .look _
  | callFirst hook params =>
      exact (callFirst_behaves hx hh hook params).faults fun f hf => hf.2
  | callChain hook key v params =>
      exact (callChain_behaves hx hh hook key v params).faults
        fun f hf => hf.2
  | notify stage fault line =>
      exact ((notify_behaves hx hh stage fault line).faults
        fun f hf => hf.2).giving _
  | describe => exact describe_behaves hx hh
  | registry r => exact answerRegistry_behaves hx hh r
  | reader r =>
      refine (answerReader_behaves hh r fun h => ?_).faults ?_
      · rw [hl] at h
        cases h
      · rintro f (hf | ⟨h, _⟩)
        · exact hf
        · rw [hl] at h
          cases h
  | loadHistory path => exact loadHistory_behaves path
  | saveHistory path entries limit =>
      exact saveHistory_behaves path entries limit
  | write text => exact (writeText_behaves text).giving _
  | needsPaging text => exact needsPaging_behaves text
  | stop => exact .giving (.changed fun _ _ => .stopped) _
  | helpText args =>
      exact (helpText_behaves hx hh args).giving _
  | launch argv => exact launch_behaves hh argv
  | writeLine v => exact (writeLine_behaves v).giving _
  | className => exact .pure trivial
  | «attribute» name => exact attributeOf_behaves _ name
  | _ => exact .look _

omit hx hh in
/-- A step about a member of the shell fails with a plain fault where
    there is none. -/
theorem withShell_behaves {F : Fault → Prop} {step : Run Value}
    (h : Behaves k home Whatever F step)
    (hF : ∀ f, f.isPlain = true → F f) (member : Option String) :
    Behaves k home Whatever F (withShell member step) := by
  refine .get_bind ?_
  intro s _
  split
  · exact .throw (hF _ rfl)
  · exact h

/-- Every request is answered; where it may read a line, the answer may
    be a fault of the source. -/
theorem answer_behaves {frame : Frame} (hf : frame.Keeps k) {r : Request}
    (hr : k.asks r) :
    Behaves k home Whatever
      (fun f => k.raises f ∨ r.listens = true ∧ k.hears f)
      (answer execute frame r) := by
  refine withShell_behaves ?_ (fun f hf => Or.inl (k.plain hf)) _
  cases hl : r.listens with
  | false =>
      exact (answerAny_behaves hx hh hf hl).faults fun f hf => Or.inl hf
  | true =>
      -- a nested session and a read are all that listens
      have hreads : k.Reads := ⟨r, hr, hl⟩
      cases r with
      | run =>
          refine .giving ((session_behaves hx hh hreads).faults ?_) _
          rintro f (hf | hf)
          · exact Or.inl hf
          · exact Or.inr ⟨rfl, hf⟩
      | reader r =>
          refine (answerReader_behaves hh r fun _ => hreads).faults ?_
          rintro f (hf | ⟨_, hf⟩)
          · exact Or.inl hf
          · exact Or.inr ⟨rfl, hf⟩
      | _ => cases hl

theorem answerPromptCode_behaves (use : PromptUse)
    {code : List Value → Program} (hc : ∀ args, (code args).Keeps k)
    (bound : Option (List Value)) (args : List Value) :
    Behaves k home Whatever k.raises
      (answerPromptCode execute use code bound args) :=
  withShell_behaves
    (applyPrompt_behaves hx hh use (Prompt.result_ofCode hc bound args))
    (fun _ hf => k.plain hf) _

/-! ## Execution -/

/-- Within one depth of calls, execution follows the program. -/
theorem perform_behaves {frame : Frame} (hf : frame.Keeps k) {p : Program}
    (hp : p.Keeps k) :
    Behaves k home Whatever k.raises (perform execute frame p) := by
  induction p with
  | done v => exact .pure trivial
  | fail f => exact .throw hp
  | request r next ih =>
      obtain ⟨hr, hn⟩ := hp
      -- the program goes on with any answer that its conduct allows for
      refine .bind (answer_behaves hx hh hf hr).attempt ?_
      intro a ha
      refine ih a (hn a ?_)
      cases a with
      | ok v => trivial
      | error f => exact ha
  | promptCode use code bound args next _ ih =>
      obtain ⟨hc, hok, herror⟩ := hp
      refine .bind (answerPromptCode_behaves hx hh use hc bound args).attempt ?_
      intro a ha
      cases a with
      | ok v => exact ih (.ok v) (hok v)
      | error f => exact ih (.error f) (herror f ha)

end Running

/-- Executing to a depth of calls keeps every conduct: a call too deep is
    a plain fault. -/
theorem executeWithin_keeps (depth : Nat) :
    Executor.Keeps k (executeWithin depth) := by
  induction depth with
  | zero =>
      intro home _ frame p _ _
      exact .throw (k.plain rfl)
  | succ depth ih =>
      intro home hh frame p hf hp
      exact perform_behaves ih hh hf hp

end Run

end LineShell
