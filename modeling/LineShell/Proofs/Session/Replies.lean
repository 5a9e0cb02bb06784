import LineShell.Proofs.Session.SessionAgreement
import LineShell.Proofs.Session.Requests

/-! # Replies — agreement of what code is answered

    Where two ways to execute code are in accord, requests are answered
    alike, request by request, unless they are about variables, about
    lines and sessions, or about what is registered (`answer_agree`).
    These others depend on the bond.  A bond that is *free* of the
    environment takes in variables and lines as well
    (`answer_agree_free`), and sessions if it is mobile.

    A program agrees with itself where its replies do
    (`performBy_agree`), by induction on the program. -/

namespace LineShell

/-- A request about what extensions are registered. -/
def Request.isRegistering : Request → Bool
  | .register .. => true
  | .block _ => true
  | .report => true
  | _ => false

/-- A request that is neither about variables, lines and sessions nor about
    extensions. -/
def Request.isPlain : Request → Bool
  | .runLine _ => false
  | .dispatch .. => false
  | .run => false
  | .environment _ => false
  | r => !r.isRegistering

namespace Run

variable {k : Conduct} {R : Session → Session → Prop} {x y : Executor}
variable {frame : Frame}

/-! ## Help and completion -/

section Answers

variable (hb : Bond k R) (hc : ∀ frame p, frame.Keeps k → p.Keeps k →
  Agree R (x frame p) (y frame p))
include hb hc

/-- A member that is called for an answer; where it fails, that is
    recorded. -/
theorem callOrRecord_agree {b : Bound} (hk : b.Keeps k) (call : Call)
    (events : List Event) :
    Agree R
      (contain (callBound x b call) fun _ => do
        record events
        pure .null)
      (contain (callBound y b call) fun _ => do
        record events
        pure .null) := by
  refine .contain (callBound_agree hb hc hk call) ?_
  intro f
  exact Agree.giving (.record hb _) _

theorem helpFrom_agree {b : Bound} (hk : b.Keeps k) (topic : String)
    (args : List Value) :
    Agree R (helpFrom x b topic args) (helpFrom y b topic args) := by
  refine .bind (callOrRecord_agree hb hc hk _ _) ?_
  intro v
  split
  · exact .pure _
  · exact Agree.giving (.identity hb) _

theorem helpText_agree (args : List Value) :
    Agree R (helpText x args) (helpText y args) := by
  cases args with
  | nil => exact .look hb fun _ => rfl
  | cons topic args =>
      refine .get_bind hb (fun _ => rfl) ?_
      intro s hs
      extract_lets shown
      split
      · exact .throw _
      · split
        · rename_i b hfound
          obtain ⟨name, _, hhelper⟩ := Option.bind_eq_some_iff.mp hfound
          exact helpFrom_agree hb hc (hs.registry.helper? hhelper) _ _
        · exact .pure _
        · exact .pure _

theorem completerItems_agree {b : Bound} (hk : b.Keeps k)
    (command typed line : String) (start : Int) :
    Agree R (completerItems x command b typed line start)
      (completerItems y command b typed line start) := by
  refine .bind (callOrRecord_agree hb hc hk _ _) ?_
  intro v
  split
  · split
    · exact .pure _
    · refine .bind (.identity hb) ?_
      intro me
      exact .throw _
  · exact .pure _

theorem complete_agree (typed line : String) (start : Int) :
    Agree R (complete x typed line start) (complete y typed line start) := by
  refine .get_bind hb (fun _ => rfl) ?_
  intro s hs
  split
  · exact .pure _
  · split
    · exact .pure _
    · split
      · exact .pure _
      · rename_i b hfound
        refine .bind (completerItems_agree hb hc
          (hs.registry.completer? hfound) _ _ _ _) ?_
        intro items
        exact Agree.giving (.identity hb) _

theorem completeWord_agree (text : String) (cursor : Int) :
    Agree R (completeWord x text cursor) (completeWord y text cursor) := by
  simp only [completeWord]
  split
  · exact .throw _
  · exact Agree.giving (complete_agree hb hc _ _ _) _

/-! ## Prompts, registry and reader -/

theorem applyPrompt_agree (use : PromptUse) {p : Except Fault Prompt}
    (hp : Result (Prompt.Keeps k) k.raises p) :
    Agree R (applyPrompt x use p) (applyPrompt y use p) := by
  refine .bind_where (V := Prompt.Keeps k) (.ofAnswer p) ?_ ?_
  · intro s t _ q s' he
    cases p with
    | ok p =>
        cases he
        exact hp
    | error f => cases he
  · intro q hq
    cases use with
    | render => exact Agree.giving (render_agree hb hc hq) _
    | _ => exact Agree.giving (.updated hb (.prompted hq)) _

theorem callResolved_agree {b : Option Bound}
    (hk : ∀ c, b = some c → c.Keeps k) (args : List Value) :
    Agree R (callResolved x b args) (callResolved y b args) := by
  cases b with
  | none => exact .pure _
  | some c => exact Agree.giving (callBound_agree hb hc (hk c rfl) _) _

theorem describe_agree : Agree R (describe x) (describe y) := by
  refine .bind (renderPrompt_agree hb hc) ?_
  intro prompt
  exact .look hb fun _ => rfl

omit hc in
theorem classOf_agree (name : String) :
    Agree R (classOf name) (classOf name) := by
  refine .get_bind hb (fun _ => rfl) ?_
  intro s _
  split
  · exact .pure _
  · exact .throw _

omit hb hc in
/-- A class that is found is in the catalogue. -/
theorem find_of_classOf {name : String} {c : Class} {s s' : Session}
    (h : classOf name s = some (.ok c, s')) :
    s.catalogue.find? name = some c := by
  rw [classOf, get_bind_eq] at h
  cases hfound : s.catalogue.find? name with
  | some c' =>
      rw [hfound] at h
      cases h
      rfl
  | none =>
      rw [hfound] at h
      cases h

omit hc in
theorem modifyRegistry_agree {g : Registry → Registry}
    (hg : ∀ r : Registry, r.Keeps k → (g r).Keeps k) :
    Agree R (modifyRegistry g) (modifyRegistry g) :=
  .updated hb (.registered hg)

theorem answerRegistry_agree (r : RegistryRequest) :
    Agree R (answerRegistry x r) (answerRegistry y r) := by
  cases r with
  | scan className source =>
      refine .bind_where (V := Class.Keeps k) (classOf_agree hb _) ?_ ?_
      · intro s t hr c s' he
        exact (hb.keeps hr).catalogue _ _ (find_of_classOf he)
      · intro c hk
        exact Agree.giving
          (modifyRegistry_agree hb fun r hr => hr.scan hk _) _
  | resolve role name args =>
      cases role with
      | handler =>
          refine .get_bind hb (fun _ => rfl) ?_
          intro s hs
          exact callResolved_agree hb hc
            (fun c hfound => hs.registry.dispatch? hfound) args
      | completer =>
          refine .get_bind hb (fun _ => rfl) ?_
          intro s hs
          exact callResolved_agree hb hc
            (fun c hfound => hs.registry.completer? hfound) args
      | help =>
          refine .get_bind hb (fun _ => rfl) ?_
          intro s hs
          split
          · rename_i b hfound
            refine callResolved_agree hb hc ?_ args
            intro c heq
            cases heq
            exact hs.registry.helper? hfound
          · exact .pure _
          · exact .pure _
  | ask args => exact Agree.giving (helpText_agree hb hc args) _
  | _ => exact .look hb fun _ => rfl

omit hc in
theorem answerReader_agree (r : ReaderRequest) :
    Agree R (answerReader r) (answerReader r) := by
  cases r with
  | readLine prompt keys => exact Agree.giving (.readLine hb _ _) _
  | history => exact .look hb fun _ => rfl
  | setHistory entries => exact Agree.giving (.updated hb (.recalled _)) _
  | persist => exact Agree.giving (.persist hb) _

omit hc in
theorem fileText_agree (path : String) :
    Agree R (fileText path) (fileText path) := by
  refine .get_bind hb (fun s => by simp only [Session.core]) ?_
  intro s _
  extract_lets files p
  split
  · split
    · exact .pure _
    · exact .throw _
  · split <;> exact .pure _

omit hc in
theorem loadHistory_agree (path : Option String) :
    Agree R (loadHistory path) (loadHistory path) := by
  refine .get_bind hb (fun _ => rfl) ?_
  intro s _
  refine .bind ?_ fun entries => .pure _
  refine .bind (.record hb _) ?_
  intro _
  exact .ofAnswer _

omit hb hc in
/-- Writing a history file is writing it, and a record of it. -/
theorem saveHistory_eq (path : Option String) (entries : List String)
    (limit : Int) (s : Session) :
    saveHistory path entries limit s =
      some ((History.save s.files s.world.homes entries limit
          (path.map Path.ofText)).2.1.map fun _ => .null,
        { s with
          files := (History.save s.files s.world.homes entries limit
            (path.map Path.ofText)).1
          events := s.events ++ (History.save s.files s.world.homes entries
            limit (path.map Path.ofText)).2.2 }) := by
  rw [saveHistory]
  show (do
    ofAnswer (History.save s.files s.world.homes entries limit
      (path.map Path.ofText)).2.1
    pure Value.null : Run Value) _ = _
  cases (History.save s.files s.world.homes entries limit
    (path.map Path.ofText)).2.1 <;> rfl

omit hc in
theorem saveHistory_agree (path : Option String) (entries : List String)
    (limit : Int) :
    Agree R (saveHistory path entries limit)
      (saveHistory path entries limit) :=
  .of_eq hb (saveHistory_eq path entries limit) (.filed fun _ => rfl)
    fun _ => rfl

omit hc in
theorem needsPaging_agree (text : String) :
    Agree R (needsPaging text) (needsPaging text) := by
  refine .get_bind hb (fun _ => rfl) ?_
  intro s _
  split <;> exact .pure _

end Answers

/-! ## Requests -/

section Requests

variable (hb : Bond k R) (ha : Accord k R x y)
include hb ha

omit ha in
/-- What is set is set on both sides, and seen on both sides. -/
theorem replaced_agree {α : Type} (names : Option (List String))
    {replace : List String → Run PUnit} {see : Session → α}
    (hreplace : ∀ names, Agree R (replace names) (replace names))
    (hcore : ∀ s, see s = see s.core) :
    Agree R
      (do
        names.forM replace
        pure (see (← get)))
      (do
        names.forM replace
        pure (see (← get))) := by
  refine .bind (.forM_option hreplace) ?_
  intro _
  exact .look hb hcore

theorem answerAny_agree (hf : frame.Keeps k) {r : Request}
    (hm : Recalls R r) (hr : r.isPlain = true) :
    Agree R (answerAny x frame r) (answerAny y frame r) := by
  cases r with
  | inherited => exact callDefinitions_agree hb ha.code hf _ _ _
  | trace v => exact Agree.giving (.addTrace hb _) _
  | kept name => exact .kept hm
  | amend name change => exact Agree.giving (.amend hb name change) _
  | fileText path => exact fileText_agree hb path
  | quit => exact callShell_agree hb ha.code _ _
  | help args => exact callShell_agree hb ha.code _ _
  | escape args => exact callShell_agree hb ha.code _ _
  | emit v => exact callShell_agree hb ha.code _ _
  | complete text line start =>
      exact Agree.giving (complete_agree hb ha.code _ _ _) _
  | completeWord text cursor => exact completeWord_agree hb ha.code _ _
  | completions names =>
      refine replaced_agree hb names (fun names => ?_) fun _ => rfl
      exact modifyRegistry_agree hb fun r hr =>
        ⟨hr.handlers, hr.helpers, hr.completers⟩
  | topics names =>
      refine replaced_agree hb names (fun names => ?_) fun _ => rfl
      exact modifyRegistry_agree hb fun r hr =>
        ⟨hr.handlers, hr.helpers, hr.completers⟩
  | history entries =>
      refine replaced_agree hb entries (fun entries => ?_) fun _ => rfl
      exact .updated hb (.recalled entries)
  | prompt use p args =>
      refine .bind (.identity hb) ?_
      intro me
      exact applyPrompt_agree hb ha.code use (Prompt.result_ofPlain me p args)
  | renderPrompt => exact renderPrompt_agree hb ha.code
  | setOption name v => exact Agree.giving (.updated hb (.chosen name v)) _
  | config name => cases name <;> exact .look hb fun _ => rfl
  | callFirst hook params => exact ha.first hook params
  | callChain hook key v params => exact ha.chain hook key v params
  | notify stage fault line => exact Agree.giving (ha.notify _ _ _) _
  | describe => exact describe_agree hb ha.code
  | registry r => exact answerRegistry_agree hb ha.code r
  | reader r => exact answerReader_agree hb r
  | loadHistory path => exact loadHistory_agree hb path
  | saveHistory path entries limit => exact saveHistory_agree hb _ _ _
  | write text => exact Agree.giving (.writeText hb _) _
  | needsPaging text => exact needsPaging_agree hb text
  | stop => exact Agree.giving (.updated hb .stopped) _
  | helpText args => exact Agree.giving (helpText_agree hb ha.code args) _
  | launch argv => exact .launch hb argv
  | writeLine v => exact Agree.giving (.writeLine hb v) _
  | className => exact .pure _
  | «attribute» name =>
      simp only [answerAny, attributeOf]
      split
      · exact .pure _
      · exact .pure _
      · exact .throw _
  | runLine line => cases hr
  | dispatch line raw => cases hr
  | run => cases hr
  | environment r => cases hr
  | register className name twice => cases hr
  | block name => cases hr
  | report => cases hr
  | _ => exact .look hb fun _ => rfl

omit ha in
/-- Steps about a member of the shell agree where the steps do. -/
theorem withShell_agree {α : Type} {step₁ step₂ : Run α}
    (h : Agree R step₁ step₂) (member : Option String) :
    Agree R (withShell member step₁) (withShell member step₂) := by
  refine .get_bind hb (fun _ => rfl) ?_
  intro s _
  split
  · exact .throw _
  · exact h

theorem answer_agree (hf : frame.Keeps k) {r : Request}
    (hm : Recalls R r) (hr : r.isPlain = true) :
    Agree R (answer x frame r) (answer y frame r) :=
  withShell_agree hb (answerAny_agree hb ha hf hm hr) _

omit ha in
/-- A class is registered alike on both sides if every object is, of those
    that the class and the number can be. -/
theorem register_agree {className : String} {name : Option String}
    {twice : Bool} {V : Class → Prop} {W : Nat → Prop}
    (hv : ∀ s t, R s t → ∀ c, s.catalogue.find? className = some c → V c)
    (hw : ∀ s t, R s t → W s.serial)
    (hnew : Agree R newExtension newExtension)
    (hregister : ∀ c n, V c → W n →
      Agree R (registerExtension c n name) (registerExtension c n name)) :
    Agree R (do registerNew (← classOf className) name twice)
      (do registerNew (← classOf className) name twice) := by
  refine .bind_where (V := V) (classOf_agree hb className) ?_ ?_
  · intro s t hr c s' he
    exact hv s t hr c (find_of_classOf he)
  · intro c hc
    refine .bind_where (V := W) hnew ?_ ?_
    · intro s t hr n s' he
      cases he
      exact hw s t hr
    · intro n hn
      refine .bind (hregister c n hc hn) ?_
      intro first
      split
      · exact .giving (hregister c n hc hn) _
      · exact .pure _

theorem answerPromptCode_agree (use : PromptUse)
    {code : List Value → Program} (hk : ∀ args, (code args).Keeps k)
    (bound : Option (List Value)) (args : List Value) :
    Agree R (answerPromptCode x use code bound args)
      (answerPromptCode y use code bound args) :=
  withShell_agree hb
    (applyPrompt_agree hb ha.code use (Prompt.result_ofCode hk bound args)) _

end Requests

/-! ## Programs -/

/-- What a program is told when it asks. -/
structure Replies where
  request : Request → Run Value
  prompt : PromptUse → (List Value → Program) → Option (List Value) →
    List Value → Run Value

/-- The replies that code in a frame gets. -/
def Replies.within (execute : Executor) (frame : Frame) : Replies :=
  ⟨answer execute frame, answerPromptCode execute⟩

/-- Executes a program that gets replies. -/
def performBy (a : Replies) : Program → Run Value
  | .done v => pure v
  | .fail f => throw f
  | .request r next => do performBy a (next (← (a.request r).attempt))
  | .promptCode use code bound args next => do
      performBy a (next (← (a.prompt use code bound args).attempt))

theorem perform_eq (execute : Executor) (frame : Frame) (p : Program) :
    perform execute frame p = performBy (.within execute frame) p := by
  induction p with
  | done v => rfl
  | fail f => rfl
  | request r next ih =>
      rw [perform, performBy]
      simp only [ih]
      rfl
  | promptCode use code bound args next _ ih =>
      rw [perform, performBy]
      simp only [ih]
      rfl

/-- Replies that agree, and that the conduct allows for. -/
structure Replies.Agree (k : Conduct) (R : Session → Session → Prop)
    (a b : Replies) : Prop where
  request : ∀ r, k.asks r → Run.Agree R (a.request r) (b.request r)
  allowed : ∀ r, k.asks r → ∀ s t, R s t → ∀ reply s',
    a.request r s = some (reply, s') → k.MayAnswer r reply
  prompt : ∀ use code bound args, (∀ args, (code args).Keeps k) →
    Run.Agree R (a.prompt use code bound args) (b.prompt use code bound args)
  raised : ∀ use code bound args, (∀ args, (code args).Keeps k) →
    ∀ s t, R s t → ∀ f s',
      a.prompt use code bound args s = some (.error f, s') → k.raises f

/-- A program agrees with itself where the replies do that it gets. -/
theorem performBy_agree {a b : Replies} (h : Replies.Agree k R a b)
    {p : Program} (hp : p.Keeps k) :
    Agree R (performBy a p) (performBy b p) := by
  induction p with
  | done v => exact .pure v
  | fail f => exact .throw f
  | request r next ih =>
      obtain ⟨hr, hn⟩ := hp
      refine .bind_where (V := k.MayAnswer r) (h.request r hr).attempt ?_ ?_
      · intro s t hst reply s' he
        exact h.allowed r hr s t hst reply s' (of_attempt he)
      · intro reply hreply
        exact ih reply (hn reply hreply)
  | promptCode use code bound args next _ ih =>
      obtain ⟨hc, hok, herror⟩ := hp
      refine .bind_where (V := fun reply => (next reply).Keeps k)
        (h.prompt use code bound args hc).attempt ?_ ih
      intro s t hst reply s' he
      cases reply with
      | ok v => exact hok v
      | error f =>
          exact herror f (h.raised use code bound args hc s t hst f s'
            (of_attempt he))

/-- So code of a conduct agrees with itself where its requests are answered
    alike: what it is answered the conduct allows for. -/
theorem perform_agree (hb : Bond k R) (hx : Executor.Keeps k x)
    (ha : Accord k R x y) (hf : frame.Keeps k)
    {request : Request → Run Value}
    (hr : ∀ r, k.asks r → Agree R (answer x frame r) (request r))
    {p : Program} (hp : p.Keeps k) :
    Agree R (perform x frame p)
      (performBy ⟨request, answerPromptCode y⟩ p) := by
  rw [perform_eq]
  refine performBy_agree ⟨hr, ?_, ?_, ?_⟩ hp
  · intro r hr s t hst reply s' he
    have hreply :=
      ((answer_behaves hx (hb.keeps hst) hf hr).of_eq .refl he).2
    cases reply with
    | ok v => trivial
    | error f => exact hreply
  · intro use code bound args hcode
    exact answerPromptCode_agree hb ha use hcode bound args
  · intro use code bound args hcode s t hst f s' he
    exact ((answerPromptCode_behaves hx (hb.keeps hst) use hcode bound
      args).of_eq .refl he).2

/-! ## Variables

    Under a free bond what is done to the environment is done on both
    sides. -/

section Variables

variable (hb : Bond.Free k R)
include hb

theorem modifyEnv_agree (g : Environment → Environment) :
    Agree R (modifyEnv g) (modifyEnv g) := by
  intro s t hr r s' he
  cases he
  have henv : t.env = s.env := by
    show t.core.env = s.core.env
    rw [hb.core hr]
  refine ⟨_, rfl, ?_⟩
  dsimp only
  rw [henv]
  exact hb.env (g s.env) hr

theorem nameOf_agree (name : Value) : Agree R (nameOf name) (nameOf name) := by
  rw [nameOf]
  split
  · refine .bind (.identity hb.toBond) ?_
    intro me
    exact .throw _
  · exact .pure _

theorem find?_agree (name : Value) : Agree R (find? name) (find? name) := by
  refine .bind (nameOf_agree hb name) ?_
  intro key
  exact .get_bind hb.toBond (fun _ => rfl) fun s _ => .pure _

/-- The fault of a missing name is the same on both sides. -/
theorem throw_missing_agree {α : Type} (name : Value) :
    Agree R (do throw (← missing name) : Run α)
      (do throw (← missing name)) := by
  refine .bind (Agree.giving (.identity hb.toBond) _) ?_
  intro f
  exact .throw f

theorem variableOf_agree (name : Value) :
    Agree R (variableOf name) (variableOf name) := by
  refine .bind (find?_agree hb name) ?_
  intro v
  cases v with
  | none => exact throw_missing_agree hb name
  | some v => exact .pure v

theorem setVariable_agree (name v : Value) :
    Agree R (setVariable name v) (setVariable name v) := by
  refine .bind (nameOf_agree hb name) ?_
  intro key
  refine .bind (.identity hb.toBond) ?_
  intro me
  exact modifyEnv_agree hb _

theorem removeVariable_agree (name : Value) :
    Agree R (removeVariable name) (removeVariable name) := by
  refine .bind (variableOf_agree hb name) ?_
  intro _
  exact modifyEnv_agree hb _

theorem enterOverlay_agree (values : OrderedMap Value) :
    Agree R (enterOverlay values) (enterOverlay values) := by
  refine .bind (Agree.giving (.identity hb.toBond) _) ?_
  intro texts
  refine .get_bind hb.toBond (fun _ => rfl) ?_
  intro s _
  exact Agree.giving (modifyEnv_agree hb _) _

theorem withOverlay_agree {α : Type} {step₁ step₂ : Run α}
    (h : Agree R step₁ step₂) (values : OrderedMap Value) :
    Agree R (withOverlay values step₁) (withOverlay values step₂) := by
  refine .bind (enterOverlay_agree hb values) ?_
  intro saved
  exact .andFinally h (modifyEnv_agree hb _)

theorem dropOverlay_agree (index : Nat) :
    Agree R (dropOverlay index) (dropOverlay index) := by
  refine .get_bind hb.toBond (fun _ => rfl) ?_
  intro s _
  split
  · refine .bind (.updated hb.toBond (.remembered fun _ => rfl)) ?_
    intro _
    exact modifyEnv_agree hb _
  · exact .pure _

theorem answerEnvironment_agree (r : EnvironmentRequest) :
    Agree R (answerEnvironment r) (answerEnvironment r) := by
  cases r with
  | set name v => exact Agree.giving (setVariable_agree hb name v) _
  | get name => exact variableOf_agree hb name
  | delete name => exact Agree.giving (removeVariable_agree hb name) _
  | contains name => exact Agree.giving (find?_agree hb name) _
  | update pairs =>
      refine Agree.giving (.forM fun pair _ => ?_) _
      exact setVariable_agree hb _ _
  | lookup name fallback => exact Agree.giving (find?_agree hb name) _
  | pop name fallback =>
      refine .bind (find?_agree hb name) ?_
      intro v
      cases v with
      | some v => exact Agree.giving (removeVariable_agree hb name) _
      | none =>
          cases fallback with
          | some fallback => exact .pure _
          | none => exact throw_missing_agree hb name
  | popFirst =>
      refine .get_bind hb.toBond (fun _ => rfl) ?_
      intro s _
      split
      · exact .throw _
      · exact Agree.giving (modifyEnv_agree hb _) _
  | setDefault name fallback =>
      refine .bind (find?_agree hb name) ?_
      intro v
      cases v with
      | some v => exact .pure _
      | none => exact Agree.giving (setVariable_agree hb name fallback) _
  | clear => exact Agree.giving (modifyEnv_agree hb _) _
  | enter pairs =>
      refine Agree.giving (.bind (enterOverlay_agree hb _) ?_) _
      intro saved
      exact .updated hb.toBond (.remembered fun _ => rfl)
  | leave index f => exact Agree.giving (dropOverlay_agree hb index) _
  | _ => exact .look hb.toBond fun _ => rfl

/-! ## Lines and sessions -/

variable (ha : Accord k R x y)
include ha

theorem dispatch_agree (split : Line) (raw : Value) :
    Agree R (dispatch x split raw) (dispatch y split raw) :=
  withOverlay_agree hb (routing_agree hb.toBond ha split raw) _

theorem runLine_agree (line : Value) :
    Agree R (runLine x line) (runLine y line) := by
  rw [runLine_eq, runLine_eq]
  exact runLineBy_agree hb.toBond ha (dispatch_agree hb ha) line

theorem conversation_agree : Agree R (conversation x) (conversation y) := by
  rw [conversation_eq, conversation_eq]
  exact conversationBy_agree hb.toBond ha (runLine_agree hb ha)

theorem session_agree (hm : Mobile R) :
    Agree R (session x) (session y) := by
  rw [session_eq, session_eq]
  exact sessionBy_agree hb.toBond ha hm (runLine_agree hb ha)

/-- Under a free bond every request is answered alike, unless it is about
    what is registered; requests for a session are where sessions agree. -/
theorem answer_agree_free (hf : frame.Keeps k) {r : Request}
    (hm : Recalls R r) (hregister : r.isRegistering = false)
    (hrun : r = .run → Agree R (session x) (session y)) :
    Agree R (answer x frame r) (answer y frame r) := by
  cases hr : r.isPlain with
  | true => exact answer_agree hb.toBond ha hf hm hr
  | false =>
      refine withShell_agree hb.toBond ?_ _
      cases r with
      | runLine line => exact runLine_agree hb ha line
      | dispatch split raw => exact dispatch_agree hb ha split raw
      | run => exact Agree.giving (hrun rfl) _
      | environment r => exact answerEnvironment_agree hb r
      | register className name twice => cases hregister
      | block name => cases hregister
      | report => cases hregister
      | _ => cases hr

end Variables

end Run

end LineShell
