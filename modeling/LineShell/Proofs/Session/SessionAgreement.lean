import LineShell.Proofs.Session.Agreement
import LineShell.Proofs.Session.Containment

/-! # Session agreement — where executing code agrees, whole sessions do

    Two ways to execute code are in *accord* under a bond if they agree on
    all code of the conduct, and on what chains and observers come to.
    Then everything that a shell does over them agrees, function by
    function.

    What a line does beside its routing, and what a session does beside its
    lines, is written once more with those parts left open (`runLineBy`,
    `sessionBy`); the parts may then differ between the two sides as long
    as they agree. -/

namespace LineShell

namespace Run

/-! ## Lines and sessions with a part left open -/

section Parts

variable (execute : Executor)

/-- What the overlay of a line is put around. -/
def routing (line : Line) (raw : Value) : Run Value :=
  contain (do follow execute line ((← get).registry.route line))
    fun f => answerFault execute .handler line.command f raw

theorem dispatch_eq (line : Line) (raw : Value) :
    dispatch execute line raw =
      withOverlay line.overlay (routing execute line raw) :=
  rfl

variable (route : Line → Value → Run Value)

/-- The result of a line before it is rewritten; `route` routes what it is
    split into. -/
def lineResultBy (line : Value) : Run Value := do
  match ← (readRewritten execute line).attempt with
  | .ok split => route split line
  | .error f => answerUnread execute f line

/-- Runs one line, and `route` routes it. -/
def runLineBy (line : Value) : Run Value := do
  rewriteResult execute (← lineResultBy execute route line) line

theorem runLine_eq (line : Value) :
    runLine execute line = runLineBy execute (dispatch execute) line :=
  rfl

variable (run : Value → Run Value)

/-- One turn of the loop; `run` runs its line. -/
def turnBy : Run Turn := do
  match ← nextLine execute with
  | none => pure .ended
  | some line =>
      let result ← run (.text line)
      emitPresent execute result
      pure (if (← get).quitRequested then .ended else .again)

/-- At most so many turns. -/
def turnsBy : Nat → Run Unit
  | 0 => outOfTurns
  | n + 1 => do
      match ← turnBy execute run with
      | .ended => pure ()
      | .again => turnsBy n

/-- The turns of a session, up to an interrupt. -/
def conversationBy : Run Unit := do
  let result ← attempt do
    let s ← get
    if s.quitRequested then pure ()
    else turnsBy execute run (s.reader.remaining + 1)
  match result with
  | .ok () => pure ()
  | .error (.interrupt _) => record [.interrupted]
  | .error f => throw f

/-- Runs a session whose lines are run by `run`. -/
def sessionBy : Run Unit := do
  let s ← get
  if s.phase == .terminated then record [.runAfterEnd s.identity.className]
  else
    modify fun s => { s with phase := .running, quitRequested := false }
    sayAt execute .intro
    conversationBy execute run
    takeLeave execute

theorem turns_eq (n : Nat) :
    turns execute n = turnsBy execute (runLine execute) n := by
  induction n with
  | zero => rfl
  | succ n ih =>
      rw [turns, turnsBy, ih]
      rfl

theorem conversation_eq :
    conversation execute = conversationBy execute (runLine execute) := by
  rw [conversationBy, ← funext (turns_eq execute)]
  rfl

theorem session_eq :
    session execute = sessionBy execute (runLine execute) := by
  simp only [session, sessionBy, conversation_eq]

end Parts

/-! ## Accord -/

/-- Two ways to execute code that agree on the code of a conduct, and on
    what the chains of extensions come to. -/
structure Accord (k : Conduct) (R : Session → Session → Prop)
    (x y : Executor) : Prop where
  code : ∀ frame p, frame.Keeps k → p.Keeps k →
    Agree R (x frame p) (y frame p)
  first : ∀ hook given,
    Agree R (callFirst x hook given) (callFirst y hook given)
  chain : ∀ hook key v given,
    Agree R (callChain x hook key v given) (callChain y hook key v given)
  notify : ∀ stage f line,
    Agree R (Run.notify x stage f line) (Run.notify y stage f line)

variable {k : Conduct} {R : Session → Session → Prop} {x y : Executor}

/-! ## Calls -/

section Calls

variable (hb : Bond k R) (hc : ∀ frame p, frame.Keeps k → p.Keeps k →
  Agree R (x frame p) (y frame p))
include hb hc

theorem callDefinitions_agree {definitions : List Attribute}
    (hd : ∀ a ∈ definitions, a.Keeps k) (owner : Option Class)
    (name : String) (call : Call) :
    Agree R (callDefinitions x owner name call definitions)
      (callDefinitions y owner name call definitions) := by
  cases definitions with
  | nil => exact .throw _
  | cons a rest =>
      cases a with
      | data v =>
          refine .bind (.identity hb) ?_
          intro me
          exact .throw _
      | function f =>
          simp only [callDefinitions]
          cases f.signature.mismatch? name call.args.length with
          | some m => exact .throw _
          | none =>
              refine hc _ _ ?_ (hd (.function f) List.mem_cons_self call)
              intro b hb
              exact hd b (List.mem_cons_of_mem _ hb)

theorem callBound_agree {b : Bound} (hk : b.Keeps k) (call : Call) :
    Agree R (callBound x b call) (callBound y b call) :=
  callDefinitions_agree hb hc hk _ _ _

theorem callShell_agree (name : String) (args : List Value) :
    Agree R (callShell x name args) (callShell y name args) := by
  refine .get_bind hb (fun _ => rfl) ?_
  intro s hs
  split
  · rename_i c hshell
    exact callBound_agree hb hc (hs.shell c hshell name) _
  · exact .throw _

theorem render_agree {p : Prompt} (hp : p.Keeps k) :
    Agree R (render x p) (render y p) := by
  cases p with
  | literal text => exact .pure _
  | generated code args =>
      refine .get_bind hb (fun _ => rfl) ?_
      intro s _
      refine .bind (hc _ _ Frame.keeps_outside (hp _)) ?_
      intro v
      exact Agree.giving (.identity hb) _

theorem renderPrompt_agree : Agree R (renderPrompt x) (renderPrompt y) := by
  refine .get_bind hb (fun _ => rfl) ?_
  intro s hs
  refine .contain (render_agree hb hc hs.prompt) ?_
  intro f
  refine .bind (.identity hb) ?_
  intro me
  refine .bind (.record hb _) ?_
  intro _
  exact callShell_agree hb hc _ _

theorem emitPresent_agree (v : Value) :
    Agree R (emitPresent x v) (emitPresent y v) := by
  rw [emitPresent, emitPresent]
  split
  · exact .pure _
  · exact Agree.giving (callShell_agree hb hc _ _) _

/-- An implementation is called with the same values on both sides. -/
theorem callImplementation_agree {i : Implementation}
    (hi : i.member.Keeps k) (given : List (String × Value)) :
    Agree R (callImplementation x i given) (callImplementation y i given) := by
  simp only [callImplementation]
  split
  · exact callBound_agree hb hc hi _
  · exact .throw _

theorem notifyOne_agree {i : Implementation} (hi : i.member.Keeps k)
    (stage : String) (fault : Fault) (line : Value) :
    Agree R (notifyOne x stage fault line i)
      (notifyOne y stage fault line i) := by
  refine .contain ?_ ?_
  · exact Agree.giving (callImplementation_agree hb hc hi _) _
  · intro f
    exact .record hb _

theorem runImplementation_agree
    (hn : ∀ stage f line,
      Agree R (notify x stage f line) (notify y stage f line))
    {i : Implementation} (hi : i.member.Keeps k) (hook : String)
    (given : List (String × Value)) :
    Agree R (runImplementation x hook i given)
      (runImplementation y hook i given) := by
  refine .contain (callImplementation_agree hb hc hi given) ?_
  intro f
  refine .bind (.record hb _) ?_
  intro _
  exact Agree.giving (hn _ _ _) _

end Calls

/-! ## Chains

    On the second side a chain may hold more than on the first, as long as
    what it holds more answers nothing and does nothing that matters. -/

/-- Chains of related sessions: on the first side stands what `shared`
    picks of the second, and the others can be passed over. -/
structure Passing (R : Session → Session → Prop) (y : Executor)
    (shared : Implementation → Bool) : Prop where
  chain : ∀ s t, R s t → ∀ hook,
    s.extensions.chain hook = (t.extensions.chain hook).filter shared
  run : ∀ s t, R s t → ∀ hook, ∀ i ∈ t.extensions.chain hook,
    shared i = false → ∀ given s₁ t₁, R s₁ t₁ →
      ∃ t', runImplementation y hook i given t₁ = some (.ok .null, t') ∧
        R s₁ t'
  notify : ∀ s t, R s t → ∀ i ∈ t.extensions.chain "on_error",
    shared i = false → ∀ stage f line s₁ t₁, R s₁ t₁ →
      ∃ t', notifyOne y stage f line i t₁ = some (.ok (), t') ∧ R s₁ t'

section Chains

variable (hb : Bond k R) (hc : ∀ frame p, frame.Keeps k → p.Keeps k →
  Agree R (x frame p) (y frame p))
variable {shared : Implementation → Bool} {chain : List Implementation}
include hb hc

/-- What all implementations are told, those are told that are shared. -/
theorem tell_agree (stage : String) (f : Fault) (line : Value)
    (hk : ∀ i ∈ chain.filter shared, i.member.Keeps k)
    (hpass : ∀ i ∈ chain, shared i = false → ∀ s t, R s t →
      ∃ t', notifyOne y stage f line i t = some (.ok (), t') ∧ R s t') :
    Agree R ((chain.filter shared).forM (notifyOne x stage f line))
      (chain.forM (notifyOne y stage f line)) := by
  induction chain with
  | nil => exact .pure _
  | cons i rest ih =>
      have hrest := fun hk => ih hk
        fun j hj => hpass j (List.mem_cons_of_mem _ hj)
      cases hi : shared i with
      | true =>
          rw [List.filter_cons_of_pos hi] at hk ⊢
          refine .bind (notifyOne_agree hb hc (hk i List.mem_cons_self)
            stage f line) ?_
          intro _
          exact hrest fun j hj => hk j (List.mem_cons_of_mem _ hj)
      | false =>
          have hskip : ¬ shared i = true := ne_true_of_eq_false hi
          rw [List.filter_cons_of_neg hskip] at hk ⊢
          intro s t hr r s' he
          obtain ⟨t₁, ht, hr₁⟩ := hpass i List.mem_cons_self hi s t hr
          obtain ⟨t', ht', hr'⟩ := hrest hk s t₁ hr₁ r s' he
          exact ⟨t', (bind_ok ht).trans ht', hr'⟩

variable (hn : ∀ stage f line,
  Agree R (notify x stage f line) (notify y stage f line))
include hn

/-- The first answer of all is the first answer of those that are
    shared. -/
theorem firstAnswer_agree (hook : String) (given : List (String × Value))
    (hk : ∀ i ∈ chain.filter shared, i.member.Keeps k)
    (hpass : ∀ i ∈ chain, shared i = false → ∀ s t, R s t →
      ∃ t', runImplementation y hook i given t = some (.ok .null, t') ∧
        R s t') :
    Agree R (firstAnswer x hook given (chain.filter shared))
      (firstAnswer y hook given chain) := by
  induction chain with
  | nil => exact .pure _
  | cons i rest ih =>
      have hrest := fun hk => ih hk
        fun j hj => hpass j (List.mem_cons_of_mem _ hj)
      cases hi : shared i with
      | true =>
          rw [List.filter_cons_of_pos hi] at hk ⊢
          refine .bind (runImplementation_agree hb hc hn
            (hk i List.mem_cons_self) hook given) ?_
          intro v
          split
          · exact hrest fun j hj => hk j (List.mem_cons_of_mem _ hj)
          · exact .pure _
      | false =>
          have hskip : ¬ shared i = true := ne_true_of_eq_false hi
          rw [List.filter_cons_of_neg hskip] at hk ⊢
          intro s t hr r s' he
          obtain ⟨t₁, ht, hr₁⟩ := hpass i List.mem_cons_self hi s t hr
          obtain ⟨t', ht', hr'⟩ := hrest hk s t₁ hr₁ r s' he
          exact ⟨t', (bind_ok ht).trans ht', hr'⟩

/-- What all make of a value, those make of it that are shared. -/
theorem rewrite_agree (hook key : String) (given : List (String × Value))
    (value : Value) (hk : ∀ i ∈ chain.filter shared, i.member.Keeps k)
    (hpass : ∀ i ∈ chain, shared i = false → ∀ given s t, R s t →
      ∃ t', runImplementation y hook i given t = some (.ok .null, t') ∧
        R s t') :
    Agree R (rewrite x hook key given value (chain.filter shared))
      (rewrite y hook key given value chain) := by
  induction chain generalizing value with
  | nil => exact .pure _
  | cons i rest ih =>
      have hrest := fun value hk => ih value hk
        fun j hj => hpass j (List.mem_cons_of_mem _ hj)
      cases hi : shared i with
      | true =>
          rw [List.filter_cons_of_pos hi] at hk ⊢
          refine .bind (runImplementation_agree hb hc hn
            (hk i List.mem_cons_self) hook _) ?_
          intro v
          exact hrest _ fun j hj => hk j (List.mem_cons_of_mem _ hj)
      | false =>
          have hskip : ¬ shared i = true := ne_true_of_eq_false hi
          rw [List.filter_cons_of_neg hskip] at hk ⊢
          intro s t hr r s' he
          obtain ⟨t₁, ht, hr₁⟩ := hpass i List.mem_cons_self hi _ s t hr
          obtain ⟨t', ht', hr'⟩ := hrest value hk s t₁ hr₁ r s' he
          exact ⟨t', (bind_ok ht).trans ht', hr'⟩

end Chains

/-- Where what is not shared can be passed over, agreement on code is all
    that accord takes. -/
theorem Accord.of_passing (hb : Bond k R)
    (hc : ∀ frame p, frame.Keeps k → p.Keeps k →
      Agree R (x frame p) (y frame p))
    {shared : Implementation → Bool} (hp : Passing R y shared) :
    Accord k R x y := by
  have hkept : ∀ s t, R s t → ∀ hook,
      ∀ i ∈ (t.extensions.chain hook).filter shared, i.member.Keeps k := by
    intro s t hr hook
    rw [← hp.chain s t hr hook]
    exact Extensions.Keeps.chain (hb.keeps hr).extensions hook
  have hn : ∀ stage f line,
      Agree R (Run.notify x stage f line) (Run.notify y stage f line) := by
    intro stage f line
    refine .see ?_
    intro s t hr
    rw [hp.chain s t hr]
    exact tell_agree hb hc stage f line (hkept s t hr _)
      fun i hi hs => hp.notify s t hr i hi hs stage f line
  refine ⟨hc, ?_, ?_, hn⟩
  · intro hook given
    refine .see ?_
    intro s t hr
    have hpass := hp.run s t hr hook
    rw [hp.chain s t hr, ← List.filter_reverse]
    refine firstAnswer_agree hb hc hn hook given ?_ ?_
    · intro i hi
      rw [List.filter_reverse, List.mem_reverse] at hi
      exact hkept s t hr hook i hi
    · intro i hi hs
      exact hpass i (List.mem_reverse.mp hi) hs given
  · intro hook key v given
    refine .see ?_
    intro s t hr
    rw [hp.chain s t hr]
    exact rewrite_agree hb hc hn hook key given v (hkept s t hr hook)
      (hp.run s t hr hook)

/-- Where related sessions have the same extensions, nothing has to be
    passed over. -/
theorem Passing.of_same (hsame : ∀ s t, R s t → t.extensions = s.extensions) :
    Passing R y fun _ => true where
  chain := by
    intro s t hr hook
    rw [hsame s t hr]
    exact (List.filter_eq_self.mpr fun _ _ => rfl).symm
  run := by
    intro s t _ hook i _ hi
    cases hi
  notify := by
    intro s t _ i _ hi
    cases hi

/-! ## Lines -/

section Lines

variable (hb : Bond k R) (ha : Accord k R x y)
include hb ha

theorem firstResult_agree (hook : String) (args : List Value)
    (given : List (String × Value)) :
    Agree R (firstResult x hook args given)
      (firstResult y hook args given) := by
  refine .bind (.look hb fun _ => rfl) ?_
  intro shell
  refine .bind (ha.first _ _) ?_
  intro v
  split
  · exact callShell_agree hb ha.code hook args
  · exact .pure _

theorem answerFault_agree (stage : Stage) (title : String) (f : Fault)
    (line : Value) :
    Agree R (answerFault x stage title f line)
      (answerFault y stage title f line) := by
  rw [answerFault, answerFault]
  split
  · exact .throw _
  · refine .bind (.record hb _) ?_
    intro _
    refine .bind (ha.notify _ _ _) ?_
    intro _
    exact callShell_agree hb ha.code _ _

theorem answerUnread_agree (f : Fault) (line : Value) :
    Agree R (answerUnread x f line) (answerUnread y f line) := by
  rw [answerUnread, answerUnread]
  split
  · refine .bind (.ofAnswer _) ?_
    intro told
    refine .bind (.record hb _) ?_
    intro _
    exact callShell_agree hb ha.code _ _
  · split
    · exact .throw _
    · exact answerFault_agree hb ha _ _ _ _

theorem follow_agree (line : Line) {route : Route}
    (hr : ∀ b, route = .handler b → b.Keeps k) :
    Agree R (follow x line route) (follow y line route) := by
  cases route with
  | empty => exact firstResult_agree hb ha _ _ _
  | quit => exact callShell_agree hb ha.code _ _
  | help => exact callShell_agree hb ha.code _ _
  | escape argv => exact callShell_agree hb ha.code _ _
  | handler b => exact callBound_agree hb ha.code (hr b rfl) _
  | unknown => exact firstResult_agree hb ha _ _ _

theorem routing_agree (line : Line) (raw : Value) :
    Agree R (routing x line raw) (routing y line raw) := by
  refine .contain ?_ fun f => answerFault_agree hb ha _ _ _ _
  refine .get_bind hb (fun _ => rfl) ?_
  intro s hs
  exact follow_agree hb ha line fun b hroute => hs.registry.route hroute

theorem readRewritten_agree (line : Value) :
    Agree R (readRewritten x line) (readRewritten y line) := by
  refine .bind ?_ ?_
  · refine .bind (callShell_agree hb ha.code _ _) ?_
    intro line
    refine .bind (.look hb fun _ => rfl) ?_
    intro shell
    exact ha.chain _ _ _ _
  · intro line
    refine .bind (.identity hb) ?_
    intro me
    exact .ofAnswer _

theorem rewriteResult_agree (result line : Value) :
    Agree R (rewriteResult x result line) (rewriteResult y result line) := by
  refine .bind (callShell_agree hb ha.code _ _).attempt ?_
  intro r
  cases r with
  | ok result =>
      refine .bind (.look hb fun _ => rfl) ?_
      intro shell
      exact ha.chain _ _ _ _
  | error f =>
      dsimp only
      split
      · exact .throw _
      · exact answerFault_agree hb ha _ _ _ _

variable {route₁ route₂ : Line → Value → Run Value}

/-- Lines agree where their routing does. -/
theorem runLineBy_agree
    (hr : ∀ split raw, Agree R (route₁ split raw) (route₂ split raw))
    (line : Value) :
    Agree R (runLineBy x route₁ line) (runLineBy y route₂ line) := by
  refine .bind ?_ fun result => rewriteResult_agree hb ha result line
  refine .bind (readRewritten_agree hb ha line).attempt ?_
  intro r
  cases r with
  | ok split => exact hr _ _
  | error f => exact answerUnread_agree hb ha f line

/-! ## Sessions -/

theorem sayAt_agree (stage : Stage) :
    Agree R (sayAt x stage) (sayAt y stage) := by
  refine .bind ?_ (emitPresent_agree hb ha.code)
  refine .contain (firstResult_agree hb ha _ _ _) ?_
  intro f
  exact answerFault_agree hb ha _ _ _ _

theorem takeLeave_agree (hm : Mobile R) :
    Agree R (takeLeave x) (takeLeave y) := by
  refine .bind (.moved hm _) ?_
  intro _
  refine .bind (sayAt_agree hb ha _) ?_
  intro _
  refine .bind (.persist hb) ?_
  intro _
  exact .moved hm _

theorem nextLine_agree : Agree R (nextLine x) (nextLine y) := by
  refine .bind (Agree.attempt ?_) ?_
  · refine .bind (renderPrompt_agree hb ha.code) ?_
    intro prompt
    exact .readLine hb _ _
  · intro r
    split
    · exact .pure _
    · exact Agree.giving (.record hb _) _
    · exact .throw _

variable {run₁ run₂ : Value → Run Value}

theorem turnsBy_agree (hr : ∀ line, Agree R (run₁ line) (run₂ line))
    (n : Nat) : Agree R (turnsBy x run₁ n) (turnsBy y run₂ n) := by
  induction n with
  | zero =>
      intro s t _ r s' he
      cases he
  | succ n ih =>
      refine .bind ?_ ?_
      · refine .bind (nextLine_agree hb ha) ?_
        intro line
        cases line with
        | none => exact .pure _
        | some line =>
            refine .bind (hr _) ?_
            intro result
            refine .bind (emitPresent_agree hb ha.code _) ?_
            intro _
            exact .look hb fun _ => rfl
      · intro turn
        cases turn with
        | ended => exact .pure _
        | again => exact ih

theorem conversationBy_agree
    (hr : ∀ line, Agree R (run₁ line) (run₂ line)) :
    Agree R (conversationBy x run₁) (conversationBy y run₂) := by
  refine .bind (Agree.attempt (.get_bind hb (fun _ => rfl) ?_)) ?_
  · intro s _
    split
    · exact .pure _
    · exact turnsBy_agree hb ha hr _
  · intro r
    split
    · exact .pure _
    · exact .record hb _
    · exact .throw _

/-- Sessions agree where their lines do. -/
theorem sessionBy_agree (hm : Mobile R)
    (hr : ∀ line, Agree R (run₁ line) (run₂ line)) :
    Agree R (sessionBy x run₁) (sessionBy y run₂) := by
  refine .get_bind hb (fun _ => rfl) ?_
  intro s _
  split
  · exact .record hb _
  · refine .bind ?_ ?_
    · intro s t hst r s' he
      cases he
      exact ⟨_, rfl, hm .running (hb.update .resumed hst)⟩
    · intro _
      refine .bind (sayAt_agree hb ha _) ?_
      intro _
      refine .bind (conversationBy_agree hb ha hr) ?_
      intro _
      exact takeLeave_agree hb ha hm

end Lines

end Run

end LineShell
