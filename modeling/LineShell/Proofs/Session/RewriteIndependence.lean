import LineShell.Proofs.Extension.Admission
import LineShell.Proofs.Session.Routing
import LineShell.Proofs.Session.ExtensionSimulation
import Mathlib.Data.List.Basic

/-! # Rewrite independence — a line comes to what it was rewritten to

    Observers are told of a fault together with the line it came from, as
    it was typed.  An observer is *heedless* if it makes no difference to
    the shell which line that is: it does not take the line, or it leaves
    the shell alone however it is called.  It may still keep something in
    memory, under names that no code reads; and so may the code that
    rewrites lines.

    Two sessions are abreast (`Abreast`) if they are the same but for what
    is written down about them on the way and for that part of the memory,
    and all their observers are heedless, also those of classes that may
    still be registered.  All code that does not read that part agrees with
    itself in sessions that are abreast (`Run.abreast_code`, by induction
    on the depth of calls), and so does the dispatch of a line, whatever
    line the observers are told on either side (`Run.dispatch_abreast`).

    So what is done for a line after it was rewritten does not depend on
    how that came about: if the rewriting left the shell alone, the line
    comes to what the rewritten one comes to as it stands
    (`Run.runLine_unrewritten`). -/

namespace LineShell

variable {k : Conduct} {names : String → Bool}

/-! ## Observers that do not mind the line -/

/-- An observer that does not take the line, or that leaves the shell
    alone. -/
def Implementation.Heedless (names : String → Bool)
    (i : Implementation) : Prop :=
  "line" ∉ i.mark.params ∨ i.member.Quiet ⟨fun _ => true, names⟩ Whatever

/-- A class whose objects bring heedless observers only. -/
def Class.Heedless (names : String → Bool) (c : Class) : Prop :=
  ∀ name serial, ∀ entry ∈ Extensions.markedMembers c,
    Extensions.hookOf entry.1 entry.2 = "on_error" →
      (Extensions.implementationOf c name serial entry).Heedless names

/-- The observers are heedless, and so are those of the classes that code
    can register. -/
structure Session.Heedless (names : String → Bool) (s : Session) : Prop where
  observers : ∀ i ∈ s.extensions.chain "on_error", i.Heedless names
  catalogue : ∀ className c, s.catalogue.find? className = some c →
    c.Heedless names

/-- What may make no difference: the code of a session keeps a conduct, by
    which some names of the memory are not read, and its observers are
    heedless. -/
structure Session.Unheeding (k : Conduct) (names : String → Bool)
    (s : Session) : Prop where
  keeps : s.Keeps k
  unread : ∀ name, k.asks (.kept name) → names name = false
  heedless : s.Heedless names

/-- Code keeps a conduct in sessions with the same core and the same
    extensions. -/
theorem Session.Keeps.of_core {s t : Session} (hs : s.Keeps k)
    (hcore : t.core = s.core) (hextensions : t.extensions = s.extensions) :
    t.Keeps k := by
  have hempty : s.core.Keeps k :=
    { hs with extensions := OrderedMap.All.empty }
  have ht : t.core.Keeps k := hcore ▸ hempty
  exact { ht with extensions := hextensions ▸ hs.extensions }

/-! ## The relation -/

/-- The sessions differ in nothing but records, the trace, and what is kept
    under names that no code reads. -/
structure Abreast (k : Conduct) (names : String → Bool) (s t : Session) :
    Prop where
  core : t.core = s.core
  extensions : t.extensions = s.extensions
  memory : s.RemembersAs names t
  unheeding : s.Unheeding k names

namespace Abreast

variable {s t s' t' : Session} {values : Value → Bool}

theorem symm (h : Abreast k names s t) : Abreast k names t s where
  core := h.core.symm
  extensions := h.extensions.symm
  memory := h.memory.symm
  unheeding :=
    { keeps := h.unheeding.keeps.of_core h.core h.extensions
      unread := h.unheeding.unread
      heedless :=
        { observers := by
            rw [h.extensions]
            exact h.unheeding.heedless.observers
          catalogue := by
            show ∀ className c,
              t.core.catalogue.find? className = some c → _
            rw [h.core]
            exact h.unheeding.heedless.catalogue } }

/-- What is left when the second side does something beside. -/
theorem beside (h : Abreast k names s t)
    (hb : t.Beside ⟨values, names⟩ t') : Abreast k names s t' :=
  ⟨hb.core.trans h.core, hb.extensions.trans h.extensions,
    h.memory.trans hb.memory, h.unheeding⟩

/-- And when both do. -/
theorem beside_both (h : Abreast k names s t)
    (hs : s.Beside ⟨values, names⟩ s') (ht : t.Beside ⟨values, names⟩ t') :
    Abreast k names s' t' :=
  ((h.beside ht).symm.beside hs).symm

/-- The relation is a bond, and free of the environment. -/
theorem free : Bond.Free k (Abreast k names) where
  core h := h.core
  keeps h := h.unheeding.keeps
  update {s t f} hf h :=
    { core := hf.core_eq h.core
      extensions := by
        rw [hf.extensions, hf.extensions]
        exact h.extensions
      memory := by
        rw [Session.RemembersAs, hf.memory, hf.memory]
        exact h.memory
      unheeding :=
        { keeps := hf.keeps _ h.unheeding.keeps
          unread := h.unheeding.unread
          heedless :=
            { observers := by
                rw [hf.extensions]
                exact h.unheeding.heedless.observers
              catalogue := by
                rw [hf.catalogue]
                exact h.unheeding.heedless.catalogue } } }
  amended name change h :=
    { core := h.core
      extensions := h.extensions
      memory := h.memory.amended name change
      unheeding :=
        { h.unheeding with
          keeps := { h.unheeding.keeps with }
          heedless := { h.unheeding.heedless with } } }
  env env h :=
    { core := congrArg (fun c : Session => { c with env }) h.core
      extensions := h.extensions
      memory := h.memory
      unheeding :=
        { h.unheeding with
          keeps := { h.unheeding.keeps with }
          heedless := { h.unheeding.heedless with } } }

theorem mobile : Mobile (Abreast k names) := by
  intro s t p h
  exact
    { core := congrArg (fun c : Session => { c with phase := p }) h.core
      extensions := h.extensions
      memory := h.memory
      unheeding :=
        { h.unheeding with
          keeps := { h.unheeding.keeps with }
          heedless := { h.unheeding.heedless with } } }

/-- Extensions that change on both sides, without new observers that are
    not heedless. -/
theorem changed (h : Abreast k names s t) {e : Extensions}
    (hkeeps : e.Keeps k) (hobservers : ∀ i ∈ e.chain "on_error",
      i.Heedless names) :
    Abreast k names { s with extensions := e }
      { t with extensions := e } where
  core := h.core
  extensions := rfl
  memory := h.memory
  unheeding :=
    { h.unheeding with
      keeps := { h.unheeding.keeps with extensions := hkeeps }
      heedless :=
        { h.unheeding.heedless with observers := hobservers } }

/-- Blocking a name on both sides. -/
theorem blocked (h : Abreast k names s t) (name : String) :
    Abreast k names { s with extensions := s.extensions.block name }
      { t with extensions := t.extensions.block name } := by
  rw [h.extensions]
  refine h.changed
    (Extensions.Keeps.block h.unheeding.keeps.extensions name) ?_
  intro i hi
  exact h.unheeding.heedless.observers i (Extensions.mem_chain_block hi)

/-- An object of a heedless class on both sides, whether it is refused or
    not. -/
theorem extended (h : Abreast k names s t) {c : Class} (hk : c.Keeps k)
    (hc : c.Heedless names) (name : String) (serial : Nat)
    (label : String) :
    Abreast k names
      { s with
        extensions := (s.extensions.register c name serial label).2 }
      { t with
        extensions := (s.extensions.register c name serial label).2 } := by
  refine h.changed (Extensions.Keeps.register h.unheeding.keeps.extensions
    hk name serial label) ?_
  intro i hi
  rcases Extensions.mem_chain_register hi with hi |
    ⟨entry, hmarked, hhook, rfl⟩
  · exact h.unheeding.heedless.observers i hi
  · exact hc name serial entry hmarked hhook

end Abreast

namespace Run

variable {s t s₁ s' t' : Session} {x : Executor} {depth : Nat}
variable {r : Except Fault Value} {aside : Aside}

/-! ## Registering -/

theorem registerExtension_abreast {c : Class} (hk : c.Keeps k)
    (hc : c.Heedless names) (serial : Nat) (name : Option String) :
    Agree (Abreast k names) (registerExtension c serial name)
      (registerExtension c serial name) := by
  intro s t hr r s' he
  have hextended := hr.extended hk hc
    ((givenName? name).getD (serialName serial)) serial
    ((givenName? name).getD c.name)
  rcases registerExtension_cases c serial name s with
    ⟨f, e, hregister, hend⟩ | ⟨e, hregister, hend⟩
  · rw [hend] at he
    cases he
    rw [hregister] at hextended
    rw [← hr.extensions] at hregister
    exact ⟨_, registerExtension_error hregister,
      Abreast.free.refused hr hextended⟩
  · rw [hend] at he
    cases he
    rw [hregister] at hextended
    rw [← hr.extensions] at hregister
    exact ⟨_, registerExtension_ok hregister,
      Abreast.free.update (.recorded _) (Abreast.free.update
        (.registered fun _ hr => hr.scan hk _) hextended)⟩

theorem newExtension_abreast :
    Agree (Abreast k names) newExtension newExtension := by
  intro s t hr r s' he
  cases he
  have hserial : t.serial = s.serial := by
    show t.core.serial = s.core.serial
    rw [hr.core]
  refine ⟨{ t with serial := t.serial + 1 }, ?_, ?_⟩
  · rw [← hserial]
    rfl
  · exact
      { core := congrArg
          (fun c : Session => { c with serial := c.serial + 1 }) hr.core
        extensions := hr.extensions
        memory := hr.memory
        unheeding :=
          { hr.unheeding with
            keeps := { hr.unheeding.keeps with }
            heedless := { hr.unheeding.heedless with } } }

theorem answerRegister_abreast (className : String) (name : Option String)
    (twice : Bool) :
    Agree (Abreast k names)
      (do registerNew (← classOf className) name twice)
      (do registerNew (← classOf className) name twice) := by
  refine register_agree (V := fun c => c.Keeps k ∧ c.Heedless names)
    (W := Whatever) Abreast.free.toBond ?_ (fun _ _ _ => trivial)
    newExtension_abreast ?_
  · intro s t hr c hfound
    exact ⟨hr.unheeding.keeps.catalogue className c hfound,
      hr.unheeding.heedless.catalogue className c hfound⟩
  · rintro c n ⟨hk, hc⟩ _
    exact registerExtension_abreast hk hc n name

theorem answerBlock_abreast (name : String) :
    Agree (Abreast k names)
      (modify fun s => { s with extensions := s.extensions.block name } :
        Run PUnit)
      (modify fun s => { s with extensions := s.extensions.block name }) := by
  intro s t hr r s' he
  cases he
  exact ⟨_, rfl, hr.blocked name⟩

/-! ## Executing code -/

/-- Sessions that are abreast have the same chains. -/
theorem accord_abreast
    (hc : ∀ frame p, frame.Keeps k → p.Keeps k →
      Agree (Abreast k names) (x frame p) (x frame p)) :
    Accord k (Abreast k names) x x :=
  .of_passing Abreast.free.toBond hc (.of_same fun _ _ h => h.extensions)

theorem answer_abreast (ha : Accord k (Abreast k names) x x) {frame : Frame}
    (hf : frame.Keeps k) {r : Request} (hr : k.asks r) :
    Agree (Abreast k names) (answer x frame r) (answer x frame r) := by
  have hb : Bond.Free k (Abreast k names) := Abreast.free
  cases hregister : r.isRegistering with
  | false =>
      refine answer_agree_free hb ha hf ?_ hregister fun _ =>
        session_agree hb ha Abreast.mobile
      rintro name rfl s t hst
      exact hst.memory name (hst.unheeding.unread name hr)
  | true =>
      refine withShell_agree hb.toBond ?_ _
      cases r with
      | register className name twice =>
          exact answerRegister_abreast className name twice
      | block name => exact Agree.giving (answerBlock_abreast name) _
      | report =>
          refine .see ?_
          intro s t hr
          rw [hr.extensions]
          exact .pure _
      | _ => cases hregister

/-- Code comes to the same on both sides, at every depth of calls. -/
theorem abreast_code (depth : Nat) (frame : Frame) (p : Program)
    (hf : frame.Keeps k) (hp : p.Keeps k) :
    Agree (Abreast k names) (executeWithin depth frame p)
      (executeWithin depth frame p) := by
  induction depth generalizing frame p with
  | zero => exact .throw _
  | succ depth ih =>
      have ha := accord_abreast ih
      have hperform := perform_agree Abreast.free.toBond
        (executeWithin_keeps depth) ha hf
        (fun r hr => answer_abreast ha hf hr) hp
      rwa [← Replies.within, ← perform_eq] at hperform

theorem abreast_accord (depth : Nat) :
    Accord k (Abreast k names) (executeWithin depth)
      (executeWithin depth) :=
  accord_abreast (abreast_code depth)

/-! ## Different lines for the observers -/

/-- An observer that does not take the line is called alike. -/
theorem callImplementation_unlined {i : Implementation}
    (hi : "line" ∉ i.mark.params) (stage fault line line' : Value) :
    callImplementation x i
        [("stage", stage), ("error", fault), ("line", line)] =
      callImplementation x i
        [("stage", stage), ("error", fault), ("line", line')] := by
  have hfind : ∀ name ∈ i.mark.params,
      OrderedMap.find name
          [("stage", stage), ("error", fault), ("line", line)] =
        OrderedMap.find name
          [("stage", stage), ("error", fault), ("line", line')] := by
    intro name hname
    have hline : name ≠ "line" := fun h => hi (h ▸ hname)
    simp [OrderedMap.find, hline.symm]
  have htaken := List.filterMap_congr fun name hname =>
    congrArg (Option.map fun v => (name, v)) (hfind name hname)
  have habsent := List.filter_congr fun name hname =>
    congrArg Option.isNone (hfind name hname)
  simp only [callImplementation, htaken, habsent]

/-- A heedless observer can be told any line. -/
theorem notifyOne_abreast (depth : Nat) {i : Implementation}
    (hk : i.member.Keeps k) (hi : i.Heedless names) (stage : String)
    (f : Fault) (line line' : Value) :
    Agree (Abreast k names)
      (notifyOne (executeWithin depth) stage f line i)
      (notifyOne (executeWithin depth) stage f line' i) := by
  rcases hi with hunlined | hquiet
  · have hcall := callImplementation_unlined (x := executeWithin depth)
      hunlined (.text stage) (.fault f) line' line
    rw [notifyOne, notifyOne, hcall]
    exact notifyOne_agree Abreast.free.toBond (abreast_accord depth).code
      hk stage f line
  · intro s t hr r s' he
    obtain ⟨s₁, hs, hbeside⟩ := notifyOne_quiet depth hquiet stage f line s
    obtain ⟨t₁, ht, hbeside'⟩ := notifyOne_quiet depth hquiet stage f line' t
    rw [hs] at he
    cases he
    exact ⟨t₁, ht, hr.beside_both hbeside hbeside'⟩

theorem tell_abreast (depth : Nat) {observers : List Implementation}
    (ho : ∀ i ∈ observers, i.member.Keeps k ∧ i.Heedless names)
    (stage : String) (f : Fault) (line line' : Value) :
    Agree (Abreast k names)
      (observers.forM (notifyOne (executeWithin depth) stage f line))
      (observers.forM (notifyOne (executeWithin depth) stage f line')) := by
  induction observers with
  | nil => exact .pure _
  | cons i rest ih =>
      obtain ⟨hk, hi⟩ := ho i List.mem_cons_self
      refine .bind (notifyOne_abreast depth hk hi stage f line line') ?_
      intro _
      exact ih fun j hj => ho j (List.mem_cons_of_mem _ hj)

theorem notify_abreast (depth : Nat) (stage : String) (f : Fault)
    (line line' : Value) :
    Agree (Abreast k names) (notify (executeWithin depth) stage f line)
      (notify (executeWithin depth) stage f line') := by
  refine .see ?_
  intro s t hr
  rw [hr.extensions]
  refine tell_abreast depth ?_ stage f line line'
  intro i hi
  exact ⟨hr.unheeding.keeps.extensions.chain "on_error" i hi,
    hr.unheeding.heedless.observers i hi⟩

theorem answerFault_abreast (depth : Nat) (stage : Stage) (title : String)
    (f : Fault) (line line' : Value) :
    Agree (Abreast k names)
      (answerFault (executeWithin depth) stage title f line)
      (answerFault (executeWithin depth) stage title f line') := by
  rw [answerFault, answerFault]
  split
  · exact .throw _
  · refine .bind (.record Abreast.free.toBond _) ?_
    intro _
    refine .bind (notify_abreast depth _ _ line line') ?_
    intro _
    exact callShell_agree Abreast.free.toBond (abreast_accord depth).code
      _ _

theorem answerUnread_abreast (depth : Nat) (f : Fault)
    (line line' : Value) :
    Agree (Abreast k names) (answerUnread (executeWithin depth) f line)
      (answerUnread (executeWithin depth) f line') := by
  rw [answerUnread, answerUnread]
  split
  · refine .bind (.ofAnswer _) ?_
    intro told
    refine .bind (.record Abreast.free.toBond _) ?_
    intro _
    exact callShell_agree Abreast.free.toBond (abreast_accord depth).code
      _ _
  · split
    · exact .throw _
    · exact answerFault_abreast depth _ _ f line line'

theorem dispatch_abreast (depth : Nat) (split : Line) (raw raw' : Value) :
    Agree (Abreast k names) (dispatch (executeWithin depth) split raw)
      (dispatch (executeWithin depth) split raw') := by
  have hb : Bond.Free k (Abreast k names) := Abreast.free
  refine withOverlay_agree hb (.contain ?_ ?_) _
  · refine .get_bind hb.toBond (fun _ => rfl) ?_
    intro s hs
    exact follow_agree hb.toBond (abreast_accord depth) split
      fun b hroute => hs.registry.route hroute
  · intro f
    exact answerFault_abreast depth _ _ f raw raw'

theorem rewriteResult_abreast (depth : Nat) (result line line' : Value) :
    Agree (Abreast k names)
      (rewriteResult (executeWithin depth) result line)
      (rewriteResult (executeWithin depth) result line') := by
  have hb : Bond k (Abreast k names) := Abreast.free.toBond
  have ha : Accord k (Abreast k names) _ _ := abreast_accord depth
  refine .bind (callShell_agree hb ha.code _ _).attempt ?_
  intro r
  cases r with
  | ok result =>
      refine .bind (.look hb fun _ => rfl) ?_
      intro shell
      exact ha.chain _ _ _ _
  | error f =>
      dsimp only
      split
      · exact .throw _
      · exact answerFault_abreast depth _ _ f line line'

/-! ## The rest of a line -/

section Lines

variable (execute : Executor)

/-- The result of a line that is read in some way. -/
def lineResultFrom (read : Run Line) (line : Value) : Run Value := do
  match ← read.attempt with
  | .ok split => dispatch execute split line
  | .error f => answerUnread execute f line

/-- What is done with a line that is read in some way. -/
def runLineFrom (read : Run Line) (line : Value) : Run Value := do
  rewriteResult execute (← lineResultFrom execute read line) line

/-- Runs a line as it stands: neither the shell nor the hooks rewrite
    it. -/
def runAsGiven (line : Value) : Run Value :=
  runLineFrom execute (Course.splitLine line) line

theorem runLine_eq_from (line : Value) :
    runLine execute line =
      runLineFrom execute (readRewritten execute line) line :=
  rfl

end Lines

/-- Two readings that come to the same are followed by the same. -/
theorem runLineFrom_eq {execute : Executor} {read read' : Run Line}
    (h : read s = read' t) (line : Value) :
    runLineFrom execute read line s = runLineFrom execute read' line t := by
  have hattempt : read.attempt s = read'.attempt t := by
    simp only [attempt, ExceptT.mk, ExceptT.run, Functor.map, StateT.map, h]
  simp only [runLineFrom, lineResultFrom, bind, ExceptT.bind, ExceptT.mk,
    StateT.bind, hattempt]

/-- After a line was rewritten, what it was rewritten to is split. -/
theorem readRewritten_of_rewriteLine {execute : Executor} {line : Value}
    (h : rewriteLine execute line s = some (r, s')) :
    readRewritten execute line s =
      (do Course.splitLine (← ofAnswer r)) s' := by
  cases r with
  | ok v => exact bind_ok h
  | error f => exact bind_error h

/-- A shell that takes a line as it is typed runs it as it stands. -/
theorem runLine_typed {text : String} (h : Typed depth text s t) :
    runLine (executeWithin depth) (.text text) s =
      runAsGiven (executeWithin depth) (.text text) t :=
  runLineFrom_eq (readRewritten_of_rewriteLine h.rewriteLine) _

theorem runLineFrom_abreast {read read' : Run Line}
    (h : Agree (Abreast k names) read read') (line line' : Value) :
    Agree (Abreast k names)
      (runLineFrom (executeWithin depth) read line)
      (runLineFrom (executeWithin depth) read' line') := by
  refine .bind (.bind h.attempt ?_) ?_
  · intro result
    cases result with
    | ok split => exact dispatch_abreast depth _ line line'
    | error f => exact answerUnread_abreast depth f line line'
  · intro result
    exact rewriteResult_abreast depth result line line'

/-- Quiet hooks rewrite a value and leave the shell alone. -/
theorem rewrite_quiet (depth : Nat) {is : List Implementation}
    (his : ∀ i ∈ is, i.member.Quiet aside Whatever)
    (ho : ∀ j ∈ s.extensions.chain "on_error",
      j.member.Quiet aside Whatever)
    (hook key : String) (given : List (String × Value)) (value : Value) :
    ∃ v s', rewrite (executeWithin depth) hook key given value is s =
      some (.ok v, s') ∧ s.Beside aside s' := by
  induction is generalizing value s with
  | nil => exact ⟨value, s, rfl, .refl s⟩
  | cons i rest ih =>
      obtain ⟨v, s₁, hone, hbeside, -⟩ := runImplementation_quiet depth
        (his i List.mem_cons_self) ho hook
        ((key, value) :: given.filter fun pair => pair.1 != key)
      have ho₁ : ∀ j ∈ s₁.extensions.chain "on_error",
          j.member.Quiet aside Whatever := by
        rw [hbeside.extensions]
        exact ho
      obtain ⟨w, s', hrest, hbeside'⟩ :=
        ih (fun j hj => his j (List.mem_cons_of_mem _ hj)) ho₁
          (if v.isNull then value else v)
      exact ⟨w, s', (bind_ok hone).trans hrest, hbeside.trans hbeside'⟩

/-- Where the member of the shell, the hooks and the observers leave the
    shell alone, rewriting a line does. -/
theorem rewriteLine_quiet {line w : Value}
    (hprecmd : callShell (executeWithin depth) "precmd" [line] s =
      some (.ok w, s₁))
    (hbeside : s.Beside aside s₁)
    (hhooks : ∀ i ∈ s.extensions.chain "precmd",
      i.member.Quiet aside Whatever)
    (ho : ∀ j ∈ s.extensions.chain "on_error",
      j.member.Quiet aside Whatever) :
    ∃ v s', rewriteLine (executeWithin depth) line s = some (.ok v, s') ∧
      s.Beside aside s' := by
  rw [← hbeside.extensions] at hhooks ho
  obtain ⟨v, s', he, hrest⟩ := rewrite_quiet depth hhooks ho "precmd" "line"
    [("shell", s₁.shellValue)] w
  have hshell : shellParam s₁ =
      some (.ok ("shell", s₁.shellValue), s₁) := rfl
  refine ⟨v, s', ?_, hbeside.trans hrest⟩
  rw [rewriteLine, bind_ok hprecmd, bind_ok hshell, callChain, get_bind_eq,
    he]

/-- Where rewriting a line left the shell alone, the line comes to what the
    rewritten line comes to, taken as it stands. -/
theorem runLine_unrewritten {line v : Value} (hs : s.Unheeding k names)
    (h : rewriteLine (executeWithin depth) line s = some (.ok v, s₁))
    (hcore : s₁.core = s.core) (hextensions : s₁.extensions = s.extensions)
    (hmemory : s.RemembersAs names s₁) :
    ∃ r s' t', runLine (executeWithin depth) line s = some (r, s') ∧
      runAsGiven (executeWithin depth) v s = some (r, t') ∧
      t'.core = s'.core ∧ s'.RemembersAs names t' := by
  obtain ⟨r, s', -, he, -⟩ := runLine_ends depth line s
  have hrest := he
  rw [runLine_eq_from,
    runLineFrom_eq (readRewritten_of_rewriteLine h)] at hrest
  -- the rewritten line is taken from where rewriting it led, the given
  -- one from where it started: these differ in what makes no difference
  have habreast : Abreast k names s₁ s :=
    (Abreast.mk hcore hextensions hmemory hs).symm
  have hsplit : Agree (Abreast k names)
      (do Course.splitLine (← ofAnswer (.ok v))) (Course.splitLine v) := by
    rw [ofAnswer, pure_bind]
    refine .bind (.identity Abreast.free.toBond) ?_
    intro me
    exact .ofAnswer _
  obtain ⟨t', ht, hr⟩ :=
    runLineFrom_abreast hsplit line v s₁ s habreast r s' hrest
  exact ⟨r, s', t', he, ht, hr.core, hr.memory⟩

end Run

end LineShell
