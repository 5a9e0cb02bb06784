import LineShell.Proofs.Session.RewriteIndependence
import LineShell.Proofs.Session.Routing
import LineShell.Proofs.Session.Threading

/-! # Composition — hooks and the members of the shell together

    Where no object asks for a place, the chain of every hook holds what
    the objects have brought, in order (`Extensions.Holds`).  Then
    a value that is rewritten goes through the hooks in that order, and
    each of them answers with the next value or declines (`Folds`); and
    where an answer is asked for, the latest hook that has one gives it,
    and the member of the shell is called only if all decline
    (`Answered`).  `Run.runLine_composes` says where in a line, and at
    which stages of a session, the one is done and the other. -/

namespace LineShell

open Extensions (markedMembers arranged_of_plain fill fill_empty)

/-! ## Objects that ask for no place -/

/-- A class of objects of which no hook asks to be first or last. -/
def Class.Unmarked (c : Class) : Prop :=
  ∀ entry ∈ markedMembers c,
    entry.2.tryLast = false ∧ entry.2.tryFirst = false

instance (c : Class) : Decidable c.Unmarked :=
  inferInstanceAs (Decidable (∀ _ ∈ _, _))

/-- Every chain holds what objects have brought, in order. -/
def Extensions.Holds (e : Extensions) (l : List Contribution) : Prop :=
  ∀ hook, e.chain hook = implementations hook l

theorem isPlain_of_unmarked {l : List Contribution}
    (h : ∀ c ∈ l, c.registration.object.Unmarked) (hook : String) :
    ∀ i ∈ implementations hook l, i.isPlain = true := by
  intro i hi
  obtain ⟨c, hc, entry, hentry, -, rfl⟩ := mem_implementations hi
  exact Implementation.isPlain_iff.mpr (h c hc entry hentry)

namespace Run

variable {s s' : Session} {earlier : List Registration}
variable {results : List (Except Fault String)}

/-- After any attempts to register unmarked objects the chains hold what
    these have brought. -/
theorem holds_tryEach (hs : s.extensions = .empty)
    (h : ∀ r ∈ earlier, r.object.Unmarked)
    (htry : tryEach earlier s = some (.ok results, s')) :
    s'.extensions.Holds (contributions s.takesBack earlier results) := by
  intro hook
  rw [arranged_tryEach hs htry]
  refine arranged_of_plain (isPlain_of_unmarked ?_ hook)
  intro c hc
  exact h _ (registration_mem_of_contributions hc)

end Run

/-! ## What a hook says -/

section Saying

variable (execute : Executor) (hook : String)

/-- An implementation has nothing to say: it answers with nothing, or it
    raises an ordinary fault, which the observers are told. -/
inductive Declines (given : List (String × Value)) (i : Implementation)
    (s : Session) : Session → Prop where
  | nothing {s' : Session}
      (h : Run.callImplementation execute i given s =
        some (.ok .null, s')) : Declines given i s s'
  | failed {f : Fault} {s₁ s' : Session}
      (h : Run.callImplementation execute i given s = some (.error f, s₁))
      (hf : f.isSignal = false)
      (htold : Run.notify execute s!"{hook}:{i.extension}" f
        (Run.lineAmong given)
        { s₁ with events := s₁.events ++ [.hookFailed hook i.extension] } =
          some (.ok (), s')) : Declines given i s s'

/-- It stops everything: a signal comes out of it, or out of telling the
    observers of its fault. -/
def Stops (given : List (String × Value)) (i : Implementation)
    (s : Session) (f : Fault) (s' : Session) : Prop :=
  Run.runImplementation execute hook i given s = some (.error f, s') ∧
    f.isSignal = true

/-- A value goes through implementations from the first to the last: each
    gets what those before it have made of the value, along with `given`,
    and answers with what those after it get, or declines. -/
inductive Folds (given : Value → List (String × Value)) :
    List Implementation → Value → Session → Except Fault Value → Session →
      Prop where
  | done {v : Value} {s : Session} : Folds given [] v s (.ok v) s
  | answered {i : Implementation} {rest : List Implementation}
      {v w : Value} {s s₁ s' : Session} {r : Except Fault Value}
      (h : Run.callImplementation execute i (given v) s = some (.ok w, s₁))
      (hw : w.isNull = false) (hrest : Folds given rest w s₁ r s') :
      Folds given (i :: rest) v s r s'
  | declined {i : Implementation} {rest : List Implementation} {v : Value}
      {s s₁ s' : Session} {r : Except Fault Value}
      (h : Declines execute hook (given v) i s s₁)
      (hrest : Folds given rest v s₁ r s') : Folds given (i :: rest) v s r s'
  | stopped {i : Implementation} {rest : List Implementation} {v : Value}
      {s s' : Session} {f : Fault} (h : Stops execute hook (given v) i s f s') :
      Folds given (i :: rest) v s (.error f) s'

/-- Implementations decline one after the other. -/
inductive Passed (given : List (String × Value)) :
    List Implementation → Session → Session → Prop where
  | none {s : Session} : Passed given [] s s
  | next {i : Implementation} {rest : List Implementation}
      {s s₁ s' : Session} (h : Declines execute hook given i s s₁)
      (hrest : Passed given rest s₁ s') : Passed given (i :: rest) s s'

/-- What implementations and the member of the shell answer that stands in
    for them, and how often the member is called.  The implementations
    stand in order of registration, and the latest is asked first. -/
inductive Answered (args : List Value) (given : List (String × Value))
    (is : List Implementation) (s : Session) :
    Except Fault Value → Session → Nat → Prop where
  | hook {before after : List Implementation} {i : Implementation}
      {s₁ s' : Session} {v : Value} (his : is = before ++ i :: after)
      (hpassed : Passed execute hook given after.reverse s s₁)
      (h : Run.callImplementation execute i given s₁ = some (.ok v, s'))
      (hv : v.isNull = false) : Answered args given is s (.ok v) s' 0
  | member {s₁ s' : Session} {r : Except Fault Value}
      (hpassed : Passed execute hook given is.reverse s s₁)
      (h : Run.callShell execute hook args s₁ = some (r, s')) :
      Answered args given is s r s' 1
  | stopped {before after : List Implementation} {i : Implementation}
      {s₁ s' : Session} {f : Fault} (his : is = before ++ i :: after)
      (hpassed : Passed execute hook given after.reverse s s₁)
      (h : Stops execute hook given i s₁ f s') :
      Answered args given is s (.error f) s' 0

end Saying

/-! ## Calls of a member -/

/-- A call of a member of the shell in the course of a line or a stage. -/
def Doing.isCallOf (name : String) : Doing → Bool
  | .method _ other _ => other == name
  | _ => false

/-- How often a member of the shell is called. -/
def calls (name : String) (deeds : List Deed) : Nat :=
  deeds.countP fun d => d.doing.isCallOf name

theorem calls_append (name : String) (first rest : List Deed) :
    calls name (first ++ rest) = calls name first + calls name rest :=
  List.countP_append

namespace Course

variable {α : Type} {name : String} {s s' : Session}

/-- The member is not called. -/
abbrev Spares (name : String) (c : Course α) : Prop :=
  Does (fun doing => doing.isCallOf name = false) c

theorem Spares.calls {c : Course α} (h : Spares name c)
    {r : Except Fault α} {deeds : List Deed}
    (he : c s = some ((r, s'), deeds)) : calls name deeds = 0 := by
  refine List.countP_eq_zero.mpr ?_
  intro d hd
  exact ne_true_of_eq_false (h s r s' deeds he d hd)

end Course

namespace Run

variable {s s₁ s' t : Session} {depth : Nat} {hook : String}
variable {l : List Contribution} {is : List Implementation}
variable {r : Except Fault Value}

/-! ## What chains come to -/

/-- An implementation answers, or it declines, or it stops everything. -/
theorem runImplementation_says {i : Implementation}
    {given : List (String × Value)}
    (h : runImplementation (executeWithin depth) hook i given s =
      some (r, s')) :
    (∃ v, r = .ok v ∧ v.isNull = false ∧
      callImplementation (executeWithin depth) i given s =
        some (.ok v, s')) ∨
    (r = .ok .null ∧
      Declines (executeWithin depth) hook given i s s') ∨
    ∃ f, r = .error f ∧ Stops (executeWithin depth) hook given i s f s' := by
  cases r with
  | error f =>
      have hpassed := ((runImplementation_behaves (executeWithin_keeps depth)
        s.keeps_anything i.member.keeps_anything hook given).of_eq .refl h).2
      exact .inr (.inr ⟨f, rfl, h, hpassed.1⟩)
  | ok v =>
      obtain ⟨result, s₁, hcall, hnext⟩ := of_bind_ok h
      have hcall := of_attempt hcall
      cases result with
      | ok w =>
          cases hnext
          cases hv : v.isNull with
          | false => exact .inl ⟨v, rfl, hv, hcall⟩
          | true =>
              obtain rfl : v = .null := by cases v <;> first | rfl | cases hv
              exact .inr (.inl ⟨rfl, .nothing hcall⟩)
      | error f =>
          dsimp only at hnext
          split at hnext
          · cases hnext
          · rename_i hf
            obtain ⟨_, s₂, hrecord, hnotify⟩ := of_bind_ok hnext
            cases hrecord
            obtain ⟨_, s₃, htold, hnull⟩ := of_bind_ok hnotify
            cases hnull
            exact .inr (.inl
              ⟨rfl, .failed hcall (Bool.eq_false_iff.mpr hf) htold⟩)

/-- Rewriting a value is folding it through the implementations. -/
theorem rewrite_folds {key : String} {given : List (String × Value)}
    {value : Value}
    (h : rewrite (executeWithin depth) hook key given value is s =
      some (r, s')) :
    Folds (executeWithin depth) hook
      (fun v => (key, v) :: given.filter fun pair => pair.1 != key)
      is value s r s' := by
  induction is generalizing value s with
  | nil =>
      cases h
      exact .done
  | cons i rest ih =>
      rcases of_bind h with ⟨f, rfl, hone⟩ | ⟨v, s₁, hone, hrest⟩
      · rcases runImplementation_says hone with
          ⟨v, hv, _⟩ | ⟨hv, _⟩ | ⟨g, hg, hstops⟩
        · cases hv
        · cases hv
        · cases hg
          exact .stopped hstops
      · rcases runImplementation_says hone with
          ⟨w, hw, hpresent, hcall⟩ | ⟨hw, hdeclines⟩ | ⟨g, hg, _⟩
        · cases hw
          rw [hpresent, if_neg Bool.false_ne_true] at hrest
          exact .answered hcall hpresent (ih hrest)
        · cases hw
          exact .declined hdeclines (ih hrest)
        · cases hg

/-- A chain that is rewritten from the front is a fold. -/
theorem callChain_folds {key : String} {given : List (String × Value)}
    {value : Value} (hl : s.extensions.Holds l)
    (h : callChain (executeWithin depth) hook key value given s =
      some (r, s')) :
    Folds (executeWithin depth) hook
      (fun v => (key, v) :: given.filter fun pair => pair.1 != key)
      (implementations hook l) value s r s' := by
  rw [callChain, get_bind_eq, hl hook] at h
  exact rewrite_folds h

/-- What comes out of asking implementations one after the other: the first
    that does not decline answers or stops everything. -/
theorem firstAnswer_says {given : List (String × Value)}
    (h : firstAnswer (executeWithin depth) hook given is s =
      some (r, s')) :
    (r = .ok .null ∧ Passed (executeWithin depth) hook given is s s') ∨
    ∃ front i rest s₁, is = front ++ i :: rest ∧
      Passed (executeWithin depth) hook given front s s₁ ∧
      ((∃ v, r = .ok v ∧ v.isNull = false ∧
          callImplementation (executeWithin depth) i given s₁ =
            some (.ok v, s')) ∨
        ∃ f, r = .error f ∧
          Stops (executeWithin depth) hook given i s₁ f s') := by
  induction is generalizing s with
  | nil =>
      cases h
      exact .inl ⟨rfl, .none⟩
  | cons i rest ih =>
      rcases of_bind h with ⟨f, rfl, hone⟩ | ⟨v, s₁, hone, hrest⟩
      · rcases runImplementation_says hone with
          ⟨v, hv, _⟩ | ⟨hv, _⟩ | hstops
        · cases hv
        · cases hv
        · exact .inr ⟨[], i, rest, s, rfl, .none, .inr hstops⟩
      · rcases runImplementation_says hone with
          ⟨w, hw, hpresent, hcall⟩ | ⟨hw, hdeclines⟩ | ⟨g, hg, _⟩
        · cases hw
          rw [hpresent, if_neg Bool.false_ne_true] at hrest
          cases hrest
          exact .inr ⟨[], i, rest, s, rfl, .none,
            .inl ⟨v, rfl, hpresent, hcall⟩⟩
        · cases hw
          rcases ih hrest with ⟨rfl, hpassed⟩ |
            ⟨front, j, after, s₂, rfl, hpassed, hend⟩
          · exact .inl ⟨rfl, .next hdeclines hpassed⟩
          · exact .inr ⟨i :: front, j, after, s₂, rfl,
              .next hdeclines hpassed, hend⟩
        · cases hg

/-! ## Hooks in place of members -/

/-- A hook that is asked for an answer is asked from the latest object
    on. -/
theorem callFirst_says {given : List (String × Value)}
    (hl : s.extensions.Holds l)
    (h : callFirst (executeWithin depth) hook given s = some (r, s')) :
    (r = .ok .null ∧ Passed (executeWithin depth) hook given
      (implementations hook l).reverse s s') ∨
    ∃ before i after s₁, implementations hook l = before ++ i :: after ∧
      Passed (executeWithin depth) hook given after.reverse s s₁ ∧
      ((∃ v, r = .ok v ∧ v.isNull = false ∧
          callImplementation (executeWithin depth) i given s₁ =
            some (.ok v, s')) ∨
        ∃ f, r = .error f ∧
          Stops (executeWithin depth) hook given i s₁ f s') := by
  rw [callFirst, get_bind_eq, hl hook] at h
  rcases firstAnswer_says h with
    hnone | ⟨front, i, rest, s₁, hsplit, hpassed, hend⟩
  · exact .inl hnone
  · refine .inr ⟨rest.reverse, i, front.reverse, s₁, ?_, ?_, hend⟩
    · rw [← List.reverse_reverse (implementations hook l), hsplit]
      simp
    · rwa [List.reverse_reverse]

end Run

namespace Course

open Run (executeWithin)

variable {s s' : Session} {depth : Nat} {hook : String}
variable {l : List Contribution} {r : Except Fault Value}
variable {deeds : List Deed}

/-- Only where all implementations decline is the member called, and then
    once. -/
theorem firstResult_answered (hl : s.extensions.Holds l) {place : Place}
    {args : List Value} {given : List (String × Value)}
    (h : firstResult (executeWithin depth) place hook args given s =
      some ((r, s'), deeds)) :
    Answered (executeWithin depth) hook args
      (("shell", s.shellValue) :: given) (implementations hook l) s r s'
      (calls hook deeds) := by
  rcases of_bind h with ⟨f, rfl, hshell⟩ | ⟨shell, s₁, _, _, hshell, h₁, rfl⟩
  · cases (of_own hshell).1
  obtain ⟨hparam, rfl⟩ := of_own hshell
  cases hparam
  have hspares : Spares hook (callFirst (executeWithin depth) hook
      (("shell", s.shellValue) :: given)) :=
    callFirst_does (fun _ _ => rfl) (fun _ _ => rfl) _
  rw [List.nil_append]
  rcases of_bind h₁ with
    ⟨f, rfl, hfirst⟩ | ⟨v, s₁, first, rest, hfirst, hrest, rfl⟩
  · rw [hspares.calls hfirst]
    rcases Run.callFirst_says hl (run_eq (run_callFirst ..) hfirst) with
      ⟨hr, _⟩ | ⟨before, i, after, s₁, his, hpassed, ⟨v, hr, _⟩ |
        ⟨g, hr, hstops⟩⟩
    · cases hr
    · cases hr
    · cases hr
      exact .stopped his hpassed hstops
  · rw [calls_append, hspares.calls hfirst, Nat.zero_add]
    rcases Run.callFirst_says hl (run_eq (run_callFirst ..) hfirst) with
      ⟨hr, hpassed⟩ | ⟨before, i, after, s₂, his, hpassed,
        ⟨w, hr, hpresent, hcall⟩ | ⟨g, hr, _⟩⟩
    · cases hr
      obtain ⟨hmember, rfl⟩ := of_watch hrest
      have honce : calls hook [⟨.method place hook args, faultOf? r, s'⟩] =
          1 := by
        simp [calls, Doing.isCallOf]
      rw [honce]
      exact .member hpassed hmember
    · cases hr
      rw [hpresent, if_neg Bool.false_ne_true] at hrest
      obtain ⟨hpure, rfl⟩ := of_own hrest
      cases hpure
      exact .hook his hpassed hcall hpresent
    · cases hr

/-- Handling a fault calls no member that a hook stands in for. -/
theorem answerFault_spares (place : Place) (f : Fault) :
    Spares hook (answerFault (executeWithin depth) place f) :=
  answerFault_does (fun _ _ => rfl) (fun _ => rfl) place f

/-- What is contained comes to what it comes to inside, if that is no
    fault, and its handling calls no member. -/
theorem calls_contain (name : String) {c : Course Value}
    {handle : Fault → Course Value} (hhandle : ∀ f, Spares name (handle f))
    (h : contain c handle s = some ((r, s'), deeds)) :
    ∃ r₀ s₀ first, c s = some ((r₀, s₀), first) ∧
      calls name deeds = calls name first ∧
      ∀ v, r₀ = .ok v → r = .ok v ∧ s' = s₀ := by
  obtain ⟨r₀, s₀, first, rest, hfirst, hrest, rfl⟩ := of_attempt_bind h
  refine ⟨r₀, s₀, first, hfirst, ?_, ?_⟩
  · have hspares : calls name rest = 0 := by
      cases r₀ with
      | ok v => exact Spares.calls (.pure v) hrest
      | error f =>
          dsimp only at hrest
          split at hrest
          · exact Spares.calls (.own _) hrest
          · exact (hhandle f).calls hrest
    rw [calls_append, hspares, Nat.add_zero]
  · rintro v rfl
    cases (of_own hrest).1
    exact ⟨rfl, rfl⟩

/-- The value of a line whose route leads to a hook. -/
theorem dispatch_answered {line : Line} {raw : Value} {args : List Value}
    {given : List (String × Value)}
    (hroute : ∀ place, follow (executeWithin depth) place line
      (s.registry.route line) =
        firstResult (executeWithin depth) place hook args given)
    (hl : s.extensions.Holds l)
    (h : dispatch (executeWithin depth) line raw s =
      some ((r, s'), deeds)) :
    ∃ saved u r₀ u',
      Run.enterOverlay line.overlay s = some (.ok saved, u) ∧
      Answered (executeWithin depth) hook args
        (("shell", u.shellValue) :: given) (implementations hook l) u r₀ u'
        (calls hook deeds) ∧
      ∀ v, r₀ = .ok v → r = .ok v := by
  obtain ⟨saved, e, last, inner, u, u', rfl, hentered, -, hleft, -, henter,
    hinner⟩ := of_withOverlay h
  obtain ⟨r₀, u₀, first, hfirst, hcalls, hvalue⟩ :=
    calls_contain hook (answerFault_spares _) hinner
  rcases of_bind hfirst with ⟨f, rfl, hget⟩ | ⟨t, u₁, _, _, hget, h₁, rfl⟩
  · cases (of_own hget).1
  obtain ⟨hsession, rfl⟩ := of_own hget
  cases hsession
  obtain ⟨hregistry, hl'⟩ :
      s.registry = u.registry ∧ u.extensions.Holds l := by
    rw [← (Prod.mk.inj (Option.some.inj henter)).2]
    exact ⟨rfl, hl⟩
  have hcount : calls hook (e :: inner ++ [last]) = calls hook inner := by
    simp [calls, hentered, hleft, Doing.isCallOf]
  refine ⟨saved, u, r₀, u₀, henter, ?_, fun v hv => (hvalue v hv).1⟩
  rw [hcount, hcalls, List.nil_append]
  rw [← hregistry, hroute] at h₁
  exact firstResult_answered hl' h₁

/-- What is said at a stage. -/
theorem sayAt_answered {stage : Stage} {r : Except Fault Unit}
    (hl : s.extensions.Holds l)
    (h : sayAt (executeWithin depth) stage s = some ((r, s'), deeds)) :
    ∃ r₀ s₀,
      Answered (executeWithin depth) stage.name [] [("shell", s.shellValue)]
        (implementations stage.name l) s r₀ s₀ (calls stage.name deeds) ∧
      ∀ v, r₀ = .ok v →
        Run.emitPresent (executeWithin depth) v s₀ = some (r, s') := by
  rcases of_bind h with
    ⟨f, rfl, hfirst⟩ | ⟨w, s₁, first, rest, hfirst, hrest, rfl⟩
  · obtain ⟨r₀, s₀, first, hfirst, hcalls, hvalue⟩ :=
      calls_contain stage.name (answerFault_spares _) hfirst
    refine ⟨r₀, s₀, hcalls ▸ firstResult_answered hl hfirst, ?_⟩
    intro v hv
    cases (hvalue v hv).1
  · obtain ⟨r₀, s₀, inner, hfirst, hcalls, hvalue⟩ :=
      calls_contain stage.name (answerFault_spares _) hfirst
    have hspares : Spares stage.name
        (emitPresent (executeWithin depth) w) :=
      emitPresent_does rfl
    rw [calls_append, hspares.calls hrest, Nat.add_zero, hcalls]
    refine ⟨r₀, s₀, firstResult_answered hl hfirst, ?_⟩
    intro v hv
    obtain ⟨hw, rfl⟩ := hvalue v hv
    cases hw
    exact run_eq (run_emitPresent ..) hrest

end Course

/-! ## Lines and stages -/

/-- A line that is dispatched comes to what a hook and the member answer
    that the hook stands in for, in the overlay of the line; this tells how
    often the member is called for it. -/
def Run.AnswersFor (depth : Nat) (hook : String) (args : List Value)
    (given : List (String × Value)) (l : List Contribution) (split : Line)
    (raw : Value) (s : Session) : Prop :=
  ∃ r s' deeds saved u r₀ u',
    dispatch (executeWithin depth) split raw s = some (r, s') ∧
    Course.dispatch (executeWithin depth) split raw s =
      some ((r, s'), deeds) ∧
    enterOverlay split.overlay s = some (.ok saved, u) ∧
    Answered (executeWithin depth) hook args
      (("shell", u.shellValue) :: given) (implementations hook l) u r₀ u'
      (calls hook deeds) ∧
    ∀ v, r₀ = .ok v → r = .ok v

/-- How the members of a shell and the hooks of unmarked objects make up
    what lines and stages come to. -/
structure Run.Composes (depth : Nat) : Prop where
  /-- Attempts to register unmarked objects leave what these have brought,
      in order of registration. -/
  registered : ∀ (s : Session) (earlier : List Registration),
    s.extensions = .empty → (∀ r ∈ earlier, r.object.Unmarked) →
    ∃ results s', tryEach earlier s = some (.ok results, s') ∧
      results.length = earlier.length ∧
      s'.extensions.Holds (contributions s.takesBack earlier results)
  /-- What is parsed is what the hooks make, in order of registration, of
      what the member makes of the line. -/
  parsed : ∀ (s s₁ : Session) (l : List Contribution) (line w : Value),
    callShell (executeWithin depth) "precmd" [line] s = some (.ok w, s₁) →
    s₁.extensions.Holds l →
    ∃ r s', rewriteLine (executeWithin depth) line s = some (r, s') ∧
      Folds (executeWithin depth) "precmd"
        (fun v => [("line", v), ("shell", s₁.shellValue)])
        (implementations "precmd" l) w s₁ r s' ∧
      readRewritten (executeWithin depth) line s =
        (do Course.splitLine (← ofAnswer r)) s'
  /-- If making it left the shell alone, and of what code keeps in memory
      all that code reads, the line comes to what that value comes to as it
      stands, and leaves the same core: the environment and the request to
      quit are in it. -/
  unrewritten : ∀ (k : Conduct) (names : String → Bool) (s s₁ : Session)
      (line v : Value), s.Unheeding k names →
    rewriteLine (executeWithin depth) line s = some (.ok v, s₁) →
    s₁.core = s.core → s₁.extensions = s.extensions →
    s.RemembersAs names s₁ →
    ∃ r s' t', runLine (executeWithin depth) line s = some (r, s') ∧
      runAsGiven (executeWithin depth) v s = some (r, t') ∧
      t'.core = s'.core ∧ s'.RemembersAs names t'
  /-- That is what a shell does that takes lines as they are typed. -/
  typed : ∀ (s t : Session) (text : String), Typed depth text s t →
    runLine (executeWithin depth) (.text text) s =
      runAsGiven (executeWithin depth) (.text text) t
  /-- What is returned is what the hooks make, in order of registration, of
      what the member makes of the result. -/
  returned : ∀ (s s₁ s₂ : Session) (l : List Contribution)
      (line v w : Value),
    lineResult (executeWithin depth) line s = some (.ok v, s₁) →
    callShell (executeWithin depth) "postcmd" [v] s₁ =
      some (.ok w, s₂) →
    s₂.extensions.Holds l →
    ∃ r s', runLine (executeWithin depth) line s = some (r, s') ∧
      Folds (executeWithin depth) "postcmd"
        (fun v => [("output", v), ("shell", s₂.shellValue)])
        (implementations "postcmd" l) w s₂ r s'
  /-- Unless the member fails: then it is what is answered for the fault,
      which the hooks do not see. -/
  refused : ∀ (s s₁ s₂ : Session) (line v : Value) (f : Fault),
    lineResult (executeWithin depth) line s = some (.ok v, s₁) →
    callShell (executeWithin depth) "postcmd" [v] s₁ =
      some (.error f, s₂) →
    f.isSignal = false →
    runLine (executeWithin depth) line s =
      answerFault (executeWithin depth) .postcmd "postcmd" f line s₂
  /-- An unknown command comes to the answer of the latest hook that has
      one, or of the member. -/
  unknown : ∀ (s : Session) (l : List Contribution) (split : Line)
      (raw : Value),
    s.extensions.Holds l → s.registry.route split = .unknown →
    AnswersFor depth "default" (.text split.command :: split.args)
      [("command", .text split.command), ("args", .list split.args)] l split
      raw s
  /-- So does a line without a command. -/
  empty : ∀ (s : Session) (l : List Contribution) (split : Line)
      (raw : Value),
    s.extensions.Holds l → s.registry.route split = .empty →
    AnswersFor depth "emptycommand" [] [] l split raw s
  /-- So do the intro and the outro, and the value is written. -/
  said : ∀ (s : Session) (l : List Contribution) (stage : Stage),
    s.extensions.Holds l →
    ∃ r s' deeds r₀ s₀,
      sayAt (executeWithin depth) stage s = some (r, s') ∧
      Course.sayAt (executeWithin depth) stage s =
        some ((r, s'), deeds) ∧
      Answered (executeWithin depth) stage.name []
        [("shell", s.shellValue)] (implementations stage.name l) s r₀ s₀
        (calls stage.name deeds) ∧
      ∀ v, r₀ = .ok v →
        emitPresent (executeWithin depth) v s₀ = some (r, s')

namespace Run

variable {s s₁ s₂ s' : Session} {depth : Nat} {l : List Contribution}

/-- Hooks that are told of the shell rewrite a value by a fold. -/
theorem rewriting_folds {hook key : String} (hkey : key ≠ "shell")
    (hl : s.extensions.Holds l) (value : Value) :
    ∃ r s', (shellParam >>= fun shell =>
          callChain (executeWithin depth) hook key value [shell]) s =
        some (r, s') ∧
      Folds (executeWithin depth) hook
        (fun v => [(key, v), ("shell", s.shellValue)])
        (implementations hook l) value s r s' := by
  obtain ⟨r, s', he, -⟩ := callChain_behaves (executeWithin_keeps depth)
    s.keeps_anything hook key value [("shell", s.shellValue)] s .refl
  have hshell : shellParam s = some (.ok ("shell", s.shellValue), s) := rfl
  have hfolds := callChain_folds hl he
  simp only [List.filter, bne_iff_ne.mpr hkey.symm] at hfolds
  exact ⟨r, s', (bind_ok hshell).trans he, hfolds⟩

/-- What a line is rewritten to. -/
theorem rewriteLine_folds {line w : Value}
    (hprecmd : callShell (executeWithin depth) "precmd" [line] s =
      some (.ok w, s₁))
    (hl : s₁.extensions.Holds l) :
    ∃ r s', rewriteLine (executeWithin depth) line s = some (r, s') ∧
      Folds (executeWithin depth) "precmd"
        (fun v => [("line", v), ("shell", s₁.shellValue)])
        (implementations "precmd" l) w s₁ r s' := by
  rw [rewriteLine, bind_ok hprecmd]
  exact rewriting_folds (by decide) hl w

/-- What a result is rewritten to. -/
theorem rewriteResult_folds {line v w : Value}
    (hpostcmd : callShell (executeWithin depth) "postcmd" [v] s₁ =
      some (.ok w, s₂))
    (hl : s₂.extensions.Holds l) :
    ∃ r s', rewriteResult (executeWithin depth) v line s₁ = some (r, s') ∧
      Folds (executeWithin depth) "postcmd"
        (fun v => [("output", v), ("shell", s₂.shellValue)])
        (implementations "postcmd" l) w s₂ r s' := by
  rw [rewriteResult, bind_ok (attempt_eq hpostcmd)]
  exact rewriting_folds (by decide) hl w

/-- A class that inherits `postcmd` gives every result back. -/
theorem postcmd_inherited (depth : Nat) {c : Class} (hc : s.shell = some c)
    (hd : c.lookup? "postcmd" = OrderedMap.find "postcmd" BaseShell.members)
    (result : Value) :
    callShell (executeWithin (depth + 1)) "postcmd" [result] s =
      some (.ok result, s) := by
  obtain ⟨rest, hcall⟩ := callShell_function hc hd [result] rfl
  exact hcall

/-- A line whose route leads to a hook is answered by it, or by the
    member. -/
theorem answersFor_of_route {hook : String} {args : List Value}
    {given : List (String × Value)} {split : Line}
    (hl : s.extensions.Holds l)
    (hroute : ∀ place, Course.follow (executeWithin depth) place split
      (s.registry.route split) =
        Course.firstResult (executeWithin depth) place hook args given)
    (raw : Value) : AnswersFor depth hook args given l split raw s := by
  obtain ⟨r, s', he, -⟩ := dispatch_behaves (executeWithin_keeps depth)
    s.keeps_anything (.all (executeWithin_keeps depth) s.keeps_anything)
    split raw s .refl
  obtain ⟨deeds, hdeeds⟩ := Course.of_run (Course.run_dispatch _ _ _) he
  obtain ⟨saved, u, r₀, u', henter, hanswered, hvalue⟩ :=
    Course.dispatch_answered hroute hl hdeeds
  exact ⟨r, s', deeds, saved, u, r₀, u', he, hdeeds, henter, hanswered,
    hvalue⟩

/-- **COMPOSITION**: a line is the fold of the hooks over what the member of
    the shell makes of it, what is done then depends on that value alone
    where making it left the shell alone, the result is folded in the same
    way, and where hooks stand in for a member the latest one with an
    answer gives it. -/
theorem runLine_composes (depth : Nat) : Composes depth where
  registered s earlier hs h := by
    obtain ⟨results, s', htry, hlength⟩ := tryEach_returns earlier s
    exact ⟨results, s', htry, hlength, holds_tryEach hs h htry⟩
  parsed _ _ _ _ _ hprecmd hl := by
    obtain ⟨r, s', he, hfolds⟩ := rewriteLine_folds hprecmd hl
    exact ⟨r, s', he, hfolds, readRewritten_of_rewriteLine he⟩
  unrewritten _ _ _ _ _ _ := runLine_unrewritten
  typed _ _ _ := runLine_typed
  returned _ _ _ _ _ _ _ hresult hpostcmd hl := by
    obtain ⟨r, s', he, hfolds⟩ := rewriteResult_folds hpostcmd hl
    exact ⟨r, s', (bind_ok hresult).trans he, hfolds⟩
  refused _ _ _ _ _ _ hresult hpostcmd hf := by
    rw [runLine, bind_ok hresult, rewriteResult,
      bind_ok (attempt_eq hpostcmd)]
    simp only [hf, Bool.false_eq_true, if_false]
    rfl
  unknown _ _ _ raw hl hroute :=
    answersFor_of_route hl (fun _ => by rw [hroute]; rfl) raw
  empty _ _ _ raw hl hroute :=
    answersFor_of_route hl (fun _ => by rw [hroute]; rfl) raw
  said s _ stage hl := by
    obtain ⟨r, s', he, -⟩ := sayAt_behaves (executeWithin_keeps depth)
      s.keeps_anything stage s .refl
    obtain ⟨deeds, hdeeds⟩ := Course.of_run (Course.run_sayAt _ _) he
    obtain ⟨r₀, s₀, hanswered, hvalue⟩ := Course.sayAt_answered hl hdeeds
    exact ⟨r, s', deeds, r₀, s₀, he, hdeeds, hanswered, hvalue⟩

end Run

/-! ## Several objects of a shell -/

/-- Puts a mark behind a result. -/
def closingHook (mark : String) : Class :=
  hookClass "postcmd" ⟨false, false, none, ["output"]⟩ fun call =>
    match OrderedMap.find "output" call.params with
    | some (.text output) => .ok (.text (output ++ mark))
    | _ => .ok .null

/-- Answers for unknown commands, or leaves them to others. -/
def takingHook (answer : Value) : Class :=
  hookClass "default" ⟨false, false, none, []⟩ fun _ => .ok answer

/-- Keeps the latest line in memory. -/
def rememberingHook : Class :=
  keepingHook "precmd" ⟨false, false, none, ["line"]⟩ "last"
    fun call _ => (OrderedMap.find "line" call.params).getD .null

/-- What it keeps there is put aside. -/
def lastLine : String → Bool := fun name => name == "last"

/-- Two objects that rewrite lines and one between them that fails, two that
    answer for unknown commands and one that does not, an observer, two
    that rewrite results, and one that remembers lines. -/
def composedObjects : List Registration :=
  [⟨plainHook, 0, none⟩, ⟨failingHook, 1, none⟩,
    ⟨markingHook ⟨false, false, none, ["line"]⟩ "c", 2, none⟩,
    ⟨takingHook (.text "early"), 3, none⟩,
    ⟨takingHook (.text "late"), 4, none⟩, ⟨takingHook .null, 5, none⟩,
    ⟨observingHook, 6, none⟩, ⟨closingHook "!", 7, none⟩,
    ⟨closingHook "?", 8, none⟩, ⟨rememberingHook, 9, none⟩]

/-- The session that they are registered with. -/
def composedSession : Session :=
  composedObjects.foldl Session.admitted askingSession

/-- Objects that rewrite results only. -/
def closedObjects : List Registration :=
  [⟨closingHook "!", 0, none⟩, ⟨closingHook "?", 1, none⟩]

def closedSession : Session :=
  closedObjects.foldl Session.admitted askingSession

/-- A shell that takes no result. -/
def refusingShell : Class :=
  ⟨1, "Refusing", .ofList
    [("postcmd", BaseShell.member ["output"] false none fun _ =>
        .fail (.raised "ValueError" "no"))],
    [BaseShell.shellClass]⟩

def refusingSession : Session :=
  { Session.bare ⟨default, [], []⟩ default default with
    shell := some refusingShell }

/-- Code that does not read what is kept under some names. -/
def Conduct.unreading (names : String → Bool) : Conduct where
  asks r := ∀ name, r = .kept name → names name = false
  raises _ := True
  hears _ := True
  plain _ := trivial
  causes _ _ := trivial

theorem unmarked_composedObjects :
    ∀ r ∈ composedObjects, r.object.Unmarked := by
  decide +kernel

namespace Run

variable {s s' : Session} {l : List Registration}

/-- Registering objects admits them one after the other, and brings all
    that they have. -/
theorem of_registerEach (h : registerEach l s = some (.ok (), s')) :
    s' = l.foldl Session.admitted s ∧
      ∀ hook, s'.extensions.chain hook = fill (s.extensions.chain hook)
        (implementations hook (l.map .whole)) := by
  induction l generalizing s with
  | nil =>
      cases h
      exact ⟨rfl, fun _ => rfl⟩
  | cons r rest ih =>
      obtain ⟨label, s₁, hone, hrest⟩ := of_bind_ok h
      obtain ⟨hadmitted, hchains⟩ := ih hrest
      refine ⟨?_, ?_⟩
      · rw [hadmitted, of_registerOne hone]
        rfl
      · intro hook
        rw [hchains, (chain_registerOne hone hook).2]
        exact List.foldl_append.symm

/-- Unmarked objects that can be registered stand in order then. -/
theorem holds_admitted (h : ∀ r ∈ l, r.object.Unmarked)
    (hl : isRegistered l askingSession = true) :
    (l.foldl Session.admitted askingSession).extensions.Holds
      (l.map .whole) := by
  obtain ⟨s', he⟩ := of_isRegistered hl
  obtain ⟨hadmitted, hchains⟩ := of_registerEach he
  intro hook
  rw [← hadmitted, hchains]
  refine (fill_empty _).trans (arranged_of_plain (isPlain_of_unmarked ?_ _))
  intro c hc
  obtain ⟨r, hr, rfl⟩ := List.mem_map.mp hc
  exact h r hr

theorem holds_composedSession :
    composedSession.extensions.Holds (composedObjects.map .whole) :=
  holds_admitted unmarked_composedObjects (by decide +kernel)

theorem holds_closedSession :
    closedSession.extensions.Holds (closedObjects.map .whole) :=
  holds_admitted (by decide +kernel) (by decide +kernel)

/-- Each object has one hook, which leaves the shell alone. -/
theorem quiet_composedObjects (hook : String) :
    ∀ i ∈ composedSession.extensions.chain hook,
      i.member.Quiet ⟨fun _ => true, lastLine⟩ Whatever := by
  have hone : ∀ r ∈ composedObjects, ∃ own mark body,
      r.object = hookObject own mark body ∧
      ((hookObject own mark body).bind own).Quiet
        ⟨fun _ => true, lastLine⟩ Whatever := by
    intro r hr
    simp only [composedObjects, List.mem_cons, List.not_mem_nil,
      or_false] at hr
    rcases hr with rfl | rfl | rfl | rfl | rfl | rfl | rfl | rfl | rfl | rfl
    case inr.inr.inr.inr.inr.inr.inr.inr.inr =>
      exact ⟨_, _, _, rfl, (silent_keepingHook (by decide)).quiet⟩
    -- the others end at once
    all_goals
      refine ⟨_, _, _, rfl, quiet_hookClass fun call => ?_⟩
      first | trivial | rfl | (split <;> trivial)
  rw [holds_composedSession hook]
  intro i hi
  obtain ⟨c, hc, entry, hentry, -, rfl⟩ := mem_implementations hi
  obtain ⟨r, hr, rfl⟩ := List.mem_map.mp hc
  obtain ⟨own, mark, body, hobject, hquiet⟩ := hone r hr
  have hmarked : entry ∈ markedMembers r.object := hentry
  rw [hobject, markedMembers_hookObject] at hmarked
  obtain rfl := List.mem_singleton.mp hmarked
  show (r.object.bind own).Quiet _ _
  rw [hobject]
  exact hquiet

/-- Objects whose code keeps a conduct can be registered. -/
theorem registerEach_keeps {k : Conduct} (hl : ∀ r ∈ l, r.object.Keeps k)
    (hs : s.Keeps k) (h : registerEach l s = some (.ok (), s')) :
    s'.Keeps k := by
  induction l generalizing s with
  | nil =>
      cases h
      exact hs
  | cons r rest ih =>
      obtain ⟨label, s₁, hone, hrest⟩ := of_bind_ok h
      exact ih (fun q hq => hl q (List.mem_cons_of_mem _ hq))
        (registerExtension_keeps (hl r List.mem_cons_self) hs hone) hrest

theorem keeps_askingSession (names : String → Bool) :
    askingSession.Keeps (.unreading names) := by
  have hshell : askingShell.Keeps (.unreading names) := by
    refine BaseShell.keeps_derived ?_ ?_
    · rintro r - hr name rfl
      cases hr
    · intro entry hentry
      simp only [List.mem_cons, List.not_mem_nil, or_false] at hentry
      rcases hentry with rfl | rfl
      · exact fun _ => Program.keeps_answer nofun rfl
      · refine fun _ => Program.keeps_ask nofun rfl fun v => ?_
        exact Program.keeps_ask nofun rfl fun _ => True.intro
  have hworld : World.Keeps (.unreading names) ⟨default, [], []⟩ :=
    fun _ h => nomatch h
  have hcatalogue : Catalogue.Keeps (.unreading names)
      ⟨.ofList [("Silent", silentHook)], 1⟩ := by
    refine OrderedMap.All.ofList ?_
    intro pair hpair
    obtain rfl := List.mem_singleton.mp hpair
    exact keeps_hookClass fun _ _ _ => trivial
  exact { Session.keeps_bare hworld hcatalogue default true with
    shell := by
      intro c hc
      cases hc
      exact hshell
    registry := Registry.Keeps.empty.scan hshell _ }

/-- Its code does not read what is kept of the latest line. -/
theorem keeps_composedSession :
    composedSession.Keeps (.unreading lastLine) := by
  obtain ⟨s', he⟩ := of_isRegistered
    (by decide +kernel : isRegistered composedObjects askingSession = true)
  have hadmitted : s' = composedSession := (of_registerEach he).1
  rw [← hadmitted]
  refine registerEach_keeps ?_ (keeps_askingSession lastLine) he
  intro r hr
  simp only [composedObjects, List.mem_cons, List.not_mem_nil,
    or_false] at hr
  rcases hr with rfl | rfl | rfl | rfl | rfl | rfl | rfl | rfl | rfl | rfl
  case inr.inr.inr.inr.inr.inr.inr.inr.inr =>
    exact keeps_hookObject fun _ => Program.keeps_answer nofun rfl
  -- the others raise at most
  all_goals exact keeps_hookClass fun _ _ _ => trivial

/-- The class that code can register has no observers. -/
theorem unheeding_composedSession :
    composedSession.Unheeding (.unreading lastLine) lastLine where
  keeps := keeps_composedSession
  unread name h := h name rfl
  heedless :=
    { observers := fun i hi => .inr (quiet_composedObjects _ i hi)
      catalogue := by
        refine OrderedMap.All.ofList ?_
        intro pair hpair
        obtain rfl := List.mem_singleton.mp hpair
        intro name serial entry hentry hhook
        rw [silentHook, markedMembers_hookClass] at hentry
        obtain rfl := List.mem_singleton.mp hentry
        exact absurd hhook (by decide) }

theorem route_composedSession :
    composedSession.registry.route ⟨"x", .empty, []⟩ = .unknown := by
  have hrank : (composedSession.registry.route ⟨"x", .empty, []⟩).rank =
      5 := by
    decide +kernel
  cases hroute : composedSession.registry.route ⟨"x", .empty, []⟩ with
  | unknown => rfl
  | _ =>
      rw [hroute] at hrank
      cases hrank

/-- A quote that is not closed is answered with an error text. -/
theorem lineResult_quote {c : Class} (hc : s.shell = some c)
    (hd : c.lookup? "format_error" =
      OrderedMap.find "format_error" BaseShell.members)
    (htyped : Typed 9 "'" s s) :
    ∃ v events, lineResult (executeWithin 9) (.text "'") s =
      some (.ok v, { s with events := s.events ++ events }) := by
  obtain ⟨reason, shown, hread⟩ : ∃ reason shown,
      readRewritten (executeWithin 9) (.text "'") s =
        some (.error (.badLine reason shown), s) := by
    rw [readRewritten_of_rewriteLine htyped.rewriteLine]
    exact ⟨_, _, rfl⟩
  have hformat := formatFault_inherited 8
    (s := { s with events := s.events ++ [.badLine reason shown] }) hc hd
    (.badLine reason shown)
  exact ⟨_, _, (bind_ok (attempt_eq hread)).trans hformat⟩

/-- Lines of these shells: one that two hooks rewrite and a third answers,
    one that is taken as typed, an unclosed quote, and one without a
    command. -/
theorem runLine_composes_objects :
    outcome composedObjects "x" = some "late!?" ∧
    (∃ results s', tryEach composedObjects askingSession =
        some (.ok results, s') ∧
      s'.extensions.Holds (contributions askingSession.takesBack
        composedObjects results)) ∧
    (∃ v s₁ r s' t',
      Folds (executeWithin 9) "precmd"
        (fun v => [("line", v), ("shell", .shell)])
        (implementations "precmd" (composedObjects.map .whole)) (.text "x")
        composedSession (.ok v) s₁ ∧
      runLine (executeWithin 9) (.text "x") composedSession =
        some (r, s') ∧
      runAsGiven (executeWithin 9) v composedSession = some (r, t') ∧
      t'.core = s'.core ∧ s'.RemembersAs lastLine t') ∧
    runLine (executeWithin 9) (.text "x") askingSession =
      runAsGiven (executeWithin 9) (.text "x") askingSession ∧
    (∃ v s₁ r s',
      runLine (executeWithin 9) (.text "'") closedSession = some (r, s') ∧
      Folds (executeWithin 9) "postcmd"
        (fun v => [("output", v), ("shell", .shell)])
        (implementations "postcmd" (closedObjects.map .whole)) v s₁ r s') ∧
    (∃ f s₁, runLine (executeWithin 9) (.text "'") refusingSession =
      answerFault (executeWithin 9) .postcmd "postcmd" f (.text "'") s₁) ∧
    AnswersFor 9 "default" [.text "x"]
      [("command", .text "x"), ("args", .list [])]
      (composedObjects.map .whole) ⟨"x", .empty, []⟩ (.text "x")
      composedSession ∧
    AnswersFor 9 "emptycommand" [] [] (composedObjects.map .whole)
      ⟨"", .empty, []⟩ (.text "") composedSession ∧
    ∃ r s' deeds r₀ s₀,
      sayAt (executeWithin 9) .intro composedSession = some (r, s') ∧
      Answered (executeWithin 9) "intro" [] [("shell", .shell)]
        (implementations "intro" (composedObjects.map .whole))
        composedSession r₀ s₀ (calls "intro" deeds) := by
  have h := runLine_composes 9
  refine ⟨by decide +kernel, ?_, ?_, ?_, ?_, ?_, ?_, ?_, ?_⟩
  · obtain ⟨results, s', htry, -, hl⟩ :=
      h.registered askingSession composedObjects rfl unmarked_composedObjects
    exact ⟨results, s', htry, hl⟩
  · have hprecmd : callShell (executeWithin 9) "precmd" [.text "x"]
        composedSession = some (.ok (.text "x"), composedSession) :=
      precmd_inherited 8 rfl rfl _
    obtain ⟨r, s₁, he, hfolds, -⟩ := h.parsed _ _ _ _ _ hprecmd
      holds_composedSession
    obtain ⟨v, s₂, he', hbeside⟩ := rewriteLine_quiet hprecmd (.refl _)
      (quiet_composedObjects _) (quiet_composedObjects _)
    rw [he] at he'
    cases he'
    obtain ⟨r, s', t', hrun, hgiven, hsame⟩ := h.unrewritten _ _ _ _ _ _
      unheeding_composedSession he hbeside.core hbeside.extensions
      hbeside.memory
    exact ⟨v, s₁, r, s', t', hfolds, hrun, hgiven, hsame⟩
  · exact h.typed _ _ _ (.inherited 8 rfl rfl rfl "x")
  · have htyped : Typed 9 "'" closedSession closedSession :=
      .inherited 8 rfl rfl (List.isEmpty_iff.mp (by decide +kernel)) "'"
    obtain ⟨v, events, hresult⟩ := lineResult_quote rfl rfl htyped
    obtain ⟨r, s', he, hfolds⟩ := h.returned _ _ _ _ _ _ _ hresult
      (postcmd_inherited 8 rfl rfl v) holds_closedSession
    exact ⟨_, _, r, s', he, hfolds⟩
  · have htyped : Typed 9 "'" refusingSession refusingSession :=
      .inherited 8 rfl rfl rfl "'"
    obtain ⟨v, events, hresult⟩ := lineResult_quote rfl rfl htyped
    exact ⟨_, _, h.refused _ _ _ _ _ (.raised "ValueError" "no") hresult rfl
      rfl⟩
  · exact h.unknown _ _ _ _ holds_composedSession route_composedSession
  · exact h.empty _ _ _ _ holds_composedSession rfl
  · obtain ⟨r, s', deeds, r₀, s₀, he, -, hanswered, -⟩ :=
      h.said composedSession _ .intro holds_composedSession
    exact ⟨r, s', deeds, r₀, s₀, he, hanswered⟩

end Run

/-! ## What a line depends on that was rewritten -/

/-- A shell with a command that runs another line, one that fails, and one
    that tells the line that is remembered. -/
def nestingShell : Class :=
  ⟨1, "Nesting", .ofList
    [("do_xb", BaseShell.member [] true none fun _ =>
        .answer (.runLine (.text "y"))),
      ("do_zb", BaseShell.member [] true none fun _ =>
        .fail (.raised "ValueError" "z")),
      ("do_last", BaseShell.member [] true none fun _ =>
        .ask (.kept "last") fun v => BaseShell.displaying "" v "")],
    [BaseShell.shellClass]⟩

def nestingSession : Session :=
  { Session.bare ⟨default, [], []⟩ default default with
    shell := some nestingShell
    registry := .discover [nestingShell] }

/-- Notes in a variable the line of every fault. -/
def notingHook : Class :=
  hookObject "on_error" ⟨false, false, none, ["line"]⟩ fun call =>
    .answer (.environment (.set (.text "noted")
      ((OrderedMap.find "line" call.params).getD .null)))

/-- Interrupts before every line. -/
def stoppingHook : Class :=
  hookClass "precmd" ⟨false, false, none, []⟩ fun _ =>
    .error (.interrupt "stop")

namespace Run

/-- What a line is parsed as in a shell with some objects, the text that it
    comes to or the kind of fault that comes out of it, and what is noted
    afterwards. -/
def aftermath (l : List Registration) (line : String) :
    Option (Option String × Option String × Option String) := do
  let (_, s) ← registerEach l nestingSession
  let (parsed, _) ← rewriteLine (executeWithin 9) (.text line) s
  let (result, s') ← runLine (executeWithin 9) (.text line) s
  let text := match result with
    | .ok v => v.asText?
    | .error f => some f.kindName
  pure (parsed.toOption.bind Value.asText?, text,
    (s'.env.get? "noted").bind Value.asText?)

/-- A line that is rewritten need not come to what the rewritten line comes
    to in a shell that rewrites nothing, and a hook that fails is not always
    passed over:

    * a line within the line is rewritten as well;
    * observers are told the line as it was typed, and one can note it;
    * a hook can remember the line, and a command can tell it;
    * a hook that raises a signal stops the line. -/
theorem runLine_rewritten_differs :
    (aftermath [⟨plainHook, 0, none⟩] "x" =
        some (some "xb", some "yb: Unknown command", none) ∧
      aftermath [] "xb" =
        some (some "xb", some "y: Unknown command", none)) ∧
    (aftermath [⟨plainHook, 0, none⟩, ⟨notingHook, 1, none⟩] "z" =
        some (some "zb", some "Error: zb: z", some "z") ∧
      aftermath [⟨notingHook, 1, none⟩] "zb" =
        some (some "zb", some "Error: zb: z", some "zb")) ∧
    (aftermath [⟨rememberingHook, 0, none⟩] "last" =
        some (some "last", some "last", none) ∧
      aftermath [] "last" =
        some (some "last", some "None", none)) ∧
    aftermath [⟨stoppingHook, 0, none⟩] "x" =
      some (none, some "KeyboardInterrupt", none) := by
  refine ⟨?_, ?_, ?_, ?_⟩ <;> decide +kernel

end Run

end LineShell
