import LineShell.Proofs.Session.Behaviour

/-! # Agreement — what one run comes to, another comes to as well

    Two steps *agree* under a relation of sessions if whatever the first
    comes to in a session, the second comes to in every related session,
    and related sessions are left.  A step that comes to nothing agrees
    with every step, so the first may be a run that stops where the second
    goes on.

    A *bond* is a relation that most of what a shell does cannot break:
    related sessions are the same in their *core*, and an *update* of
    both, one that depends on the core alone, leaves them related, and so
    does what code does to its memory.  The bond is *free* if changes of the
    environment leave them related as well, and *mobile* if moves to another
    phase do.  The rules follow the ways in
    which steps are put together. -/

namespace LineShell

variable {k : Conduct} {R : Session → Session → Prop} {s t s' t' : Session}

/-- A session apart from its extensions, from what code keeps for itself,
    and from what is written down on the way. -/
def Session.core (s : Session) : Session :=
  { s with
    extensions := .empty
    memory := fun _ => .null
    trace := []
    events := [] }

/-- A change of a session that depends on its core alone.  It adds to the
    trace; it leaves the variables, the phase, the extensions, their numbers,
    the memory and the catalogue alone, and brings in no code that breaks
    the conduct. -/
structure Update (k : Conduct) (f : Session → Session) : Prop where
  core : ∀ s, (f s).core = (f s.core).core
  trace : ∀ s, (f s).trace = s.trace ++ (f s.core).trace
  env : ∀ s, (f s).env = s.env
  phase : ∀ s, (f s).phase = s.phase
  extensions : ∀ s, (f s).extensions = s.extensions
  serial : ∀ s, (f s).serial = s.serial
  memory : ∀ s, (f s).memory = s.memory
  catalogue : ∀ s, (f s).catalogue = s.catalogue
  keeps : ∀ s, s.Keeps k → (f s).Keeps k

/-- The sessions agree in what updates leave alone, and in the trace. -/
structure Session.Alike (s t : Session) : Prop where
  trace : t.trace = s.trace
  env : t.env = s.env
  phase : t.phase = s.phase
  extensions : t.extensions = s.extensions
  serial : t.serial = s.serial
  memory : t.memory = s.memory
  catalogue : t.catalogue = s.catalogue

namespace Update

variable {f : Session → Session}

/-- Most updates do not even add to the trace. -/
theorem of_alike (hcore : ∀ s, (f s).core = (f s.core).core)
    (halike : ∀ s : Session, s.Alike (f s))
    (hkeeps : ∀ s, s.Keeps k → (f s).Keeps k) :
    Update k f where
  core := hcore
  trace s := by
    -- the core of a session has no trace
    have hnone : (f s.core).trace = [] := (halike s.core).trace
    rw [hnone, List.append_nil]
    exact (halike s).trace
  env s := (halike s).env
  phase s := (halike s).phase
  extensions s := (halike s).extensions
  serial s := (halike s).serial
  memory s := (halike s).memory
  catalogue s := (halike s).catalogue
  keeps := hkeeps

/-- An update of sessions with one core leaves them with one core. -/
theorem core_eq (h : Update k f) (hc : t.core = s.core) :
    (f t).core = (f s).core := by
  rw [h.core t, hc, ← h.core s]

theorem recorded (events : List Event) :
    Update k fun s => { s with events := s.events ++ events } :=
  .of_alike (fun _ => rfl) (fun _ => ⟨rfl, rfl, rfl, rfl, rfl, rfl, rfl⟩)
    fun _ hs => { hs with }

theorem traced (values : List Value) :
    Update k fun s => { s with trace := s.trace ++ values } where
  core _ := rfl
  trace _ := rfl
  env _ := rfl
  phase _ := rfl
  extensions _ := rfl
  serial _ := rfl
  memory _ := rfl
  catalogue _ := rfl
  keeps _ hs := { hs with }

theorem printed (text : String) :
    Update k fun s => { s with printed := s.printed ++ text } :=
  .of_alike (fun _ => rfl) (fun _ => ⟨rfl, rfl, rfl, rfl, rfl, rfl, rfl⟩)
    fun _ hs => { hs with }

theorem registered {g : Registry → Registry}
    (hg : ∀ r : Registry, r.Keeps k → (g r).Keeps k) :
    Update k fun s => { s with registry := g s.registry } :=
  .of_alike (fun _ => rfl) (fun _ => ⟨rfl, rfl, rfl, rfl, rfl, rfl, rfl⟩)
    fun _ hs => { hs with registry := hg _ hs.registry }

theorem resumed : Update k fun s => { s with quitRequested := false } :=
  .of_alike (fun _ => rfl) (fun _ => ⟨rfl, rfl, rfl, rfl, rfl, rfl, rfl⟩)
    fun _ hs => { hs with }

theorem stopped : Update k fun s => { s with quitRequested := true } :=
  .of_alike (fun _ => rfl) (fun _ => ⟨rfl, rfl, rfl, rfl, rfl, rfl, rfl⟩)
    fun _ hs => { hs with }

theorem read (prompt : Value) (keys : String) :
    Update k fun s => { s with
      reader := (s.reader.read s.identity prompt keys).2.1
      printed := s.printed ++ (s.reader.read s.identity prompt keys).2.2 } :=
  .of_alike (fun _ => rfl) (fun _ => ⟨rfl, rfl, rfl, rfl, rfl, rfl, rfl⟩)
    fun _ hs =>
      { hs with source := Reader.keeps_read _ prompt keys hs.source }

theorem recalled (entries : List String) :
    Update k fun s => { s with
      reader := { s.reader with history := entries } } :=
  .of_alike (fun _ => rfl) (fun _ => ⟨rfl, rfl, rfl, rfl, rfl, rfl, rfl⟩)
    fun _ hs => { hs with }

/-- Files that change, and records about it. -/
theorem filed {files : Session → FileTree} {events : Session → List Event}
    (hf : ∀ s, files s = files s.core) :
    Update k fun s =>
      { s with files := files s, events := s.events ++ events s } :=
  .of_alike (fun s => by rw [← hf s]; rfl)
    (fun _ => ⟨rfl, rfl, rfl, rfl, rfl, rfl, rfl⟩) fun _ hs => { hs with }

theorem prompted {p : Prompt} (hp : p.Keeps k) :
    Update k fun s => { s with prompt := p } :=
  .of_alike (fun _ => rfl) (fun _ => ⟨rfl, rfl, rfl, rfl, rfl, rfl, rfl⟩)
    fun _ hs => { hs with prompt := hp }

theorem chosen (name : String) (v : Value) :
    Update k fun s => { s with options := s.options.insert name v } :=
  .of_alike (fun _ => rfl) (fun _ => ⟨rfl, rfl, rfl, rfl, rfl, rfl, rfl⟩)
    fun _ hs => { hs with }

/-- What overlays remember, where that depends on the core. -/
theorem remembered {g : Session → List (Option Environment.Saved)}
    (hcore : ∀ s, g s = g s.core) :
    Update k fun s => { s with overlays := g s } :=
  .of_alike (fun s => by rw [← hcore s]; rfl)
    (fun _ => ⟨rfl, rfl, rfl, rfl, rfl, rfl, rfl⟩) fun _ hs => { hs with }

end Update

/-- A relation of sessions with one core that no update breaks, and nothing
    that code does to its memory. -/
structure Bond (k : Conduct) (R : Session → Session → Prop) : Prop where
  core : ∀ {s t : Session}, R s t → t.core = s.core
  keeps : ∀ {s t : Session}, R s t → s.Keeps k
  update : ∀ {s t : Session} {f : Session → Session},
    Update k f → R s t → R (f s) (f t)
  amended : ∀ {s t : Session} (name : String) (change : Value → Value),
    R s t → R (s.amended name change) (t.amended name change)

/-- A bond that does not depend on the environment, if that is the same on
    both sides. -/
structure Bond.Free (k : Conduct) (R : Session → Session → Prop) : Prop
    extends Bond k R where
  env : ∀ {s t : Session} (env : Environment),
    R s t → R { s with env } { t with env }

/-- A registration that is refused in related sessions is taken back in
    both or in none. -/
theorem Bond.refused (hb : Bond k R) (h : R s t) {left left' : Extensions}
    (hleft : R { s with extensions := left }
      { t with extensions := left' }) :
    R (s.refused left) (t.refused left') := by
  have hback : t.takesBack = s.takesBack := by
    show t.core.takesBack = s.core.takesBack
    rw [hb.core h]
  cases hs : s.takesBack with
  | true =>
      rw [Session.refused, Session.refused, if_pos hs,
        if_pos (hback.trans hs)]
      exact h
  | false =>
      rw [Session.refused, Session.refused,
        if_neg (ne_true_of_eq_false hs),
        if_neg (ne_true_of_eq_false (hback.trans hs))]
      exact hleft

/-- What a request recalls is the same in related sessions. -/
def Recalls (R : Session → Session → Prop) (r : Request) : Prop :=
  ∀ name, r = .kept name → ∀ s t, R s t → t.memory name = s.memory name

/-- It is where all that is remembered is the same. -/
theorem Recalls.of_memory (h : ∀ s t, R s t → t.memory = s.memory)
    (r : Request) : Recalls R r := by
  intro name _ s t hr
  rw [h s t hr]

/-- A relation that does not depend on the phase, if that is the same on
    both sides. -/
def Mobile (R : Session → Session → Prop) : Prop :=
  ∀ {s t : Session} (p : Phase),
    R s t → R { s with phase := p } { t with phase := p }

namespace Run

variable {α β : Type}

/-- A sequence that came to an end came to one at its first step, and
    unless that failed, at the rest. -/
theorem of_bind {step : Run α} {next : α → Run β} {r : Except Fault β}
    (h : (step >>= next) s = some (r, s')) :
    (∃ f, r = .error f ∧ step s = some (.error f, s')) ∨
      ∃ a s₁, step s = some (.ok a, s₁) ∧ next a s₁ = some (r, s') := by
  cases hstep : step s with
  | none =>
      simp only [bind, ExceptT.bind, ExceptT.mk, StateT.bind, hstep,
        Option.bind] at h
      cases h
  | some result =>
      obtain ⟨r₁, s₁⟩ := result
      cases r₁ with
      | ok a =>
          rw [bind_ok hstep] at h
          exact Or.inr ⟨a, s₁, rfl, h⟩
      | error f =>
          rw [bind_error hstep] at h
          cases h
          exact Or.inl ⟨f, rfl, rfl⟩

/-- A step whose result is kept as a value raises nothing. -/
theorem of_attempt_eq {step : Run α} {r : Except Fault (Except Fault α)}
    (h : step.attempt s = some (r, s')) :
    ∃ result, r = .ok result ∧ step s = some (result, s') := by
  cases hstep : step s with
  | none =>
      simp only [attempt, ExceptT.mk, ExceptT.run, Functor.map, StateT.map,
        hstep, bind, Option.bind] at h
      cases h
  | some result =>
      obtain ⟨r', s₁⟩ := result
      rw [attempt_eq hstep] at h
      cases h
      exact ⟨r', rfl, rfl⟩

/-- Whatever the first step comes to in a session, the second comes to in
    every related one, and related sessions are left. -/
def Agree (R : Session → Session → Prop) (step₁ step₂ : Run α) : Prop :=
  ∀ s t, R s t → ∀ r s', step₁ s = some (r, s') →
    ∃ t', step₂ t = some (r, t') ∧ R s' t'

namespace Agree

variable {step₁ step₂ : Run α} {next₁ next₂ : α → Run β}

protected theorem pure (a : α) : Agree R (pure a) (pure a) := by
  intro s t hr r s' h
  cases h
  exact ⟨t, rfl, hr⟩

protected theorem throw (f : Fault) :
    Agree R (throw f : Run α) (throw f) := by
  intro s t hr r s' h
  cases h
  exact ⟨t, rfl, hr⟩

theorem ofAnswer (r : Except Fault α) :
    Agree R (Run.ofAnswer r) (Run.ofAnswer r) := by
  cases r with
  | ok a => exact .pure a
  | error f => exact .throw f

/-- What follows a step need agree only for values that it can come to. -/
theorem bind_where {V : α → Prop} (h : Agree R step₁ step₂)
    (hv : ∀ s t, R s t → ∀ a s', step₁ s = some (.ok a, s') → V a)
    (hn : ∀ a, V a → Agree R (next₁ a) (next₂ a)) :
    Agree R (step₁ >>= next₁) (step₂ >>= next₂) := by
  intro s t hr r s' he
  rcases of_bind he with ⟨f, rfl, hstep⟩ | ⟨a, s₁, hstep, hnext⟩
  · obtain ⟨t', ht, hr'⟩ := h s t hr _ _ hstep
    exact ⟨t', bind_error ht, hr'⟩
  · obtain ⟨t₁, ht, hr₁⟩ := h s t hr _ _ hstep
    obtain ⟨t', ht', hr'⟩ := hn a (hv s t hr a s₁ hstep) s₁ t₁ hr₁ _ _ hnext
    exact ⟨t', (bind_ok ht).trans ht', hr'⟩

protected theorem bind (h : Agree R step₁ step₂)
    (hn : ∀ a, Agree R (next₁ a) (next₂ a)) :
    Agree R (step₁ >>= next₁) (step₂ >>= next₂) :=
  .bind_where h (V := Whatever) (fun _ _ _ _ _ _ => trivial)
    fun a _ => hn a

/-- Steps that agree, and then a value made of what they came to. -/
theorem giving (h : Agree R step₁ step₂) (g : α → β) :
    Agree R (step₁ >>= fun a => Pure.pure (g a))
      (step₂ >>= fun a => Pure.pure (g a)) :=
  .bind h fun a => .pure (g a)

theorem attempt (h : Agree R step₁ step₂) :
    Agree R step₁.attempt step₂.attempt := by
  intro s t hr r s' he
  obtain ⟨result, rfl, hstep⟩ := of_attempt_eq he
  obtain ⟨t', ht, hr'⟩ := h s t hr _ _ hstep
  exact ⟨t', attempt_eq ht, hr'⟩

theorem contain {handle₁ handle₂ : Fault → Run α}
    (h : Agree R step₁ step₂)
    (hhandle : ∀ f, Agree R (handle₁ f) (handle₂ f)) :
    Agree R (Run.contain step₁ handle₁) (Run.contain step₂ handle₂) := by
  refine .bind h.attempt ?_
  intro r
  cases r with
  | ok a => exact .pure a
  | error f =>
      dsimp only
      split
      · exact .throw f
      · exact hhandle f

theorem andFinally {last₁ last₂ : Run Unit} (h : Agree R step₁ step₂)
    (hl : Agree R last₁ last₂) :
    Agree R (Run.andFinally step₁ last₁) (Run.andFinally step₂ last₂) := by
  refine .bind h.attempt ?_
  intro r
  refine .bind hl ?_
  intro _
  exact .ofAnswer r

theorem forM {γ : Type} {items : List γ} {step₁ step₂ : γ → Run PUnit}
    (h : ∀ c ∈ items, Agree R (step₁ c) (step₂ c)) :
    Agree R (items.forM step₁) (items.forM step₂) := by
  induction items with
  | nil => exact .pure _
  | cons c rest ih =>
      refine .bind (h c List.mem_cons_self) ?_
      intro _
      refine ih ?_
      intro d hd
      exact h d (List.mem_cons_of_mem _ hd)

theorem forM_option {γ : Type} {item : Option γ}
    {step₁ step₂ : γ → Run PUnit}
    (h : ∀ c, Agree R (step₁ c) (step₂ c)) :
    Agree R (item.forM step₁) (item.forM step₂) := by
  cases item with
  | none => exact .pure _
  | some c => exact h c

/-- A look at the session by steps that agree on what related sessions
    show. -/
theorem see {next₁ next₂ : Session → Run β}
    (hn : ∀ s t, R s t → Agree R (next₁ s) (next₂ t)) :
    Agree R (get >>= next₁) (get >>= next₂) := by
  intro s t hr
  exact hn s t hr s t hr

section Bonded

variable (hb : Bond k R)
include hb

/-- A look at the session by a step that goes on with its core alone. -/
theorem get_bind {next₁ next₂ : Session → Run β}
    (hcore : ∀ s, next₂ s = next₂ s.core)
    (hn : ∀ s, s.Keeps k → Agree R (next₁ s) (next₂ s)) :
    Agree R (get >>= next₁) (get >>= next₂) := by
  refine .see ?_
  intro s t hr
  rw [hcore t, hb.core hr, ← hcore s]
  exact hn s (hb.keeps hr)

/-- A look at the core of the session that is answered with what is
    seen. -/
theorem look {see : Session → α} (hcore : ∀ s, see s = see s.core) :
    Agree R (do pure (see (← get))) (do pure (see (← get))) :=
  .get_bind hb (fun s => by rw [hcore s]) fun s _ => .pure (see s)

theorem updated {f : Session → Session} (hf : Update k f) :
    Agree R (modify f : Run PUnit) (modify f) := by
  intro s t hr r s' he
  cases he
  exact ⟨f t, rfl, hb.update hf hr⟩

omit hb in
theorem moved (hm : Mobile R) (p : Phase) :
    Agree R (setPhase p) (setPhase p) := by
  intro s t hr r s' he
  cases he
  exact ⟨_, rfl, hm p hr⟩

/-- A step that updates the session and comes to what the core says. -/
theorem of_eq {step : Run α} {f : Session → Session}
    {result : Session → Except Fault α}
    (h : ∀ s, step s = some (result s, f s)) (hf : Update k f)
    (hcore : ∀ s, result s = result s.core) : Agree R step step := by
  intro s t hr r s' he
  rw [h s] at he
  cases he
  refine ⟨f t, ?_, hb.update hf hr⟩
  rw [h t, hcore t, hb.core hr, ← hcore s]

theorem identity : Agree R Run.identity Run.identity :=
  .look hb fun _ => rfl

theorem record (events : List Event) :
    Agree R (Run.record events) (Run.record events) :=
  .updated hb (.recorded events)

theorem addTrace (values : List Value) :
    Agree R (Run.addTrace values) (Run.addTrace values) :=
  .updated hb (.traced values)

theorem writeText (text : String) :
    Agree R (Run.writeText text) (Run.writeText text) := by
  refine .get_bind hb (fun _ => rfl) ?_
  intro s _
  split
  · exact .updated hb (.printed _)
  · exact .addTrace hb _

theorem writeLine (v : Value) :
    Agree R (Run.writeLine v) (Run.writeLine v) := by
  refine .bind (.identity hb) ?_
  intro me
  exact .writeText hb _

theorem readLine (prompt : Value) (keys : String) :
    Agree R (Run.readLine prompt keys) (Run.readLine prompt keys) :=
  .of_eq hb (readLine_eq prompt keys) (.read prompt keys) fun _ => rfl

theorem persist : Agree R Run.persist Run.persist :=
  .of_eq hb persist_eq (.filed fun _ => rfl) fun _ => rfl

omit hb in
theorem kept {name : String} (hm : Recalls R (.kept name)) :
    Agree R (do pure ((← get).memory name) : Run Value)
      (do pure ((← get).memory name)) := by
  refine .see ?_
  intro s t hr
  rw [hm name rfl s t hr]
  exact .pure _

theorem amend (name : String) (change : Value → Value) :
    Agree R (modify fun s => s.amended name change : Run PUnit)
      (modify fun s => s.amended name change) := by
  intro s t hr r s' he
  cases he
  exact ⟨_, rfl, hb.amended name change hr⟩

/-- Running a program shows it the variables, which are in the core. -/
theorem launch (argv : List Value) :
    Agree R (Run.launch argv) (Run.launch argv) := by
  refine .get_bind hb (fun _ => rfl) ?_
  intro s _
  refine .bind (.addTrace hb _) ?_
  intro _
  cases argv with
  | nil => exact .throw _
  | cons program rest =>
      dsimp only
      split
      · exact .ofAnswer _
      · exact .ofAnswer _

end Bonded

end Agree

end Run

end LineShell
