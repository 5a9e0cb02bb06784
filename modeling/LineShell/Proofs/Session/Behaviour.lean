import LineShell.Proofs.Session.Change
import LineShell.Proofs.Session.OwnFaults

/-! # Behaviour — what a step comes to, wherever it is taken

    A step *behaves* if from every session that a given one can become it
    comes to an end, what happens on the way is a sequence of changes, and
    it ends in a value or a fault of a known kind.  The rules follow the
    ways in which steps are put together; behind them stand the small
    steps that everything else is made of. -/

namespace LineShell

namespace Run

variable {k : Conduct} {home : Session} {α β : Type}
variable {V : α → Prop} {W : β → Prop} {F G : Fault → Prop}

/-! ## Steps one by one -/

theorem bind_ok {step : Run α} {next : α → Run β} {s s' : Session} {a : α}
    (h : step s = some (.ok a, s')) : (step >>= next) s = next a s' := by
  simp only [bind, ExceptT.bind, ExceptT.mk, StateT.bind, h,
    ExceptT.bindCont, Option.bind]

theorem bind_error {step : Run α} {next : α → Run β} {s s' : Session}
    {f : Fault} (h : step s = some (.error f, s')) :
    (step >>= next) s = some (.error f, s') := by
  simp only [bind, ExceptT.bind, ExceptT.mk, StateT.bind, h,
    ExceptT.bindCont, Option.bind]
  rfl

/-- What follows a step depends on what the step came to only. -/
theorem bind_of_eq {step step' : Run α} {next : α → Run β} {s t : Session}
    (h : step s = step' t) : (step >>= next) s = (step' >>= next) t := by
  simp only [bind, ExceptT.bind, ExceptT.mk, StateT.bind, h]

theorem get_bind_eq {next : Session → Run β} (s : Session) :
    (get >>= next) s = next s s :=
  rfl

theorem ofAnswer_eq (r : Except Fault α) (s : Session) :
    ofAnswer r s = some (r, s) := by
  cases r <;> rfl

theorem attempt_eq {step : Run α} {s s' : Session} {r : Except Fault α}
    (h : step s = some (r, s')) : step.attempt s = some (.ok r, s') := by
  simp only [attempt, ExceptT.mk, ExceptT.run, Functor.map, StateT.map, h,
    bind, Option.bind]
  rfl

theorem contain_ok {step : Run α} {handle : Fault → Run α} {s s' : Session}
    {a : α} (h : step s = some (.ok a, s')) :
    contain step handle s = some (.ok a, s') := by
  rw [contain, bind_ok (attempt_eq h)]
  rfl

theorem contain_error {step : Run α} {handle : Fault → Run α}
    {s s' : Session} {f : Fault} (h : step s = some (.error f, s'))
    (hf : f.isSignal = false) : contain step handle s = handle f s' := by
  rw [contain, bind_ok (attempt_eq h)]
  simp only [hf, Bool.false_eq_true, if_false]

theorem contain_signal {step : Run α} {handle : Fault → Run α}
    {s s' : Session} {f : Fault} (h : step s = some (.error f, s'))
    (hf : f.isSignal = true) : contain step handle s = some (.error f, s') := by
  rw [contain, bind_ok (attempt_eq h)]
  dsimp only
  rw [if_pos hf]
  rfl

/-- A sequence that came to a value came to one at each step. -/
theorem of_bind_ok {step : Run α} {next : α → Run β} {s s' : Session}
    {b : β}
    (h : (step >>= next) s = some (.ok b, s')) :
    ∃ a s₁, step s = some (.ok a, s₁) ∧ next a s₁ = some (.ok b, s') := by
  cases hstep : step s with
  | none =>
      simp only [bind, ExceptT.bind, ExceptT.mk, StateT.bind, hstep,
        Option.bind] at h
      cases h
  | some result =>
      obtain ⟨r, s₁⟩ := result
      cases r with
      | ok a =>
          rw [bind_ok hstep] at h
          exact ⟨a, s₁, rfl, h⟩
      | error f =>
          rw [bind_error hstep] at h
          cases h

/-- A step whose result is kept as a value came to that result. -/
theorem of_attempt {step : Run α} {s s' : Session} {r : Except Fault α}
    (h : step.attempt s = some (.ok r, s')) : step s = some (r, s') := by
  cases hstep : step s with
  | none =>
      simp only [attempt, ExceptT.mk, ExceptT.run, Functor.map, StateT.map,
        hstep, bind, Option.bind] at h
      cases h
  | some result =>
      obtain ⟨r', s₁⟩ := result
      rw [attempt_eq hstep] at h
      cases h
      rfl

/-! ## Behaving -/

/-- From every session that `home` can become, the step ends in a result
    of a kind, after changes that code of the conduct can make. -/
def Behaves (k : Conduct) (home : Session) (V : α → Prop)
    (F : Fault → Prop) (step : Run α) : Prop :=
  ∀ s, Steps k True home s →
    ∃ r s', step s = some (r, s') ∧ Steps k k.Reads s s' ∧ Result V F r

namespace Behaves

/-- Fewer values and faults are of more kinds. -/
theorem mono {V' : α → Prop} {step : Run α} (h : Behaves k home V F step)
    (hv : ∀ a, V a → V' a) (hf : ∀ f, F f → G f) :
    Behaves k home V' G step := by
  intro s hs
  obtain ⟨r, s', he, ht, hr⟩ := h s hs
  refine ⟨r, s', he, ht, ?_⟩
  cases r with
  | ok a => exact hv a hr
  | error f => exact hf f hr

theorem faults {step : Run α} (h : Behaves k home V F step)
    (hf : ∀ f, F f → G f) : Behaves k home V G step :=
  h.mono (fun _ hv => hv) hf

/-- What a step that behaves came to is what it may come to. -/
theorem of_eq {step : Run α} (h : Behaves k home V F step)
    {s s' : Session} (hs : Steps k True home s) {r : Except Fault α}
    (he : step s = some (r, s')) : Steps k k.Reads s s' ∧ Result V F r := by
  obtain ⟨r', s'', he', ht, hr⟩ := h s hs
  obtain ⟨rfl, rfl⟩ := Prod.mk.inj (Option.some.inj (he'.symm.trans he))
  exact ⟨ht, hr⟩

/-- What is known of the faults that a step comes to is known where it
    behaves. -/
theorem with_faults {step : Run α} (h : Behaves k home V F step)
    (hg : ∀ s, Steps k True home s → ∀ f s',
      step s = some (.error f, s') → G f) :
    Behaves k home V (fun f => G f ∧ F f) step := by
  intro s hs
  obtain ⟨r, s', he, ht, hr⟩ := h s hs
  refine ⟨r, s', he, ht, ?_⟩
  cases r with
  | ok a => exact hr
  | error f => exact ⟨hg s hs f s' he, hr⟩

/-- A step that raises what code raises, and signals only, raises what
    escapes. -/
theorem escapes {step : Run α} (h : Behaves k home V k.raises step)
    (hsignal : ∀ s, Steps k True home s → ∀ f s',
      step s = some (.error f, s') → f.isSignal = true) :
    Behaves k home V k.Escapes step :=
  h.with_faults hsignal

protected theorem pure {a : α} (ha : V a) :
    Behaves k home V F (Pure.pure a) := by
  intro s _
  exact ⟨.ok a, s, rfl, .refl, ha⟩

protected theorem throw {f : Fault} (hf : F f) :
    Behaves k home V F (MonadExcept.throw f) := by
  intro s _
  exact ⟨.error f, s, rfl, .refl, hf⟩

protected theorem bind {step : Run α} {next : α → Run β}
    (h : Behaves k home V F step)
    (hn : ∀ a, V a → Behaves k home W F (next a)) :
    Behaves k home W F (step >>= next) := by
  intro s hs
  obtain ⟨r, s₁, he, ht, hr⟩ := h s hs
  cases r with
  | error f => exact ⟨.error f, s₁, bind_error he, ht, hr⟩
  | ok a =>
      -- what the first step leaves is one more thing that home can become
      have hs₁ := hs.trans (ht.mono fun _ => trivial)
      obtain ⟨r, s₂, he₂, ht₂, hr₂⟩ := hn a hr s₁ hs₁
      exact ⟨r, s₂, (bind_ok he).trans he₂, ht.trans ht₂, hr₂⟩

/-- A step, and then a value that is made of what it came to. -/
theorem giving {step : Run α} (h : Behaves k home V F step) (g : α → β) :
    Behaves k home Whatever F (step >>= fun a => Pure.pure (g a)) :=
  .bind h fun _ _ => .pure trivial

/-- A step that looks at the session. -/
theorem get_bind {next : Session → Run β}
    (hn : ∀ s, Steps k True home s → Behaves k home W F (next s)) :
    Behaves k home W F (get >>= next) := by
  intro s hs
  exact hn s hs s hs

/-- A step that changes the session by one change. -/
theorem changed {f : Session → Session}
    (h : ∀ s, Steps k True home s → Change k k.Reads s (f s)) :
    Behaves k home Whatever F (modify f : Run PUnit) := by
  intro s hs
  exact ⟨.ok ⟨⟩, f s, rfl, .single (h s hs), trivial⟩

/-- A step whose result is kept as a value raises nothing. -/
theorem attempt {step : Run α} (h : Behaves k home V F step) :
    Behaves k home (Result V F) G step.attempt := by
  intro s hs
  obtain ⟨r, s', he, ht, hr⟩ := h s hs
  exact ⟨.ok r, s', attempt_eq he, ht, hr⟩

theorem ofAnswer {r : Except Fault α} (h : Result V F r) :
    Behaves k home V F (Run.ofAnswer r) := by
  cases r with
  | ok a => exact .pure h
  | error f => exact .throw h

/-- What code raises is contained but for its signals, and for what the
    handling of the other faults raises. -/
theorem contain {step : Run α} {handle : Fault → Run α}
    (h : Behaves k home V k.raises step) (hpass : ∀ f, k.Escapes f → G f)
    (hhandle : ∀ f, k.raises f → Behaves k home V G (handle f)) :
    Behaves k home V G (Run.contain step handle) := by
  refine .bind h.attempt ?_
  intro r hr
  cases r with
  | ok a => exact .pure hr
  | error f =>
      cases hf : f.isSignal with
      | true =>
          simp only [hf, if_true]
          exact .throw (hpass f ⟨hf, hr⟩)
      | false =>
          simp only [hf, Bool.false_eq_true, if_false]
          exact hhandle f hr

/-- What is done at the end leaves the result of a step. -/
theorem andFinally {step : Run α} {last : Run Unit}
    (h : Behaves k home V F step) (hl : Behaves k home Whatever F last) :
    Behaves k home V F (Run.andFinally step last) := by
  refine .bind h.attempt ?_
  intro r hr
  refine .bind hl ?_
  intro _ _
  exact .ofAnswer hr

theorem forM {γ : Type} {items : List γ} {step : γ → Run PUnit}
    (h : ∀ c ∈ items, Behaves k home Whatever F (step c)) :
    Behaves k home Whatever F (items.forM step) := by
  induction items with
  | nil => exact .pure trivial
  | cons c rest ih =>
      refine .bind (h c List.mem_cons_self) ?_
      intro _ _
      refine ih ?_
      intro d hd
      exact h d (List.mem_cons_of_mem _ hd)

/-- A step that is left out where there is nothing to take it for. -/
theorem forM_option {γ : Type} {item : Option γ} {step : γ → Run PUnit}
    (h : ∀ c, Behaves k home Whatever F (step c)) :
    Behaves k home Whatever F (item.forM step) := by
  cases item with
  | none => exact .pure trivial
  | some c => exact h c

end Behaves

/-! ## Small steps -/

theorem identity_behaves : Behaves k home Whatever F identity := by
  refine .get_bind ?_
  intro s _
  exact .pure trivial

theorem record_behaves (events : List Event) :
    Behaves k home Whatever F (record events) :=
  .changed fun _ _ => .recorded events

theorem addTrace_behaves (values : List Value) :
    Behaves k home Whatever F (addTrace values) :=
  .changed fun _ _ => .traced values

theorem writeText_behaves (text : String) :
    Behaves k home Whatever F (writeText text) := by
  refine .get_bind ?_
  intro s _
  split
  · exact .changed fun _ _ => .printed _
  · exact addTrace_behaves _

theorem writeLine_behaves (v : Value) :
    Behaves k home Whatever F (writeLine v) := by
  refine .bind identity_behaves ?_
  intro me _
  exact writeText_behaves _

/-- Reading a line is reading from the reader. -/
theorem readLine_eq (prompt : Value) (keys : String) (s : Session) :
    readLine prompt keys s =
      some ((s.reader.read s.identity prompt keys).1,
        { s with
          reader := (s.reader.read s.identity prompt keys).2.1
          printed := s.printed ++
            (s.reader.read s.identity prompt keys).2.2 }) := by
  rw [readLine]
  show (Run.ofAnswer (s.reader.read s.identity prompt keys).1 : Run String)
    _ = _
  cases (s.reader.read s.identity prompt keys).1 <;> rfl

/-- Reading a line, where lines may be read. -/
theorem readLine_behaves (hh : home.Keeps k) (hr : k.Reads)
    (prompt : Value) (keys : String) :
    Behaves k home Whatever k.Meets (readLine prompt keys) := by
  intro s hs
  refine ⟨_, _, readLine_eq prompt keys s, .single (.read hr prompt keys), ?_⟩
  cases h : (s.reader.read s.identity prompt keys).1 with
  | ok line => trivial
  | error f => exact Reader.read_fault (hs.keeps hh).source h

/-- Writing the history is writing its file. -/
theorem persist_eq (s : Session) :
    persist s =
      some ((s.reader.persist s.files s.world.homes).2.1,
        { s with
          files := (s.reader.persist s.files s.world.homes).1
          events := s.events ++
            (s.reader.persist s.files s.world.homes).2.2 }) := by
  rw [persist]
  show (Run.ofAnswer (s.reader.persist s.files s.world.homes).2.1 : Run Unit)
    _ = _
  cases (s.reader.persist s.files s.world.homes).2.1 <;> rfl

/-- Files that change, and what is recorded about it. -/
theorem filed_recorded {reads : Prop} (s : Session) (files : FileTree)
    (events : List Event) :
    Steps k reads s { s with files, events := s.events ++ events } :=
  .tail (.single (.filed files)) (.recorded events)

theorem persist_behaves : Behaves k home Whatever k.raises persist := by
  intro s _
  refine ⟨_, _, persist_eq s, filed_recorded s _ _, ?_⟩
  cases h : (s.reader.persist s.files s.world.homes).2.1 with
  | ok _ => trivial
  | error f => exact k.plain (History.save_plain h)

/-- Running a program comes to what the surroundings say of it. -/
theorem launch_behaves (hh : home.Keeps k) (argv : List Value) :
    Behaves k home Whatever k.raises (launch argv) := by
  refine .get_bind ?_
  intro s hs
  refine .bind (addTrace_behaves _) ?_
  intro _ _
  cases argv with
  | nil => exact .throw (k.plain rfl)
  | cons program rest =>
      simp only
      split
      -- a program that the surroundings know, or one that is missing
      · rename_i name result hfound
        refine .ofAnswer ?_
        obtain ⟨name', _, hfind⟩ := Option.bind_eq_some_iff.mp hfound
        have hkeeps := (hs.keeps hh).world _ (List.mem_of_find?_eq_some hfind)
        exact Launch.result_report hkeeps
      · exact .ofAnswer trivial

end Run

end LineShell
