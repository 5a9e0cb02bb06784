import LineShell.Proofs.Session.Course

/-! # Settlement — what observers are owed, and what a signal stops

    A fault of a place, and a fault of a hook, is owed to the observers:
    every implementation of `on_error` is to be told of it, in the order of
    their chain.  A course *settles* what is owed when it tells them just
    that.  It may still leave a fault of its own for whoever called it to
    answer, so what a course owes when it starts and what it leaves unpaid
    are both part of the statement (`Course.Settles`).

    A signal settles nothing: it is the last thing in its course but for
    leaving overlays, and the course ends in it.  Only the signal of an
    observer can keep the observers after it from being told.

    A fault without a text cannot be reported where its text is asked for.
    There the course ends in the fault of asking, and who is owed that
    report is not told (`Settled.unsaid`).

    The rules follow the ways in which courses are put together; what is
    entered is left whatever happens (`Nested`). -/

namespace LineShell

/-- A report and an observer of it. -/
abbrev Telling := Report × Implementation

/-- A line that cannot be split. -/
def Fault.isBadLine (f : Fault) : Bool :=
  f.lineReason?.isSome

/-- What comes out of the attempt to answer a fault: the cause for which it
    has no text, or that it has no reason to look at. -/
def Fault.Thwarts (f g : Fault) : Prop :=
  f.textFault? = some g ∨ f.lineReason? = some (.error g)

/-- What the observers are to be told of a fault. -/
def Place.report (p : Place) (f : Fault) : Report :=
  ⟨p.stage.name, Fault.inCommand p.title f, p.line⟩

/-- A report that cannot be made: its text starts with that of a fault that
    has none. -/
def Report.isMute (r : Report) : Bool :=
  match r.fault with
  | .inCommand _ f => f.textFault?.isSome
  | _ => false

/-- What they are to be told of it, if anything: a line that cannot be
    split is answered without telling. -/
def Place.report? (p : Place) (f : Fault) : Option Report :=
  if p.stage == .precmd && f.isBadLine then none else some (p.report f)

/-- What the observers are to be told of an ordinary fault of something
    that is done. -/
def Doing.report? : Doing → Fault → Option Report
  | .method place _ _, f => place.report? f
  | .handler place _ _, f => place.report? f
  | .split place _, f => place.report? f
  | .hook name i given, f =>
      some ⟨s!"{name}:{i.extension}", f, Run.lineAmong given⟩
  | _, _ => none

/-- Is it an overlay that is entered or left? -/
def Doing.isOverlay : Doing → Bool
  | .entered _ => true
  | .left _ => true
  | _ => false

/-- Everyone who is to be told. -/
def Session.tellings (s : Session) (report : Report) : List Telling :=
  (s.extensions.chain "on_error").map fun i => (report, i)

/-- What is to be told, if anything is. -/
def Session.tellings? (s : Session) : Option Report → List Telling
  | none => []
  | some report => s.tellings report

namespace Deed

/-- Does it end in a signal? -/
def stops (d : Deed) : Bool :=
  d.fault?.any Fault.isSignal

/-- Who was told, if it is telling an observer. -/
def told (d : Deed) : List Telling :=
  match d.doing with
  | .observer report i => [(report, i)]
  | _ => []

/-- Is it telling an observer? -/
def isObserver (d : Deed) : Bool :=
  !d.told.isEmpty

/-- Is it leaving an overlay? -/
def isLeft (d : Deed) : Bool :=
  match d.doing with
  | .left _ => true
  | _ => false

/-- Who is to be told of it: of an ordinary fault, the observers that
    there are when it happens. -/
def due (d : Deed) : List Telling :=
  match d.fault? with
  | none => []
  | some f =>
      if f.isSignal then [] else d.left.tellings? (d.doing.report? f)

end Deed

/-- Who was told, in order. -/
def told (deeds : List Deed) : List Telling :=
  deeds.flatMap Deed.told

/-- Who is to be told, in the order of the faults. -/
def due (deeds : List Deed) : List Telling :=
  deeds.flatMap Deed.due

@[simp] theorem told_nil : told [] = [] := rfl

@[simp] theorem due_nil : due [] = [] := rfl

@[simp] theorem told_append (l m : List Deed) :
    told (l ++ m) = told l ++ told m :=
  List.flatMap_append

@[simp] theorem due_append (l m : List Deed) :
    due (l ++ m) = due l ++ due m :=
  List.flatMap_append

/-- Every overlay that is entered is left, the last one first. -/
inductive Nested : List Deed → Prop where
  | nil : Nested []
  | plain {d : Deed} {rest : List Deed} (hd : d.doing.isOverlay = false)
      (hrest : Nested rest) : Nested (d :: rest)
  | overlay {e l : Deed} {inner rest : List Deed}
      (saved : Environment.Saved) (he : e.doing = .entered saved)
      (hl : l.doing = .left saved) (hinner : Nested inner)
      (hrest : Nested rest) : Nested (e :: inner ++ l :: rest)

theorem Nested.append {l m : List Deed} (hl : Nested l) (hm : Nested m) :
    Nested (l ++ m) := by
  induction hl with
  | nil => exact hm
  | plain hd _ ih => exact .plain hd ih
  | overlay saved he hl' hinner _ _ ih =>
      rw [List.append_assoc, List.cons_append]
      exact .overlay saved he hl' hinner ih

theorem Nested.single {d : Deed} (hd : d.doing.isOverlay = false) :
    Nested [d] :=
  .plain hd .nil

/-- No signal so far. -/
def Unstopped (deeds : List Deed) : Prop :=
  ∀ d ∈ deeds, d.stops = false

theorem Unstopped.append {l m : List Deed} (hl : Unstopped l) (hm : Unstopped m) :
    Unstopped (l ++ m) := by
  intro d hd
  rcases List.mem_append.mp hd with hd | hd
  · exact hl d hd
  · exact hm d hd

theorem Unstopped.nil : Unstopped [] := by
  intro d hd
  cases hd

/-- How a course ends that owes the observers something: it has told them
    of that and of its own faults; or it has failed, and leaves what is
    owed for that to others; or a signal stopped it; or, if the course
    answers faults itself, one of them could not be answered. -/
inductive Settled {α : Type} (answers : Bool) (owed : List Telling)
    (debt : Fault → Session → List Telling) (deeds : List Deed) :
    Except Fault α → Session → Prop where
  | done (a : α) (s' : Session) (hfree : Unstopped deeds)
      (h : told deeds = owed ++ due deeds) :
      Settled answers owed debt deeds (.ok a) s'
  | failed (f : Fault) (s' : Session) (hfree : Unstopped deeds)
      (hf : f.isSignal = false) (hd : ∃ d ∈ deeds, d.fault? = some f)
      (h : told deeds ++ debt f s' = owed ++ due deeds) :
      Settled answers owed debt deeds (.error f) s'
  | unsaid (f : Fault) (s' : Session) (rest : List Telling)
      (hanswers : answers = true) (hfree : Unstopped deeds)
      (hd : ∃ d ∈ deeds, ∃ g, d.fault? = some g ∧ g.Thwarts f)
      (hrest : ∀ telling ∈ rest, telling.1.isMute = true)
      (h : told deeds ++ rest = owed ++ due deeds) :
      Settled answers owed debt deeds (.error f) s'
  | stopped (f : Fault) (s' : Session) (before after : List Deed) (d : Deed)
      (hdeeds : deeds = before ++ d :: after) (hbefore : Unstopped before)
      (hd : d.fault? = some f) (hf : f.isSignal = true)
      (hafter : ∀ e ∈ after, e.isLeft = true ∧ e.fault? = none)
      (htold : told deeds <+: owed ++ due deeds)
      (hall : d.isObserver = false → told deeds = owed ++ due deeds) :
      Settled answers owed debt deeds (.error f) s'

/-- What a fault ends is the same for values of any kind. -/
theorem Settled.retype {α β : Type} {answers : Bool} {owed : List Telling}
    {debt : Fault → Session → List Telling} {deeds : List Deed} {f : Fault}
    {s' : Session}
    (h : Settled (α := α) answers owed debt deeds (.error f) s') :
    Settled (α := β) answers owed debt deeds (.error f) s' := by
  cases h with
  | failed _ _ hfree hf hd h => exact .failed f s' hfree hf hd h
  | unsaid _ _ rest hanswers hfree hd hrest h =>
      exact .unsaid f s' rest hanswers hfree hd hrest h
  | stopped _ _ before after d hdeeds hbefore hd hf hafter htold hall =>
      exact .stopped f s' before after d hdeeds hbefore hd hf hafter htold
        hall

/-- A course that answers no fault itself ends in no other way than one
    that may. -/
theorem Settled.loosened {α : Type} {answers : Bool} {owed : List Telling}
    {debt : Fault → Session → List Telling} {deeds : List Deed}
    {r : Except Fault α} {s' : Session}
    (h : Settled false owed debt deeds r s') :
    Settled answers owed debt deeds r s' := by
  cases h with
  | done a _ hfree h => exact .done a s' hfree h
  | failed f _ hfree hf hd h => exact .failed f s' hfree hf hd h
  | unsaid _ _ _ hanswers => cases hanswers
  | stopped f _ before after d hdeeds hbefore hd hf hafter htold hall =>
      exact .stopped f s' before after d hdeeds hbefore hd hf hafter htold
        hall

namespace Course

variable {α β : Type} {execute : Executor} {answers : Bool}
variable {owed : Session → List Telling}
variable {debt debt' : Fault → Session → List Telling}

/-- Nothing is owed. -/
def nothing : Session → List Telling := fun _ => []

/-- Nothing is left unpaid. -/
def clear : Fault → Session → List Telling := fun _ _ => []

/-- Wherever a course starts and however it ends, it tells the observers
    what is owed to them, and what it owes them itself but for the fault
    that it ends in; and what it enters it leaves. -/
def Settles (answers : Bool) (owed : Session → List Telling) (c : Course α)
    (debt : Fault → Session → List Telling) : Prop :=
  ∀ s r s' deeds, c s = some ((r, s'), deeds) →
    Nested deeds ∧ Settled answers (owed s) debt deeds r s'

/-- What is done about an ordinary fault settles what was left unpaid for
    it; or the attempt is thwarted, and what was left unpaid cannot be
    said. -/
def Handles (answers : Bool) (debt : Fault → Session → List Telling)
    (f : Fault) (c : Course α) (debt' : Fault → Session → List Telling) :
    Prop :=
  Settles answers (debt f) c debt' ∨
    answers = true ∧ (∃ g, f.Thwarts g ∧ c = own (throw g)) ∧
      ∀ s, ∀ telling ∈ debt f s, telling.1.isMute = true

/-! ## Rules -/

namespace Settles

/-- A step of the session itself does not fail. -/
theorem own {step : Run α} (h : ∀ s, ∃ a s', step s = some (.ok a, s')) :
    Settles answers nothing (own step) debt := by
  intro s r s' deeds he
  obtain ⟨hstep, rfl⟩ := of_own he
  obtain ⟨a, s₁, ha⟩ := h s
  cases ha.symm.trans hstep
  exact ⟨.nil, .done a s' .nil rfl⟩

protected theorem pure (a : α) : Settles answers nothing (pure a) debt :=
  .own fun s => ⟨a, s, rfl⟩

/-- Something that is done, and is not telling an observer, leaves its
    fault unpaid.  What it is says so at once. -/
theorem watch {doing : Doing} {step : Run α}
    (hoverlay : doing.isOverlay = false)
    (htold : ∀ f? s', Deed.told ⟨doing, f?, s'⟩ = [])
    (hdebt : ∀ f s', f.isSignal = false →
      debt f s' = s'.tellings? (doing.report? f)) :
    Settles answers nothing (watch doing step) debt := by
  intro s r s' deeds he
  obtain ⟨_, rfl⟩ := of_watch he
  refine ⟨.single hoverlay, ?_⟩
  have htold' : told [⟨doing, faultOf? r, s'⟩] = [] := by
    show Deed.told _ ++ [] = []
    rw [htold]
    rfl
  have hsingle : due [⟨doing, faultOf? r, s'⟩] =
      Deed.due ⟨doing, faultOf? r, s'⟩ := List.append_nil _
  cases r with
  | ok a =>
      refine .done a s' ?_ htold'
      intro d hd
      cases List.mem_singleton.mp hd
      rfl
  | error f =>
      cases hf : f.isSignal with
      | true =>
          have hdue : due [⟨doing, faultOf? (.error f : Except Fault α),
              s'⟩] = [] := by
            rw [hsingle]
            exact if_pos hf
          refine .stopped f s' [] [] _ rfl .nil rfl hf
            (fun e he => nomatch he) ?_ fun _ => ?_
          · exact htold' ▸ List.nil_prefix
          · exact htold'.trans hdue.symm
      | false =>
          refine .failed f s' ?_ hf ⟨_, List.mem_cons_self, rfl⟩ ?_
          · intro d hd
            cases List.mem_singleton.mp hd
            exact hf
          · rw [htold', hsingle, hdebt f s' hf]
            exact (if_neg (ne_true_of_eq_false hf)).symm

/-- What a course has not paid, what follows it has to pay. -/
theorem of_append {first rest : List Deed} {owed more : List Telling}
    {r : Except Fault β} {s' : Session} (hfree : Unstopped first)
    (h : told first ++ more = owed ++ due first)
    (hrest : Settled answers more debt rest r s') :
    Settled answers owed debt (first ++ rest) r s' := by
  have hpaid : told first ++ (more ++ due rest) =
      owed ++ due (first ++ rest) := by
    rw [← List.append_assoc, h, due_append, List.append_assoc]
  cases hrest with
  | done a _ hfree' h' =>
      refine .done a _ (hfree.append hfree') ?_
      rw [← hpaid, told_append, h']
  | failed f _ hfree' hf hd h' =>
      obtain ⟨d, hd, hdf⟩ := hd
      refine .failed f _ (hfree.append hfree') hf
        ⟨d, List.mem_append_right _ hd, hdf⟩ ?_
      rw [← hpaid, told_append, List.append_assoc, h']
  | unsaid f _ left hanswers hfree' hd hleft h' =>
      obtain ⟨d, hd, hdf⟩ := hd
      refine .unsaid f _ left hanswers (hfree.append hfree')
        ⟨d, List.mem_append_right _ hd, hdf⟩ hleft ?_
      rw [← hpaid, told_append, List.append_assoc, h']
  | stopped f _ before after d hdeeds hbefore hd hf hafter htold hall =>
      refine .stopped f _ (first ++ before) after d ?_
        (hfree.append hbefore) hd hf hafter ?_ ?_
      · rw [hdeeds, List.append_assoc]
      · rw [← hpaid, told_append]
        exact (List.prefix_append_right_inj _).mpr htold
      · intro hobserver
        rw [← hpaid, told_append, hall hobserver]

/-- What a course that came to a value owed is paid. -/
theorem of_done {first rest : List Deed} {owed : List Telling} {a : α}
    {r : Except Fault β} {s₁ s' : Session}
    (h : Settled answers owed debt first (.ok a) s₁)
    (hrest : Settled answers [] debt' rest r s') :
    Settled answers owed debt' (first ++ rest) r s' := by
  cases h with
  | done _ _ hfree h =>
      exact of_append hfree (List.append_nil _ |>.trans h) hrest

/-- What a course that failed left unpaid is paid by what follows it. -/
theorem of_failed {first rest : List Deed} {owed : List Telling}
    {f : Fault} {r : Except Fault β} {s₁ s' : Session}
    (h : Settled (α := α) false owed debt first (.error f) s₁)
    (hf : f.isSignal = false)
    (hrest : Settled answers (debt f s₁) debt' rest r s') :
    Settled answers owed debt' (first ++ rest) r s' := by
  cases h with
  | failed _ _ hfree _ _ h => exact of_append hfree h hrest
  | unsaid _ _ _ hanswers => cases hanswers
  | stopped _ _ _ _ _ _ _ _ hf' => exact absurd hf' (ne_true_of_eq_false hf)

/-- What a course that failed left unpaid stays so where its fault cannot
    be answered. -/
theorem of_thwarted {deeds : List Deed} {owed : List Telling}
    {f g : Fault} {s' : Session} (hanswers : answers = true)
    (h : Settled (α := α) false owed debt deeds (.error f) s')
    (hf : f.isSignal = false) (hg : f.Thwarts g)
    (hmute : ∀ telling ∈ debt f s', telling.1.isMute = true) :
    Settled (α := β) answers owed debt' deeds (.error g) s' := by
  cases h with
  | failed _ _ hfree _ hd h =>
      obtain ⟨d, hd, hdf⟩ := hd
      exact .unsaid g s' _ hanswers hfree ⟨d, hd, f, hdf, hg⟩ hmute h
  | unsaid _ _ _ hfalse => cases hfalse
  | stopped _ _ _ _ _ _ _ _ hf' => exact absurd hf' (ne_true_of_eq_false hf)

/-- What is left unpaid at a signal does not matter. -/
theorem of_stopped {owed : List Telling} {deeds : List Deed} {f : Fault}
    {s' : Session} (h : Settled (α := α) false owed debt deeds (.error f) s')
    (hf : f.isSignal = true) :
    Settled (α := β) answers owed debt' deeds (.error f) s' := by
  cases h with
  | failed _ _ _ hf' => exact absurd hf (ne_true_of_eq_false hf')
  | unsaid _ _ _ hanswers => cases hanswers
  | stopped _ _ before after d hdeeds hbefore hd _ hafter htold hall =>
      exact .stopped f s' before after d hdeeds hbefore hd hf hafter htold
        hall

protected theorem bind {c : Course α} {next : α → Course β}
    (h : Settles answers owed c debt)
    (hn : ∀ a, Settles answers nothing (next a) debt) :
    Settles answers owed (c >>= next) debt := by
  intro s r s' deeds he
  rcases of_bind he with ⟨f, rfl, hc⟩ | ⟨a, s₁, first, rest, hc, hnext, rfl⟩
  · obtain ⟨hnested, hsettled⟩ := h s _ s' deeds hc
    exact ⟨hnested, hsettled.retype⟩
  · obtain ⟨hfirst, hsettled⟩ := h s _ s₁ first hc
    obtain ⟨hrest, hsettled'⟩ := hn a s₁ r s' rest hnext
    exact ⟨hfirst.append hrest, of_done hsettled hsettled'⟩

/-- A step of the session itself that leaves the observers what they are
    comes before what settles anything. -/
theorem after_own {step : Run α} {next : α → Course β}
    (h : ∀ s, ∃ a s', step s = some (.ok a, s') ∧ owed s' = owed s)
    (hn : ∀ a, Settles answers owed (next a) debt) :
    Settles answers owed (Course.own step >>= next) debt := by
  intro s r s' deeds he
  obtain ⟨a, s₁, ha, howed⟩ := h s
  rcases of_bind he with
    ⟨f, rfl, hc⟩ | ⟨b, s₂, first, rest, hc, hnext, rfl⟩
  · cases ha.symm.trans (of_own hc).1
  · obtain ⟨hstep, rfl⟩ := of_own hc
    cases ha.symm.trans hstep
    rw [List.nil_append, ← howed]
    exact hn a s₁ r s' rest hnext

variable (debt) in
/-- A course whose faults are looked at: its signals pass, and what it
    leaves unpaid is paid by what answers its ordinary faults. -/
theorem attempt_bind {c : Course α} {next : Except Fault α → Course β}
    (h : Settles false owed c debt)
    (hok : ∀ a, Settles answers nothing (next (.ok a)) debt')
    (herror : ∀ f, f.isSignal = false →
      Handles answers debt f (next (.error f)) debt')
    (hsignal : ∀ f, f.isSignal = true →
      next (.error f) = Course.own (throw f)) :
    Settles answers owed (c.attempt >>= next) debt' := by
  intro s r s' deeds he
  obtain ⟨result, s₁, first, rest, hc, hnext, rfl⟩ := of_attempt_bind he
  obtain ⟨hfirst, hsettled⟩ := h s _ s₁ first hc
  cases result with
  | ok a =>
      obtain ⟨hrest, hsettled'⟩ := hok a s₁ r s' rest hnext
      exact ⟨hfirst.append hrest, of_done hsettled.loosened hsettled'⟩
  | error f =>
      cases hf : f.isSignal with
      | true =>
          rw [hsignal f hf] at hnext
          obtain ⟨hthrow, rfl⟩ := of_own hnext
          cases hthrow
          rw [List.append_nil]
          exact ⟨hfirst, of_stopped hsettled hf⟩
      | false =>
          rcases herror f hf with hanswer | ⟨hanswers, ⟨g, hg, hthrow⟩, hmute⟩
          · obtain ⟨hrest, hsettled'⟩ := hanswer s₁ r s' rest hnext
            exact ⟨hfirst.append hrest, of_failed hsettled hf hsettled'⟩
          · rw [hthrow] at hnext
            obtain ⟨hthrown, rfl⟩ := of_own hnext
            cases hthrown
            rw [List.append_nil]
            exact ⟨hfirst, of_thwarted hanswers hsettled hf hg (hmute _)⟩

variable (debt) in
theorem contain {c : Course α} {handle : Fault → Course α}
    (h : Settles false owed c debt)
    (hhandle : ∀ f, f.isSignal = false →
      Handles answers debt f (handle f) debt') :
    Settles answers owed (c.contain handle) debt' := by
  refine .attempt_bind debt h (fun a => .pure a) ?_ ?_
  · intro f hf
    dsimp only
    rw [if_neg (ne_true_of_eq_false hf)]
    exact hhandle f hf
  · intro f hf
    exact if_pos hf

/-- Something that is done without a fault, and is not telling an
    observer, is nothing to be told of. -/
theorem quiet_deed {d : Deed} (hd : d.doing.isOverlay = true)
    (hf : d.fault? = none) :
    Unstopped [d] ∧ told [d] = [] ∧ due [d] = [] := by
  refine ⟨?_, ?_, ?_⟩
  · intro e he
    cases List.mem_singleton.mp he
    rw [Deed.stops, hf]
    rfl
  · show Deed.told d ++ [] = []
    rw [Deed.told]
    split
    · rename_i hdoing
      rw [hdoing] at hd
      cases hd
    · rfl
  · show Deed.due d ++ [] = []
    rw [Deed.due, hf]
    rfl

/-- Leaving an overlay after a course that leaves nothing unpaid. -/
theorem then_left {inner : List Deed} {l : Deed} {owed : List Telling}
    {r : Except Fault α} {s₁ s' : Session}
    (h : Settled answers owed clear inner r s₁) (hl : l.isLeft = true)
    (hlf : l.fault? = none) : Settled answers owed clear (inner ++ [l]) r s' := by
  have hoverlay : l.doing.isOverlay = true := by
    rw [Deed.isLeft] at hl
    cases hdoing : l.doing with
    | left saved => rfl
    | _ =>
        rw [hdoing] at hl
        cases hl
  obtain ⟨hfree, htold, hdue⟩ := quiet_deed hoverlay hlf
  have htold' : told (inner ++ [l]) = told inner := by
    rw [told_append, htold, List.append_nil]
  have hdue' : due (inner ++ [l]) = due inner := by
    rw [due_append, hdue, List.append_nil]
  cases h with
  | done a _ hinner h =>
      refine .done a s' (hinner.append hfree) ?_
      rw [htold', hdue', h]
  | failed f _ hinner hf hd h =>
      obtain ⟨d, hd, hdf⟩ := hd
      refine .failed f s' (hinner.append hfree) hf
        ⟨d, List.mem_append_left _ hd, hdf⟩ ?_
      rw [htold', hdue', ← h]
      rfl
  | unsaid f _ rest hanswers hinner hd hrest h =>
      obtain ⟨d, hd, hdf⟩ := hd
      refine .unsaid f s' rest hanswers (hinner.append hfree)
        ⟨d, List.mem_append_left _ hd, hdf⟩ hrest ?_
      rw [htold', hdue', h]
  | stopped f _ before after d hdeeds hbefore hd hf hafter hprefix hall =>
      refine .stopped f s' before (after ++ [l]) d ?_ hbefore hd hf ?_ ?_ ?_
      · rw [hdeeds, List.append_assoc, List.cons_append]
      · intro e he
        rcases List.mem_append.mp he with he | he
        · exact hafter e he
        · cases List.mem_singleton.mp he
          exact ⟨hl, hlf⟩
      · rw [htold', hdue']
        exact hprefix
      · rw [htold', hdue']
        exact hall

end Settles

/-- An overlay around a course that leaves nothing unpaid. -/
theorem Settles.withOverlay {c : Course α} (h : Settles answers nothing c clear)
    (values : OrderedMap Value) :
    Settles answers nothing (Course.withOverlay values c) clear := by
  intro s r s' deeds he
  obtain ⟨saved, e, l, inner, s₁, s₂, rfl, hentered, hef, hleft, hlf, -,
    hc⟩ := of_withOverlay he
  obtain ⟨hnested, hsettled⟩ := h s₁ r s₂ inner hc
  refine ⟨.overlay saved hentered hleft hnested .nil, ?_⟩
  obtain ⟨hfree, htold, hdue⟩ := Settles.quiet_deed
    (congrArg Doing.isOverlay hentered) hef
  have hl : l.isLeft = true := by
    rw [Deed.isLeft, hleft]
  show Settled answers [] clear ([e] ++ (inner ++ [l])) r s'
  refine Settles.of_append hfree ?_ (Settles.then_left hsettled hl hlf)
  rw [htold, hdue]
  rfl

/-! ## Observers and hooks -/

/-- Telling one observer is all that telling one observer does. -/
theorem of_notifyOne {report : Report} {i : Implementation}
    {s s' : Session} {r : Except Fault Unit} {deeds : List Deed}
    (h : notifyOne execute report i s = some ((r, s'), deeds)) :
    ∃ d : Deed, deeds = [d] ∧ d.doing = .observer report i ∧
      (r = .ok () ∧ d.stops = false ∨
        ∃ f, r = .error f ∧ f.isSignal = true ∧ d.fault? = some f) := by
  obtain ⟨result, s₁, first, rest, hc, he, rfl⟩ := of_attempt_bind h
  obtain ⟨_, rfl⟩ := of_watch hc
  cases result with
  | ok u =>
      obtain ⟨hpure, rfl⟩ := of_own he
      cases hpure
      exact ⟨_, rfl, rfl, Or.inl ⟨rfl, rfl⟩⟩
  | error f =>
      dsimp only at he
      cases hf : f.isSignal with
      | true =>
          rw [if_pos hf] at he
          obtain ⟨hthrow, rfl⟩ := of_own he
          cases hthrow
          exact ⟨_, rfl, rfl, Or.inr ⟨f, rfl, hf, rfl⟩⟩
      | false =>
          rw [if_neg (ne_true_of_eq_false hf)] at he
          obtain ⟨hrecord, rfl⟩ := of_own he
          cases hrecord
          exact ⟨_, rfl, rfl, Or.inl ⟨rfl, hf⟩⟩

theorem told_observer {d : Deed} {report : Report} {i : Implementation}
    (h : d.doing = .observer report i) : told [d] = [(report, i)] := by
  show Deed.told d ++ [] = _
  rw [Deed.told, h]
  rfl

/-- The failure of an observer is told to nobody. -/
theorem due_observer {d : Deed} {report : Report} {i : Implementation}
    (h : d.doing = .observer report i) : due [d] = [] := by
  show Deed.due d ++ [] = []
  rw [Deed.due, h]
  cases d.fault? with
  | none => rfl
  | some f => cases hf : f.isSignal <;> simp [Doing.report?,
      Session.tellings?, hf]

/-- Each of some observers is told once, in order, whatever those before
    it raise, unless it is a signal. -/
theorem forEach_settles (report : Report) (chain : List Implementation) :
    Settles answers (fun _ => chain.map fun i => (report, i))
      (forEach (notifyOne execute report) chain) debt := by
  induction chain with
  | nil => exact .pure ()
  | cons i rest ih =>
      intro s r s' deeds he
      rcases of_bind he with
        ⟨f, rfl, hone⟩ | ⟨u, s₁, first, more, hone, hrest, rfl⟩
      -- the observer raised a signal, and those after it are not told
      · obtain ⟨d, rfl, hd, hend⟩ := of_notifyOne hone
        refine ⟨.single (by rw [hd]; rfl), ?_⟩
        rcases hend with ⟨hok, _⟩ | ⟨g, hg, hsignal, hfault⟩
        · cases hok
        · cases hg
          refine .stopped f s' [] [] d rfl .nil hfault hsignal
            (fun e he => nomatch he) ?_ ?_
          · rw [told_observer hd, due_observer hd, List.append_nil]
            exact ⟨_, rfl⟩
          · intro hobserver
            rw [Deed.isObserver, Deed.told, hd] at hobserver
            cases hobserver
      -- it was told, and owes nothing for a failure of its own
      · obtain ⟨d, rfl, hd, hend⟩ := of_notifyOne hone
        obtain ⟨hnested, hsettled⟩ := ih s₁ r s' more hrest
        refine ⟨.plain (by rw [hd]; rfl) hnested, ?_⟩
        refine Settles.of_append ?_ ?_ hsettled
        · rcases hend with ⟨_, hstops⟩ | ⟨g, hg, _⟩
          · intro e he
            cases List.mem_singleton.mp he
            exact hstops
          · cases hg
        · rw [told_observer hd, due_observer hd, List.append_nil]
          rfl

/-- All observers are told that there are when telling them begins. -/
theorem notify_settles (report : Report) :
    Settles answers (fun s => s.tellings report) (notify execute report) debt := by
  intro s r s' deeds he
  rcases of_bind he with ⟨f, rfl, hget⟩ | ⟨a, s₁, _, rest, hget, he, rfl⟩
  · cases (of_own hget).1
  · obtain ⟨hstep, rfl⟩ := of_own hget
    cases hstep
    exact forEach_settles report _ s r s' rest he

/-- A record changes nothing about who is to be told. -/
theorem record_owed (events : List Event) (report : Report) (s : Session) :
    ∃ a s', Run.record events s = some (.ok a, s') ∧
      s'.tellings report = s.tellings report :=
  ⟨_, _, rfl, rfl⟩

/-- A failing implementation is told of, and then passed over. -/
theorem runImplementation_settles (hook : String) (i : Implementation)
    (given : List (String × Value)) :
    Settles answers nothing (runImplementation execute hook i given) debt := by
  refine .contain (fun f s => s.tellings
    ⟨s!"{hook}:{i.extension}", f, Run.lineAmong given⟩) ?_ ?_
  · exact .watch rfl (fun _ _ => rfl) fun _ _ _ => rfl
  · intro f _
    refine .inl (.after_own (record_owed _ _) ?_)
    intro _
    refine .bind (notify_settles _) ?_
    intro _
    exact .pure _

theorem firstAnswer_settles (hook : String) (given : List (String × Value))
    (chain : List Implementation) :
    Settles answers nothing (firstAnswer execute hook given chain) debt := by
  induction chain with
  | nil => exact .pure _
  | cons i rest ih =>
      refine .bind (runImplementation_settles hook i given) ?_
      intro v
      split
      · exact ih
      · exact .pure v

theorem rewrite_settles (hook key : String) (given : List (String × Value))
    (value : Value) (chain : List Implementation) :
    Settles answers nothing (rewrite execute hook key given value chain) debt := by
  induction chain generalizing value with
  | nil => exact .pure _
  | cons i rest ih =>
      refine .bind (runImplementation_settles hook i _) ?_
      intro v
      exact ih _

/-- A look at the session. -/
theorem get_settles : Settles answers nothing (own get) debt :=
  .own fun s => ⟨s, s, rfl⟩

theorem shellParam_settles : Settles answers nothing (own Run.shellParam) debt :=
  .own fun s => ⟨_, s, rfl⟩

theorem record_settles (events : List Event) :
    Settles answers nothing (own (Run.record events)) debt :=
  .own fun _ => ⟨_, _, rfl⟩

theorem callFirst_settles (hook : String) (given : List (String × Value)) :
    Settles answers nothing (callFirst execute hook given) debt := by
  refine .bind get_settles ?_
  intro s
  exact firstAnswer_settles hook given _

theorem callChain_settles (hook key : String) (value : Value)
    (given : List (String × Value)) :
    Settles answers nothing (callChain execute hook key value given) debt := by
  refine .bind get_settles ?_
  intro s
  exact rewrite_settles hook key given value _

/-! ## Lines -/

/-- What is left unpaid by something that is done at a place. -/
def owing (place : Place) (f : Fault) (s : Session) : List Telling :=
  s.tellings? (place.report? f)

theorem firstResult_settles (place : Place) (hook : String)
    (args : List Value) (given : List (String × Value)) :
    Settles answers nothing (firstResult execute place hook args given)
      (owing place) := by
  refine .bind shellParam_settles ?_
  intro shell
  refine .bind (callFirst_settles _ _) ?_
  intro v
  split
  · exact .watch rfl (fun _ _ => rfl) fun _ _ _ => rfl
  · exact .pure v

/-- A fault is reported once the observers were told. -/
theorem reportFault_settles (place : Place) (f : Fault) :
    Settles answers (fun s => s.tellings (place.report f))
      (reportFault execute place f) clear := by
  refine .after_own (record_owed _ _) ?_
  intro _
  refine .bind (notify_settles (place.report f)) ?_
  intro _
  exact .watch rfl (fun _ _ => rfl) fun _ _ _ => rfl

/-- At every place but the first, all faults are told of. -/
theorem owing_eq {place : Place} {f : Fault}
    (h : (place.stage == .precmd && f.isBadLine) = false) :
    owing place f = fun s => s.tellings (place.report f) := by
  funext s
  rw [owing, Place.report?, if_neg (ne_true_of_eq_false h)]
  rfl

/-- Who is owed the report of a fault without a text cannot be told. -/
theorem owing_mute {place : Place} {f cause : Fault}
    (hf : f.textFault? = some cause) (s : Session) :
    ∀ telling ∈ owing place f s, telling.1.isMute = true := by
  intro telling h
  rw [owing, Place.report?] at h
  split at h
  · cases h
  · obtain ⟨i, -, rfl⟩ := List.mem_map.mp h
    show f.textFault?.isSome = true
    rw [hf]
    rfl

theorem answerFault_handles {place : Place} {f : Fault}
    (h : (place.stage == .precmd && f.isBadLine) = false) :
    Handles true (owing place) f (answerFault execute place f) clear := by
  rw [answerFault]
  cases hf : f.textFault? with
  | some cause =>
      exact .inr ⟨rfl, ⟨cause, .inl hf, rfl⟩, owing_mute hf⟩
  | none =>
      refine .inl ?_
      rw [owing_eq h]
      exact reportFault_settles place f

/-- A line that was not read is bad, and nobody is told, or the rewriting
    of it failed. -/
theorem answerUnread_handles {line : Value} {f : Fault}
    (hf : f.isSignal = false) :
    Handles true (owing ⟨.precmd, Stage.precmd.name, line⟩) f
      (answerUnread execute ⟨.precmd, Stage.precmd.name, line⟩ f)
      clear := by
  rw [answerUnread]
  cases hreason : f.lineReason? with
  | none =>
      dsimp only
      rw [if_neg (ne_true_of_eq_false hf)]
      refine answerFault_handles ?_
      rw [Fault.isBadLine, hreason]
      rfl
  | some told =>
      have howing : owing ⟨.precmd, Stage.precmd.name, line⟩ f =
          nothing := by
        funext s
        rw [owing, Place.report?, Fault.isBadLine, hreason]
        rfl
      cases told with
      | error g =>
          refine .inr ⟨rfl, ⟨g, .inr hreason, rfl⟩, ?_⟩
          rw [howing]
          intro s telling h
          cases h
      | ok told =>
          refine .inl ?_
          rw [howing]
          refine .bind (.own fun s => ⟨told, s, rfl⟩) ?_
          intro _
          refine .bind (record_settles _) ?_
          intro _
          exact .watch rfl (fun _ _ => rfl) fun _ _ _ => rfl

theorem follow_settles (place : Place) (line : Line) (route : Route) :
    Settles answers nothing (follow execute place line route) (owing place) := by
  cases route with
  | empty => exact firstResult_settles _ _ _ _
  | unknown => exact firstResult_settles _ _ _ _
  | _ => exact .watch rfl (fun _ _ => rfl) fun _ _ _ => rfl

theorem dispatch_settles (line : Line) (raw : Value) :
    Settles true nothing (dispatch execute line raw) clear := by
  refine .withOverlay
    (.contain (owing ⟨.handler, line.command, raw⟩) ?_ ?_) _
  · refine .bind get_settles ?_
    intro s
    exact follow_settles _ line _
  · intro f _
    exact answerFault_handles rfl

theorem readRewritten_settles (place : Place) (line : Value) :
    Settles answers nothing (readRewritten execute place line) (owing place) := by
  refine .bind (.watch rfl (fun _ _ => rfl) fun _ _ _ => rfl) ?_
  intro line
  refine .bind shellParam_settles ?_
  intro shell
  refine .bind (callChain_settles _ _ _ _) ?_
  intro line
  exact .watch rfl (fun _ _ => rfl) fun _ _ _ => rfl

theorem rewriteResult_settles (result line : Value) :
    Settles true nothing (rewriteResult execute result line) clear := by
  refine .attempt_bind (owing ⟨.postcmd, Stage.postcmd.name, line⟩)
    (.watch rfl (fun _ _ => rfl) fun _ _ _ => rfl) ?_ ?_ ?_
  · intro result
    refine .bind shellParam_settles ?_
    intro shell
    exact callChain_settles _ _ _ _
  · intro f hf
    dsimp only
    rw [if_neg (ne_true_of_eq_false hf)]
    exact answerFault_handles rfl
  · intro f hf
    exact if_pos hf

theorem lineResult_settles (line : Value) :
    Settles true nothing (lineResult execute line) clear := by
  refine .attempt_bind (owing ⟨.precmd, Stage.precmd.name, line⟩)
    (readRewritten_settles _ line) ?_ ?_ ?_
  · intro split
    exact dispatch_settles split line
  · intro f hf
    exact answerUnread_handles hf
  · intro f hf
    show answerUnread execute _ f = own (throw f)
    rw [answerUnread]
    cases f with
    | badLine reason shown => cases hf
    | unexplained kind text => cases hf
    | _ => exact if_pos hf

/-- A whole line settles everything that it owes. -/
theorem runLine_settles (line : Value) :
    Settles true nothing (runLine execute line) clear := by
  refine .bind (lineResult_settles line) ?_
  intro result
  exact rewriteResult_settles result line

/-! ## Sessions -/

/-- What is done at no place is told to nobody. -/
theorem renderPrompt_settles :
    Settles answers nothing (renderPrompt execute) clear := by
  refine .bind get_settles ?_
  intro s
  refine .contain clear (.watch rfl (fun _ _ => rfl) fun _ _ _ => rfl) ?_
  intro f _
  refine .inl ?_
  show Settles answers nothing _ _
  refine .bind (.own fun s => ⟨_, s, rfl⟩) ?_
  intro me
  refine .bind (record_settles _) ?_
  intro _
  exact .watch rfl (fun _ _ => rfl) fun _ _ _ => rfl

theorem emitPresent_settles (v : Value) :
    Settles answers nothing (emitPresent execute v) clear := by
  rw [emitPresent]
  split
  · exact .pure ()
  · exact .watch rfl (fun _ _ => rfl) fun _ _ _ => rfl

theorem sayAt_settles {stage : Stage} (h : (stage == .precmd) = false) :
    Settles true nothing (sayAt execute stage) clear := by
  refine .bind (.contain (owing ⟨stage, stage.name, .null⟩)
    (firstResult_settles _ _ _ _) ?_) emitPresent_settles
  intro f _
  exact answerFault_handles (by rw [h]; rfl)

/-- A fault that is passed on stays what it is. -/
theorem of_attempt_throw {c : Course α} {next : Except Fault α → Course β}
    (h : Settles false nothing c clear)
    (hok : ∀ a, Settles answers nothing (next (.ok a)) clear)
    (herror : ∀ f, next (.error f) = own (throw f) ∨
      f.isSignal = false ∧ Settles answers nothing (next (.error f)) clear) :
    Settles answers nothing (c.attempt >>= next) clear := by
  intro s r s' deeds he
  obtain ⟨result, s₁, first, rest, hc, hnext, rfl⟩ := of_attempt_bind he
  obtain ⟨hfirst, hsettled⟩ := h s _ s₁ first hc
  cases result with
  | ok a =>
      obtain ⟨hrest, hsettled'⟩ := hok a s₁ r s' rest hnext
      exact ⟨hfirst.append hrest, Settles.of_done hsettled.loosened hsettled'⟩
  | error f =>
      rcases herror f with hthrow | ⟨hf, hsettles⟩
      · rw [hthrow] at hnext
        obtain ⟨hthrown, rfl⟩ := of_own hnext
        cases hthrown
        rw [List.append_nil]
        exact ⟨hfirst, hsettled.retype.loosened⟩
      · obtain ⟨hrest, hsettled'⟩ := hsettles s₁ r s' rest hnext
        exact ⟨hfirst.append hrest, Settles.of_failed hsettled hf hsettled'⟩

theorem nextLine_settles :
    Settles answers nothing (nextLine execute) clear := by
  refine of_attempt_throw ?_ (fun line => .pure _) ?_
  · refine .bind renderPrompt_settles ?_
    intro prompt
    exact .watch rfl (fun _ _ => rfl) fun _ _ _ => rfl
  · intro f
    cases f with
    | endOfInput text =>
        refine Or.inr ⟨rfl, .bind (record_settles _) ?_⟩
        intro _
        exact .pure _
    | _ => exact Or.inl rfl

theorem turn_settles : Settles true nothing (turn execute) clear := by
  refine .bind nextLine_settles ?_
  intro line
  cases line with
  | none => exact .pure _
  | some line =>
      refine .bind (runLine_settles _) ?_
      intro result
      refine .bind (emitPresent_settles _) ?_
      intro _
      refine .bind get_settles ?_
      intro s
      exact .pure _

theorem turns_settles (n : Nat) :
    Settles true nothing (turns execute n) clear := by
  induction n with
  | zero =>
      intro s r s' deeds h
      cases (of_own h).1
  | succ n ih =>
      refine .bind turn_settles ?_
      intro turn
      cases turn with
      | ended => exact .pure ()
      | again => exact ih

theorem turnsUnlessStopped_settles :
    Settles true nothing (turnsUnlessStopped execute) clear := by
  refine .bind get_settles ?_
  intro s
  split
  · exact .pure ()
  · exact turns_settles _

end Course

end LineShell
