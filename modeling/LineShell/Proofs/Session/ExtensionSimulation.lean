import LineShell.Proofs.Extension.Without
import LineShell.Proofs.Session.Replies

/-! # Extension simulation — a session follows the same one without an object

    A member is *quiet* if it leaves the shell alone however it is called:
    it may write values of some kind to the trace, it may change what is
    kept in memory under some names, it may answer, and it may raise an
    ordinary fault.  It is *silent* if it answers nothing as well.

    Two sessions are related (`Unseen`) if the second is the first with one
    extension object more, whose implementations are silent, and with
    observers that are quiet: these are told of the faults of that
    extension, on the second side only.  The relation is a free bond, and
    what the second side has more can be passed over (`unseen_passing`).
    So code that neither asks for a report of what is registered nor takes
    the name of the object, and that does not read what the object and the
    observers keep in memory, agrees with itself (`unseen_code`), by
    induction on the depth of calls. -/

namespace LineShell

/-! ## Leaving a shell alone -/

/-- What is put aside when sessions are compared: values of some kind in
    the trace, and what code keeps in memory under some names. -/
structure Aside where
  values : Value → Bool
  names : String → Bool
  deriving Inhabited

/-- Nothing is put aside. -/
def Aside.nothing : Aside := ⟨fun _ => false, fun _ => false⟩

/-- The trace of a session without the values of some kind. -/
def Session.traceBut (values : Value → Bool) (s : Session) : List Value :=
  s.trace.filter fun v => !values v

/-- Two sessions keep the same in memory, but for some names. -/
def Session.RemembersAs (names : String → Bool) (s t : Session) : Prop :=
  ∀ name, names name = false → t.memory name = s.memory name

namespace Session.RemembersAs

variable {names : String → Bool} {s s' t t' u : Session}

theorem refl (s : Session) : s.RemembersAs names s :=
  fun _ _ => rfl

theorem symm (h : s.RemembersAs names t) : t.RemembersAs names s :=
  fun name hname => (h name hname).symm

theorem trans (h : s.RemembersAs names t) (h' : t.RemembersAs names u) :
    s.RemembersAs names u :=
  fun name hname => (h' name hname).trans (h name hname)

/-- The same change of both. -/
theorem amended (h : s.RemembersAs names t) (name : String)
    (change : Value → Value) :
    (s.amended name change).RemembersAs names (t.amended name change) := by
  intro other hother
  simp only [Session.amended]
  split
  · rename_i heq
    rw [h name (heq ▸ hother)]
  · exact h other hother

/-- A change under a name that is put aside. -/
theorem amended_aside {name : String} (hname : names name = true)
    (change : Value → Value) (s : Session) :
    s.RemembersAs names (s.amended name change) := by
  intro other hother
  refine if_neg ?_
  rintro rfl
  rw [hname] at hother
  cases hother

end Session.RemembersAs

/-- Nothing has changed but for records, and what is put aside. -/
structure Session.Beside (aside : Aside) (s s' : Session) : Prop where
  core : s'.core = s.core
  extensions : s'.extensions = s.extensions
  memory : s.RemembersAs aside.names s'
  trace : s'.traceBut aside.values = s.traceBut aside.values

namespace Session.Beside

variable {aside : Aside} {s s' s'' : Session}

theorem refl (s : Session) : s.Beside aside s :=
  ⟨rfl, rfl, .refl s, rfl⟩

theorem trans (h : s.Beside aside s') (h' : s'.Beside aside s'') :
    s.Beside aside s'' :=
  ⟨h'.core.trans h.core, h'.extensions.trans h.extensions,
    h.memory.trans h'.memory, h'.trace.trans h.trace⟩

theorem recorded (s : Session) (events : List Event) :
    s.Beside aside { s with events := s.events ++ events } :=
  ⟨rfl, rfl, .refl s, rfl⟩

end Session.Beside

/-- However the member is called, it leaves the shell alone, and it comes
    to such a value or to an ordinary fault. -/
def Bound.Quiet (aside : Aside) (V : Value → Prop) (b : Bound) :
    Prop :=
  ∀ depth call s, ∃ r s',
    Run.callBound (Run.executeWithin depth) b call s = some (r, s') ∧
      s.Beside aside s' ∧ Result V (fun f => f.isSignal = false) r

/-- Quiet, and it answers nothing. -/
def Bound.Silent (aside : Aside) (b : Bound) : Prop :=
  b.Quiet aside fun v => v = .null

theorem Bound.Silent.quiet {aside : Aside} {b : Bound}
    (h : b.Silent aside) : b.Quiet aside Whatever := by
  intro depth call s
  obtain ⟨r, s', he, hbeside, hr⟩ := h depth call s
  refine ⟨r, s', he, hbeside, ?_⟩
  cases r with
  | ok v => trivial
  | error f => exact hr

/-- A class of extensions whose observers are quiet, and of whose members
    none asks to be first and last at once. -/
structure Class.Plain (aside : Aside) (c : Class) : Prop where
  ordered : Extensions.Ordered c
  observers : ∀ entry ∈ Extensions.markedMembers c,
    Extensions.hookOf entry.1 entry.2 = "on_error" →
      (c.bind entry.1).Quiet aside Whatever

namespace Run

variable {aside : Aside} {s : Session} {i : Implementation}

theorem callImplementation_quiet (depth : Nat) {V : Value → Prop}
    (hi : i.member.Quiet aside V) (given : List (String × Value))
    (s : Session) :
    ∃ r s', callImplementation (executeWithin depth) i given s =
        some (r, s') ∧
      s.Beside aside s' ∧ Result V (fun f => f.isSignal = false) r := by
  simp only [callImplementation]
  split
  · exact hi depth _ s
  · exact ⟨_, s, rfl, .refl s, rfl⟩

/-- A quiet observer can be told anything. -/
theorem notifyOne_quiet (depth : Nat)
    (hi : i.member.Quiet aside Whatever)
    (stage : String) (fault : Fault) (line : Value) (s : Session) :
    ∃ s', notifyOne (executeWithin depth) stage fault line i s =
        some (.ok (), s') ∧ s.Beside aside s' := by
  obtain ⟨r, s₁, hcall, hbeside, hr⟩ := callImplementation_quiet depth hi
    [("stage", .text stage), ("error", .fault fault), ("line", line)] s
  cases r with
  | ok v => exact ⟨s₁, contain_ok (bind_ok hcall), hbeside⟩
  | error f =>
      exact ⟨_, contain_error (bind_error hcall) hr,
        hbeside.trans (.recorded _ _)⟩

theorem tell_quiet (depth : Nat) {observers : List Implementation}
    (ho : ∀ i ∈ observers, i.member.Quiet aside Whatever)
    (stage : String) (fault : Fault) (line : Value) (s : Session) :
    ∃ s', observers.forM
        (notifyOne (executeWithin depth) stage fault line) s =
        some (.ok (), s') ∧ s.Beside aside s' := by
  induction observers generalizing s with
  | nil => exact ⟨s, rfl, .refl s⟩
  | cons i rest ih =>
      obtain ⟨s₁, hone, hbeside⟩ := notifyOne_quiet depth
        (ho i List.mem_cons_self) stage fault line s
      obtain ⟨s₂, hrest, hbeside'⟩ :=
        ih (fun j hj => ho j (List.mem_cons_of_mem _ hj)) s₁
      exact ⟨s₂, (bind_ok hone).trans hrest, hbeside.trans hbeside'⟩

/-- A quiet implementation comes to such a value, or to nothing.  If it
    fails, observers are told; that changes nothing where they are
    quiet. -/
theorem runImplementation_quiet (depth : Nat) {V : Value → Prop}
    (hi : i.member.Quiet aside V)
    (ho : ∀ j ∈ s.extensions.chain "on_error",
      j.member.Quiet aside Whatever)
    (hook : String) (given : List (String × Value)) :
    ∃ v s', runImplementation (executeWithin depth) hook i given s =
        some (.ok v, s') ∧
      s.Beside aside s' ∧ (V v ∨ v = .null) := by
  obtain ⟨r, s₁, hcall, hbeside, hr⟩ :=
    callImplementation_quiet depth hi given s
  cases r with
  | ok v => exact ⟨v, s₁, contain_ok hcall, hbeside, .inl hr⟩
  | error f =>
      -- the observers are those that there were before it failed
      let failed : Session :=
        { s₁ with events := s₁.events ++ [.hookFailed hook i.extension] }
      have hobservers : ∀ j ∈ failed.extensions.chain "on_error",
          j.member.Quiet aside Whatever := by
        show ∀ j ∈ s₁.extensions.chain "on_error", _
        rw [hbeside.extensions]
        exact ho
      obtain ⟨s₂, htold, hbeside'⟩ := tell_quiet depth hobservers
        s!"{hook}:{i.extension}" f (lineAmong given) failed
      have hnotify : notify (executeWithin depth) s!"{hook}:{i.extension}" f
          (lineAmong given) failed = some (.ok (), s₂) := htold
      refine ⟨.null, s₂, ?_, (hbeside.trans (.recorded _ _)).trans hbeside',
        .inr rfl⟩
      rw [runImplementation, contain_error hcall hr]
      exact bind_ok hnotify

/-- A silent implementation answers nothing. -/
theorem runImplementation_silent (depth : Nat)
    (hi : i.member.Silent aside)
    (ho : ∀ j ∈ s.extensions.chain "on_error",
      j.member.Quiet aside Whatever)
    (hook : String) (given : List (String × Value)) :
    ∃ s', runImplementation (executeWithin depth) hook i given s =
        some (.ok .null, s') ∧ s.Beside aside s' := by
  obtain ⟨v, s', he, hbeside, hv⟩ :=
    runImplementation_quiet depth hi ho hook given
  obtain rfl : v = .null := hv.elim id id
  exact ⟨s', he, hbeside⟩

end Run

/-! ## The relation -/

/-- The second session is the first with the ghost, whose implementations
    are silent, if it is there. -/
structure Unseen (k : Conduct) (g : Ghost) (aside : Aside)
    (s t : Session) : Prop where
  core : t.core = s.core
  memory : s.RemembersAs aside.names t
  keeps : s.Keeps k
  extensions : Extensions.Without g s.extensions t.extensions
  ghost : ∀ hook, ∀ i ∈ t.extensions.chain hook, g.spares i = false →
    i.member.Silent aside
  observers : ∀ i ∈ t.extensions.chain "on_error",
    i.member.Quiet aside Whatever
  trace : t.traceBut aside.values = s.traceBut aside.values
  /-- Code does not read what is put aside of the memory. -/
  unread : ∀ name, k.asks (.kept name) → aside.names name = false
  /-- New objects are other objects than the ghost. -/
  serial : g.serial < s.serial
  /-- Code does not register them under its name. -/
  fresh : ∀ className given twice,
    k.asks (.register className given twice) →
      ∀ n, s.serial ≤ n → (givenName? given).getD (serialName n) ≠ g.name
  /-- The classes that code may register are plain. -/
  plain : ∀ className given twice c,
    k.asks (.register className given twice) →
      s.catalogue.find? className = some c → c.Plain aside

namespace Unseen

variable {k : Conduct} {g : Ghost} {aside : Aside}
variable {s t t' : Session}

/-- What is left when the second side does something beside. -/
theorem beside (h : Unseen k g aside s t) (hb : t.Beside aside t') :
    Unseen k g aside s t' :=
  { h with
    core := hb.core.trans h.core
    memory := h.memory.trans hb.memory
    extensions := hb.extensions ▸ h.extensions
    ghost := hb.extensions ▸ h.ghost
    observers := hb.extensions ▸ h.observers
    trace := hb.trace.trans h.trace }

/-- The relation is a bond, and free of the environment. -/
theorem free : Bond.Free k (Unseen k g aside) where
  core h := h.core
  keeps h := h.keeps
  update {s t f} hf h :=
    { core := hf.core_eq h.core
      memory := by
        rw [Session.RemembersAs, hf.memory, hf.memory]
        exact h.memory
      keeps := hf.keeps _ h.keeps
      extensions := by
        rw [hf.extensions, hf.extensions]
        exact h.extensions
      ghost := by
        rw [hf.extensions]
        exact h.ghost
      observers := by
        rw [hf.extensions]
        exact h.observers
      trace := by
        rw [Session.traceBut, Session.traceBut, hf.trace s, hf.trace t,
          List.filter_append, List.filter_append, h.core]
        exact congrArg (· ++ _) h.trace
      unread := h.unread
      serial := by
        rw [hf.serial]
        exact h.serial
      fresh := by
        rw [hf.serial]
        exact h.fresh
      plain := by
        rw [hf.catalogue]
        exact h.plain }
  amended name change h :=
    { h with
      core := h.core
      memory := h.memory.amended name change
      keeps := { h.keeps with } }
  env {s t} env h :=
    { h with
      core := congrArg (fun c : Session => { c with env }) h.core
      keeps := { h.keeps with } }

theorem mobile : Mobile (Unseen k g aside) := by
  intro s t p h
  exact { h with
    core := congrArg (fun c : Session => { c with phase := p }) h.core
    keeps := { h.keeps with } }

/-- Changes of both sides that leave what is registered alone. -/
theorem numbered (h : Unseen k g aside s t) :
    Unseen k g aside { s with serial := s.serial + 1 }
      { t with serial := t.serial + 1 } :=
  { h with
    core := congrArg (fun c : Session => { c with serial := c.serial + 1 })
      h.core
    keeps := { h.keeps with }
    serial := Nat.lt_succ_of_lt h.serial
    fresh := fun className given twice ha n hn =>
      h.fresh className given twice ha n (Nat.le_of_succ_le hn) }

/-- Blocking a name on both sides. -/
theorem blocked (h : Unseen k g aside s t) (name : String) :
    Unseen k g aside { s with extensions := s.extensions.block name }
      { t with extensions := t.extensions.block name } :=
  { h with
    core := h.core
    keeps := { h.keeps with
      extensions := Extensions.Keeps.block h.keeps.extensions name }
    extensions := h.extensions.block name
    ghost := fun hook i hi => h.ghost hook i (Extensions.mem_chain_block hi)
    observers := fun i hi => h.observers i (Extensions.mem_chain_block hi)
    trace := h.trace }

/-- Another object of a plain class on both sides, whether it is refused
    or not. -/
theorem extended (h : Unseen k g aside s t) {c : Class} (hk : c.Keeps k)
    (hc : c.Plain aside) {serial : Nat} (hs : serial ≠ g.serial)
    {name label : String}
    (hw : Extensions.Without g (s.extensions.register c name serial label).2
      (t.extensions.register c name serial label).2) :
    Unseen k g aside
      { s with
        extensions := (s.extensions.register c name serial label).2 }
      { t with
        extensions := (t.extensions.register c name serial label).2 } :=
  { h with
    core := h.core
    keeps := { h.keeps with
      extensions := Extensions.Keeps.register h.keeps.extensions hk name
        serial label }
    extensions := hw
    ghost := by
      intro hook i hi hghost
      rcases Extensions.mem_chain_register hi with hi | ⟨_, _, _, rfl⟩
      · exact h.ghost hook i hi hghost
      · exact absurd hghost (ne_false_of_eq_true (bne_iff_ne.mpr hs))
    observers := by
      intro i hi
      rcases Extensions.mem_chain_register hi with hi |
        ⟨entry, hmarked, hhook, rfl⟩
      · exact h.observers i hi
      · exact hc.observers entry hmarked hhook
    trace := h.trace }

/-- What an object handles is recorded on both sides. -/
theorem scanned (h : Unseen k g aside s t) {c : Class} (hk : c.Keeps k)
    (source : String) (events : List Event) :
    Unseen k g aside
      { s with
        registry := s.registry.scan c source
        events := s.events ++ events }
      { t with
        registry := t.registry.scan c source
        events := t.events ++ events } :=
  free.update (.recorded events)
    (free.update (.registered fun _ hr => hr.scan hk source) h)

end Unseen

namespace Run

variable {k : Conduct} {g : Ghost} {aside : Aside}
variable {s t s' t' : Session} {depth : Nat}

/-- What the second side has more can be passed over. -/
theorem unseen_passing (depth : Nat) :
    Passing (Unseen k g aside) (executeWithin depth) g.spares where
  chain _ _ hr hook := hr.extensions.chain hook
  run := by
    intro s t hr hook i hi hghost given s₁ t₁ hr₁
    obtain ⟨t', he, hbeside⟩ := runImplementation_silent depth
      (hr.ghost hook i hi hghost) hr₁.observers hook given
    exact ⟨t', he, hr₁.beside hbeside⟩
  notify := by
    intro s t hr i hi _ stage f line s₁ t₁ hr₁
    obtain ⟨t', he, hbeside⟩ := notifyOne_quiet depth
      (hr.observers i hi) stage f line t₁
    exact ⟨t', he, hr₁.beside hbeside⟩

/-! ## Registering -/

/-- Another object under another name is registered on both sides, or
    refused on both. -/
theorem registerExtension_unseen (h : Unseen k g aside s t) {c : Class}
    (hk : c.Keeps k) (hc : c.Plain aside) {serial : Nat}
    (hs : serial ≠ g.serial) {name : Option String}
    (hn : (givenName? name).getD (serialName serial) ≠ g.name) :
    ∃ r s' t', registerExtension c serial name s = some (r, s') ∧
      registerExtension c serial name t = some (r, t') ∧
      Unseen k g aside s' t' := by
  have halike : Extensions.Alike (Extensions.Without g)
      (s.extensions.register c ((givenName? name).getD (serialName serial))
        serial ((givenName? name).getD c.name))
      (t.extensions.register c ((givenName? name).getD (serialName serial))
        serial ((givenName? name).getD c.name)) :=
    h.extensions.register hn hs hc.ordered
  have hextended := h.extended hk hc hs halike.left
  have hsame := halike.result
  -- what one side refuses the other refuses, for the same reason
  rcases registerExtension_cases c serial name s with
    ⟨f, e, hr, hend⟩ | ⟨e, hr, hend⟩
  · rw [hr] at hsame hextended
    rcases registerExtension_cases c serial name t with
      ⟨f', e', hr', hend'⟩ | ⟨e', hr', -⟩
    · rw [hr'] at hsame hextended
      cases hsame
      exact ⟨_, _, _, hend, hend', Unseen.free.refused h hextended⟩
    · rw [hr'] at hsame
      cases hsame
  · rw [hr] at hsame hextended
    rcases registerExtension_cases c serial name t with
      ⟨f', e', hr', -⟩ | ⟨e', hr', hend'⟩
    · rw [hr'] at hsame
      cases hsame
    · rw [hr'] at hextended
      exact ⟨_, _, _, hend, hend', hextended.scanned hk _ _⟩

theorem registerExtension_agree {c : Class} (hk : c.Keeps k)
    (hc : c.Plain aside) {serial : Nat} (hs : serial ≠ g.serial)
    {name : Option String}
    (hn : (givenName? name).getD (serialName serial) ≠ g.name) :
    Agree (Unseen k g aside) (registerExtension c serial name)
      (registerExtension c serial name) := by
  intro s t hr r s' he
  obtain ⟨r₁, s₁, t₁, hfirst, hsecond, hr₁⟩ :=
    registerExtension_unseen hr hk hc hs hn
  rw [hfirst] at he
  cases he
  exact ⟨t₁, hsecond, hr₁⟩

/-- A new object is another one, and gets another name. -/
theorem newExtension_agree :
    Agree (Unseen k g aside) newExtension newExtension := by
  intro s t hr r s' he
  cases he
  have hserial : t.serial = s.serial := by
    show t.core.serial = s.core.serial
    rw [hr.core]
  refine ⟨{ t with serial := t.serial + 1 }, ?_, hr.numbered⟩
  rw [← hserial]
  rfl

theorem answerRegister_agree {className : String} {name : Option String}
    {twice : Bool}
    (ha : k.asks (.register className name twice)) :
    Agree (Unseen k g aside)
      (do registerNew (← classOf className) name twice)
      (do registerNew (← classOf className) name twice) := by
  refine register_agree (V := fun c => c.Keeps k ∧ c.Plain aside)
    (W := fun n => n ≠ g.serial ∧
      (givenName? name).getD (serialName n) ≠ g.name)
    Unseen.free.toBond ?_ ?_ newExtension_agree ?_
  · intro s t hr c hfound
    exact ⟨hr.keeps.catalogue _ _ hfound, hr.plain _ _ _ c ha hfound⟩
  · intro s t hr
    exact ⟨(Nat.ne_of_lt hr.serial).symm,
      hr.fresh _ _ _ ha _ (Nat.le_refl _)⟩
  · rintro c n ⟨hkeeps, hc⟩ ⟨hs, hname⟩
    exact registerExtension_agree hkeeps hc hs hname

theorem answerBlock_agree (name : String) :
    Agree (Unseen k g aside)
      (modify fun s => { s with extensions := s.extensions.block name } :
        Run PUnit)
      (modify fun s => { s with extensions := s.extensions.block name }) := by
  intro s t hr r s' he
  cases he
  exact ⟨_, rfl, hr.blocked name⟩

/-! ## Executing code -/

theorem answer_unseen {x y : Executor} (hk : ¬ k.asks .report)
    (ha : Accord k (Unseen k g aside) x y) {frame : Frame}
    (hf : frame.Keeps k) {r : Request} (hr : k.asks r) :
    Agree (Unseen k g aside) (answer x frame r) (answer y frame r) := by
  have hb : Bond.Free k (Unseen k g aside) := Unseen.free
  cases hregister : r.isRegistering with
  | false =>
      refine answer_agree_free hb ha hf ?_ hregister fun _ =>
        session_agree hb ha Unseen.mobile
      -- what is recalled is not put aside
      rintro name rfl s t hst
      exact hst.memory name (hst.unread name hr)
  | true =>
      refine withShell_agree hb.toBond ?_ _
      cases r with
      | register className name twice => exact answerRegister_agree hr
      | block name => exact Agree.giving (answerBlock_agree name) _
      | report => exact absurd hr hk
      | _ => cases hregister

/-- Code comes to the same on both sides, at every depth of calls. -/
theorem unseen_code (hk : ¬ k.asks .report) (depth : Nat) (frame : Frame)
    (p : Program) (hf : frame.Keeps k) (hp : p.Keeps k) :
    Agree (Unseen k g aside) (executeWithin depth frame p)
      (executeWithin depth frame p) := by
  induction depth generalizing frame p with
  | zero => exact .throw _
  | succ depth ih =>
      have hb : Bond k (Unseen k g aside) := Unseen.free.toBond
      have ha := Accord.of_passing hb ih (unseen_passing depth)
      have hperform := perform_agree hb (executeWithin_keeps depth) ha hf
        (fun r hr => answer_unseen hk ha hf hr) hp
      rwa [← Replies.within, ← perform_eq] at hperform

/-- So do lines and sessions. -/
theorem unseen_accord (hk : ¬ k.asks .report) (depth : Nat) :
    Accord k (Unseen k g aside) (executeWithin depth)
      (executeWithin depth) :=
  .of_passing Unseen.free.toBond (unseen_code hk depth)
    (unseen_passing depth)

end Run

end LineShell
