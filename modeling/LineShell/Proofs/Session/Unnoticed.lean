import LineShell.Proofs.Session.Scope
import LineShell.Proofs.Session.ExtensionSimulation
import Mathlib.Data.List.Forall2

/-! # Unnoticed — an extension that changes nothing

    An extension object goes unnoticed if it handles no commands, helps
    with none and completes none, and its hooks are silent.  A shell with
    such an object among its extensions and the same shell without it do
    the same: line by line and session by session, whatever else is
    registered, wherever the object stands among the others
    (`Run.transcript_unnoticed`).  What that takes of the shell, of the
    other objects and of code is `Undisturbed`.  An object is noticed where
    another asks to be first and last at once, where an observer raises a
    signal, and where code takes its name or asks for a report
    (`Run.extension_noticed`).

    Objects are given with their numbers and names, so that they are the
    same in both shells. -/

namespace LineShell

/-- An object without handlers, help producers and completers whose hooks
    answer nothing and leave the shell alone. -/
structure Class.Unnoticed (aside : Aside) (c : Class) : Prop where
  named : ∀ name ∈ Registry.scannedNames c,
    Registry.afterMarker? Registry.handlerMarker name = none ∧
      Registry.afterMarker? Registry.helpMarker name = none ∧
      Registry.afterMarker? Registry.completerMarker name = none
  marked : ∀ name ∈ Registry.scannedNames c,
    Registry.markedCommands (c.bind name) = []
  silent : ∀ entry ∈ Extensions.markedMembers c,
    (c.bind entry.1).Silent aside

/-- Scanning such an object records nothing. -/
theorem Class.Unnoticed.scan {aside : Aside} {c : Class}
    (h : c.Unnoticed aside) (r : Registry) (source : String) :
    r.scan c source = r := by
  have hmember : ∀ name ∈ Registry.scannedNames c, ∀ r : Registry,
      r.addMember source (c.bind name) = r := by
    intro name hname r
    obtain ⟨hhandler, hhelp, hcompleter⟩ := h.named name hname
    have hown : (c.bind name).name = name := rfl
    rw [Registry.addMember, h.marked name hname, List.foldl_nil,
      Registry.addByName, hown, hhandler, hhelp, hcompleter]
  rw [Registry.scan]
  exact List.foldlRecOn (Registry.scannedNames c) _ (motive := (· = r)) rfl
    fun r' hr' name hname => (hmember name hname r').trans hr'

/-! ## Objects with one hook -/

/-- A function that is a hook. -/
def hookFunction (mark : HookMark) (body : Call → Program) : Function where
  signature := .free
  body := body
  doc := none
  commands := []
  hook := some mark
  isStatic := false

/-- An object with one member, which is a hook. -/
def hookObject (hook : String) (mark : HookMark) (body : Call → Program) :
    Class :=
  ⟨0, "Hook", .ofList [(hook, .function (hookFunction mark body))], []⟩

section HookObject

variable {hook : String} {mark : HookMark} {body : Call → Program}

theorem definitions_hookObject :
    (hookObject hook mark body).definitions hook =
      [.function (hookFunction mark body)] := by
  simp [hookObject, Class.definitions, Class.lineage, OrderedMap.ofList,
    OrderedMap.insertAll, OrderedMap.get?, OrderedMap.put, OrderedMap.find]

theorem markedMembers_hookObject :
    Extensions.markedMembers (hookObject hook mark body) =
      [(hook, mark)] := by
  have hnames : (hookObject hook mark body).memberNames = [hook] := rfl
  rw [Extensions.markedMembers, hnames, List.mergeSort_singleton]
  simp [Class.lookup?, definitions_hookObject, hookFunction]

theorem scannedNames_hookObject :
    Registry.scannedNames (hookObject hook mark body) = [hook] := rfl

theorem callBound_hookObject (execute : Executor) (call : Call) :
    Run.callBound execute ((hookObject hook mark body).bind hook) call =
      execute ⟨some (hookObject hook mark body), hook, [], call⟩
        (body call) := by
  show Run.callDefinitions _ _ _ _
    ((hookObject hook mark body).definitions hook) = _
  rw [definitions_hookObject]
  rfl

variable {aside : Aside}

theorem plain_hookObject (ho : mark.tryFirst = true → mark.tryLast = false)
    (h : Extensions.hookOf hook mark = "on_error" →
      ((hookObject hook mark body).bind hook).Quiet aside Whatever) :
    (hookObject hook mark body).Plain aside where
  ordered := by
    intro entry hentry
    rw [markedMembers_hookObject] at hentry
    obtain rfl := List.mem_singleton.mp hentry
    exact ho
  observers := by
    intro entry hentry hhook
    rw [markedMembers_hookObject] at hentry
    obtain rfl := List.mem_singleton.mp hentry
    exact h hhook

theorem keeps_hookObject {k : Conduct} (h : ∀ call, (body call).Keeps k) :
    (hookObject hook mark body).Keeps k := by
  refine Class.keeps_of_lineage ?_
  intro c hc
  obtain rfl := List.mem_singleton.mp hc
  refine OrderedMap.All.ofList ?_
  intro entry hentry
  obtain rfl := List.mem_singleton.mp hentry
  exact h

theorem unnoticed_hookObject
    (hn : Registry.afterMarker? Registry.handlerMarker hook = none ∧
      Registry.afterMarker? Registry.helpMarker hook = none ∧
      Registry.afterMarker? Registry.completerMarker hook = none)
    (h : ((hookObject hook mark body).bind hook).Silent aside) :
    (hookObject hook mark body).Unnoticed aside where
  named := by
    intro name hname
    rw [scannedNames_hookObject] at hname
    obtain rfl := List.mem_singleton.mp hname
    exact hn
  marked := by
    intro name hname
    rw [scannedNames_hookObject] at hname
    obtain rfl := List.mem_singleton.mp hname
    show (((hookObject name mark body).definitions name).head?.map
      Attribute.commands).getD [] = []
    rw [definitions_hookObject]
    rfl
  silent := by
    intro entry hentry
    rw [markedMembers_hookObject] at hentry
    obtain rfl := List.mem_singleton.mp hentry
    exact h

end HookObject

/-! ### Hooks that end at once -/

/-- A hook that ends at once. -/
def hookClass (hook : String) (mark : HookMark) (ends : Call → Answer) :
    Class :=
  hookObject hook mark fun call => .ofAnswer (ends call)

section HookClass

variable {hook : String} {mark : HookMark} {ends : Call → Answer}
variable {aside : Aside}

theorem markedMembers_hookClass :
    Extensions.markedMembers (hookClass hook mark ends) = [(hook, mark)] :=
  markedMembers_hookObject

/-- It ends as it says, unless it is called too deep. -/
theorem callBound_hookClass (depth : Nat) (call : Call) (s : Session) :
    ∃ r, Run.callBound (Run.executeWithin depth)
        ((hookClass hook mark ends).bind hook) call s = some (r, s) ∧
      (r = .error Run.tooDeep ∨ r = ends call) := by
  rw [hookClass, callBound_hookObject]
  cases depth with
  | zero => exact ⟨_, rfl, Or.inl rfl⟩
  | succ depth =>
      refine ⟨_, ?_, Or.inr rfl⟩
      cases ends call <;> rfl

/-- It is quiet if what it ends in is. -/
theorem quiet_hookClass {V : Value → Prop}
    (h : ∀ call, Result V (fun f => f.isSignal = false) (ends call)) :
    ((hookClass hook mark ends).bind hook).Quiet aside V := by
  intro depth call s
  obtain ⟨r, he, hr⟩ := callBound_hookClass depth call s
  refine ⟨r, s, he, .refl s, ?_⟩
  rcases hr with rfl | rfl
  · rfl
  · exact h call

theorem keeps_hookClass {k : Conduct}
    (h : ∀ call f, ends call = .error f → k.raises f) :
    (hookClass hook mark ends).Keeps k := by
  refine keeps_hookObject ?_
  intro call
  cases he : ends call with
  | ok v => trivial
  | error f => exact h call f he

end HookClass

/-! ### Hooks that keep something in memory -/

/-- A hook that changes what is kept under a name, and answers nothing. -/
def keepingHook (hook : String) (mark : HookMark) (name : String)
    (change : Call → Value → Value) : Class :=
  hookObject hook mark fun call => .answer (.amend name (change call))

section KeepingHook

variable {hook name : String} {mark : HookMark}
variable {change : Call → Value → Value} {aside : Aside}

/-- It changes that and nothing else, unless it is called too deep. -/
theorem callBound_keepingHook (depth : Nat) (call : Call) (s : Session) :
    Run.callBound (Run.executeWithin depth)
        ((keepingHook hook mark name change).bind hook) call s =
      some (.error Run.tooDeep, s) ∨
    Run.callBound (Run.executeWithin depth)
        ((keepingHook hook mark name change).bind hook) call s =
      some (.ok .null, s.amended name (change call)) := by
  rw [keepingHook, callBound_hookObject]
  cases depth with
  | zero => exact Or.inl rfl
  | succ depth => exact Or.inr rfl

theorem silent_keepingHook (hname : aside.names name = true) :
    ((keepingHook hook mark name change).bind hook).Silent aside := by
  intro depth call s
  rcases callBound_keepingHook depth call s with he | he
  · exact ⟨_, _, he, .refl s, rfl⟩
  · exact ⟨_, _, he,
      ⟨rfl, rfl, .amended_aside hname (change call) s, rfl⟩, rfl⟩

end KeepingHook

/-! ## Shells with objects, and what is asked of them -/

/-- An extension object, its number, and the name that it is registered
    under, if any is given. -/
structure Registration where
  object : Class
  serial : Nat
  given : Option String
  deriving Inhabited

/-- The name that the object gets. -/
def Registration.label (r : Registration) : String :=
  (givenName? r.given).getD (serialName r.serial)

/-- What is asked of a shell. -/
inductive Command where
  | line (v : Value)
  | run
  deriving Inhabited

namespace Run

/-- Registers objects, in order. -/
def registerEach : List Registration → Run Unit
  | [] => pure ()
  | r :: rest => do
      let _ ← registerExtension r.object r.serial r.given
      registerEach rest

/-- Does what is asked. -/
def obey (execute : Executor) : Command → Run Value
  | .line v => runLine execute v
  | .run => do
      session execute
      pure .null

/-- What each of some commands comes to, one after the other, and the
    session it leaves. -/
def transcript (execute : Executor) :
    List Command → Session → Option (List (Except Fault Value × Session))
  | [], _ => some []
  | c :: rest, s => do
      let step ← obey execute c s
      (transcript execute rest step.2).map (step :: ·)

end Run

/-- Two steps that came to the same and left the same: the environment,
    the phase and the wish to stop, the registry, the reader with its
    history, and what was printed are all part of the core.  They may
    differ in what is registered, in records, and in what is put aside of
    the trace and of the memory. -/
structure Same (aside : Aside)
    (p q : Except Fault Value × Session) : Prop where
  result : q.1 = p.1
  core : q.2.core = p.2.core
  memory : p.2.RemembersAs aside.names q.2
  trace : q.2.traceBut aside.values = p.2.traceBut aside.values

/-- What is assumed where an object is to go unnoticed: of the shell `s`
    that it and the `others` are registered at, of these, and of all code
    there. -/
structure Undisturbed (k : Conduct) (aside : Aside)
    (x : Registration) (others : List Registration) (s : Session) :
    Prop where
  keeps : s.Keeps k
  bare : s.extensions = .empty
  unnoticed : x.object.Unnoticed aside
  others : ∀ r ∈ others, r.object.Keeps k ∧ r.object.Plain aside
  /-- The object was made before. -/
  made : x.serial < s.serial
  /-- No code asks for a report of what is registered. -/
  report : ¬ k.asks .report
  /-- No code but that of the object reads what is put aside of the
      memory. -/
  unread : ∀ name, k.asks (.kept name) → aside.names name = false
  /-- No code registers another object under its name. -/
  fresh : ∀ className given twice,
    k.asks (.register className given twice) →
      ∀ n, s.serial ≤ n → (givenName? given).getD (serialName n) ≠ x.label
  /-- What code may register is as the others are. -/
  plain : ∀ className given twice c,
    k.asks (.register className given twice) →
      s.catalogue.find? className = some c → c.Plain aside

namespace Run

variable {k : Conduct} {g : Ghost} {aside : Aside}
variable {s s' t t' : Session} {l : List Registration} {q r : Registration}

/-! ## Objects that are registered -/

/-- What registering an object does to a session. -/
theorem of_registerExtension {given : String}
    (h : registerExtension r.object r.serial r.given s =
      some (.ok given, s')) :
    ∃ e, s.extensions.register r.object r.label r.serial
        ((givenName? r.given).getD r.object.name) = (.ok (), e) ∧
      s' = { s with
        extensions := e
        registry := s.registry.scan r.object r.label
        events := s.events ++ [.extensionRegistered r.label] } := by
  rcases registerExtension_cases r.object r.serial r.given s with
    ⟨f, e, -, hend⟩ | ⟨e, hr, hend⟩
  · rw [hend] at h
    cases h
  · rw [hend] at h
    cases h
    exact ⟨e, hr, rfl⟩

/-- The object has no name yet, and nothing has its name. -/
def Free (s : Session) (r : Registration) : Prop :=
  s.extensions.names.get? r.label = none ∧
    some r.serial ∉ s.extensions.names.values

theorem free_of_registerExtension {given : String}
    (h : registerExtension r.object r.serial r.given s =
      some (.ok given, s')) : Free s r := by
  obtain ⟨e, he, _⟩ := of_registerExtension h
  obtain ⟨hname, hserial, _⟩ := Extensions.of_register he
  exact ⟨hname, hserial⟩

/-- What is free after an object was registered is another object with
    another name, and was free before. -/
theorem Free.before {given : String} (hr : Free s' r)
    (h : registerExtension q.object q.serial q.given s =
      some (.ok given, s')) :
    Free s r ∧ r.label ≠ q.label ∧ r.serial ≠ q.serial := by
  obtain ⟨e, he, rfl⟩ := of_registerExtension h
  obtain ⟨hname, _, _⟩ := Extensions.of_register he
  obtain ⟨hfree, hother⟩ := hr
  have hget : ∀ name, e.names.get? name = if q.label = name then
      some (some q.serial) else s.extensions.names.get? name := by
    intro name
    rw [Extensions.names_register he, OrderedMap.get?_insert]
  -- the name of the registered object is taken now
  have hlabel : r.label ≠ q.label := by
    intro heq
    rw [hget, if_pos heq.symm] at hfree
    cases hfree
  refine ⟨⟨?_, ?_⟩, hlabel, ?_⟩
  · rw [hget, if_neg hlabel.symm] at hfree
    exact hfree
  · intro hmem
    obtain ⟨name, hfound⟩ := OrderedMap.mem_values.mp hmem
    refine hother (OrderedMap.mem_values.mpr ⟨name, ?_⟩)
    rw [hget]
    split
    · rename_i heq
      rw [← heq, hname] at hfound
      cases hfound
    · exact hfound
  · intro heq
    refine hother (OrderedMap.mem_values.mpr ⟨q.label, ?_⟩)
    rw [hget, if_pos rfl, heq]

/-- Objects that were registered one after the other were free, and are
    told apart by number and by name. -/
theorem distinct_of_registerEach (h : registerEach l s = some (.ok (), s')) :
    (∀ r ∈ l, Free s r) ∧
      l.Pairwise fun q r => r.label ≠ q.label ∧ r.serial ≠ q.serial := by
  induction l generalizing s with
  | nil => exact ⟨(fun _ hr => nomatch hr), List.Pairwise.nil⟩
  | cons q rest ih =>
      obtain ⟨given, s₁, hq, hrest⟩ := of_bind_ok h
      obtain ⟨hfree, hpairs⟩ := ih hrest
      refine ⟨?_, List.pairwise_cons.mpr ⟨?_, hpairs⟩⟩
      · intro r hr
        rcases List.mem_cons.mp hr with rfl | hr
        · exact free_of_registerExtension hq
        · exact ((hfree r hr).before hq).1
      · intro r hr
        exact ((hfree r hr).before hq).2

theorem registerEach_append {l' : List Registration}
    (h : registerEach (l ++ l') s = some (.ok (), s')) :
    ∃ s₁, registerEach l s = some (.ok (), s₁) ∧
      registerEach l' s₁ = some (.ok (), s') := by
  induction l generalizing s with
  | nil => exact ⟨s, rfl, h⟩
  | cons r rest ih =>
      obtain ⟨given, s₁, hr, hrest⟩ := of_bind_ok h
      obtain ⟨s₂, hrest, hl'⟩ := ih hrest
      exact ⟨s₂, (bind_ok hr).trans hrest, hl'⟩

theorem registerEach_append_of {l' : List Registration} {s₁ : Session}
    (h : registerEach l s = some (.ok (), s₁))
    (h' : registerEach l' s₁ = some (.ok (), s')) :
    registerEach (l ++ l') s = some (.ok (), s') := by
  induction l generalizing s with
  | nil =>
      cases h
      exact h'
  | cons r rest ih =>
      obtain ⟨given, s₂, hr, hrest⟩ := of_bind_ok h
      exact (bind_ok hr).trans (ih hrest)

/-- Other objects that are registered on the second side are registered on
    the first. -/
theorem registerEach_unseen (hst : Unseen k g aside s t)
    (ho : ∀ r ∈ l, r.object.Keeps k ∧ r.object.Plain aside)
    (hd : ∀ r ∈ l, r.label ≠ g.name ∧ r.serial ≠ g.serial)
    (h : registerEach l t = some (.ok (), t')) :
    ∃ s', registerEach l s = some (.ok (), s') ∧ Unseen k g aside s' t' := by
  induction l generalizing s t with
  | nil =>
      cases h
      exact ⟨s, rfl, hst⟩
  | cons r rest ih =>
      obtain ⟨given, t₁, hr, hrest⟩ := of_bind_ok h
      -- the first is registered on both sides, which leaves them related
      obtain ⟨hkeeps, hplain⟩ := ho r List.mem_cons_self
      obtain ⟨hlabel, hserial⟩ := hd r List.mem_cons_self
      obtain ⟨result, s₁, t₁', hs, ht, hst₁⟩ :=
        registerExtension_unseen hst hkeeps hplain hserial hlabel
      rw [hr] at ht
      cases ht
      obtain ⟨s', hs', hst'⟩ := ih hst₁
        (fun r hr => ho r (List.mem_cons_of_mem _ hr))
        (fun r hr => hd r (List.mem_cons_of_mem _ hr)) hrest
      exact ⟨s', (bind_ok hs).trans hs', hst'⟩

/-- The object itself is registered on the second side alone. -/
theorem registerExtension_ghost {x : Registration} {given : String}
    (hs : Unseen k ⟨x.label, x.serial⟩ aside s s)
    (hx : x.object.Unnoticed aside)
    (h : registerExtension x.object x.serial x.given s =
      some (.ok given, t)) :
    Unseen k ⟨x.label, x.serial⟩ aside s t := by
  obtain ⟨e, he, rfl⟩ := of_registerExtension h
  have hwithout : Extensions.Without ⟨x.label, x.serial⟩ s.extensions
      (s.extensions.register x.object x.label x.serial
        ((givenName? x.given).getD x.object.name)).2 :=
    hs.extensions.register_ghost
  have hsilent : ∀ hook, ∀ i ∈ (s.extensions.register x.object x.label
      x.serial ((givenName? x.given).getD x.object.name)).2.chain hook,
      i ∈ s.extensions.chain hook ∨ i.member.Silent aside := by
    intro hook i hi
    rcases Extensions.mem_chain_register hi with hi |
      ⟨entry, hmarked, _, rfl⟩
    · exact Or.inl hi
    · exact Or.inr (hx.silent entry hmarked)
  rw [he] at hwithout hsilent
  rw [hx.scan]
  refine { hs with
    core := rfl
    memory := .refl s
    extensions := hwithout
    ghost := ?_
    observers := ?_
    trace := rfl }
  · intro hook i hi hghost
    rcases hsilent hook i hi with hi | hi
    · exact hs.ghost hook i hi hghost
    · exact hi
  · intro i hi
    rcases hsilent "on_error" i hi with hi | hi
    · exact hs.observers i hi
    · exact hi.quiet

/-- Where nothing is registered, there is no difference. -/
theorem unseen_of_undisturbed {x : Registration} {others : List Registration}
    (h : Undisturbed k aside x others s) :
    Unseen k ⟨x.label, x.serial⟩ aside s s where
  core := rfl
  memory := .refl s
  keeps := h.keeps
  extensions := h.bare ▸ .empty
  ghost := by
    rw [h.bare]
    exact fun _ _ hi => nomatch hi
  observers := by
    rw [h.bare]
    exact fun _ hi => nomatch hi
  trace := rfl
  unread := h.unread
  serial := h.made
  fresh := h.fresh
  plain := h.plain

/-! ## Commands -/

/-- Whatever is asked of a shell, something comes of it. -/
theorem obey_returns (depth : Nat) (c : Command) (s : Session) :
    ∃ r s', obey (executeWithin depth) c s = some (r, s') := by
  have hx := executeWithin_keeps (k := .anything) depth
  have hs := s.keeps_anything
  cases c with
  | line v =>
      obtain ⟨r, s', he, _⟩ := runLine_behaves hx hs (.all hx hs) v s .refl
      exact ⟨r, s', he⟩
  | run =>
      have hreads : Conduct.anything.Reads := ⟨.run, trivial, rfl⟩
      obtain ⟨r, s', he, _⟩ :=
        (session_behaves hx hs hreads).giving (fun _ => Value.null) s .refl
      exact ⟨r, s', he⟩

theorem obey_agree (hk : ¬ k.asks .report) (depth : Nat) (c : Command) :
    Agree (Unseen k g aside) (obey (executeWithin depth) c)
      (obey (executeWithin depth) c) := by
  have ha : Accord k (Unseen k g aside) _ _ := unseen_accord hk depth
  cases c with
  | line v => exact runLine_agree Unseen.free ha v
  | run => exact .giving (session_agree Unseen.free ha Unseen.mobile) _

theorem transcript_cons {execute : Executor} {c : Command}
    {rest : List Command} {result : Except Fault Value}
    (h : obey execute c s = some (result, s')) :
    transcript execute (c :: rest) s =
      (transcript execute rest s').map ((result, s') :: ·) := by
  rw [transcript, h]
  rfl

/-- Step by step, what the first side comes to the second comes to. -/
theorem transcript_unseen (hk : ¬ k.asks .report) (depth : Nat)
    (commands : List Command) (h : Unseen k g aside s t) :
    ∃ l l', transcript (executeWithin depth) commands s = some l ∧
      transcript (executeWithin depth) commands t = some l' ∧
      List.Forall₂ (Same aside) l l' := by
  induction commands generalizing s t with
  | nil => exact ⟨[], [], rfl, rfl, .nil⟩
  | cons c rest ih =>
      obtain ⟨r, s₁, hs⟩ := obey_returns depth c s
      obtain ⟨t₁, ht, h₁⟩ := obey_agree hk depth c s t h r s₁ hs
      obtain ⟨l, l', hl, hl', hsame⟩ := ih h₁
      refine ⟨(r, s₁) :: l, (r, t₁) :: l', ?_, ?_, .cons ?_ hsame⟩
      · rw [transcript_cons hs, hl, Option.map_some]
      · rw [transcript_cons ht, hl', Option.map_some]
      · exact ⟨rfl, h₁.core, h₁.memory, h₁.trace⟩

/-- A shell with an unnoticed object among its extensions, wherever it was
    registered, and the shell without it: both can be made, and whatever is
    asked of them, line by line and session by session, comes to the same
    and leaves the same. -/
theorem transcript_unnoticed {x : Registration}
    {before after : List Registration}
    (h : Undisturbed k aside x (before ++ after) s)
    (hx : registerEach (before ++ x :: after) s = some (.ok (), t)) :
    ∃ s', registerEach (before ++ after) s = some (.ok (), s') ∧
      ∀ depth commands, ∃ l l',
        transcript (executeWithin depth) commands s' = some l ∧
        transcript (executeWithin depth) commands t = some l' ∧
        List.Forall₂ (Same aside) l l' := by
  have hdistinct : ∀ r ∈ before ++ after,
      r.label ≠ x.label ∧ r.serial ≠ x.serial := by
    have hpairs := (distinct_of_registerEach hx).2
    rw [List.pairwise_middle] at hpairs
    · exact (List.pairwise_cons.mp hpairs).1
    · rintro q r ⟨hlabel, hserial⟩
      exact ⟨hlabel.symm, hserial.symm⟩
  obtain ⟨s₁, hbefore, hrest⟩ := registerEach_append hx
  obtain ⟨given, t₁, hself, hafter⟩ := of_bind_ok hrest
  -- up to the object both shells are the same
  obtain ⟨s₁', hbefore', hst⟩ := registerEach_unseen
    (unseen_of_undisturbed h)
    (fun r hr => h.others r (List.mem_append_left _ hr))
    (fun r hr => hdistinct r (List.mem_append_left _ hr)) hbefore
  obtain rfl : s₁' = s₁ := by
    rw [hbefore] at hbefore'
    cases hbefore'
    rfl
  obtain ⟨s', hafter', hst'⟩ := registerEach_unseen
    (registerExtension_ghost hst h.unnoticed hself)
    (fun r hr => h.others r (List.mem_append_right _ hr))
    (fun r hr => hdistinct r (List.mem_append_right _ hr)) hafter
  exact ⟨s', registerEach_append_of hbefore hafter',
    fun depth commands => transcript_unseen h.report depth commands hst'⟩

end Run

/-! ## An object that fails, between two others -/

/-- Rewrites a line: it ends in a text. -/
def markingHook (mark : HookMark) (text : String) : Class :=
  hookClass "precmd" mark fun call =>
    match OrderedMap.find "line" call.params with
    | some (.text line) => .ok (.text (line ++ text))
    | _ => .ok .null

/-- Fails before every line. -/
def failingHook : Class :=
  hookClass "precmd" ⟨false, false, none, []⟩ fun _ =>
    .error (.raised "ValueError" "x")

/-- Is told of faults and does nothing. -/
def observingHook : Class :=
  hookClass "on_error" ⟨false, false, none, ["stage"]⟩ fun _ => .ok .null

/-- Counts the faults that it is told of. -/
def countingHook : Class :=
  keepingHook "on_error" ⟨false, false, none, ["stage"]⟩ "faults"
    fun _ count =>
      match count with
      | .int n => .int (n + 1)
      | _ => .int 1

/-- How many they were is put aside. -/
def Aside.count : Aside := ⟨fun _ => false, fun name => name == "faults"⟩

/-- Code that registers nothing, does not ask what is registered, and does
    not read how many faults there were. -/
def Conduct.settled : Conduct where
  asks r := r.isRegistering = false ∧
    ∀ name, r = .kept name → Aside.count.names name = false
  raises _ := True
  hears _ := True
  plain _ := trivial
  causes _ _ := trivial

/-- A shell whose members answer with the first value they are given. -/
def echoShell : Class :=
  ⟨1, "Echo", .ofList (["precmd", "postcmd", "default", "emptycommand",
    "format_error"].map fun name =>
      (name, BaseShell.member [] true none fun args =>
        .done (BaseShell.firstOf args))), []⟩

/-- The shell before anything is registered; three objects were made. -/
def echoSession : Session :=
  { Session.bare ⟨default, [], []⟩ default default with
    shell := some echoShell
    serial := 3 }

theorem keeps_echoSession : echoSession.Keeps .settled := by
  have hworld : World.Keeps .settled ⟨default, [], []⟩ :=
    fun _ h => nomatch h
  have hcatalogue : Catalogue.Keeps .settled default := OrderedMap.All.empty
  refine { Session.keeps_bare hworld hcatalogue default true with
    shell := ?_ }
  intro c hc
  cases hc
  refine Class.keeps_of_lineage ?_
  intro c hc
  obtain rfl := List.mem_singleton.mp hc
  refine OrderedMap.All.ofList ?_
  intro entry hentry
  obtain ⟨name, _, rfl⟩ := List.mem_map.mp hentry
  exact fun _ => trivial

/-- The object that fails, with its number. -/
def failingRegistration : Registration := ⟨failingHook, 1, none⟩

/-- One object before it, and one after it. -/
def othersBefore : List Registration :=
  [⟨markingHook ⟨true, false, none, ["line"]⟩ "!", 0, none⟩]

def othersAfter : List Registration := [⟨countingHook, 2, some "o"⟩]

theorem undisturbed_echoSession :
    Undisturbed .settled .count failingRegistration
      (othersBefore ++ othersAfter) echoSession where
  keeps := keeps_echoSession
  bare := rfl
  unnoticed := unnoticed_hookObject (by decide) (quiet_hookClass fun _ => rfl)
  others := by
    intro r hr
    rcases List.mem_cons.mp hr with rfl | hr
    · exact ⟨keeps_hookClass fun _ _ _ => trivial,
        plain_hookObject (fun _ => rfl) fun h => absurd h (by decide)⟩
    · obtain rfl := List.mem_singleton.mp hr
      exact ⟨keeps_hookObject fun _ =>
          Program.keeps_answer ⟨rfl, fun _ h => nomatch h⟩ rfl,
        plain_hookObject (fun _ => rfl) fun _ =>
          (silent_keepingHook (by decide)).quiet⟩
  made := by decide
  report h := Bool.noConfusion h.1
  unread name h := h.2 name rfl
  fresh _ _ _ h := Bool.noConfusion h.1
  plain _ _ _ _ h := Bool.noConfusion h.1

namespace Run

variable {s : Session} {l : List Registration}

/-- Can the objects be registered, one after the other? -/
def isRegistered (l : List Registration) (s : Session) : Bool :=
  match registerEach l s with
  | some (.ok (), _) => true
  | _ => false

theorem of_isRegistered (h : isRegistered l s = true) :
    ∃ s', registerEach l s = some (.ok (), s') := by
  rw [isRegistered] at h
  split at h
  · rename_i s' hs
    exact ⟨s', hs⟩
  · cases h

/-- An object that fails before every line is not noticed between two
    others, one of which counts the faults. -/
theorem transcript_unnoticed_between :
    ∃ s s', registerEach (othersBefore ++ failingRegistration :: othersAfter)
        echoSession = some (.ok (), s) ∧
      registerEach (othersBefore ++ othersAfter) echoSession =
        some (.ok (), s') ∧
      ∀ depth commands, ∃ l l',
        transcript (executeWithin depth) commands s' = some l ∧
        transcript (executeWithin depth) commands s = some l' ∧
        List.Forall₂ (Same .count) l l' := by
  obtain ⟨s, hs⟩ := of_isRegistered (by decide +kernel : isRegistered
    (othersBefore ++ failingRegistration :: othersAfter) echoSession = true)
  obtain ⟨s', hs', hsame⟩ := transcript_unnoticed undisturbed_echoSession hs
  exact ⟨s, s', hs, hs', hsame⟩

end Run

/-! ## What it takes to go unnoticed -/

/-- Answers nothing before every line. -/
def silentHook : Class :=
  hookClass "precmd" ⟨false, false, none, []⟩ fun _ => .ok .null

/-- Rewrites a line, and asks to be first and last. -/
def firstAndLastHook : Class :=
  markingHook ⟨true, true, none, ["line"]⟩ "t"

/-- Rewrites a line, and asks for neither. -/
def plainHook : Class :=
  markingHook ⟨false, false, none, ["line"]⟩ "b"

/-- Interrupts when it is told of a fault. -/
def interruptingHook : Class :=
  hookClass "on_error" ⟨false, false, none, []⟩ fun _ =>
    .error (.interrupt "stop")

/-- A shell with a command that registers an object under a name, and one
    that asks what is registered. -/
def askingShell : Class :=
  ⟨1, "Asking", .ofList
    [("do_add", BaseShell.member [] true none fun _ =>
        .answer (.register "Silent" (some "x") false)),
      ("do_who", BaseShell.member [] true none fun _ =>
        .ask .report fun v => BaseShell.displaying "" v "")],
    [BaseShell.shellClass]⟩

def askingSession : Session :=
  { Session.bare ⟨default, [], []⟩ default
      ⟨.ofList [("Silent", silentHook)], 1⟩ with
    shell := some askingShell
    registry := .discover [askingShell]
    serial := 3 }

/-- A shell with a command that tells how many faults were counted. -/
def countingShell : Class :=
  ⟨1, "Counting", .ofList
    [("do_faults", BaseShell.member [] true none fun _ =>
        .ask (.kept "faults") fun v => BaseShell.displaying "" v "")],
    [BaseShell.shellClass]⟩

def countingSession : Session :=
  { Session.bare ⟨default, [], []⟩ default default with
    shell := some countingShell
    registry := .discover [countingShell]
    serial := 3 }

namespace Run

/-- The text that a line comes to in a shell with some objects, or the kind
    of fault that comes out of it. -/
def outcomeIn (s : Session) (l : List Registration) (line : String) :
    Option String :=
  match registerEach l s with
  | some (.ok (), s) =>
      match runLine (executeWithin 9) (.text line) s with
      | some (.ok v, _) => v.asText?
      | some (.error f, _) => some f.kindName
      | none => none
  | _ => none

def outcome (l : List Registration) (line : String) : Option String :=
  outcomeIn askingSession l line

/-- How an object is noticed that handles nothing and whose hooks are
    silent, where no other object acts on the shell:

    * an object that asks to be first and last at once stands behind one
      that asks for nothing if they are all there is, and before it if an
      unnoticed object stands between them;
    * where the name is taken by an unnoticed object, code registers
      nothing else under it;
    * an observer that raises a signal raises it when it is told of the
      faults of an unnoticed object;
    * a report of what is registered names it;
    * an observer counts its faults as well, and a command can tell how
      many they were. -/
theorem extension_noticed :
    (∀ c ∈ [silentHook, failingHook], c.Unnoticed .nothing) ∧
    (∀ c ∈ [firstAndLastHook, plainHook, interruptingHook, countingHook],
      ∀ entry ∈ Extensions.markedMembers c, ∀ depth call s r s',
        callBound (executeWithin depth) (c.bind entry.1) call s =
          some (r, s') → { s' with memory := s.memory } = s) ∧
    (outcome [⟨firstAndLastHook, 1, none⟩, ⟨plainHook, 2, none⟩] "l" =
        some "lbt: Unknown command" ∧
      outcome [⟨silentHook, 0, none⟩, ⟨firstAndLastHook, 1, none⟩,
        ⟨plainHook, 2, none⟩] "l" = some "ltb: Unknown command") ∧
    (outcome [] "add" = some "x" ∧
      outcome [⟨silentHook, 0, some "x"⟩] "add" = some "Error: add: ") ∧
    (outcome [⟨interruptingHook, 1, none⟩] "l" =
        some "l: Unknown command" ∧
      outcome [⟨interruptingHook, 1, none⟩, ⟨failingHook, 0, none⟩] "l" =
        some "KeyboardInterrupt") ∧
    (outcome [] "who" = some "\x7b\x7d" ∧
      outcome [⟨silentHook, 0, none⟩] "who" =
        some "\x7b'precmd': ['<ext0>']\x7d") ∧
    (outcomeIn countingSession [⟨countingHook, 1, none⟩] "faults" =
        some "None" ∧
      outcomeIn countingSession
          [⟨countingHook, 1, none⟩, ⟨failingHook, 0, none⟩] "faults" =
        some "1") := by
  refine ⟨?_, ?_, by decide +kernel, by decide +kernel, by decide +kernel,
    by decide +kernel, by decide +kernel⟩
  · intro c hc
    rcases List.mem_cons.mp hc with rfl | hc
    · exact unnoticed_hookObject (by decide) (quiet_hookClass fun _ => rfl)
    · obtain rfl := List.mem_singleton.mp hc
      exact unnoticed_hookObject (by decide) (quiet_hookClass fun _ => rfl)
  · have hends : ∀ hook mark ends, ∀ entry ∈ Extensions.markedMembers
        (hookClass hook mark ends), ∀ depth call s r s',
        callBound (executeWithin depth)
          ((hookClass hook mark ends).bind entry.1) call s = some (r, s') →
          { s' with memory := s.memory } = s := by
      intro hook mark ends entry hentry depth call s r s' he
      rw [markedMembers_hookClass] at hentry
      obtain rfl := List.mem_singleton.mp hentry
      obtain ⟨_, hcall, _⟩ := callBound_hookClass depth call s
      rw [hcall] at he
      cases he
      rfl
    intro c hc entry hentry depth call s r s' he
    simp only [List.mem_cons, List.not_mem_nil, or_false] at hc
    rcases hc with rfl | rfl | rfl | rfl
    · exact hends _ _ _ entry hentry depth call s r s' he
    · exact hends _ _ _ entry hentry depth call s r s' he
    · exact hends _ _ _ entry hentry depth call s r s' he
    · rw [countingHook, keepingHook, markedMembers_hookObject] at hentry
      obtain rfl := List.mem_singleton.mp hentry
      rcases callBound_keepingHook depth call s with hcall | hcall
      · cases hcall.symm.trans he
        rfl
      · cases hcall.symm.trans he
        rfl

end Run

end LineShell
