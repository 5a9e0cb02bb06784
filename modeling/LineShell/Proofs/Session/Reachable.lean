import LineShell.Proofs.Session.Requests

/-! # Reachable sessions — how a shell comes to be, and what follows

    A session is *reached* if a shell was made in it, from parts that keep
    a conduct, and changes came after that, such as running code makes.
    Every such session keeps the conduct: making a shell brings nothing
    together but its parts.

    The members of the base class are code like any other; they keep every
    conduct that may ask what they ask. -/

namespace LineShell

variable {k : Conduct}

/-! ## Parts of a shell -/

/-- A prompt that is given to a shell. -/
def GivenPrompt.Keeps (k : Conduct) : GivenPrompt → Prop
  | .plain _ => True
  | .code make _ => ∀ args, (make args).Keeps k

/-- What a shell is made from; without a reader the keyboard is read. -/
structure ShellPlan.Keeps (k : Conduct) (plan : ShellPlan) : Prop where
  shellClass : plan.shellClass.Keeps k
  source : ((plan.reader.map Reader.source).getD .keyboard).Keeps k
  prompt : ∀ p, plan.prompt = some p → p.Keeps k
  extensions : ∀ c ∈ plan.extensions, c.Keeps k

/-- A session that a shell was made in, and anything that became of it. -/
inductive Session.Reached (k : Conduct) : Session → Prop where
  | started {depth : Nat} {plan : ShellPlan} {world : World}
      {files : FileTree} {catalogue : Catalogue} {takesBack : Bool}
      {s : Session}
      (hp : plan.Keeps k) (hw : world.Keeps k) (hc : catalogue.Keeps k)
      (h : Run.start (Run.executeWithin depth) plan
        (.bare world files catalogue takesBack) = some (.ok (), s)) :
      Reached k s
  | changed {s s' : Session} (hs : Reached k s) (h : Change k True s s') :
      Reached k s'

theorem Session.keeps_bare {world : World} {catalogue : Catalogue}
    (hw : world.Keeps k) (hc : catalogue.Keeps k) (files : FileTree)
    (takesBack : Bool) :
    (Session.bare world files catalogue takesBack).Keeps k where
  world := hw
  catalogue := hc
  shell := by
    intro c h
    cases h
  extensions := OrderedMap.All.empty
  registry := .empty
  prompt := trivial
  source := by
    intro f h
    cases h

/-! ## Making a shell -/

namespace Run

variable {execute : Executor} {s s' : Session} {α β : Type}

/-- What a step that behaves leaves behind keeps the conduct. -/
theorem Behaves.keeps {V : α → Prop} {F : Fault → Prop} {step : Run α}
    (h : Behaves k s V F step) (hs : s.Keeps k) {a : α}
    (he : step s = some (.ok a, s')) : s'.Keeps k ∧ V a := by
  obtain ⟨ht, ha⟩ := h.of_eq .refl he
  exact ⟨ht.keeps hs, ha⟩

theorem firstPrompt_behaves (hx : execute.Keeps k) (hs : s.Keeps k)
    {c : Class} (hc : c.Keeps k) {given : Option GivenPrompt}
    (hg : ∀ p, given = some p → p.Keeps k) :
    Behaves k s (Prompt.Keeps k) k.raises
      (firstPrompt execute c given) := by
  have hstandard : Behaves k s (Prompt.Keeps k) k.raises
      (firstPrompt.standard execute c) := by
    refine .bind (callBound_behaves hx hs (hc "default_prompt") _) ?_
    intro v _
    refine .bind identity_behaves ?_
    intro me _
    exact .ofAnswer (Prompt.result_ofPlain me _ _)
  simp only [firstPrompt]
  split
  · rename_i code bound
    have hcode : (GivenPrompt.code code bound).Keeps k := hg _ rfl
    exact .ofAnswer (Prompt.result_ofCode hcode bound [])
  · exact hstandard
  · refine .bind identity_behaves ?_
    intro me _
    exact .ofAnswer (Prompt.result_ofPlain me _ _)
  · exact hstandard

theorem registerExtension_keeps {c : Class} (hc : c.Keeps k) {serial : Nat}
    {name : Option String} {r : Except Fault String} (hs : s.Keeps k)
    (h : registerExtension c serial name s = some (r, s')) :
    s'.Keeps k := by
  have hextensions := hs.extensions.register hc
    ((givenName? name).getD (serialName serial)) serial
    ((givenName? name).getD c.name)
  rcases registerExtension_cases c serial name s with
    ⟨f, e, hr, hend⟩ | ⟨e, hr, hend⟩
  · rw [hr] at hextensions
    rw [hend] at h
    cases h
    rw [Session.refused]
    split
    · exact hs
    · exact { hs with extensions := hextensions }
  · rw [hr] at hextensions
    rw [hend] at h
    cases h
    exact { hs with
      extensions := hextensions
      registry := hs.registry.scan hc _ }

theorem registerAll_keeps {classes : List Class}
    (hc : ∀ c ∈ classes, c.Keeps k) {first : Nat} (hs : s.Keeps k)
    (h : registerAll first classes s = some (.ok (), s')) : s'.Keeps k := by
  induction classes generalizing first s with
  | nil =>
      cases h
      exact hs
  | cons c rest ih =>
      obtain ⟨_, s₁, hregister, h⟩ := of_bind_ok h
      refine ih ?_ ?_ h
      · intro d hd
        exact hc d (List.mem_cons_of_mem _ hd)
      · exact registerExtension_keeps (hc c List.mem_cons_self) hs hregister

end Run

theorem ShellPlan.Keeps.givenPrompt {plan : ShellPlan}
    (hp : plan.Keeps k) {p : GivenPrompt} (h : plan.givenPrompt = some p) :
    p.Keeps k := by
  rw [ShellPlan.givenPrompt] at h
  split at h
  · rename_i q hq
    cases h
    exact hp.prompt p hq
  · obtain ⟨v, _, rfl⟩ := Option.map_eq_some_iff.mp h
    exact True.intro

namespace Run

variable {execute : Executor} {s s' : Session}

/-- The reader of a shell has the source that the plan says. -/
theorem firstReader_behaves (given : Option Reader) (o : Options)
    (hg : ((given.map Reader.source).getD .keyboard).Keeps k) :
    Behaves k s (fun r : Reader => r.source.Keeps k) Whatever
      (firstReader given o) := by
  cases given with
  | some reader => exact .pure hg
  | none =>
      refine .get_bind ?_
      intro s _
      refine recorded_behaves ?_
      rw [Reader.build]
      simp only
      cases (History.load s.files s.world.homes o.histfile).1 with
      | ok entries => exact hg
      | error f => exact True.intro

/-- A shell that is made from parts that keep a conduct keeps it. -/
theorem start_keeps (hx : execute.Keeps k) {plan : ShellPlan}
    (hp : plan.Keeps k) (hs : s.Keeps k)
    (h : start execute plan s = some (.ok (), s')) : s'.Keeps k := by
  obtain ⟨o, s₁, ho, h⟩ := of_bind_ok h
  have h₁ : s₁.Keeps k := by
    have hcheck : Behaves k s Whatever Whatever (checkOptions plan.args) := by
      rw [checkOptions]
      split
      · exact .pure True.intro
      · exact .throw True.intro
    exact (hcheck.keeps hs ho).1
  -- settings and files are read; no code comes in by them
  obtain ⟨config, s₂, hconfig, h⟩ := of_bind_ok h
  have h₂ : s₂.Keeps k := by
    have hload : Behaves k s₁ Whatever Whatever (loadConfig o.rcfiles) := by
      refine .get_bind ?_
      intro s _
      refine recorded_behaves ?_
      cases (Config.load s.files s.world.homes o.rcfiles).1 <;> exact True.intro
    exact (hload.keeps h₁ hconfig).1
  -- from here on the registry holds the members of the class
  obtain ⟨_, s₃, hset, h⟩ := of_bind_ok h
  have h₃ : s₃.Keeps k := by
    cases hset
    exact { h₂ with registry := .scan .empty hp.shellClass _ }
  obtain ⟨prompt, s₄, hprompt, h⟩ := of_bind_ok h
  obtain ⟨h₄, hkept⟩ := (firstPrompt_behaves hx h₃ hp.shellClass
    fun p hg => hp.givenPrompt hg).keeps h₃ hprompt
  obtain ⟨_, s₅, hset, h⟩ := of_bind_ok h
  have h₅ : s₅.Keeps k := by
    cases hset
    exact { h₄ with prompt := hkept }
  obtain ⟨reader, s₆, hreader, h⟩ := of_bind_ok h
  obtain ⟨h₆, hsource⟩ :=
    (firstReader_behaves plan.reader o hp.source).keeps h₅ hreader
  obtain ⟨_, s₇, hset, h⟩ := of_bind_ok h
  have h₇ : s₇.Keeps k := by
    cases hset
    exact { h₆ with source := hsource }
  -- the extensions are registered one after the other, and the class last
  obtain ⟨_, s₈, hregister, h⟩ := of_bind_ok h
  have h₈ := registerAll_keeps hp.extensions h₇ hregister
  cases h
  refine { h₈ with shell := ?_ }
  intro c hc
  cases hc
  exact hp.shellClass

end Run

/-- A shell that was made is of the class that the plan says. -/
theorem Run.start_shell {execute : Executor} {plan : ShellPlan}
    {s s' : Session} (h : start execute plan s = some (.ok (), s')) :
    s'.shell = some plan.shellClass := by
  -- the class is set by the last of the nine steps
  iterate 8 obtain ⟨_, _, _, h⟩ := of_bind_ok h
  cases h
  rfl

/-- Whatever became of a shell, its code keeps the conduct of its parts. -/
theorem Session.Reached.keeps {s : Session} (h : s.Reached k) : s.Keeps k := by
  induction h with
  | started hp hw hc h =>
      exact Run.start_keeps (Run.executeWithin_keeps _) hp
        (Session.keeps_bare hw hc _ _) h
  | changed _ h ih => exact h.keeps ih

/-- A shell that is made where there is nothing else is reached. -/
theorem Session.Reached.of_start {depth : Nat} {plan : ShellPlan}
    {s : Session} (hp : plan.Keeps k)
    (h : Run.start (Run.executeWithin depth) plan
      (.bare default default default) = some (.ok (), s)) :
    s.Reached k := by
  have hworld : World.Keeps k default := by
    intro entry h
    cases h
  have hempty : Catalogue.Keeps k default := OrderedMap.All.empty
  exact .started hp hworld hempty h

/-- What comes of a reached session is reached. -/
theorem Session.Reached.steps {reads : Prop} {s s' : Session}
    (hs : s.Reached k) (h : Steps k reads s s') : s'.Reached k := by
  induction h with
  | refl => exact hs
  | tail _ hc ih => exact ih.changed (hc.mono fun _ => trivial)

/-- So is what is left after code ran, whatever it ended in. -/
theorem Session.Reached.ran {s s' : Session} (hs : s.Reached k)
    {depth : Nat} {p : Program} (hp : p.Keeps k) {r : Answer}
    (h : Run.executeWithin depth .outside p s = some (r, s')) :
    s'.Reached k := by
  have hx := Run.executeWithin_keeps (k := k) depth
  have hb := hx s hs.keeps .outside p Frame.keeps_outside hp
  exact hs.steps (hb.of_eq .refl h).1

/-! ## The base class -/

namespace BaseShell

variable (hask : ∀ r, r.listens = false → r.recalls = false → k.asks r)
include hask

theorem keeps_displaying (before : String) (v : Value) (after : String) :
    (displaying before v after).Keeps k :=
  Program.keeps_ask (hask _ rfl rfl) rfl fun _ => True.intro

theorem keeps_defaultPrompt : defaultPrompt.Keeps k :=
  Program.keeps_ask (hask _ rfl rfl) rfl fun _ => keeps_displaying hask _ _ _

theorem keeps_versionLine : versionLine.Keeps k := by
  refine Program.keeps_ask (hask _ rfl rfl) rfl ?_
  intro name
  exact Program.keeps_ask (hask _ rfl rfl) rfl fun _ =>
    keeps_displaying hask _ _ _

theorem keeps_historyFrom (start : List String → Nat) :
    (historyFrom start).Keeps k := by
  refine Program.keeps_ask (hask _ rfl rfl) rfl ?_
  intro v
  generalize (v.items?.getD []).filterMap Value.asText? = entries
  dsimp only
  cases History.listing entries (start entries) with
  | some text => exact True.intro
  | none => exact True.intro

theorem keeps_history (args : List Value) : (history args).Keeps k := by
  cases args with
  | nil =>
      rw [history]
      exact keeps_historyFrom hask _
  | cons count rest =>
      rw [history]
      split
      · refine Program.keeps_ask (hask _ rfl rfl) rfl ?_
        intro kind
        exact k.plain rfl
      · split
        · split
          · exact keeps_historyFrom hask _
          · exact k.plain rfl
        · exact k.plain rfl

theorem keeps_escape (args : List Value) : (escape args).Keeps k := by
  rw [escape]
  split
  · exact True.intro
  · exact Program.keeps_answer (hask _ rfl rfl) rfl

/-- The members of the base class keep every conduct that may ask
    anything: they read no line, run no session, and keep nothing in
    memory. -/
theorem keeps_members : ∀ entry ∈ members, entry.2.Keeps k := by
  intro entry h
  simp only [members, List.mem_cons, List.not_mem_nil, or_false] at h
  rcases h with rfl | rfl | rfl | rfl | rfl | rfl | rfl | rfl | rfl | rfl |
    rfl | rfl | rfl | rfl | rfl | rfl | rfl | rfl | rfl
  -- each ends at once, asks for one thing, or is one of the longer ones
  all_goals first
    | exact True.intro
    | intro call; exact True.intro
    | intro call; exact keeps_displaying hask _ _ _
    | intro call; exact Program.keeps_answer (hask _ rfl rfl) rfl
    | intro call; exact keeps_escape hask _
    | intro call; exact keeps_history hask _
    | intro call; exact keeps_defaultPrompt hask
    | intro call; exact keeps_versionLine hask

omit hask in
/-- The base class by itself. -/
def shellClass : Class :=
  ⟨0, className, .ofList members, []⟩

/-- A class that derives from the base class alone keeps a conduct if its
    own members do. -/
theorem keeps_derived {number : Nat} {name : String}
    {own : List (String × Attribute)}
    (ho : ∀ entry ∈ own, entry.2.Keeps k) :
    Class.Keeps k ⟨number, name, .ofList own, [shellClass]⟩ := by
  refine Class.keeps_of_lineage ?_
  intro c hc
  rcases List.mem_cons.mp hc with rfl | hc
  · exact OrderedMap.All.ofList ho
  · obtain rfl := List.mem_singleton.mp hc
    exact OrderedMap.All.ofList (keeps_members hask)

end BaseShell

/-! ## Members that a class inherits from the base class -/

namespace Run

variable {s : Session} {depth : Nat} {c : Class}

/-- A member of the shell that is a function runs one call deeper. -/
theorem callShell_function (hc : s.shell = some c) {name : String}
    {f : Function} (hd : c.lookup? name = some (.function f))
    (args : List Value)
    (hm : f.signature.mismatch? name args.length = none) :
    ∃ rest, callShell (executeWithin (depth + 1)) name args s =
      perform (executeWithin depth) ⟨some c, name, rest, .ofArgs args⟩
        (f.body (.ofArgs args)) s := by
  obtain ⟨rest, hrest⟩ : ∃ rest, c.definitions name = .function f :: rest :=
    List.head?_eq_some_iff.mp hd
  have hcall : callShell (executeWithin (depth + 1)) name args s =
      callDefinitions (executeWithin (depth + 1)) (some c) name
        (.ofArgs args) (c.definitions name) s := by
    rw [callShell, get_bind_eq, hc]
    rfl
  have hmatch : f.signature.mismatch? name (Call.ofArgs args).args.length =
      none := hm
  refine ⟨rest, ?_⟩
  rw [hcall, hrest, callDefinitions, hmatch]
  rfl

/-- A member of the base class that takes any number of values. -/
theorem callShell_variadic (hc : s.shell = some c) {name : String}
    {doc : Option String} {body : List Value → Program}
    (hd : c.lookup? name = some (BaseShell.member [] true doc body))
    (args : List Value) :
    ∃ rest, callShell (executeWithin (depth + 1)) name args s =
      perform (executeWithin depth) ⟨some c, name, rest, .ofArgs args⟩
        (body args) s := by
  have htakes : (Signature.named BaseShell.className [] true).mismatch? name
      args.length = none := by
    simp [Signature.mismatch?]
  exact callShell_function hc hd args htakes

/-- A program that asks and ends with the answer comes to the answer. -/
theorem perform_answer {execute : Executor} {frame : Frame} {r : Request}
    {a : Answer} {s' : Session}
    (h : answer execute frame r s = some (a, s')) :
    perform execute frame (.answer r) s = some (a, s') := by
  refine (bind_ok (attempt_eq h)).trans ?_
  cases a <;> rfl

/-- The text that the base class makes of a fault. -/
theorem formatFault_inherited (depth : Nat) (hc : s.shell = some c)
    (hd : c.lookup? "format_error" =
      OrderedMap.find "format_error" BaseShell.members) (f : Fault) :
    formatFault (executeWithin (depth + 1)) f s =
      some (.ok (.text ("Error: " ++ f.message ++ "")), s) := by
  obtain ⟨rest, hcall⟩ := callShell_function hc hd [.fault f] rfl
  exact hcall

/-- The prompt that the base class makes of the name of the class. -/
theorem defaultPrompt_inherited (depth : Nat) (hc : s.shell = some c)
    (hd : c.lookup? "default_prompt" =
      OrderedMap.find "default_prompt" BaseShell.members) :
    callShell (executeWithin (depth + 1)) "default_prompt" [] s =
      some (.ok (.text ("" ++ c.name ++ "> ")), s) := by
  obtain ⟨rest, hcall⟩ := callShell_function hc hd [] rfl
  exact hcall

/-- Writing a text never fails. -/
theorem writeText_returns (text : String) (s : Session) :
    ∃ s', writeText text s = some (.ok (), s') := by
  rw [writeText, get_bind_eq]
  cases s.output.write text with
  | printed text => exact ⟨_, rfl⟩
  | paged text => exact ⟨_, rfl⟩

/-- The base class writes a value as a line. -/
theorem emit_inherited (depth : Nat) (hc : s.shell = some c)
    (hd : c.lookup? "emit" = OrderedMap.find "emit" BaseShell.members)
    (v : Value) :
    ∃ s', emit (executeWithin (depth + 1)) v s = some (.ok (), s') := by
  obtain ⟨rest, hcall⟩ := callShell_function hc hd [v] rfl
  obtain ⟨s', hwrite⟩ : ∃ s', writeLine v s = some (.ok (), s') :=
    writeText_returns _ s
  have hanswer : callShell (executeWithin (depth + 1)) "emit" [v] s =
      some (.ok .null, s') := by
    rw [hcall]
    have hline : answer (executeWithin depth)
        ⟨some c, "emit", rest, .ofArgs [v]⟩ (.writeLine v) s =
          some (.ok .null, s') := bind_ok hwrite
    exact bind_ok (attempt_eq hline)
  exact ⟨s', bind_ok hanswer⟩

end Run

end LineShell
