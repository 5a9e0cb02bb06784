import LineShell.Proofs.Class.Lineage
import LineShell.Proofs.Registry.Discovery

/-! # Inheritance — what a class keeps of the commands of an ancestor

    A class *overrides* a member of an ancestor when it finds the name in
    another class than the ancestor does (`Class.Overrides`); every other
    member is for the class what it is for the ancestor.  As lineages stand
    in lineages, no member is lost.  But the commands that a member serves
    come from its name, which an override keeps, and from the marks of what
    it resolves to, which go with what is overridden.  So of the commands
    of an ancestor a class can lose those marks that an override does not
    bear, and nothing else (`Registry.discover_inherits`).

    Where several members serve a command it goes to the last of them
    (`Registry.IsLast`), which need not be the override. -/

namespace LineShell

namespace Class

variable {b c d : Class} {name : String} {a a' : Attribute}

/-- A class finds a member of an ancestor in another class than the
    ancestor does. -/
structure Overrides (d b : Class) (name : String) (a : Attribute) :
    Prop where
  member : ∃ overridden, b.Resolves name overridden
  resolves : d.Resolves name a
  elsewhere : d.definer? name ≠ b.definer? name

/-- A name resolves to what the first class that defines it has it as. -/
theorem Resolves.definer? (h : c.Resolves name a) :
    ∃ k, c.definer? name = some k ∧ k.members.get? name = some a := by
  obtain ⟨hlineage, hnearer, hdefines⟩ := h
  refine ⟨_, ?_, hdefines⟩
  rw [Class.definer?, List.find?_eq_some_iff_append]
  refine ⟨?_, _, _, hlineage, fun other hother => ?_⟩
  · rw [OrderedMap.contains, hdefines]
    rfl
  · rw [OrderedMap.contains, hnearer other hother]
    rfl

/-- A member is the same for two classes unless one overrides it. -/
theorem Resolves.eq_or_overrides (hb : b.Resolves name a)
    (hd : d.Resolves name a') : a' = a ∨ d.Overrides b name a' := by
  by_cases hdefiner : d.definer? name = b.definer? name
  · obtain ⟨k, hk, hget⟩ := hb.definer?
    obtain ⟨k', hk', hget'⟩ := hd.definer?
    rw [hdefiner, hk] at hk'
    obtain rfl := Option.some.inj hk'
    exact .inl (Option.some.inj (hget'.symm.trans hget))
  · exact .inr ⟨⟨a, hb⟩, hd, hdefiner⟩

/-- A name that resolves for an ancestor resolves. -/
theorem Resolves.descend (hb : b.Resolves name a)
    (hlineage : b.lineage ⊆ d.lineage) : ∃ a', d.Resolves name a' := by
  obtain ⟨hsplit, -, hdefines⟩ := hb
  refine exists_resolves (hlineage ?_) hdefines
  rw [hsplit]
  exact List.mem_append_right _ List.mem_cons_self

/-- A class that stands in a catalogue that was made class by class. -/
def Made (d : Class) : Prop :=
  ∃ (name : String) (members : List (String × Attribute))
    (plans : List ClassPlan) (k : Catalogue) (title : String),
    (Catalogue.ofClass name members).makeAll plans = .ok k ∧
      k.find? title = some d

/-- A class that was made, one of its ancestors, and between them no member
    overridden by anything but a function. -/
structure Derives (d b : Class) : Prop where
  made : d.Made
  ancestor : b ∈ d.lineage
  functions : ∀ name a, d.Overrides b name a → a.isFunction = true

theorem Derives.subset (h : d.Derives b) : b.lineage ⊆ d.lineage := by
  obtain ⟨name, members, plans, k, title, hmake, hfind⟩ := h.made
  exact (Catalogue.lineage_sublist hmake hfind h.ancestor).subset

/-- A member of an ancestor stays, or is overridden by a function. -/
theorem Derives.resolves (h : d.Derives b) (hb : b.Resolves name a) :
    d.Resolves name a ∨ ∃ f, d.Overrides b name (.function f) := by
  obtain ⟨a', hd⟩ := hb.descend h.subset
  rcases hb.eq_or_overrides hd with rfl | hover
  · exact .inl hd
  · cases a' with
    | function f => exact .inr ⟨f, hover⟩
    | data v => cases h.functions name _ hover

/-- A class with one base, and with functions for members. -/
theorem derives_of_base (hmade : d.Made) (hbase : d.ancestors = b.lineage)
    (hown : ∀ pair ∈ d.members.toList, pair.2.isFunction = true) :
    d.Derives b := by
  refine ⟨hmade, ?_, fun name a hover => ?_⟩
  · rw [lineage, hbase]
    exact List.mem_cons_of_mem d List.mem_cons_self
  · cases hget : d.members.get? name with
    | some own =>
        have hfirst := resolves_iff.mpr (lookup?_of_members hget)
        obtain rfl := hover.resolves.unique hfirst
        exact hown _ (OrderedMap.mem_of_find hget)
    | none =>
        -- the name is looked up where the base looks it up
        refine absurd ?_ hover.elsewhere
        rw [Class.definer?, lineage, List.find?_cons_of_neg, hbase]
        · rfl
        · rw [OrderedMap.contains, hget]
          exact Bool.false_ne_true

end Class

namespace Registry

variable {b c d : Class} {name command : String} {a : Attribute}

/-! ## What members serve -/

/-- A member serves a command: by its name, or by a mark of what it
    resolves to. -/
inductive Serves (c : Class) (name command : String) : Prop where
  | named (hname : name = handlerMarker ++ command) (hne : command ≠ "")
  | marked {a : Attribute} (ha : c.Resolves name a)
      (hmark : command ∈ a.commands)

theorem mem_handled_iff (h : name ∈ scannedNames c) :
    command ∈ handled c name ↔ Serves c name command := by
  obtain ⟨a, ha⟩ := exists_resolves_of_mem h
  rw [handled, ha.markedCommands, List.mem_append, Option.mem_toList,
    afterMarker?_eq_some_iff]
  constructor
  · rintro (⟨hname, hne⟩ | hmark)
    · exact .named hname hne
    · exact .marked ha hmark
  · rintro (⟨hname, hne⟩ | ⟨ha', hmark⟩)
    · exact .inl ⟨hname, hne⟩
    · exact .inr (ha.unique ha' ▸ hmark)

theorem mem_dispatchable_iff_serves :
    command ∈ (discover [c]).dispatchable ↔
      ∃ name ∈ scannedNames c, Serves c name command := by
  rw [mem_dispatchable_discover]
  exact exists_congr fun name => and_congr_right mem_handled_iff

/-- The last member, in the order in which they count, that serves a
    command. -/
inductive IsLast (c : Class) (command name : String) : Prop where
  | intro {before after : List String}
      (hnames : scannedNames c = before ++ name :: after)
      (hserves : Serves c name command)
      (hlater : ∀ later ∈ after, ¬ Serves c later command) :
      IsLast c command name

/-- A command that is listed has a last member. -/
theorem exists_isLast (h : command ∈ (discover [c]).dispatchable) :
    ∃ name, IsLast c command name := by
  classical
  obtain ⟨member, hmember, hserves⟩ := mem_dispatchable_iff_serves.mp h
  -- the last of them is the first from the end
  have hsome : ((scannedNames c).reverse.find?
      fun name => decide (Serves c name command)).isSome = true :=
    List.find?_isSome.mpr
      ⟨member, List.mem_reverse.mpr hmember, decide_eq_true hserves⟩
  obtain ⟨name, hname⟩ := Option.isSome_iff_exists.mp hsome
  obtain ⟨hlast, after, before, hnames, hlater⟩ :=
    List.find?_eq_some_iff_append.mp hname
  have hforward : scannedNames c =
      before.reverse ++ name :: after.reverse := by
    rw [← List.reverse_inj, hnames]
    simp
  refine ⟨name, .intro hforward (of_decide_eq_true hlast) ?_⟩
  intro later hmem hserves
  have hnone := hlater later (List.mem_reverse.mp hmem)
  rw [decide_eq_true hserves] at hnone
  cases hnone

theorem IsLast.mem (h : IsLast c command name) : name ∈ scannedNames c := by
  obtain ⟨hnames, -, -⟩ := h
  rw [hnames]
  exact List.mem_append_right _ List.mem_cons_self

/-- A command goes to its last member, unless that is data without a
    value. -/
theorem IsLast.dispatch? (h : IsLast c command name)
    (ha : c.Resolves name a) :
    (discover [c]).dispatch? command =
      if a.isNull then none else some (c.bind name) := by
  have hmember := h.mem
  cases h with
  | @intro before after hnames hserves hlater =>
      refine dispatch?_discover hnames
        ((mem_handled_iff hmember).mpr hserves) ?_ ha
      intro later hmem hcommand
      have hcounts : later ∈ scannedNames c := by
        rw [hnames]
        exact List.mem_append_right _ (List.mem_cons_of_mem name hmem)
      exact hlater later hmem ((mem_handled_iff hcounts).mp hcommand)

/-! ## What is inherited -/

/-- What the registry of a class keeps of that of an ancestor. -/
structure Inherits (d b : Class) : Prop where
  /-- No member is lost. -/
  members : ∀ name ∈ scannedNames b, name ∈ scannedNames d
  /-- A member stays what it is, or is overridden by a function. -/
  resolves : ∀ name a, b.Resolves name a →
    d.Resolves name a ∨ ∃ f, d.Overrides b name (.function f)
  /-- A command that a member has from its name is kept. -/
  named : ∀ command, command ≠ "" →
    handlerMarker ++ command ∈ scannedNames b →
    command ∈ (discover [d]).dispatchable
  /-- A command is kept, or all members that serve it are overridden by
      functions that do not. -/
  listed : ∀ command ∈ (discover [b]).dispatchable,
    command ∈ (discover [d]).dispatchable ∨
      ∀ name ∈ scannedNames b, Serves b name command →
        ∃ f, d.Overrides b name (.function f) ∧ ¬ Serves d name command
  /-- A command goes to its last member, unless that is data without a
      value. -/
  dispatched : ∀ command ∈ (discover [d]).dispatchable, ∃ name a,
    IsLast d command name ∧ d.Resolves name a ∧
      (discover [d]).dispatch? command =
        if a.isNull then none else some (d.bind name)
  /-- If that is overridden, the command goes to the override. -/
  overridden : ∀ command name a, IsLast d command name →
    d.Overrides b name a →
    (discover [d]).dispatch? command = some (d.bind name) ∧
      (d.bind name).definitions.head? = some a
  /-- If that is a member of the ancestor that has a value, the command
      goes to it. -/
  inherited : ∀ command name a, IsLast d command name →
    b.Resolves name a → a.isNull = false →
    (discover [d]).dispatch? command = some (d.bind name)

theorem isNull_of_isFunction (h : a.isFunction = true) :
    a.isNull = false := by
  cases a with
  | function f => rfl
  | data v => cases h

theorem mem_scannedNames_of_subset (hlineage : b.lineage ⊆ d.lineage)
    (h : name ∈ scannedNames b) : name ∈ scannedNames d := by
  rw [scannedNames_eq, mem_scannedIn] at h ⊢
  obtain ⟨k, hk, hname⟩ := h
  exact ⟨k, List.mem_reverse.mpr (hlineage (List.mem_reverse.mp hk)), hname⟩

/-- **INHERITANCE**: a class that overrides the members of an ancestor by
    functions only has all its members, and all its commands but those
    that came from the marks of what is overridden and that no override
    bears.  What it lists goes to the last member that serves it: to the
    override if that is overridden, and to nothing only if it is data
    without a value, as it is for the ancestor if it is a member there. -/
theorem discover_inherits (h : d.Derives b) : Inherits d b where
  members := fun _ => mem_scannedNames_of_subset h.subset
  resolves := fun _ _ hb => h.resolves hb
  named := by
    intro command hne hmember
    exact mem_dispatchable_iff_serves.mpr
      ⟨_, mem_scannedNames_of_subset h.subset hmember, .named rfl hne⟩
  listed := by
    intro command hcommand
    by_cases hlisted : command ∈ (discover [d]).dispatchable
    · exact .inl hlisted
    · refine .inr fun name hname hserves => ?_
      have hmember := mem_scannedNames_of_subset h.subset hname
      have hnot : ¬ Serves d name command := fun hkept =>
        hlisted (mem_dispatchable_iff_serves.mpr ⟨name, hmember, hkept⟩)
      cases hserves with
      | named hmarker hne => exact absurd (.named hmarker hne) hnot
      | marked ha hmark =>
          rcases h.resolves ha with hkept | ⟨f, hover⟩
          · exact absurd (.marked hkept hmark) hnot
          · exact ⟨f, hover, hnot⟩
  dispatched := by
    intro command hcommand
    obtain ⟨name, hlast⟩ := exists_isLast hcommand
    obtain ⟨a, ha⟩ := exists_resolves_of_mem hlast.mem
    exact ⟨name, a, hlast, ha, hlast.dispatch? ha⟩
  overridden := by
    intro command name a hlast hover
    have hvalue := isNull_of_isFunction (h.functions name a hover)
    rw [hlast.dispatch? hover.resolves, hvalue]
    exact ⟨rfl, hover.resolves.head?⟩
  inherited := by
    intro command name a hlast hb hvalue
    rcases h.resolves hb with hkept | ⟨f, hover⟩
    · rw [hlast.dispatch? hkept, hvalue]
      rfl
    · rw [hlast.dispatch? hover.resolves]
      rfl

/-! ## Classes with one base -/

/-- A function with marks. -/
def marked (commands : List String) : Attribute :=
  .function { (default : Function) with commands := commands }

/-- A class without ancestors. -/
def root (members : List (String × Attribute)) : Class :=
  ⟨0, "A", .ofList members, []⟩

/-- A class with one base. -/
def below (base : Class) (name : String)
    (members : List (String × Attribute)) : Class :=
  ⟨base.number + 1, name, .ofList members, base.lineage⟩

/-- A class with one handler. -/
def handling : Class := root [("do_x", marked [])]

/-- A class that overrides the handler, and marks another member with its
    command. -/
def contending : Class :=
  below handling "B" [("do_x", marked []), ("other", marked ["x"])]

theorem contending_derives : contending.Derives handling :=
  Class.derives_of_base
    ⟨"A", [("do_x", marked [])],
      [⟨"B", ["A"], [("do_x", marked []), ("other", marked ["x"])]⟩],
      _, "B", rfl, rfl⟩ rfl (by decide)

theorem discover_inherits_contending :
    contending.Derives handling ∧ Inherits contending handling :=
  ⟨contending_derives, discover_inherits contending_derives⟩

/-- A class with a member that is marked, and not named, for a command. -/
def listing : Class := root [("list_all", marked ["ls"])]

/-- A class that overrides it by a function without a mark. -/
def relisting : Class := below listing "B" [("list_all", marked [])]

/-- A class that takes a handler away. -/
def muting : Class := below handling "B" [("do_x", .data .null)]

/-- A class that leaves it so. -/
def muted : Class := below muting "C" []

/-- Members are overridden by functions only, and yet

    * a command is lost with its mark;
    * a command goes to a member that is not the override of its member;
    * a command that is listed goes nowhere. -/
theorem inheritance_loses :
    (relisting.Derives listing ∧
      (discover [listing]).dispatchable = ["ls"] ∧
      (discover [relisting]).dispatchable = []) ∧
    (contending.Derives handling ∧
      contending.Overrides handling "do_x" (marked []) ∧
      (discover [handling]).dispatchable = ["x"] ∧
      ((discover [contending]).dispatch? "x").map Bound.name =
        some "other") ∧
    (muted.Derives muting ∧
      (discover [muting]).dispatchable = ["x"] ∧
      (discover [muted]).dispatchable = ["x"] ∧
      ((discover [muted]).dispatch? "x").isNone = true) := by
  have hlisting : relisting.Derives listing :=
    Class.derives_of_base
      ⟨"A", [("list_all", marked ["ls"])],
        [⟨"B", ["A"], [("list_all", marked [])]⟩], _, "B", rfl, rfl⟩ rfl
      (by decide)
  have hover : contending.Overrides handling "do_x" (marked []) :=
    ⟨⟨marked [], Class.resolves_iff.mpr rfl⟩, Class.resolves_iff.mpr rfl,
      fun h => absurd (congrArg (Option.map Class.number) h) (by decide)⟩
  have hmuted : muted.Derives muting :=
    Class.derives_of_base
      ⟨"A", [("do_x", marked [])],
        [⟨"B", ["A"], [("do_x", .data .null)]⟩, ⟨"C", ["B"], []⟩],
        _, "C", rfl, rfl⟩ rfl (by decide)
  exact ⟨⟨hlisting, by decide, by decide⟩,
    ⟨contending_derives, hover, by decide, by decide⟩,
    ⟨hmuted, by decide, by decide, by decide⟩⟩

end Registry

end LineShell
