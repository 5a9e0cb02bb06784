import LineShell.Proofs.OrderedMap
import LineShell.Proofs.Registry.Contents
import Mathlib.Data.List.Forall2

/-! # Discovery — the members of an object, and what they resolve to

    Scanning goes from the farthest ancestor of an object to its class,
    while a name on the object resolves to what the nearest class defines.
    So a member has two places: it *counts* where it is first a function
    (`Counts`), which settles its place among the members
    (`scannedIn_ordered`), and it *resolves* to a definition that may stand
    anywhere nearer, and be no function at all (`Class.Resolves`).  The
    commands that a member handles come from its name and from what it
    resolves to (`Handles`), and what is discovered of an object is told by
    its members alone (`Registry.discover_resolves`). -/

namespace LineShell

/-! ## What a name resolves to -/

namespace Class

/-- A name resolves to an attribute on the objects of a class: the first
    class of the lineage that defines the name has it so, whatever it
    is. -/
inductive Resolves (c : Class) (name : String) : Attribute → Prop where
  | intro {nearer farther : List Class} {k : Class} {a : Attribute}
      (hlineage : c.lineage = nearer ++ k :: farther)
      (hnearer : ∀ other ∈ nearer, other.members.get? name = none)
      (hdefines : k.members.get? name = some a) : Resolves c name a

variable {c : Class} {name : String} {a : Attribute}

theorem resolves_iff : c.Resolves name a ↔ c.lookup? name = some a := by
  rw [lookup?, definitions, List.head?_filterMap,
    List.findSome?_eq_some_iff]
  constructor
  · rintro ⟨hlineage, hnearer, hdefines⟩
    exact ⟨_, _, _, hlineage, hdefines, hnearer⟩
  · rintro ⟨nearer, k, farther, hlineage, hdefines, hnearer⟩
    exact .intro hlineage hnearer hdefines

/-- What a name resolves to is what is found first where it is bound. -/
theorem Resolves.head? (h : c.Resolves name a) :
    (c.bind name).definitions.head? = some a :=
  resolves_iff.mp h

theorem Resolves.unique {b : Attribute} (h : c.Resolves name a)
    (h' : c.Resolves name b) : b = a :=
  Option.some.inj (h'.head?.symm.trans h.head?)

/-- A name that some class of the lineage defines resolves. -/
theorem exists_resolves {k : Class} (hk : k ∈ c.lineage)
    (h : k.members.get? name = some a) : ∃ b, c.Resolves name b := by
  have hsome : (c.lookup? name).isSome = true := by
    rw [lookup?, definitions, List.head?_filterMap, List.findSome?_isSome_iff]
    exact ⟨k, hk, h ▸ rfl⟩
  obtain ⟨b, hb⟩ := Option.isSome_iff_exists.mp hsome
  exact ⟨b, resolves_iff.mpr hb⟩

theorem Resolves.isNull (h : c.Resolves name a) :
    (c.bind name).isNull = a.isNull := by
  have hhead := h.head?
  rw [Bound.isNull]
  cases hdefinitions : (c.bind name).definitions with
  | nil =>
      rw [hdefinitions] at hhead
      cases hhead
  | cons first rest =>
      rw [hdefinitions] at hhead
      obtain rfl := Option.some.inj hhead
      rfl

theorem Resolves.markedCommands (h : c.Resolves name a) :
    Registry.markedCommands (c.bind name) = a.commands := by
  rw [Registry.markedCommands, h.head?]
  rfl

/-- The names that are functions of a class itself, in order. -/
def functionNames (k : Class) : List String :=
  (k.members.toList.filter fun pair => pair.2.isFunction).map Prod.fst

theorem mem_functionNames {k : Class} :
    name ∈ k.functionNames ↔
      ∃ f, (name, Attribute.function f) ∈ k.members.toList := by
  simp only [functionNames, List.mem_map, List.mem_filter]
  constructor
  · rintro ⟨⟨name, _ | _⟩, ⟨hmem, hfunction⟩, rfl⟩
    · exact ⟨_, hmem⟩
    · cases hfunction
  · rintro ⟨f, hmem⟩
    exact ⟨_, ⟨hmem, rfl⟩, rfl⟩

theorem functionNames_sublist (k : Class) :
    k.functionNames.Sublist (k.members.toList.map Prod.fst) :=
  List.filter_sublist.map _

end Class

namespace Registry

/-! ## Where members count -/

/-- A name counts in one of some classes, given from the farthest to the
    nearest, and at one of its members: it is a function there, and in no
    class that is farther. -/
structure Counts (ks : List Class) (name : String) (rank place : Nat) :
    Prop where
  function : ∃ k f, ks[rank]? = some k ∧
    k.members.toList[place]? = some (name, .function f)
  first : ∀ k ∈ ks.take rank, name ∉ k.functionNames

/-- The members of classes that count. -/
def scannedIn (ks : List Class) : List String :=
  withoutRepeats (ks.flatMap Class.functionNames)

theorem scannedNames_eq (c : Class) :
    scannedNames c = scannedIn c.lineage.reverse :=
  rfl

theorem mem_scannedIn {ks : List Class} {name : String} :
    name ∈ scannedIn ks ↔ ∃ k ∈ ks, name ∈ k.functionNames := by
  rw [scannedIn, withoutRepeats_eq, List.mem_eraseDups, List.mem_flatMap]

theorem notMem_scannedIn {ks : List Class} {name : String} :
    name ∉ scannedIn ks ↔ ∀ k ∈ ks, name ∉ k.functionNames := by
  simp [mem_scannedIn]

/-- Adding names of which no two are the same is adding those that are not
    there. -/
theorem addAll_of_nodup {more : List String} (h : more.Nodup)
    (names : List String) :
    addAll names more = names ++ more.filter (· ∉ names) := by
  induction more using List.reverseRecOn with
  | nil => exact (List.append_nil names).symm
  | append_singleton more name ih =>
      obtain ⟨hmore, -, hnew⟩ := List.nodup_append.mp h
      have habsent : name ∉ more := fun hmem =>
        hnew name hmem name (List.mem_singleton_self name) rfl
      have hstep : addAll names (more ++ [name]) =
          addOnce name (addAll names more) := by
        rw [addAll, List.foldl_append]
        rfl
      rw [hstep, ih hmore, addOnce, List.filter_append]
      by_cases hname : name ∈ names
      · simp [hname]
      · simp [hname, habsent]

/-- A class that is nearer adds the functions that are none before it. -/
theorem scannedIn_concat (ks : List Class) (k : Class) :
    scannedIn (ks ++ [k]) =
      scannedIn ks ++
        k.functionNames.filter (· ∉ scannedIn ks) := by
  have hnodup : k.functionNames.Nodup :=
    k.members.nodup.sublist k.functionNames_sublist
  have hadded : scannedIn (ks ++ [k]) =
      addAll (scannedIn ks) k.functionNames := by
    rw [scannedIn, withoutRepeats, List.flatMap_append,
      List.flatMap_singleton, List.foldl_append]
    rfl
  rw [hadded, addAll_of_nodup hnodup]

/-- Where a name counts in classes and one that is nearer. -/
theorem counts_concat {ks : List Class} {k : Class} {name : String}
    {rank place : Nat} :
    Counts (ks ++ [k]) name rank place ↔
      (rank < ks.length ∧ Counts ks name rank place) ∨
        (rank = ks.length ∧ name ∉ scannedIn ks ∧
          ∃ f, k.members.toList[place]? = some (name, .function f)) := by
  constructor
  · rintro ⟨⟨other, f, hother, hplace⟩, hfirst⟩
    rcases Nat.lt_trichotomy rank ks.length with hlt | rfl | hgt
    · rw [List.getElem?_append_left hlt] at hother
      rw [List.take_append_of_le_length (Nat.le_of_lt hlt)] at hfirst
      exact .inl ⟨hlt, ⟨other, f, hother, hplace⟩, hfirst⟩
    · rw [List.getElem?_concat_length] at hother
      obtain rfl := Option.some.inj hother
      rw [List.take_left'] at hfirst
      · exact .inr ⟨rfl, notMem_scannedIn.mpr hfirst, f, hplace⟩
      · rfl
    · rw [List.getElem?_eq_none (by simp; omega)] at hother
      cases hother
  · rintro (⟨hlt, ⟨other, f, hother, hplace⟩, hfirst⟩ |
      ⟨rfl, hnew, f, hplace⟩)
    · refine ⟨⟨other, f, ?_, hplace⟩, ?_⟩
      · rw [List.getElem?_append_left hlt, hother]
      · rwa [List.take_append_of_le_length (Nat.le_of_lt hlt)]
    · refine ⟨⟨k, f, List.getElem?_concat_length, hplace⟩, ?_⟩
      rw [List.take_left' rfl]
      exact notMem_scannedIn.mp hnew

theorem Counts.lt_length {ks : List Class} {name : String}
    {rank place : Nat} (h : Counts ks name rank place) :
    rank < ks.length := by
  obtain ⟨⟨k, f, hk, -⟩, -⟩ := h
  exact (List.getElem?_eq_some_iff.mp hk).1

/-- The members that count do so somewhere. -/
theorem mem_scannedIn_iff_counts {ks : List Class} {name : String} :
    name ∈ scannedIn ks ↔ ∃ rank place, Counts ks name rank place := by
  constructor
  · intro h
    induction ks using List.reverseRecOn with
    | nil => cases h
    | append_singleton ks k ih =>
        by_cases hold : name ∈ scannedIn ks
        · obtain ⟨rank, place, hcounts⟩ := ih hold
          exact ⟨rank, place,
            counts_concat.mpr (.inl ⟨hcounts.lt_length, hcounts⟩)⟩
        · rw [scannedIn_concat, List.mem_append] at h
          have hname := (List.mem_filter.mp (h.resolve_left hold)).1
          obtain ⟨f, hmem⟩ := Class.mem_functionNames.mp hname
          obtain ⟨place, hplace⟩ := List.mem_iff_getElem?.mp hmem
          exact ⟨ks.length, place,
            counts_concat.mpr (.inr ⟨rfl, hold, f, hplace⟩)⟩
  · rintro ⟨rank, place, ⟨k, f, hk, hplace⟩, -⟩
    exact mem_scannedIn.mpr ⟨k, List.mem_of_getElem? hk,
      Class.mem_functionNames.mpr ⟨f, List.mem_of_getElem? hplace⟩⟩

/-- One member comes before another: it counts in a class that is farther,
    or earlier in the same class. -/
def Precedes (ks : List Class) (name other : String) : Prop :=
  ∀ rank place rank' place', Counts ks name rank place →
    Counts ks other rank' place' →
    rank < rank' ∨ rank = rank' ∧ place < place'

/-- The names of pairs come in the order of the pairs. -/
theorem pairwise_places {α : Type} {l : List (String × α)}
    (h : (l.map Prod.fst).Nodup) :
    (l.map Prod.fst).Pairwise fun name other =>
      ∀ (i j : Nat) (a b : α), l[i]? = some (name, a) →
        l[j]? = some (other, b) → i < j := by
  have hplace : ∀ {n i : Nat} {a : α} (hn : n < (l.map Prod.fst).length),
      l[i]? = some ((l.map Prod.fst)[n], a) → i = n := by
    intro n i a hn hi
    have hname : (l.map Prod.fst)[i]? = (l.map Prod.fst)[n]? := by
      rw [List.getElem?_map, hi, List.getElem?_eq_getElem hn]
      rfl
    exact ((List.getElem?_inj hn h).mp hname.symm).symm
  refine List.pairwise_iff_getElem.mpr ?_
  intro m n hm hn hlt i j a b hi hj
  rw [hplace hm hi, hplace hn hj]
  exact hlt

/-- The members come in the order in which they count. -/
theorem scannedIn_ordered (ks : List Class) :
    (scannedIn ks).Pairwise (Precedes ks) := by
  induction ks using List.reverseRecOn with
  | nil => exact .nil
  | append_singleton ks k ih =>
      have hold : ∀ {name rank place}, name ∈ scannedIn ks →
          Counts (ks ++ [k]) name rank place →
          rank < ks.length ∧ Counts ks name rank place := by
        intro name rank place hname hcounts
        rcases counts_concat.mp hcounts with h | ⟨-, hnew, -⟩
        · exact h
        · exact absurd hname hnew
      have hnew : ∀ {name rank place}, name ∉ scannedIn ks →
          Counts (ks ++ [k]) name rank place → rank = ks.length ∧
            ∃ f, k.members.toList[place]? = some (name, .function f) := by
        intro name rank place hname hcounts
        rcases counts_concat.mp hcounts with ⟨-, h⟩ | ⟨hrank, -, hplace⟩
        · exact absurd (mem_scannedIn_iff_counts.mpr ⟨_, _, h⟩) hname
        · exact ⟨hrank, hplace⟩
      have habsent : ∀ {name}, name ∈ k.functionNames.filter
          (· ∉ scannedIn ks) → name ∉ scannedIn ks :=
        fun hname => of_decide_eq_true (List.mem_filter.mp hname).2
      rw [scannedIn_concat, List.pairwise_append]
      refine ⟨ih.imp_of_mem ?_, ?_, ?_⟩
      · -- what counted before counts where it did
        intro name other hname hother hprecedes rank place rank' place' h h'
        exact hprecedes _ _ _ _ (hold hname h).2 (hold hother h').2
      · -- what is new counts in the nearest class, member by member
        have hplaces := (pairwise_places k.members.nodup).sublist
          k.functionNames_sublist
        refine (hplaces.filter _).imp_of_mem ?_
        intro name other hname hother hplace rank place rank' place' h h'
        obtain ⟨hrank, f, hf⟩ := hnew (habsent hname) h
        obtain ⟨hrank', g, hg⟩ := hnew (habsent hother) h'
        exact .inr ⟨hrank.trans hrank'.symm, hplace _ _ _ _ hf hg⟩
      · -- and that class is nearer than all others
        intro name hname other hother rank place rank' place' h h'
        obtain ⟨hlt, -⟩ := hold hname h
        obtain ⟨hrank', -⟩ := hnew (habsent hother) h'
        exact .inl (hrank' ▸ hlt)

/-! ## The commands of members -/

/-- The commands that a member handles, in order: what follows `do_` in its
    name, if anything does, and then what it is marked with. -/
inductive Handles (c : Class) (name : String) : List String → Prop where
  | named {command : String} {a : Attribute}
      (hname : name = handlerMarker ++ command) (hne : command ≠ "")
      (ha : c.Resolves name a) : Handles c name (command :: a.commands)
  | unnamed {a : Attribute}
      (hname : ∀ command, name = handlerMarker ++ command → command = "")
      (ha : c.Resolves name a) : Handles c name a.commands

/-- The commands that a member handles, computed. -/
def handled (c : Class) (name : String) : List String :=
  (afterMarker? handlerMarker name).toList ++ markedCommands (c.bind name)

/-- What follows a marker. -/
theorem afterMarker?_eq_some_iff {marker name rest : String} :
    afterMarker? marker name = some rest ↔
      name = marker ++ rest ∧ rest ≠ "" := by
  have htexts : name = marker ++ rest ↔
      name.toList = marker.toList ++ rest.toList := by
    rw [← String.toList_inj, String.toList_append]
  have hnone : rest = "" ↔ rest.toList = [] := String.toList_eq_nil_iff.symm
  rw [htexts, Ne, hnone, afterMarker?]
  constructor
  · intro h
    split at h
    · rename_i hmarker
      obtain ⟨tail, htail⟩ := List.isPrefixOf_iff_prefix.mp hmarker
      rw [← htail, ← String.length_toList, List.drop_left] at h
      split at h
      · cases h
      · rename_i cs hne
        obtain rfl := Option.some.inj h
        rw [String.toList_ofList]
        exact ⟨htail.symm, hne⟩
    · cases h
  · rintro ⟨hname, hne⟩
    have hmarker : marker.toList.isPrefixOf name.toList = true :=
      List.isPrefixOf_iff_prefix.mpr ⟨_, hname.symm⟩
    rw [if_pos hmarker, hname, ← String.length_toList, List.drop_left]
    split
    · rename_i hempty
      exact absurd hempty hne
    · rw [String.ofList_toList]

theorem handles_handled {c : Class} {name : String} {a : Attribute}
    (ha : c.Resolves name a) : Handles c name (handled c name) := by
  rw [handled, ha.markedCommands]
  cases hafter : afterMarker? handlerMarker name with
  | some command =>
      obtain ⟨hname, hne⟩ := afterMarker?_eq_some_iff.mp hafter
      exact .named hname hne ha
  | none =>
      refine .unnamed (fun command hname => ?_) ha
      by_contra hne
      rw [afterMarker?_eq_some_iff.mpr ⟨hname, hne⟩] at hafter
      cases hafter

/-- What a member handles is settled. -/
theorem Handles.eq_handled {c : Class} {name : String}
    {commands : List String} (h : Handles c name commands) :
    commands = handled c name := by
  cases h with
  | named hname hne ha =>
      rw [handled, ha.markedCommands,
        afterMarker?_eq_some_iff.mpr ⟨hname, hne⟩]
      rfl
  | unnamed hname ha =>
      have hafter : afterMarker? handlerMarker name = none := by
        rw [Option.eq_none_iff_forall_ne_some]
        intro command h
        obtain ⟨heq, hne⟩ := afterMarker?_eq_some_iff.mp h
        exact hne (hname command heq)
      rw [handled, ha.markedCommands, hafter]
      rfl

/-- What a member offers: itself, under each command that it handles. -/
def offered (c : Class) (source name : String) : List (String × Handler) :=
  (handled c name).map fun command => (command, ⟨c.bind name, source⟩)

/-- The handlers that are recorded of a member. -/
theorem handlers_ofMember (c : Class) (source name : String) :
    (Recording.ofMember source (c.bind name)).filterMap
      Recording.handler? = offered c source name := by
  have hmarked : ∀ commands : List String,
      (commands.map fun command =>
          Recording.handler command ⟨c.bind name, source⟩).filterMap
        Recording.handler? =
      commands.map fun command => (command, ⟨c.bind name, source⟩) := by
    intro commands
    rw [List.filterMap_map]
    exact congrFun List.filterMap_eq_map _
  have hnamed : (Recording.byName source (c.bind name)).filterMap
        Recording.handler? =
      (afterMarker? handlerMarker name).toList.map fun command =>
        (command, ⟨c.bind name, source⟩) := by
    have hname : (c.bind name).name = name := rfl
    rw [Recording.byName, hname]
    cases afterMarker? handlerMarker name with
    | some command => rfl
    | none =>
        dsimp only
        split
        · rfl
        · split <;> rfl
  rw [Recording.ofMember, List.filterMap_append, hnamed, hmarked, offered,
    handled, List.map_append]

theorem command?_eq (x : Recording) :
    x.command? = x.handler?.map Prod.fst := by
  cases x <;> rfl

/-- So are the commands. -/
theorem commands_ofMember (c : Class) (source name : String) :
    (Recording.ofMember source (c.bind name)).filterMap
      Recording.command? = handled c name := by
  have hcommand : Recording.command? =
      fun x => x.handler?.map Prod.fst := funext command?_eq
  rw [hcommand, ← List.map_filterMap, handlers_ofMember, offered,
    List.map_map]
  exact List.map_id _

/-! ## What is discovered of an object -/

/-- Every member that counts resolves. -/
theorem exists_resolves_of_mem {c : Class} {name : String}
    (h : name ∈ scannedNames c) : ∃ a, c.Resolves name a := by
  rw [scannedNames_eq, mem_scannedIn] at h
  obtain ⟨k, hk, hname⟩ := h
  obtain ⟨f, hmem⟩ := Class.mem_functionNames.mp hname
  exact Class.exists_resolves (List.mem_reverse.mp hk)
    ((OrderedMap.mem_iff_find k.members.nodup).mp hmem)

theorem dispatchable_discover (c : Class) :
    (discover [c]).dispatchable =
      ((scannedNames c).flatMap (handled c)).eraseDups := by
  have hcommands : (Recording.ofObject c c.name).filterMap
      Recording.command? = (scannedNames c).flatMap (handled c) := by
    rw [Recording.ofObject, List.filterMap_flatMap]
    exact List.flatMap_congr fun name _ => commands_ofMember c c.name name
  show (scan empty c c.name).dispatchable = _
  rw [← Recording.ofObject_into, dispatchable_allInto, hcommands]
  exact addAll_eraseDups [] _

theorem handler?_discover (c : Class) (command : String) :
    (discover [c]).handler? command =
      List.lookup command
        ((scannedNames c).flatMap (offered c c.name)).reverse := by
  have hhandlers : (Recording.ofObject c c.name).filterMap
      Recording.handler? = (scannedNames c).flatMap (offered c c.name) := by
    rw [Recording.ofObject, List.filterMap_flatMap]
    exact List.flatMap_congr fun name _ => handlers_ofMember c c.name name
  show (scan empty c c.name).handler? command = _
  rw [← Recording.ofObject_into, finds_handler?.allInto, hhandlers]
  exact Option.or_none

/-- Among members of which none handles a command nothing is found for
    it. -/
theorem lookup_offered_none {c : Class} {names : List String}
    {command source : String}
    (h : ∀ name ∈ names, command ∉ handled c name) :
    List.lookup command (names.flatMap (offered c source)).reverse =
      none := by
  rw [List.lookup_eq_none_iff]
  rintro ⟨other, handler⟩ hmem
  obtain ⟨name, hname, hmem⟩ :=
    List.mem_flatMap.mp (List.mem_reverse.mp hmem)
  obtain ⟨command', hcommand, heq⟩ := List.mem_map.mp hmem
  obtain ⟨rfl, -⟩ := Prod.mk.inj heq
  refine bne_iff_ne.mpr ?_
  rintro rfl
  exact h name hname hcommand

/-- A command that is handled finds its member. -/
theorem lookup_offered_some {c : Class} {name command : String}
    (h : command ∈ handled c name) (source : String) :
    List.lookup command (offered c source name).reverse =
      some ⟨c.bind name, source⟩ := by
  rw [offered, ← List.map_reverse]
  have hmem := List.mem_reverse.mpr h
  generalize (handled c name).reverse = commands at hmem
  induction commands with
  | nil => cases hmem
  | cons other rest ih =>
      rw [List.map_cons, List.lookup_cons]
      cases hbeq : command == other with
      | true => rfl
      | false =>
          exact ih (List.mem_of_ne_of_mem (ne_of_beq_false hbeq) hmem)

theorem handles_of_mem {c : Class} {name : String}
    (h : name ∈ scannedNames c) : Handles c name (handled c name) := by
  obtain ⟨a, ha⟩ := exists_resolves_of_mem h
  exact handles_handled ha

theorem mem_dispatchable_discover {c : Class} {command : String} :
    command ∈ (discover [c]).dispatchable ↔
      ∃ name ∈ scannedNames c, command ∈ handled c name := by
  rw [dispatchable_discover, List.mem_eraseDups, List.mem_flatMap]

/-- A command is dispatched to the last member that handles it. -/
theorem dispatch?_discover {c : Class} {before after : List String}
    {name command : String} {a : Attribute}
    (hnames : scannedNames c = before ++ name :: after)
    (hcommand : command ∈ handled c name)
    (hafter : ∀ later ∈ after, command ∉ handled c later)
    (ha : c.Resolves name a) :
    (discover [c]).dispatch? command =
      if a.isNull then none else some (c.bind name) := by
  have hmem : name ∈ scannedNames c := hnames ▸ by simp
  have hhandler : (discover [c]).handler? command =
      some ⟨c.bind name, c.name⟩ := by
    rw [handler?_discover, hnames, List.flatMap_append, List.flatMap_cons,
      List.reverse_append, List.reverse_append, List.append_assoc,
      List.lookup_append, lookup_offered_none hafter, List.lookup_append,
      lookup_offered_some hcommand]
    rfl
  have hlisted := mem_dispatchable_discover.mpr ⟨name, hmem, hcommand⟩
  rw [dispatch?, if_pos (List.contains_iff_mem.mpr hlisted), hhandler]
  dsimp only
  rw [ha.isNull]

/-- **DISCOVERY**: the members of an object that count are the names that
    are functions in some class of its lineage, each once, in the order in
    which they count.  Each resolves to what the nearest class defines, of
    whatever kind, which is what it is bound to and whose marks are read.
    The commands are those that the members handle, member by member and
    each at its first place, and a command is dispatched to the last member
    that handles it, unless that resolves to nothing. -/
theorem discover_resolves (c : Class) :
    (scannedNames c).Nodup ∧
    (∀ name, name ∈ scannedNames c ↔ ∃ k ∈ c.lineage, ∃ f,
      k.members.get? name = some (.function f)) ∧
    (∀ name, name ∈ scannedNames c ↔ ∃ rank place,
      Counts c.lineage.reverse name rank place) ∧
    (scannedNames c).Pairwise (Precedes c.lineage.reverse) ∧
    (∀ name ∈ scannedNames c, ∃ a, c.Resolves name a ∧
      (c.bind name).definitions.head? = some a ∧
      markedCommands (c.bind name) = a.commands) ∧
    (∃ commands, List.Forall₂ (Handles c) (scannedNames c) commands ∧
      (discover [c]).dispatchable = commands.flatten.eraseDups) ∧
    (∀ before name after commands command a,
      scannedNames c = before ++ name :: after →
      Handles c name commands → command ∈ commands →
      (∀ later ∈ after, ∀ others, Handles c later others →
        command ∉ others) →
      c.Resolves name a →
      (discover [c]).dispatch? command =
        if a.isNull then none else some (c.bind name)) ∧
    ∀ command, (∀ name ∈ scannedNames c, ∀ commands,
        Handles c name commands → command ∉ commands) →
      (discover [c]).dispatch? command = none := by
  refine ⟨?_, ?_, ?_, ?_, ?_, ?_, ?_, ?_⟩
  · rw [scannedNames, withoutRepeats_eq]
    exact nodup_eraseDups _
  · intro name
    rw [scannedNames_eq, mem_scannedIn]
    simp only [List.mem_reverse, Class.mem_functionNames,
      OrderedMap.mem_iff_find (Class.members _).nodup, OrderedMap.get?]
  · exact fun name => mem_scannedIn_iff_counts
  · exact scannedIn_ordered _
  · intro name hname
    obtain ⟨a, ha⟩ := exists_resolves_of_mem hname
    exact ⟨a, ha, ha.head?, ha.markedCommands⟩
  · refine ⟨(scannedNames c).map (handled c), ?_, ?_⟩
    · rw [List.forall₂_map_right_iff]
      exact List.forall₂_same.mpr fun name hname => handles_of_mem hname
    · rw [dispatchable_discover, List.flatMap_def]
  · intro before name after commands command a hnames hcommands hcommand
      hlater ha
    obtain rfl := hcommands.eq_handled
    have hafter : ∀ later ∈ after, command ∉ handled c later := by
      intro later hmem
      have hmember : later ∈ scannedNames c := hnames ▸ by simp [hmem]
      exact hlater later hmem _ (handles_of_mem hmember)
    exact dispatch?_discover hnames hcommand hafter ha
  · intro command hnone
    have hunlisted : command ∉ (discover [c]).dispatchable := by
      rw [mem_dispatchable_discover]
      rintro ⟨name, hname, hcommand⟩
      exact hnone name hname _ (handles_of_mem hname) hcommand
    rw [dispatch?, if_neg (mt List.contains_iff_mem.mp hunlisted)]

/-- A class that takes one handler of its ancestor away and overrides
    another. -/
def overriding : Class where
  number := 1
  name := "B"
  members := .ofList
    [("do_late", .function { (default : Function) with commands := ["x"] }),
      ("do_early", .data .null)]
  ancestors := [⟨0, "A", .ofList [("do_early", .function default),
    ("do_late", .function default)], []⟩]

/-- Places come from the ancestor, marks and what is called from the
    class. -/
example : scannedNames overriding = ["do_early", "do_late"] ∧
    (discover [overriding]).dispatchable = ["early", "late", "x"] ∧
    ((discover [overriding]).dispatch? "early").isNone = true ∧
    ((discover [overriding]).dispatch? "x").isSome = true := by
  decide

end Registry

end LineShell
