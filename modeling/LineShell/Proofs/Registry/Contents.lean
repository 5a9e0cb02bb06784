import LineShell.Registry
import Mathlib.Data.List.Induction
import Mathlib.Data.List.Nodup

/-! # Contents of a registry — what a life of changes leaves in it

    A registry is changed by scans and by the replacement of one of its two
    lists of names.  What a scan does is a sequence of *recordings*, so a
    life of changes is a journal of recordings and replacements, and all
    that a registry shows can be told from that journal:

    * a list of names is the last replacement and the names recorded
      since, each at its first place (`Registry.Shows`);
    * a command goes to the handler that was recorded last for it over the
      whole life, as long as it is listed;
    * a recording never moves a name that is listed already. -/

namespace LineShell

/-! ## Recordings -/

/-- One thing that a scan records. -/
inductive Recording where
  | handler (name : String) (h : Handler)
  | help (topic : String) (b : Bound)
  | completer (name : String) (b : Bound)

namespace Recording

/-- Records a thing in a registry. -/
def into (r : Registry) : Recording → Registry
  | handler name h => r.addHandler name h
  | help topic b => r.addHelp topic b
  | completer name b => r.addCompleter name b

/-- The command that is named. -/
def command? : Recording → Option String
  | handler name _ => some name
  | _ => none

/-- The topic that is named: a handler names one if it is documented. -/
def topic? : Recording → Option String
  | handler name h => if h.member.hasDoc then some name else none
  | help topic _ => some topic
  | completer _ _ => none

/-- The handler that is recorded, under its name. -/
def handler? : Recording → Option (String × Handler)
  | handler name h => some (name, h)
  | _ => none

/-- What a member is recorded as by its own name. -/
def byName (source : String) (b : Bound) : List Recording :=
  match Registry.afterMarker? Registry.handlerMarker b.name with
  | some name => [handler name ⟨b, source⟩]
  | none =>
      match Registry.afterMarker? Registry.helpMarker b.name with
      | some topic => [help topic b]
      | none =>
          match Registry.afterMarker? Registry.completerMarker b.name with
          | some name => [completer name b]
          | none => []

/-- What a member is recorded as: by its name first, then as the handler of
    the commands that it is marked with. -/
def ofMember (source : String) (b : Bound) : List Recording :=
  byName source b ++
    (Registry.markedCommands b).map fun name => handler name ⟨b, source⟩

/-- What scanning an object records. -/
def ofObject (c : Class) (source : String) : List Recording :=
  (Registry.scannedNames c).flatMap fun name => ofMember source (c.bind name)

/-- What the same recordings do, one after the other. -/
def allInto (r : Registry) (recordings : List Recording) : Registry :=
  recordings.foldl into r

theorem byName_into (r : Registry) (source : String) (b : Bound) :
    allInto r (byName source b) = r.addByName source b := by
  rw [Registry.addByName, byName]
  cases Registry.afterMarker? Registry.handlerMarker b.name with
  | some name => rfl
  | none =>
      cases Registry.afterMarker? Registry.helpMarker b.name with
      | some topic => rfl
      | none =>
          cases Registry.afterMarker? Registry.completerMarker b.name with
          | some name => rfl
          | none => rfl

theorem ofMember_into (r : Registry) (source : String) (b : Bound) :
    allInto r (ofMember source b) = r.addMember source b := by
  have hname : (byName source b).foldl into r = r.addByName source b :=
    byName_into r source b
  rw [ofMember, allInto, List.foldl_append, List.foldl_map, hname]
  rfl

/-- A scan is the sequence of its recordings. -/
theorem ofObject_into (r : Registry) (c : Class) (source : String) :
    allInto r (ofObject c source) = r.scan c source := by
  rw [ofObject, allInto, List.foldl_flatMap, Registry.scan]
  congr 1
  funext r name
  exact ofMember_into r source (c.bind name)

end Recording

/-! ## Names in order of first appearance -/

namespace Registry

/-- What is added goes to the end, if it goes anywhere. -/
theorem prefix_addOnce (name : String) (names : List String) :
    names <+: addOnce name names := by
  rw [addOnce]
  split
  · exact List.prefix_refl names
  · exact List.prefix_append names [name]

theorem nodup_addOnce {name : String} {names : List String}
    (h : names.Nodup) : (addOnce name names).Nodup := by
  rw [addOnce]
  split
  · exact h
  · rename_i absent
    refine List.nodup_append.mpr ⟨h, List.nodup_singleton name, ?_⟩
    rintro a ha b hb rfl
    obtain rfl := List.mem_singleton.mp hb
    exact absent (List.contains_iff_mem.mpr ha)

/-- Adds names one after the other. -/
def addAll (names more : List String) : List String :=
  more.foldl (fun names name => addOnce name names) names

theorem prefix_addAll (names more : List String) :
    names <+: addAll names more := by
  induction more generalizing names with
  | nil => exact List.prefix_refl names
  | cons name rest ih => exact (prefix_addOnce name names).trans (ih _)

theorem nodup_addAll {names : List String} (h : names.Nodup)
    (more : List String) : (addAll names more).Nodup := by
  induction more generalizing names with
  | nil => exact h
  | cons name rest ih => exact ih (nodup_addOnce h)

/-- Adding a name to a list without its repeats is taking the repeats out
    of the longer list. -/
theorem addOnce_eraseDups (name : String) (names : List String) :
    addOnce name names.eraseDups = (names ++ [name]).eraseDups := by
  rw [List.eraseDups_append, addOnce]
  by_cases h : name ∈ names
  · rw [if_pos (List.contains_iff_mem.mpr (List.mem_eraseDups.mpr h))]
    simp [List.removeAll, h]
  · rw [if_neg fun hc =>
      h (List.mem_eraseDups.mp (List.contains_iff_mem.mp hc))]
    simp [List.removeAll, List.eraseDups_cons, h]

/-- So is adding any number of names. -/
theorem addAll_eraseDups (names more : List String) :
    addAll names.eraseDups more = (names ++ more).eraseDups := by
  induction more generalizing names with
  | nil => rw [List.append_nil]; rfl
  | cons name rest ih =>
      calc addAll names.eraseDups (name :: rest)
          = addAll (addOnce name names.eraseDups) rest := rfl
        _ = addAll (names ++ [name]).eraseDups rest := by
            rw [addOnce_eraseDups]
        _ = (names ++ [name] ++ rest).eraseDups := ih _
        _ = (names ++ name :: rest).eraseDups := by
            rw [List.append_assoc, List.singleton_append]

/-- A list without repeats is its names, each at its first place. -/
theorem withoutRepeats_eq (names : List String) :
    withoutRepeats names = names.eraseDups :=
  addAll_eraseDups [] names

/-! ## What recordings leave -/

variable (r : Registry) (recordings : List Recording)

theorem dispatchable_allInto :
    (Recording.allInto r recordings).dispatchable =
      addAll r.dispatchable (recordings.filterMap Recording.command?) := by
  induction recordings generalizing r with
  | nil => rfl
  | cons x rest ih =>
      refine (ih (x.into r)).trans ?_
      cases x <;> rfl

theorem topics_allInto :
    (Recording.allInto r recordings).topics =
      addAll r.topics (recordings.filterMap Recording.topic?) := by
  induction recordings generalizing r with
  | nil => rfl
  | cons x rest ih =>
      refine (ih (x.into r)).trans ?_
      cases x with
      | handler name h =>
          rw [Recording.into, addHandler, List.filterMap_cons,
            Recording.topic?]
          split <;> rfl
      | help topic b => rfl
      | completer name b => rfl

/-- A way to look up things of one kind by name that only recordings of
    that kind change, each under its own name. -/
structure Finds {α : Type} (item? : Recording → Option (String × α))
    (found : Registry → String → Option α) : Prop where
  empty : ∀ name, found empty name = none
  into : ∀ r x name, found (Recording.into r x) name =
    (List.lookup name (item? x).toList).or (found r name)
  dispatchable : ∀ r names, found (r.setDispatchable names) = found r
  topics : ∀ r names, found (r.setTopics names) = found r

/-- A map finds what was set last. -/
theorem get?_insert_lookup {α : Type} (m : OrderedMap α)
    (other name : String) (a : α) :
    (m.insert other a).get? name =
      (List.lookup name (some (other, a)).toList).or (m.get? name) := by
  rw [OrderedMap.get?_insert]
  by_cases hname : other = name
  · subst hname
    simp
  · have hbeq : (name == other) = false := beq_false_of_ne (Ne.symm hname)
    rw [if_neg hname, Option.toList_some, List.lookup_cons, hbeq]
    rfl

/-- Handlers are looked up so. -/
theorem finds_handler? : Finds Recording.handler? handler? where
  empty _ := rfl
  into r x name := by
    cases x with
    | handler other h => exact get?_insert_lookup r.handlers other name h
    | help topic b => rfl
    | completer other b => rfl
  dispatchable _ _ := rfl
  topics _ _ := rfl

/-- What is found under a name is what was recorded last for it, or what
    was there before. -/
theorem Finds.allInto {α : Type} {item? : Recording → Option (String × α)}
    {found : Registry → String → Option α} (h : Finds item? found)
    (r : Registry) (recordings : List Recording) (name : String) :
    found (Recording.allInto r recordings) name =
      (List.lookup name (recordings.filterMap item?).reverse).or
        (found r name) := by
  induction recordings generalizing r with
  | nil => rfl
  | cons x rest ih =>
      have hitems : ((x :: rest).filterMap item?).reverse =
          (rest.filterMap item?).reverse ++ (item? x).toList := by
        rw [List.filterMap_cons]
        cases item? x with
        | none => exact (List.append_nil _).symm
        | some item => exact List.reverse_cons
      calc found (Recording.allInto (x.into r) rest) name
          = (List.lookup name (rest.filterMap item?).reverse).or
              (found (x.into r) name) := ih (x.into r)
        _ = _ := by
            rw [h.into, hitems, List.lookup_append, Option.or_assoc]

end Registry

/-! ## Lives -/

/-- What can be done to a registry. -/
inductive RegistryChange where
  | scan (c : Class) (source : String)
  | dispatchable (names : List String)
  | topics (names : List String)

namespace RegistryChange

/-- Changes a registry. -/
def into (r : Registry) : RegistryChange → Registry
  | scan c source => r.scan c source
  | dispatchable names => r.setDispatchable names
  | topics names => r.setTopics names

/-- What is recorded on the way. -/
def recordings : RegistryChange → List Recording
  | scan c source => Recording.ofObject c source
  | _ => []

/-- The commands that take the place of all others. -/
def newCommands? : RegistryChange → Option (List String)
  | dispatchable names => some names
  | _ => none

/-- The topics that take the place of all others. -/
def newTopics? : RegistryChange → Option (List String)
  | topics names => some names
  | _ => none

/-- The names that replaced all others last, and after them the names that
    were recorded since. -/
def namesOf (new? : RegistryChange → Option (List String))
    (name? : Recording → Option String) (life : List RegistryChange) :
    List String :=
  life.foldl (fun names change =>
    (new? change).getD (names ++ change.recordings.filterMap name?)) []

/-- The commands of a life. -/
abbrev commandsOf (life : List RegistryChange) : List String :=
  namesOf newCommands? Recording.command? life

/-- The topics of a life. -/
abbrev topicsOf (life : List RegistryChange) : List String :=
  namesOf newTopics? Recording.topic? life

/-- The handler that was recorded last for a name, over a whole life. -/
def lastHandler? (life : List RegistryChange) (name : String) :
    Option Handler :=
  List.lookup name
    ((life.flatMap recordings).filterMap Recording.handler?).reverse

/-- A list of names that was replaced at some time and not since is the
    replacement and the names that were recorded since. -/
theorem namesOf_replaced {new? : RegistryChange → Option (List String)}
    {name? : Recording → Option String} {change : RegistryChange}
    {names : List String} (hnew : new? change = some names)
    (before : List RegistryChange) {after : List RegistryChange}
    (hafter : ∀ c ∈ after, new? c = none) :
    namesOf new? name? (before ++ change :: after) =
      names ++ (after.flatMap recordings).filterMap name? := by
  have hgrow : ∀ start, after.foldl (fun names c =>
      (new? c).getD (names ++ c.recordings.filterMap name?)) start =
        start ++ (after.flatMap recordings).filterMap name? := by
    intro start
    induction after generalizing start with
    | nil => simp
    | cons c rest ih =>
        have hrest := ih fun d hd => hafter d (List.mem_cons_of_mem _ hd)
        rw [List.foldl_cons, hafter c List.mem_cons_self, Option.getD_none,
          hrest, List.flatMap_cons, List.filterMap_append, List.append_assoc]
  rw [namesOf, List.foldl_append, List.foldl_cons, hnew, Option.getD_some,
    hgrow]

end RegistryChange

namespace Registry

open RegistryChange

/-- The registry that a life of changes leaves. -/
def ofLife (life : List RegistryChange) : Registry :=
  life.foldl RegistryChange.into empty

/-- What a registry shows after a life of changes. -/
structure Shows (life : List RegistryChange) (r : Registry) : Prop where
  commands : r.dispatchable = (commandsOf life).eraseDups
  topics : r.topics = (topicsOf life).eraseDups
  nodup_commands : r.dispatchable.Nodup
  nodup_topics : r.topics.Nodup
  dispatch : ∀ name, r.dispatch? name =
    if name ∈ r.dispatchable then
      (lastHandler? life name).bind fun h =>
        if h.member.isNull then none else some h.member
    else none
  descriptors : r.descriptors = r.dispatchable.filterMap fun name =>
    (lastHandler? life name).map fun h => (name, h)

/-- A change replaces the commands, or adds those that it records. -/
theorem dispatchable_change (r : Registry) (change : RegistryChange) :
    (change.into r).dispatchable =
      match newCommands? change with
      | some names => names.eraseDups
      | none => addAll r.dispatchable
          (change.recordings.filterMap Recording.command?) := by
  cases change with
  | scan c source =>
      show (r.scan c source).dispatchable = _
      rw [← Recording.ofObject_into]
      exact dispatchable_allInto r _
  | dispatchable names => exact withoutRepeats_eq names
  | topics names => rfl

/-- So it does with the topics. -/
theorem topics_change (r : Registry) (change : RegistryChange) :
    (change.into r).topics =
      match newTopics? change with
      | some names => names.eraseDups
      | none => addAll r.topics
          (change.recordings.filterMap Recording.topic?) := by
  cases change with
  | scan c source =>
      show (r.scan c source).topics = _
      rw [← Recording.ofObject_into]
      exact topics_allInto r _
  | dispatchable names => rfl
  | topics names => exact withoutRepeats_eq names

/-- No replacement touches what was recorded. -/
theorem Finds.change {α : Type} {item? : Recording → Option (String × α)}
    {found : Registry → String → Option α} (h : Finds item? found)
    (r : Registry) (change : RegistryChange) (name : String) :
    found (change.into r) name =
      (List.lookup name (change.recordings.filterMap item?).reverse).or
        (found r name) := by
  cases change with
  | scan c source =>
      show found (r.scan c source) name = _
      rw [← Recording.ofObject_into]
      exact h.allInto r _ name
  | dispatchable names => exact congrFun (h.dispatchable r names) name
  | topics names => exact congrFun (h.topics r names) name

/-- A list of names that every change replaces or adds to is, after a life,
    what the life says of it, without repeats. -/
theorem names_ofLife (names : Registry → List String)
    {new? : RegistryChange → Option (List String)}
    {name? : Recording → Option String} (hempty : names empty = [])
    (hchange : ∀ r change, names (change.into r) =
      match new? change with
      | some new => new.eraseDups
      | none => addAll (names r) (change.recordings.filterMap name?))
    (life : List RegistryChange) :
    names (ofLife life) = (namesOf new? name? life).eraseDups := by
  induction life using List.reverseRecOn with
  | nil => exact hempty
  | append_singleton life change ih =>
      rw [ofLife, List.foldl_append, namesOf, List.foldl_append]
      show names (change.into (ofLife life)) = ((new? change).getD
        (namesOf new? name? life ++ _)).eraseDups
      rw [hchange, ih]
      cases new? change with
      | some new => rfl
      | none => exact addAll_eraseDups _ _

/-- What is found after a life is what was recorded last. -/
theorem Finds.ofLife {α : Type} {item? : Recording → Option (String × α)}
    {found : Registry → String → Option α} (h : Finds item? found)
    (life : List RegistryChange) (name : String) :
    found (ofLife life) name =
      List.lookup name
        ((life.flatMap recordings).filterMap item?).reverse := by
  induction life using List.reverseRecOn with
  | nil => exact h.empty name
  | append_singleton life change ih =>
      rw [Registry.ofLife, List.foldl_append, List.flatMap_append,
        List.filterMap_append, List.reverse_append, List.lookup_append]
      show found (change.into (Registry.ofLife life)) name = _
      rw [h.change, ih, List.flatMap_singleton]

theorem handler?_ofLife (life : List RegistryChange) (name : String) :
    (ofLife life).handler? name = lastHandler? life name :=
  finds_handler?.ofLife life name

theorem nodup_eraseDups (names : List String) : names.eraseDups.Nodup := by
  rw [← withoutRepeats_eq]
  exact nodup_addAll List.nodup_nil names

/-- A registry shows what its whole life says, and a scan keeps every name
    that is listed where it is. -/
theorem shows_ofLife (life : List RegistryChange) :
    (ofLife life).Shows life ∧
      ∀ c source,
        (ofLife life).dispatchable <+:
          (ofLife (life ++ [.scan c source])).dispatchable ∧
        (ofLife life).topics <+:
          (ofLife (life ++ [.scan c source])).topics := by
  have hcommands := names_ofLife dispatchable rfl
    dispatchable_change life
  have htopics := names_ofLife topics rfl topics_change life
  constructor
  · refine ⟨hcommands, htopics, ?_, ?_, ?_, ?_⟩
    · rw [hcommands]
      exact nodup_eraseDups _
    · rw [htopics]
      exact nodup_eraseDups _
    · intro name
      rw [dispatch?, handler?_ofLife]
      simp only [List.contains_iff_mem]
      cases lastHandler? life name <;> rfl
    · simp only [descriptors, handler?_ofLife]
  · intro c source
    rw [ofLife, ofLife, List.foldl_append]
    constructor
    · show _ <+: ((RegistryChange.scan c source).into (ofLife life)).dispatchable
      rw [dispatchable_change]
      exact prefix_addAll _ _
    · show _ <+: ((RegistryChange.scan c source).into (ofLife life)).topics
      rw [topics_change]
      exact prefix_addAll _ _

end Registry

end LineShell
