import LineShell.Session.Execute
import LineShell.Proofs.Extension.Changes

/-! # Conduct — what user code may ask and raise

    User code is a tree of requests, so what it may do is a property of
    the tree.  A *conduct* says which requests code makes, which faults it
    raises and which faults a source of lines comes up with.  Plain faults
    may always be raised, for the shell raises them itself; and so may the
    cause for which another fault has no text.

    Code *keeps* a conduct if it stays within it whatever it is answered,
    as long as the answers do.  Everything that holds code — members,
    classes, chains, registries, prompts, whole sessions — keeps a conduct
    if all its code does. -/

namespace LineShell

/-- What user code and sources of lines may do. -/
structure Conduct where
  asks : Request → Prop
  raises : Fault → Prop
  /-- What reading a line may come up with. -/
  hears : Fault → Prop
  plain : ∀ {f : Fault}, f.isPlain = true → raises f
  causes : ∀ {f g : Fault}, raises f → f.textFault? = some g → raises g

/-- A request that may read a line from the reader of the session. -/
def Request.listens : Request → Bool
  | .run => true
  | .reader (.readLine ..) => true
  | _ => false

/-- A request that reads what code keeps in memory. -/
def Request.recalls : Request → Bool
  | .kept _ => true
  | _ => false

namespace Conduct

variable (k : Conduct)

/-- Code of this conduct may read lines by itself. -/
def Reads : Prop :=
  ∃ r, k.asks r ∧ r.listens = true

/-- A fault of code, or of reading a line. -/
def Meets (f : Fault) : Prop :=
  k.raises f ∨ k.hears f

/-- A signal that code may raise: it passes through what contains
    faults. -/
def Escapes (f : Fault) : Prop :=
  f.isSignal = true ∧ k.raises f

/-- What a request may be answered. -/
def MayAnswer (r : Request) : Answer → Prop
  | .ok _ => True
  | .error f => k.raises f ∨ (r.listens = true ∧ k.hears f)

variable {k}

/-- A request that reads no line fails as code does. -/
theorem MayAnswer.raises {r : Request} {f : Fault}
    (h : k.MayAnswer r (.error f)) (hl : r.listens = false) :
    k.raises f := by
  rcases h with hf | ⟨hl', -⟩
  · exact hf
  · exact absurd hl' (ne_true_of_eq_false hl)

end Conduct

/-! ## Maps of things that hold code -/

/-- Everything in a map is so. -/
def OrderedMap.All {α : Type} (P : α → Prop) (m : OrderedMap α) : Prop :=
  ∀ name a, m.get? name = some a → P a

namespace OrderedMap

variable {α : Type} {P : α → Prop} {m : OrderedMap α}

theorem All.empty : (OrderedMap.empty : OrderedMap α).All P := by
  intro name a h
  cases h

theorem All.insert (h : m.All P) {name : String} {a : α} (ha : P a) :
    (m.insert name a).All P := by
  intro other b hb
  rw [get?_insert] at hb
  by_cases hname : name = other
  · rw [if_pos hname] at hb
    cases hb
    exact ha
  · rw [if_neg hname] at hb
    exact h other b hb

theorem All.insertAll {pairs : List (String × α)} (h : m.All P)
    (hp : ∀ pair ∈ pairs, P pair.2) : (m.insertAll pairs).All P := by
  induction pairs generalizing m with
  | nil => exact h
  | cons pair rest ih =>
      refine ih (h.insert (hp pair List.mem_cons_self)) ?_
      intro other hother
      exact hp other (List.mem_cons_of_mem _ hother)

theorem All.ofList {pairs : List (String × α)}
    (hp : ∀ pair ∈ pairs, P pair.2) : (ofList pairs).All P :=
  All.empty.insertAll hp

theorem All.map {β : Type} {Q : β → Prop} {f : α → β} (h : m.All P)
    (hf : ∀ a, P a → Q (f a)) : (m.map f).All Q := by
  intro name b hb
  rw [get?_map] at hb
  obtain ⟨a, ha, rfl⟩ := Option.map_eq_some_iff.mp hb
  exact hf a (h name a ha)

end OrderedMap

variable {k : Conduct}

/-! ## Code -/

/-- Code that stays within a conduct as long as it is answered so. -/
def Program.Keeps (k : Conduct) : Program → Prop
  | .done _ => True
  | .fail f => k.raises f
  | .request r next => k.asks r ∧ ∀ a, k.MayAnswer r a → (next a).Keeps k
  | .promptCode _ code _ _ next =>
      (∀ args, (code args).Keeps k) ∧
        (∀ v, (next (.ok v)).Keeps k) ∧
        ∀ f, k.raises f → (next (.error f)).Keeps k

/-- Asking and going on with the value keeps what going on keeps. -/
theorem Program.keeps_ask {r : Request} {next : Value → Program}
    (hr : k.asks r) (hl : r.listens = false)
    (hn : ∀ v, (next v).Keeps k) : (ask r next).Keeps k := by
  refine ⟨hr, ?_⟩
  intro a ha
  cases a with
  | ok v => exact hn v
  | error f => exact ha.raises hl

/-- So does asking and ending with the answer. -/
theorem Program.keeps_answer {r : Request} (hr : k.asks r)
    (hl : r.listens = false) : (answer r).Keeps k := by
  refine ⟨hr, ?_⟩
  intro a ha
  cases a with
  | ok v => exact True.intro
  | error f => exact ha.raises hl

/-- A member whose code keeps a conduct on every call. -/
def Attribute.Keeps (k : Conduct) : Attribute → Prop
  | .function f => ∀ call, (f.body call).Keeps k
  | .data _ => True

/-- A member as it is found on an object. -/
def Bound.Keeps (k : Conduct) (b : Bound) : Prop :=
  ∀ a ∈ b.definitions, a.Keeps k

/-- A class: every definition of every name. -/
def Class.Keeps (k : Conduct) (c : Class) : Prop :=
  ∀ name, (c.bind name).Keeps k

/-- Where code stands: the definitions after its own. -/
def Frame.Keeps (k : Conduct) (frame : Frame) : Prop :=
  ∀ a ∈ frame.rest, a.Keeps k

/-- A prompt. -/
def Prompt.Keeps (k : Conduct) : Prompt → Prop
  | .literal _ => True
  | .generated code _ => ∀ args, (code args).Keeps k

theorem Frame.keeps_outside : Frame.outside.Keeps k := by
  intro a ha
  cases ha

/-- A class keeps a conduct if the members of its lineage do. -/
theorem Class.keeps_of_lineage {c : Class}
    (h : ∀ other ∈ c.lineage, other.members.All (Attribute.Keeps k)) :
    c.Keeps k := by
  intro name a ha
  obtain ⟨other, hother, hget⟩ := List.mem_filterMap.mp ha
  exact h other hother name a hget

/-! ## What a session is made of -/

/-- A registry: everything that is recorded. -/
structure Registry.Keeps (k : Conduct) (r : Registry) : Prop where
  handlers : r.handlers.All fun h => h.member.Keeps k
  helpers : r.helpers.All (Bound.Keeps k)
  completers : r.completers.All (Bound.Keeps k)

/-- Extensions: the members in all chains. -/
def Extensions.Keeps (k : Conduct) (e : Extensions) : Prop :=
  e.chains.All fun chain => ∀ i ∈ chain, i.member.Keeps k

/-- A program of the surroundings. -/
def Launch.Keeps (k : Conduct) : Launch → Prop
  | .raised f => k.raises f
  | _ => True

/-- The surroundings of a session. -/
def World.Keeps (k : Conduct) (w : World) : Prop :=
  ∀ entry ∈ w.programs, entry.2.Keeps k

/-- A source of lines. -/
def Source.Keeps (k : Conduct) : Source → Prop
  | .script items _ => ∀ f, .fault f ∈ items → k.hears (Reader.sourceFault f)
  | .keyboard => k.hears (.interrupt "")

/-- A catalogue of classes. -/
def Catalogue.Keeps (k : Conduct) (c : Catalogue) : Prop :=
  c.classes.All (Class.Keeps k)

/-- A session: all the code that it holds or can come to hold. -/
structure Session.Keeps (k : Conduct) (s : Session) : Prop where
  world : s.world.Keeps k
  catalogue : s.catalogue.Keeps k
  shell : ∀ c, s.shell = some c → c.Keeps k
  extensions : s.extensions.Keeps k
  registry : s.registry.Keeps k
  prompt : s.prompt.Keeps k
  source : s.reader.source.Keeps k

/-! ## Recording members -/

namespace Registry.Keeps

variable {r : Registry}

theorem empty : Registry.empty.Keeps k :=
  ⟨.empty, .empty, .empty⟩

theorem addHandler (hr : r.Keeps k) (name : String) {h : Handler}
    (hh : h.member.Keeps k) : (r.addHandler name h).Keeps k :=
  ⟨hr.handlers.insert hh, hr.helpers, hr.completers⟩

/-- A member that keeps a conduct may be recorded under its name. -/
theorem addByName (hr : r.Keeps k) (source : String) {b : Bound}
    (hb : b.Keeps k) : (r.addByName source b).Keeps k := by
  rw [Registry.addByName]
  split
  · exact hr.addHandler _ hb
  · split
    · exact ⟨hr.handlers, hr.helpers.insert hb, hr.completers⟩
    · split
      · exact ⟨hr.handlers, hr.helpers, hr.completers.insert hb⟩
      · exact hr

theorem addMember (hr : r.Keeps k) (source : String) {b : Bound}
    (hb : b.Keeps k) : (r.addMember source b).Keeps k := by
  refine List.foldlRecOn _ _ (hr.addByName source hb) ?_
  intro r' hr' name _
  exact hr'.addHandler name hb

/-- Scanning an object records members of its class only. -/
theorem scan (hr : r.Keeps k) {c : Class} (hc : c.Keeps k)
    (source : String) : (r.scan c source).Keeps k := by
  refine List.foldlRecOn _ _ hr ?_
  intro r' hr' name _
  exact hr'.addMember source (hc name)

/-- What a command is dispatched to is recorded. -/
theorem dispatch? (hr : r.Keeps k) {name : String} {b : Bound}
    (h : r.dispatch? name = some b) : b.Keeps k := by
  rw [Registry.dispatch?] at h
  split at h
  · split at h
    · rename_i handler hget
      split at h <;> cases h
      exact hr.handlers name handler hget
    · cases h
  · cases h

/-- A producer that answers for a topic is recorded. -/
theorem helper? (hr : r.Keeps k) {topic : String} {b : Bound}
    (h : r.helper? topic = some (.member b)) : b.Keeps k := by
  have hdoc : Registry.helper?.docHelper? r topic ≠ some (.member b) := by
    rw [Registry.helper?.docHelper?]
    split
    · split <;> exact fun h => nomatch h
    · exact fun h => nomatch h
  -- a topic that falls back to a text is answered by no member
  rw [Registry.helper?] at h
  split at h
  · rename_i b' hget
    split at h
    · exact absurd h hdoc
    · cases h
      exact hr.helpers topic b hget
  · exact absurd h hdoc

theorem completer? (hr : r.Keeps k) {name : String} {b : Bound}
    (h : r.completer? name = some b) : b.Keeps k := by
  rw [Registry.completer?] at h
  split at h
  · rename_i b' hget
    split at h <;> cases h
    exact hr.completers name b hget
  · cases h

end Registry.Keeps

namespace Extensions
variable {e : Extensions}

/-- The chain of a hook holds kept members only. -/
theorem Keeps.chain (he : e.Keeps k) (hook : String) :
    ∀ i ∈ e.chain hook, i.member.Keeps k := by
  intro i hi
  rw [Extensions.chain] at hi
  cases h : e.chains.get? hook with
  | none =>
      rw [h] at hi
      cases hi
  | some chain =>
      rw [h] at hi
      exact he hook chain h i hi

/-- So extensions keep a conduct if all that their chains hold does. -/
theorem Keeps.of_chain
    (h : ∀ hook, ∀ i ∈ e.chain hook, i.member.Keeps k) : e.Keeps k := by
  intro hook chain hget i hi
  refine h hook i ?_
  rw [Extensions.chain, hget]
  exact hi

/-- The members of an extension are those of its class. -/
theorem Keeps.register (he : e.Keeps k) {c : Class} (hc : c.Keeps k)
    (name : String) (serial : Nat) (label : String) :
    (e.register c name serial label).2.Keeps k := by
  refine .of_chain ?_
  intro hook i hi
  rcases mem_chain_register hi with hi | ⟨entry, _, _, rfl⟩
  · exact he.chain hook i hi
  · exact hc entry.1

theorem Keeps.block (he : e.Keeps k) (name : String) :
    (e.block name).Keeps k := by
  refine .of_chain ?_
  intro hook i hi
  exact he.chain hook i (mem_chain_block hi)

end Extensions

end LineShell
