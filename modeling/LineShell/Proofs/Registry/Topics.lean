import LineShell.BaseShell
import LineShell.Proofs.Registry.Contents
import LineShell.Proofs.Session.Behaviour
import LineShell.Session.Help

/-! # Topics of a registry — which of them have help

    A topic is listed because something was recorded for it: a help
    producer, whatever it is, or a handler with documentation.  It stays
    listed when something else is recorded under its name later.  What
    answers for it, though, is only what was recorded last: the producer,
    unless it is no value, or else the documentation of the handler.  So
    a listed topic has help unless the last producer and the last handler
    both withhold it (`Registry.topics_helped`), which happens where an
    extension overrides a documented handler by one without documentation
    (`Registry.topic_unhelped`). -/

namespace LineShell

namespace Recording

/-- The help producer that is recorded, under its topic. -/
def help? : Recording → Option (String × Bound)
  | help topic b => some (topic, b)
  | _ => none

/-- Something is recorded under the name of a topic that does not help with
    it. -/
def Withholds (topic : String) : Recording → Prop
  | handler name h => name = topic ∧ h.member.hasDoc = false
  | help other b => other = topic ∧ b.isNull = true
  | completer _ _ => False

end Recording

namespace RegistryChange

/-- The help producer that was recorded last for a topic, over a whole
    life. -/
def lastHelp? (life : List RegistryChange) (topic : String) :
    Option Bound :=
  List.lookup topic
    ((life.flatMap recordings).filterMap Recording.help?).reverse

end RegistryChange

namespace Registry

open RegistryChange

variable {r : Registry} {topic : String}

/-- Help producers are looked up as handlers are. -/
theorem finds_help? :
    Finds Recording.help? fun r topic => r.helpers.get? topic where
  empty _ := rfl
  into r x topic := by
    cases x with
    | handler name h => rfl
    | help other b => exact get?_insert_lookup r.helpers other topic b
    | completer name b => rfl
  dispatchable _ _ := rfl
  topics _ _ := rfl

/-! ## What answers for a topic -/

/-- A handler answers for a topic if it is documented. -/
theorem docHelper?_eq_none :
    helper?.docHelper? r topic = none ↔
      ∀ h, r.handler? topic = some h → h.member.hasDoc = false := by
  rw [helper?.docHelper?]
  cases hfound : r.handler? topic with
  | none => simp
  | some h =>
      simp only [Option.bind_some, Option.some.injEq, forall_eq', Bound.hasDoc]
      cases h.member.doc? with
      | none => simp
      | some doc => cases hempty : doc.isEmpty <;> simp [hempty]

/-- Nothing answers for a topic where the producer is no value, or missing,
    and the handler is not documented, or missing. -/
theorem helper?_eq_none :
    r.helper? topic = none ↔
      (∀ b, r.helpers.get? topic = some b → b.isNull = true) ∧
      ∀ h, r.handler? topic = some h → h.member.hasDoc = false := by
  rw [← docHelper?_eq_none, helper?]
  cases hfound : r.helpers.get? topic with
  | none => simp
  | some b => cases hnull : b.isNull <;> simp [hnull]

/-! ## What is listed -/

/-- As long as the list of topics is not replaced, the topics are those
    that were recorded. -/
theorem mem_topics_ofLife {life : List RegistryChange}
    (hkept : ∀ change ∈ life, change.newTopics? = none) :
    topic ∈ (ofLife life).topics ↔
      ∃ x ∈ life.flatMap recordings, x.topic? = some topic := by
  have hgrown : namesOf newTopics? Recording.topic? life =
      (life.flatMap recordings).filterMap Recording.topic? := by
    induction life using List.reverseRecOn with
    | nil => rfl
    | append_singleton life change ih =>
        have hnew := hkept change (List.mem_append_right _ List.mem_cons_self)
        have hrest := ih fun c hc => hkept c (List.mem_append_left _ hc)
        rw [namesOf] at hrest
        rw [namesOf, List.foldl_append, hrest, List.foldl_cons,
          List.foldl_nil, hnew, List.flatMap_append, List.flatMap_singleton,
          List.filterMap_append]
        rfl
  rw [names_ofLife Registry.topics rfl topics_change life, hgrown,
    List.mem_eraseDups, List.mem_filterMap]

/-! ## What was recorded last -/

/-- What is looked up last was recorded. -/
theorem exists_of_lookup {α : Type} {item? : Recording → Option (String × α)}
    {recordings : List Recording} {name : String} {a : α}
    (h : List.lookup name (recordings.filterMap item?).reverse = some a) :
    ∃ x ∈ recordings, item? x = some (name, a) := by
  obtain ⟨before, after, hsplit, -⟩ := List.lookup_eq_some_iff.mp h
  have hmem : (name, a) ∈ recordings.filterMap item? := by
    rw [← List.mem_reverse, hsplit]
    exact List.mem_append_right _ List.mem_cons_self
  exact List.mem_filterMap.mp hmem

/-- Where something was recorded under a name, something is looked up. -/
theorem lookup_of_mem {α : Type} {item? : Recording → Option (String × α)}
    {recordings : List Recording} {name : String} {a : α} {x : Recording}
    (hx : x ∈ recordings) (hitem : item? x = some (name, a)) :
    ∃ last,
      List.lookup name (recordings.filterMap item?).reverse = some last := by
  have hmem : (name, a) ∈ (recordings.filterMap item?).reverse :=
    List.mem_reverse.mpr (List.mem_filterMap.mpr ⟨x, hx, hitem⟩)
  refine Option.ne_none_iff_exists'.mp fun hnone => ?_
  have hfresh := List.lookup_eq_none_iff.mp hnone (name, a) hmem
  exact absurd rfl (bne_iff_ne.mp hfresh)

section Last

variable {life : List RegistryChange} {name : String} {h : Handler}
variable {b : Bound}

theorem mem_of_lastHandler? (hlast : lastHandler? life name = some h) :
    Recording.handler name h ∈ life.flatMap recordings := by
  obtain ⟨x, hx, hitem⟩ := exists_of_lookup hlast
  cases x with
  | handler other h' =>
      cases hitem
      exact hx
  | help other b => cases hitem
  | completer other b => cases hitem

theorem mem_of_lastHelp? (hlast : lastHelp? life topic = some b) :
    Recording.help topic b ∈ life.flatMap recordings := by
  obtain ⟨x, hx, hitem⟩ := exists_of_lookup hlast
  cases x with
  | handler other h => cases hitem
  | help other b' =>
      cases hitem
      exact hx
  | completer other b' => cases hitem

theorem exists_lastHandler?
    (hmem : Recording.handler name h ∈ life.flatMap recordings) :
    ∃ last, lastHandler? life name = some last :=
  lookup_of_mem hmem rfl

theorem exists_lastHelp?
    (hmem : Recording.help topic b ∈ life.flatMap recordings) :
    ∃ last, lastHelp? life topic = some last :=
  lookup_of_mem hmem rfl

end Last

/-! ## Listed topics and their help -/

variable {life : List RegistryChange}

/-- Nothing answers for a topic where the producer and the handler that
    were recorded last withhold it. -/
theorem helper?_ofLife_eq_none :
    (ofLife life).helper? topic = none ↔
      (∀ b, lastHelp? life topic = some b → b.isNull = true) ∧
      ∀ h, lastHandler? life topic = some h → h.member.hasDoc = false := by
  have hhelp : (ofLife life).helpers.get? topic = lastHelp? life topic :=
    finds_help?.ofLife life topic
  rw [helper?_eq_none, handler?_ofLife, hhelp]

/-- Where nothing withholds a topic for which something was recorded,
    something answers for it. -/
theorem helper?_ne_none {x : Recording}
    (hx : x ∈ life.flatMap recordings) (htopic : x.topic? = some topic)
    (hfree : ∀ x ∈ life.flatMap recordings, ¬ x.Withholds topic) :
    (ofLife life).helper? topic ≠ none := by
  rw [Ne, helper?_ofLife_eq_none]
  rintro ⟨hhelp, hhandler⟩
  cases x with
  | handler name h =>
      rw [Recording.topic?, Option.ite_none_right_eq_some,
        Option.some.injEq] at htopic
      obtain ⟨-, rfl⟩ := htopic
      obtain ⟨last, hlast⟩ := exists_lastHandler? hx
      exact hfree _ (mem_of_lastHandler? hlast) ⟨rfl, hhandler last hlast⟩
  | help other b =>
      obtain rfl : other = topic := Option.some.inj htopic
      obtain ⟨last, hlast⟩ := exists_lastHelp? hx
      exact hfree _ (mem_of_lastHelp? hlast) ⟨rfl, hhelp last hlast⟩
  | completer name b => cases htopic

/-- What the listing says above the topics. -/
def listingHead : String := "Help is available for the following topics:"

/-- A listing of some topics has a line for each. -/
theorem helpListing_lines {topics : List String} (h : topic ∈ topics) :
    ∃ lines : List String, lines.Perm topics ∧
      helpListing topics = "\n".intercalate
        (listingHead :: lines.map fun topic => s!"  {topic}") := by
  refine ⟨_, List.mergeSort_perm topics fun a b => decide (a ≤ b), ?_⟩
  rw [helpListing]
  split
  · rename_i hsorted
    have hperm := List.mergeSort_perm topics fun a b => decide (a ≤ b)
    rw [hsorted] at hperm
    rw [hperm.symm.eq_nil] at h
    cases h
  · rfl

/-- Help for a topic that nothing answers for. -/
theorem helpText_unhelped (h : r.helper? topic = none) (execute : Executor)
    (args : List Value) {s : Session} (hs : s.registry = r) :
    Run.helpText execute (.text topic :: args) s =
      some (.ok (noHelp topic), s) := by
  have hfound : (Value.text topic).asText?.bind s.registry.helper? =
      none := by
    rw [hs]
    exact h
  have hhashable : (Value.text topic).isUnhashable = false := rfl
  rw [Run.helpText, Run.helpTopic, Run.get_bind_eq]
  simp only [hhashable, Bool.false_eq_true, if_false, hfound]
  rfl

/-- Help without a topic is the listing. -/
theorem helpText_listing (h : topic ∈ r.topics) (execute : Executor)
    {s : Session} (hs : s.registry = r) :
    ∃ lines : List String, lines.Perm r.topics ∧
      Run.helpText execute [] s = some (.ok ("\n".intercalate
        (listingHead :: lines.map fun topic => s!"  {topic}")), s) := by
  obtain ⟨lines, hperm, hlines⟩ := helpListing_lines h
  have hask : Run.helpText execute [] s =
      some (.ok (helpListing s.registry.topics), s) := rfl
  exact ⟨lines, hperm, by rw [hask, hs, hlines]⟩

/-- **LISTED TOPICS**: after a life in which the list of topics was not
    replaced, the topics are those that something was recorded for, and
    the listing has a line for each.  One is without help just when the
    last producer is no value and the last handler is not documented,
    where there are such; so a listed topic has help if nothing was ever
    recorded that withholds it.  Where there is none, this is what every
    request for help says. -/
theorem topics_helped (hkept : ∀ change ∈ life, change.newTopics? = none)
    (topic : String) :
    (topic ∈ (ofLife life).topics ↔
      ∃ x ∈ life.flatMap recordings, x.topic? = some topic) ∧
    ((ofLife life).helper? topic = none ↔
      (∀ b, lastHelp? life topic = some b → b.isNull = true) ∧
      ∀ h, lastHandler? life topic = some h → h.member.hasDoc = false) ∧
    (topic ∈ (ofLife life).topics →
      (∀ x ∈ life.flatMap recordings, ¬ x.Withholds topic) →
      (ofLife life).helper? topic ≠ none) ∧
    ∀ execute (s : Session), s.registry = ofLife life →
      (topic ∈ (ofLife life).topics →
        ∃ lines : List String, lines.Perm (ofLife life).topics ∧
          Run.helpText execute [] s = some (.ok ("\n".intercalate
            (listingHead :: lines.map fun topic => s!"  {topic}")), s)) ∧
      ((ofLife life).helper? topic = none → ∀ args,
        Run.helpText execute (.text topic :: args) s =
          some (.ok (noHelp topic), s)) := by
  refine ⟨mem_topics_ofLife hkept, helper?_ofLife_eq_none, ?_, ?_⟩
  · intro hmem hfree
    obtain ⟨x, hx, htopic⟩ := (mem_topics_ofLife hkept).mp hmem
    exact helper?_ne_none hx htopic hfree
  · intro execute s hs
    exact ⟨fun hmem => helpText_listing hmem execute hs,
      fun hbare args => helpText_unhelped hbare execute args hs⟩

/-! ## A documented handler, and one without documentation -/

/-- A shell with a documented command; what it inherits is left out. -/
def greetingShell : Class :=
  ⟨1, "Greeting", .ofList [("do_greet",
    BaseShell.member [] true (some "greet: say hello.") fun _ =>
      BaseShell.saying "hello")], []⟩

/-- An extension with the same command, without documentation. -/
def terseExtension : Class :=
  ⟨2, "Terse", .ofList [("do_greet",
    BaseShell.member [] true none fun _ => BaseShell.saying "hi")], []⟩

/-- A producer that is no value takes the place of one that is. -/
def silentHelp : Class :=
  ⟨3, "Silent", .ofList [("help_manners", .data .null)],
    [⟨4, "Base", .ofList [("help_manners",
      BaseShell.member [] true none fun _ => BaseShell.saying "Be kind.")],
      []⟩]⟩

/-- The shell, and the extension that overrides its command. -/
def greetingLife : List RegistryChange :=
  [.scan greetingShell "Greeting", .scan terseExtension "terse"]

theorem greetingLife_kept :
    ∀ change ∈ greetingLife, change.newTopics? = none := by
  intro change hchange
  rcases List.mem_cons.mp hchange with rfl | hchange
  · rfl
  · obtain rfl := List.mem_singleton.mp hchange
    rfl

/-- What holds of the topics of the shell with the extension. -/
theorem topics_helped_greeting :
    (∀ change ∈ greetingLife, change.newTopics? = none) ∧
    ("greet" ∈ (ofLife greetingLife).topics ↔
      ∃ x ∈ greetingLife.flatMap recordings, x.topic? = some "greet") ∧
    ((ofLife greetingLife).helper? "greet" = none ↔
      (∀ b, lastHelp? greetingLife "greet" = some b → b.isNull = true) ∧
      ∀ h, lastHandler? greetingLife "greet" = some h →
        h.member.hasDoc = false) ∧
    ("greet" ∈ (ofLife greetingLife).topics →
      (∀ x ∈ greetingLife.flatMap recordings, ¬ x.Withholds "greet") →
      (ofLife greetingLife).helper? "greet" ≠ none) ∧
    ∀ execute (s : Session), s.registry = ofLife greetingLife →
      ("greet" ∈ (ofLife greetingLife).topics →
        ∃ lines : List String, lines.Perm (ofLife greetingLife).topics ∧
          Run.helpText execute [] s = some (.ok ("\n".intercalate
            (listingHead :: lines.map fun topic => s!"  {topic}")), s)) ∧
      ((ofLife greetingLife).helper? "greet" = none → ∀ args,
        Run.helpText execute (.text "greet" :: args) s =
          some (.ok (noHelp "greet"), s)) :=
  ⟨greetingLife_kept, topics_helped greetingLife_kept "greet"⟩

/-- The shell by itself has help for the topic.  With the extension the
    topic is still listed, and there is no help for it.  The topic of a
    producer that is no value is listed as well. -/
theorem topic_unhelped :
    ("greet" ∈ (ofLife [.scan greetingShell "Greeting"]).topics ∧
      (ofLife [.scan greetingShell "Greeting"]).helper? "greet" ≠ none) ∧
    ("greet" ∈ (ofLife greetingLife).topics ∧
      (ofLife greetingLife).helper? "greet" = none ∧
      ∀ execute (s : Session), s.registry = ofLife greetingLife →
        Run.helpText execute [.text "greet"] s =
          some (.ok "No help available for greet.", s)) ∧
    ("manners" ∈ (ofLife [.scan silentHelp "Silent"]).topics ∧
      (ofLife [.scan silentHelp "Silent"]).helper? "manners" = none) := by
  have hbare : (ofLife greetingLife).helper? "greet" = none :=
    Option.isNone_iff_eq_none.mp (by decide +kernel)
  refine ⟨⟨by decide +kernel, ?_⟩, ⟨by decide +kernel, hbare, ?_⟩,
    by decide +kernel, Option.isNone_iff_eq_none.mp (by decide +kernel)⟩
  · exact Option.ne_none_iff_isSome.mpr (by decide +kernel)
  · intro execute s hs
    exact helpText_unhelped hbare execute [] hs

end Registry

end LineShell
