import LineShell.Class.Linearization
import LineShell.Proofs.OrderedMap

/-! # Lineages — a class keeps the order of every ancestor

    The ancestors of a class are merged from the lineages of its bases.  A
    merge takes one head after the other until nothing is left (`Merges`),
    so every list that is merged stands in the result, in its order.  Heads
    are compared by number: this is no loss as long as a number tells a
    class, which making classes preserves (`Catalogue.Sound.make`).  So in
    every catalogue that was made class by class, the lineage of an
    ancestor stands in the lineage of the class
    (`Catalogue.lineage_sublist`). -/

namespace LineShell

namespace Class

variable {queues : List (List Class)} {out : List Class} {c : Class}

/-! ## Merging -/

/-- Lists are merged by taking heads until they are empty. -/
inductive Merges : List (List Class) → List Class → Prop where
  | done {queues : List (List Class)} (h : ∀ queue ∈ queues, queue = []) :
      Merges queues []
  | step {queues : List (List Class)} {c : Class} {out : List Class}
      (hhead : ∃ queue ∈ queues, queue.head? = some c)
      (hrest : Merges (queues.map (dropHead c)) out) : Merges queues (c :: out)

theorem head_of_candidate? (h : candidate? queues = some c) :
    ∃ queue ∈ queues, queue.head? = some c := by
  rw [candidate?] at h
  obtain ⟨queue, hqueue, hfree⟩ := List.exists_of_findSome?_eq_some h
  refine ⟨queue, hqueue, ?_⟩
  cases queue with
  | nil => cases hfree
  | cons head rest =>
      dsimp only at hfree
      split at hfree
      · cases hfree
      · exact hfree

theorem merges_of_mergeWithin {steps : Nat}
    (h : mergeWithin steps queues = .ok out) : Merges queues out := by
  -- a merge ends well only with empty lists, in whichever step
  have hdone : queues.all List.isEmpty = true → Merges queues [] := by
    intro hall
    refine .done fun queue hqueue => ?_
    exact List.isEmpty_iff.mp (List.all_eq_true.mp hall queue hqueue)
  induction steps generalizing queues out with
  | zero =>
      rw [mergeWithin] at h
      split at h
      · cases h
        exact hdone ‹_›
      · cases h
  | succ steps ih =>
      rw [mergeWithin] at h
      split at h
      · cases h
        exact hdone ‹_›
      · cases hcandidate : candidate? queues with
        | none =>
            rw [hcandidate] at h
            cases h
        | some c =>
            rw [hcandidate] at h
            dsimp only at h
            cases hmerge : mergeWithin steps (queues.map (dropHead c)) with
            | error left =>
                rw [hmerge] at h
                cases h
            | ok rest =>
                rw [hmerge] at h
                cases h
                refine .step (head_of_candidate? hcandidate)
                  (ih hmerge fun hall => ?_)
                refine .done fun queue hqueue => ?_
                exact List.isEmpty_iff.mp
                  (List.all_eq_true.mp hall queue hqueue)

theorem merges_of_ancestorsOf {bases ancestors : List Class}
    (h : ancestorsOf bases = .ok ancestors) :
    Merges (bases.map lineage ++ [bases]) ancestors := by
  rw [ancestorsOf] at h
  split at h
  · cases h
  · split at h
    · cases h
      exact merges_of_mergeWithin ‹_›
    · cases h

theorem dropHead_sublist (c : Class) (queue : List Class) :
    (dropHead c queue).Sublist queue := by
  cases queue with
  | nil => exact .slnil
  | cons head rest =>
      rw [dropHead]
      split
      · exact List.sublist_cons_self head rest
      · exact .refl _

/-- Nothing comes out of a merge that was not in a list. -/
theorem Merges.mem (h : Merges queues out) :
    ∀ x ∈ out, ∃ queue ∈ queues, x ∈ queue := by
  induction h with
  | done _ => nofun
  | @step queues c out hhead _ ih =>
      intro x hx
      rcases List.mem_cons.mp hx with rfl | hx
      · obtain ⟨queue, hqueue, hhead⟩ := hhead
        exact ⟨queue, hqueue, List.mem_of_head? hhead⟩
      · obtain ⟨queue, hqueue, hmem⟩ := ih x hx
        obtain ⟨whole, hwhole, rfl⟩ := List.mem_map.mp hqueue
        exact ⟨whole, hwhole, (dropHead_sublist c whole).subset hmem⟩

/-- A number tells one of the classes in some lists from another. -/
def Apart (queues : List (List Class)) : Prop :=
  ∀ queue ∈ queues, ∀ other ∈ queues, ∀ x ∈ queue, ∀ y ∈ other,
    x.number = y.number → x = y

theorem Apart.dropHead (h : Apart queues) (c : Class) :
    Apart (queues.map (Class.dropHead c)) := by
  intro queue hqueue other hother x hx y hy hnumber
  obtain ⟨whole, hwhole, rfl⟩ := List.mem_map.mp hqueue
  obtain ⟨whole', hwhole', rfl⟩ := List.mem_map.mp hother
  exact h whole hwhole whole' hwhole' x
    ((dropHead_sublist c whole).subset hx) y
    ((dropHead_sublist c whole').subset hy) hnumber

/-- Every list stands in what it is merged to, in its order. -/
theorem Merges.sublist (h : Merges queues out) (happart : Apart queues) :
    ∀ queue ∈ queues, queue.Sublist out := by
  induction h with
  | done hempty =>
      intro queue hqueue
      obtain rfl := hempty queue hqueue
      exact .slnil
  | @step queues c out hhead _ ih =>
      intro queue hqueue
      obtain ⟨first, hfirst, hc⟩ := hhead
      have hrest := ih (happart.dropHead c) _
        (List.mem_map_of_mem hqueue)
      cases queue with
      | nil => exact List.nil_sublist _
      | cons head rest =>
          rw [Class.dropHead] at hrest
          split at hrest
          · -- the class that is taken is the head of this list too
            have hsame : head = c := happart _ hqueue _ hfirst head
              List.mem_cons_self c (List.mem_of_head? hc) (eq_of_beq ‹_›)
            rw [hsame]
            exact hrest.cons_cons c
          · exact hrest.cons c

end Class

/-! ## Catalogues -/

namespace Catalogue

variable {k k' : Catalogue} {plan : ClassPlan} {b c d : Class}

/-- A catalogue knows its classes and those in their lineages. -/
def Knows (k : Catalogue) (c : Class) : Prop :=
  ∃ name d, k.find? name = some d ∧ c ∈ d.lineage

/-- What holds of a catalogue that was made class by class: numbers are
    given out once, and lineages stand in lineages. -/
structure Sound (k : Catalogue) : Prop where
  numbered : ∀ c, k.Knows c → c.number < k.made
  apart : ∀ c d, k.Knows c → k.Knows d → c.number = d.number → c = d
  sublist : ∀ d, k.Knows d → ∀ b ∈ d.lineage, b.lineage.Sublist d.lineage

/-- What a class that is known can fall back on is known. -/
theorem Sound.knows (h : k.Sound) (hd : k.Knows d) (hb : b ∈ d.lineage) :
    k.Knows b := by
  obtain ⟨name, e, he, hde⟩ := hd
  have hsublist := h.sublist e ⟨name, e, he, List.mem_cons_self⟩ d hde
  exact ⟨name, e, he, hsublist.subset hb⟩

theorem sound_ofClass (name : String) (members : List (String × Attribute)) :
    (ofClass name members).Sound := by
  have hknows : ∀ c, (ofClass name members).Knows c →
      c = ⟨0, name, .ofList members, []⟩ := by
    rintro c ⟨other, d, hd, hc⟩
    rw [find?, ofClass, OrderedMap.get?_insert] at hd
    split at hd
    · cases hd
      exact List.mem_singleton.mp hc
    · cases hd
  constructor
  · intro c hc
    rw [hknows c hc]
    exact Nat.zero_lt_one
  · intro c d hc hd _
    rw [hknows c hc, hknows d hd]
  · intro d hd b hb
    rw [hknows d hd] at hb ⊢
    obtain rfl := List.mem_singleton.mp hb
    exact .refl _

/-- The catalogue with one class more. -/
def added (k : Catalogue) (name : String) (c : Class) : Catalogue :=
  ⟨k.classes.insert name c, k.made + 1⟩

theorem of_make (h : k.make plan = .ok k') :
    ∃ ancestors, Class.Merges ((plan.bases.filterMap k.find?).map
        Class.lineage ++ [plan.bases.filterMap k.find?]) ancestors ∧
      k' = k.added plan.name
        ⟨k.made, plan.name, .ofList plan.members, ancestors⟩ := by
  rw [make] at h
  cases hancestors : Class.ancestorsOf (plan.bases.filterMap k.find?) with
  | error e =>
      rw [hancestors] at h
      cases h
  | ok ancestors =>
      rw [hancestors] at h
      cases h
      exact ⟨ancestors, Class.merges_of_ancestorsOf hancestors, rfl⟩

/-- Lineages that are known are merged to classes that are known, each with
    its lineage. -/
theorem Sound.merged (h : k.Sound) {bases ancestors : List Class}
    (hbases : ∀ base ∈ bases, k.Knows base)
    (hmerges : Class.Merges (bases.map Class.lineage ++ [bases])
      ancestors) :
    ∀ x ∈ ancestors, k.Knows x ∧ x.lineage.Sublist ancestors := by
  -- every class in a list that is merged stands in the lineage of a base
  have hqueue : ∀ queue ∈ bases.map Class.lineage ++ [bases], ∀ x ∈ queue,
      ∃ base ∈ bases, x ∈ base.lineage := by
    intro queue hmem x hx
    rcases List.mem_append.mp hmem with hmem | hmem
    · obtain ⟨base, hb, rfl⟩ := List.mem_map.mp hmem
      exact ⟨base, hb, hx⟩
    · rw [List.mem_singleton.mp hmem] at hx
      exact ⟨x, hx, List.mem_cons_self⟩
  have hknown : ∀ queue ∈ bases.map Class.lineage ++ [bases], ∀ x ∈ queue,
      k.Knows x := by
    intro queue hmem x hx
    obtain ⟨base, hb, hx⟩ := hqueue queue hmem x hx
    exact h.knows (hbases base hb) hx
  have happart : Class.Apart (bases.map Class.lineage ++ [bases]) :=
    fun queue hq other ho x hx y hy =>
      h.apart x y (hknown queue hq x hx) (hknown other ho y hy)
  intro x hx
  obtain ⟨queue, hmem, hx⟩ := hmerges.mem x hx
  obtain ⟨base, hb, hx⟩ := hqueue queue hmem x hx
  have hown := h.sublist base (hbases base hb) x hx
  have hmerged := hmerges.sublist happart base.lineage
    (List.mem_append_left _ (List.mem_map_of_mem hb))
  exact ⟨h.knows (hbases base hb) hx, hown.trans hmerged⟩

theorem knows_added (hancestors : ∀ x ∈ c.ancestors, k.Knows x)
    {name : String} {x : Class} (hx : (k.added name c).Knows x) :
    x = c ∨ k.Knows x := by
  obtain ⟨other, d, hd, hx⟩ := hx
  rw [find?, added, OrderedMap.get?_insert] at hd
  split at hd
  · obtain rfl := Option.some.inj hd
    exact (List.mem_cons.mp hx).imp_right (hancestors x)
  · exact .inr ⟨other, d, hd, hx⟩

/-- A class with the next number, and with ancestors that are known, each
    with its lineage, can be added. -/
theorem Sound.added (h : k.Sound) (hnumber : c.number = k.made)
    (hancestors : ∀ x ∈ c.ancestors,
      k.Knows x ∧ x.lineage.Sublist c.ancestors) (name : String) :
    (k.added name c).Sound := by
  have hknows : ∀ x, (k.added name c).Knows x → x = c ∨ k.Knows x :=
    fun x => knows_added fun y hy => (hancestors y hy).1
  have hfresh : ∀ x, k.Knows x → x.number ≠ c.number := by
    intro x hx
    have hlt := h.numbered x hx
    omega
  constructor
  · intro x hx
    show x.number < k.made + 1
    rcases hknows x hx with rfl | hx
    · omega
    · exact Nat.lt_succ_of_lt (h.numbered x hx)
  · intro x y hx hy hsame
    rcases hknows x hx with hxc | hxk <;> rcases hknows y hy with hyc | hyk
    · rw [hxc, hyc]
    · exact absurd (hxc ▸ hsame.symm) (hfresh y hyk)
    · exact absurd (hyc ▸ hsame) (hfresh x hxk)
    · exact h.apart x y hxk hyk hsame
  · intro x hx b hb
    rcases hknows x hx with rfl | hx
    · rcases List.mem_cons.mp hb with rfl | hb
      · exact .refl _
      · exact (hancestors b hb).2.cons x
    · exact h.sublist x hx b hb

/-- Making a class gives out the next number, and merges lineages that are
    known. -/
theorem Sound.make (h : k.Sound) (hmake : k.make plan = .ok k') :
    k'.Sound := by
  obtain ⟨ancestors, hmerges, rfl⟩ := of_make hmake
  have hbases : ∀ base ∈ plan.bases.filterMap k.find?, k.Knows base := by
    intro base hmem
    obtain ⟨name, -, hfound⟩ := List.mem_filterMap.mp hmem
    exact ⟨name, base, hfound, List.mem_cons_self⟩
  exact h.added rfl (h.merged hbases hmerges) plan.name

theorem Sound.makeAll (h : k.Sound) {plans : List ClassPlan}
    (hmake : k.makeAll plans = .ok k') : k'.Sound := by
  induction plans generalizing k with
  | nil =>
      cases hmake
      exact h
  | cons plan rest ih =>
      rw [Catalogue.makeAll, List.foldlM_cons] at hmake
      cases hfirst : k.make plan with
      | error e =>
          rw [hfirst] at hmake
          cases hmake
      | ok middle =>
          rw [hfirst] at hmake
          exact ih (h.make hfirst) hmake

/-- In a catalogue that was made from one class, the lineage of an ancestor
    stands in the lineage of the class, in its order. -/
theorem lineage_sublist {name title : String}
    {members : List (String × Attribute)} {plans : List ClassPlan}
    (hmake : (ofClass name members).makeAll plans = .ok k)
    (hd : k.find? title = some d) (hb : b ∈ d.lineage) :
    b.lineage.Sublist d.lineage :=
  ((sound_ofClass name members).makeAll hmake).sublist d
    ⟨title, d, hd, List.mem_cons_self⟩ b hb

end Catalogue

end LineShell
