import LineShell.Extension

/-! # Extensions — what registering and blocking change

    Registering an object gives it its name and puts its marked members
    into the chains of their hooks; whether it comes to its end or not,
    nothing else comes into a chain (`Extensions.mem_chain_register`).
    Blocking a name puts nothing into a chain
    (`Extensions.mem_chain_block`). -/

namespace LineShell

namespace Extensions

variable {e e₁ : Extensions} {c : Class} {i : Implementation}
variable {hook name label : String} {serial : Nat}

/-! ## One chain -/

/-- A chain grows by the implementation that is added, wherever it is
    put. -/
theorem mem_of_mem_insertImplementation {i j : Implementation}
    {chain : List Implementation}
    (h : j ∈ insertImplementation i chain) : j = i ∨ j ∈ chain := by
  rw [insertImplementation] at h
  -- the front is for the last, the end for the first, others stand between
  split at h
  · exact List.mem_cons.mp h
  · split at h
    · rcases List.mem_append.mp h with h | h
      · exact Or.inr h
      · exact Or.inl (List.mem_singleton.mp h)
    · rcases List.mem_append.mp h with h | h
      · refine Or.inr (List.mem_reverse.mp ?_)
        exact (List.dropWhile_sublist _).subset (List.mem_reverse.mp h)
      · rcases List.mem_cons.mp h with h | h
        · exact Or.inl h
        · refine Or.inr (List.mem_reverse.mp ?_)
          exact (List.takeWhile_sublist _).subset (List.mem_reverse.mp h)

/-- Taking an implementation out of a chain leaves the others. -/
theorem dropFirst_sublist (serial : Nat) (chain : List Implementation) :
    (dropFirst serial chain).Sublist chain := by
  induction chain with
  | nil => exact List.Sublist.refl _
  | cons i rest ih =>
      rw [dropFirst]
      split
      · exact List.sublist_cons_self i rest
      · exact ih.cons_cons i

/-! ## Registering -/

/-- The extensions with an implementation in the chain of a hook. -/
def added (e : Extensions) (hook : String) (i : Implementation) :
    Extensions :=
  { e with chains :=
      e.chains.insert hook (insertImplementation i (e.chain hook)) }

theorem chain_added (e : Extensions) (hook other : String)
    (i : Implementation) :
    (e.added hook i).chain other =
      if hook = other then insertImplementation i (e.chain hook)
      else e.chain other := by
  rw [chain, added, OrderedMap.get?_insert]
  split <;> rfl

/-- Whether a hook refuses an implementation does not depend on the
    others. -/
theorem addImplementation_added (hook : String) (i : Implementation) :
    (∀ e : Extensions, e.addImplementation hook i = .ok (e.added hook i)) ∨
      ∀ e : Extensions, e.addImplementation hook i = .error .badExtension := by
  simp only [addImplementation]
  cases hookParams? hook with
  | none => exact Or.inl fun _ => rfl
  | some offered =>
      by_cases ha : i.mark.params.all offered.contains = true
      · exact Or.inl fun _ => if_pos ha
      · exact Or.inr fun _ => if_neg ha

/-- Adding implementations leaves the names, and puts the implementations
    into the chains and nothing else. -/
theorem addMembers_changes (e : Extensions)
    (members : List (String × HookMark)) :
    (e.addMembers c name serial members).2.names = e.names ∧
      ∀ hook, ∀ i ∈ (e.addMembers c name serial members).2.chain hook,
        i ∈ e.chain hook ∨ ∃ entry ∈ members,
          hookOf entry.1 entry.2 = hook ∧
            i = ⟨name, serial, c.bind entry.1, entry.2⟩ := by
  induction members generalizing e with
  | nil => exact ⟨rfl, fun _ _ hi => Or.inl hi⟩
  | cons entry rest ih =>
      obtain ⟨member, mark⟩ := entry
      rw [addMembers]
      rcases addImplementation_added (hookOf member mark)
          ⟨name, serial, c.bind member, mark⟩ with hok | hbad
      · rw [hok e]
        obtain ⟨hnames, hrest⟩ := ih (e.added (hookOf member mark)
          ⟨name, serial, c.bind member, mark⟩)
        refine ⟨hnames, ?_⟩
        intro hook i hi
        rcases hrest hook i hi with hi | ⟨other, hother, hadded⟩
        · rw [chain_added] at hi
          split at hi
          · rename_i hhook
            rcases mem_of_mem_insertImplementation hi with rfl | hi
            · exact Or.inr ⟨_, List.mem_cons_self, hhook, rfl⟩
            · exact Or.inl (hhook ▸ hi)
          · exact Or.inl hi
        · exact Or.inr ⟨other, List.mem_cons_of_mem _ hother, hadded⟩
      -- a member that is refused leaves what there is
      · rw [hbad e]
        exact ⟨rfl, fun _ _ hi => Or.inl hi⟩

/-- What registering comes to where the name is free and the object has
    none. -/
theorem register_eq (hn : e.names.get? name = none)
    (hs : some serial ∉ e.names.values) :
    e.register c name serial label =
      { e with names := e.names.insert name (some serial) }.addMembers c
        name serial (markedMembers c) := by
  have hfree : ¬ e.names.values.contains (some serial) = true :=
    fun h => hs (List.contains_iff_mem.mp h)
  rw [register, hn]
  exact if_neg hfree

/-- An object is refused before anything is done, or it had no name before
    and its name was free. -/
theorem register_cases (e : Extensions) (c : Class) (name : String)
    (serial : Nat) (label : String) :
    (∃ f, e.register c name serial label = (.error f, e)) ∨
      (e.names.get? name = none ∧ some serial ∉ e.names.values) := by
  cases hn : e.names.get? name with
  | some holder =>
      cases holder <;> exact Or.inl ⟨_, by rw [register, hn]⟩
  | none =>
      by_cases hs : some serial ∈ e.names.values
      · refine Or.inl ⟨.refused .takenExtension, ?_⟩
        rw [register, hn]
        exact if_pos (List.contains_iff_mem.mpr hs)
      · exact Or.inr ⟨rfl, hs⟩

/-- A registered object had no name before, and its name was free. -/
theorem of_register
    (h : e.register c name serial label = (.ok (), e₁)) :
    e.names.get? name = none ∧ some serial ∉ e.names.values ∧
      { e with names := e.names.insert name (some serial) }.addMembers c
        name serial (markedMembers c) = (.ok (), e₁) := by
  rcases register_cases e c name serial label with ⟨f, hf⟩ | ⟨hn, hs⟩
  · cases hf.symm.trans h
  · exact ⟨hn, hs, (register_eq hn hs).symm.trans h⟩

/-- A registered object has its name. -/
theorem names_register (h : e.register c name serial label = (.ok (), e₁)) :
    e₁.names = e.names.insert name (some serial) := by
  obtain ⟨_, _, hadded⟩ := of_register h
  calc e₁.names
      = ({ e with names := e.names.insert name (some serial) }.addMembers c
          name serial (markedMembers c)).2.names := by rw [hadded]
    _ = e.names.insert name (some serial) := (addMembers_changes _ _).1

/-- What registering puts into the chains are marked members of the
    object, however it ends. -/
theorem mem_chain_register
    (hi : i ∈ (e.register c name serial label).2.chain hook) :
    i ∈ e.chain hook ∨ ∃ entry ∈ markedMembers c,
      hookOf entry.1 entry.2 = hook ∧
        i = ⟨name, serial, c.bind entry.1, entry.2⟩ := by
  rcases register_cases e c name serial label with ⟨f, hf⟩ | ⟨hn, hs⟩
  · rw [hf] at hi
    exact Or.inl hi
  · rw [register_eq hn hs] at hi
    have hadded := (addMembers_changes _ _).2 hook i hi
    exact hadded

/-! ## Blocking -/

theorem chain_dropped (e : Extensions) (names : OrderedMap (Option Nat))
    (serial : Nat) (hook : String) :
    Extensions.chain ⟨names, e.chains.map (dropFirst serial)⟩ hook =
      dropFirst serial (e.chain hook) := by
  rw [chain, chain, OrderedMap.get?_map]
  cases e.chains.get? hook <;> rfl

/-- A blocked name is taken from its object, if an object has it. -/
theorem block_named (h : e.names.get? name = some (some serial)) :
    e.block name = ⟨(e.names.erase name).insert name none,
      e.chains.map (dropFirst serial)⟩ := by
  rw [block, h]

theorem block_unnamed (h : ∀ serial, e.names.get? name ≠ some (some serial)) :
    e.block name = ⟨e.names.insert name none, e.chains⟩ := by
  rw [block]
  split
  · rename_i serial hserial
    exact absurd hserial (h serial)
  · rfl

/-- Blocking a name puts nothing into a chain. -/
theorem mem_chain_block (hi : i ∈ (e.block name).chain hook) :
    i ∈ e.chain hook := by
  by_cases hnamed : ∃ serial, e.names.get? name = some (some serial)
  · obtain ⟨serial, hserial⟩ := hnamed
    rw [block_named hserial, chain_dropped] at hi
    exact (dropFirst_sublist serial _).subset hi
  · rw [block_unnamed (not_exists.mp hnamed)] at hi
    exact hi

end Extensions

end LineShell
