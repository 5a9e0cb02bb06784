import LineShell.Proofs.Extension.Chain
import LineShell.Proofs.Extension.Changes

/-! # Extensions — with one object more or without it

    Two sets of extensions are compared that differ by one extension
    object, the *ghost*: the second may have its name and its
    implementations, the first has neither.

    * Registering the ghost is done on the second side alone
      (`Without.register_ghost`).
    * Registering another object under another name is refused on both
      sides or on none (`Without.register`).
    * Blocking a name, the ghost's or another, is done on both sides
      (`Without.block`). -/

namespace LineShell

/-- The extension object that makes the difference: its name and its
    number. -/
structure Ghost where
  name : String
  serial : Nat
  deriving DecidableEq, Repr, Inhabited

namespace Ghost

/-- Is the implementation one of another object? -/
def spares (g : Ghost) (i : Implementation) : Bool :=
  i.serial != g.serial

/-! ## Names -/

/-- The first names are the second without the ghost's, if it has its name
    there; it has no other. -/
structure Unnamed (g : Ghost) (m m' : OrderedMap (Option Nat)) : Prop where
  eq : m = if m'.get? g.name = some (some g.serial) then m'.erase g.name
    else m'
  alone : ∀ name, m'.get? name = some (some g.serial) → name = g.name

variable {g : Ghost} {m m' : OrderedMap (Option Nat)}
variable {name : String} {serial : Nat}

namespace Unnamed

/-- Where the ghost has no name, there is no difference. -/
theorem same (h : ∀ name, m.get? name ≠ some (some g.serial)) :
    Unnamed g m m where
  eq := (if_neg (h g.name)).symm
  alone name hname := absurd hname (h name)

theorem get?_eq (h : Unnamed g m m') (hn : name ≠ g.name) :
    m.get? name = m'.get? name := by
  rw [h.eq]
  split
  · rw [OrderedMap.get?_erase, if_neg (Ne.symm hn)]
  · rfl

/-- Unless the ghost has the name, it is the same on both sides. -/
theorem get?_eq_of_ne (h : Unnamed g m m')
    (hn : m'.get? name ≠ some (some g.serial)) :
    m.get? name = m'.get? name := by
  by_cases hname : name = g.name
  · subst hname
    rw [h.eq, if_neg hn]
  · exact h.get?_eq hname

/-- Other objects have their names on both sides. -/
theorem get?_serial (h : Unnamed g m m') (hs : serial ≠ g.serial) :
    m.get? name = some (some serial) ↔ m'.get? name = some (some serial) := by
  by_cases hn : m'.get? name = some (some g.serial)
  · obtain rfl := h.alone name hn
    rw [h.eq, if_pos hn, OrderedMap.get?_erase, if_pos rfl, hn]
    simp [hs.symm]
  · rw [h.get?_eq_of_ne hn]

theorem mem_values (h : Unnamed g m m') (hs : serial ≠ g.serial) :
    some serial ∈ m.values ↔ some serial ∈ m'.values := by
  rw [OrderedMap.mem_values, OrderedMap.mem_values]
  exact exists_congr fun _ => h.get?_serial hs

/-- A name that is given to another object, or blocked. -/
theorem insert (h : Unnamed g m m') (hn : name ≠ g.name) {v : Option Nat}
    (hv : v ≠ some g.serial) :
    Unnamed g (m.insert name v) (m'.insert name v) where
  eq := by
    rw [OrderedMap.get?_insert, if_neg hn, h.eq]
    split
    · exact (OrderedMap.erase_insert hn v).symm
    · rfl
  alone other := by
    rw [OrderedMap.get?_insert]
    split
    · exact fun hother => absurd (Option.some.inj hother) hv
    · exact h.alone other

/-- A name that is not the ghost's is taken from its object. -/
theorem erase (h : Unnamed g m m') (hn : name ≠ g.name) :
    Unnamed g (m.erase name) (m'.erase name) where
  eq := by
    rw [OrderedMap.get?_erase, if_neg hn, h.eq]
    split
    · exact OrderedMap.erase_erase m' g.name name
    · rfl
  alone other := by
    rw [OrderedMap.get?_erase]
    split
    · exact fun hother => nomatch hother
    · exact h.alone other

/-- A name that the ghost does not have is given up. -/
theorem erased (h : Unnamed g m m')
    (hn : m'.get? name ≠ some (some g.serial)) :
    Unnamed g (m.erase name) (m'.erase name) := by
  by_cases hname : name = g.name
  · subst hname
    obtain rfl : m = m' := h.eq.trans (if_neg hn)
    refine .same ?_
    intro other hother
    rw [OrderedMap.get?_erase] at hother
    split at hother
    · cases hother
    · rename_i hne
      exact hne (h.alone other hother).symm
  · exact h.erase hname

/-- Where the ghost's name is blocked, there is no difference. -/
theorem blocked_same
    (h : ∀ name, m.get? name = some (some g.serial) → name = g.name) :
    Unnamed g (m.insert g.name none) (m.insert g.name none) := by
  refine .same ?_
  intro other hother
  rw [OrderedMap.get?_insert] at hother
  split at hother
  · cases hother
  · rename_i hne
    exact hne (h other hother).symm

/-- A name that the ghost does not have is blocked. -/
theorem blocked (h : Unnamed g m m')
    (hn : m'.get? name ≠ some (some g.serial)) :
    Unnamed g (m.insert name none) (m'.insert name none) := by
  by_cases hname : name = g.name
  · subst hname
    obtain rfl : m = m' := h.eq.trans (if_neg hn)
    exact blocked_same h.alone
  · exact h.insert hname fun hv => nomatch hv

/-- The ghost's name is blocked. -/
theorem blocked_ghost (h : Unnamed g m m')
    (hn : m'.get? g.name = some (some g.serial)) :
    Unnamed g (m.insert g.name none)
      ((m'.erase g.name).insert g.name none) := by
  obtain rfl : m = m'.erase g.name := h.eq.trans (if_pos hn)
  refine blocked_same ?_
  intro other hother
  rw [OrderedMap.get?_erase] at hother
  split at hother
  · cases hother
  · exact h.alone other hother

/-- The ghost gets its name. -/
theorem insert_ghost (hn : m.get? g.name = none)
    (hs : ∀ name, m.get? name ≠ some (some g.serial)) :
    Unnamed g m (m.insert g.name (some g.serial)) where
  eq := by
    rw [OrderedMap.get?_insert, if_pos rfl, if_pos rfl,
      OrderedMap.erase_insert_self hn]
  alone other := by
    rw [OrderedMap.get?_insert]
    split
    · rename_i hother
      exact fun _ => hother.symm
    · exact fun hother => absurd hother (hs other)

end Unnamed

end Ghost

namespace Extensions

/-- No member of the class asks to be first and last at once. -/
def Ordered (c : Class) : Prop :=
  ∀ entry ∈ markedMembers c,
    entry.2.tryFirst = true → entry.2.tryLast = false

/-- The first extensions are the second without the ghost, if it is there;
    its implementations stand in none of the way of the others. -/
structure Without (g : Ghost) (e e' : Extensions) : Prop where
  names : g.Unnamed e.names e'.names
  chain : ∀ hook, e.chain hook = (e'.chain hook).filter g.spares
  layered : ∀ hook, Layered g.spares (e'.chain hook)

/-- Both are refused for one reason, or neither is; and what is left is
    related. -/
structure Alike (R : Extensions → Extensions → Prop)
    (p q : Except Fault Unit × Extensions) : Prop where
  result : q.1 = p.1
  left : R p.2 q.2

variable {g : Ghost} {e e' : Extensions} {c : Class}
variable {hook name label : String} {serial : Nat}
variable {i : Implementation}

theorem Without.empty : Without g .empty .empty where
  names := .same fun _ h => nomatch h
  chain _ := rfl
  layered _ := List.Pairwise.nil

/-! ## Adding implementations -/

/-- Another object's implementation is added on both sides. -/
theorem Without.added (h : Without g e e') (hi : g.spares i = true)
    (ho : i.mark.tryFirst = true → i.mark.tryLast = false) :
    Without g (e.added hook i) (e'.added hook i) where
  names := h.names
  chain other := by
    rw [chain_added, chain_added]
    split
    · rw [h.chain, filter_insert (h.layered hook) hi]
    · exact h.chain other
  layered other := by
    rw [chain_added]
    split
    · exact (h.layered hook).insert fun _ => ho
    · exact h.layered other

/-- The ghost's implementation is added on the second side alone. -/
theorem Without.added_ghost (h : Without g e e') (hi : g.spares i = false) :
    Without g e (e'.added hook i) where
  names := h.names
  chain other := by
    rw [chain_added]
    split
    · rename_i hother
      rw [filter_insert_other hi, ← h.chain, hother]
    · exact h.chain other
  layered other := by
    rw [chain_added]
    split
    · refine (h.layered hook).insert ?_
      intro hs
      rw [hi] at hs
      cases hs
    · exact h.layered other

theorem Without.addMembers (h : Without g e e') (hs : serial ≠ g.serial)
    {members : List (String × HookMark)}
    (ho : ∀ entry ∈ members,
      entry.2.tryFirst = true → entry.2.tryLast = false) :
    Alike (Without g) (e.addMembers c name serial members)
      (e'.addMembers c name serial members) := by
  induction members generalizing e e' with
  | nil => exact ⟨rfl, h⟩
  | cons entry rest ih =>
      obtain ⟨member, mark⟩ := entry
      rw [Extensions.addMembers, Extensions.addMembers]
      rcases addImplementation_added (hookOf member mark)
          ⟨name, serial, c.bind member, mark⟩ with hok | hbad
      · rw [hok e, hok e']
        have hi : g.spares ⟨name, serial, c.bind member, mark⟩ = true :=
          bne_iff_ne.mpr hs
        refine ih (h.added hi (ho _ List.mem_cons_self)) ?_
        intro other hother
        exact ho other (List.mem_cons_of_mem _ hother)
      · rw [hbad e, hbad e']
        exact ⟨rfl, h⟩

theorem Without.addMembers_ghost (h : Without g e e')
    (members : List (String × HookMark)) :
    Without g e (e'.addMembers c name g.serial members).2 := by
  induction members generalizing e' with
  | nil => exact h
  | cons entry rest ih =>
      obtain ⟨member, mark⟩ := entry
      rw [Extensions.addMembers]
      rcases addImplementation_added (hookOf member mark)
          ⟨name, g.serial, c.bind member, mark⟩ with hok | hbad
      · rw [hok e']
        have hi : g.spares ⟨name, g.serial, c.bind member, mark⟩ = false :=
          bne_self_eq_false g.serial
        exact ih (h.added_ghost hi)
      · rw [hbad e']
        exact h

/-! ## Registering and blocking -/

/-- Registering another object under another name. -/
theorem Without.register (h : Without g e e') (hn : name ≠ g.name)
    (hs : serial ≠ g.serial) (ho : Ordered c) :
    Alike (Without g) (e.register c name serial label)
      (e'.register c name serial label) := by
  have hnames := h.names.get?_eq hn
  cases hget : e'.names.get? name with
  | some owner =>
      rw [hget] at hnames
      rw [Extensions.register, Extensions.register, hget, hnames]
      cases owner <;> exact ⟨rfl, h⟩
  | none =>
      by_cases hmem : some serial ∈ e'.names.values
      · have hmem' := (h.names.mem_values hs).mpr hmem
        rw [Extensions.register, Extensions.register, hget, hnames, hget,
          if_pos (List.contains_iff_mem.mpr hmem),
          if_pos (List.contains_iff_mem.mpr hmem')]
        exact ⟨rfl, h⟩
      · have hmem' := fun hm => hmem ((h.names.mem_values hs).mp hm)
        rw [register_eq hget hmem, register_eq (hnames.trans hget) hmem']
        have hv : some serial ≠ some g.serial :=
          fun heq => hs (Option.some.inj heq)
        have hnamed : Without g
            { e with names := e.names.insert name (some serial) }
            { e' with names := e'.names.insert name (some serial) } :=
          ⟨h.names.insert hn hv, h.chain, h.layered⟩
        exact hnamed.addMembers hs ho

/-- Registering the ghost, where there is no difference yet. -/
theorem Without.register_ghost (h : Without g e e) :
    Without g e (e.register c g.name g.serial label).2 := by
  rcases register_cases e c g.name g.serial label with
    ⟨f, hf⟩ | ⟨hn, hs⟩
  · rw [hf]
    exact h
  · have hnone : ∀ name, e.names.get? name ≠ some (some g.serial) :=
      fun name hname => hs (OrderedMap.mem_values.mpr ⟨name, hname⟩)
    have hnamed : Without g e
        { e with names := e.names.insert g.name (some g.serial) } :=
      ⟨.insert_ghost hn hnone, h.chain, h.layered⟩
    rw [register_eq hn hs]
    exact hnamed.addMembers_ghost _

/-- Blocking any name. -/
theorem Without.block (h : Without g e e') (name : String) :
    Without g (e.block name) (e'.block name) := by
  have hlayered : ∀ names serial hook, Layered g.spares
      (Extensions.chain ⟨names, e'.chains.map (dropFirst serial)⟩ hook) := by
    intro names serial hook
    rw [chain_dropped]
    exact List.Pairwise.sublist (dropFirst_sublist _ _) (h.layered hook)
  by_cases hghost : e'.names.get? name = some (some g.serial)
  · -- the ghost is taken out where it is
    obtain rfl := h.names.alone name hghost
    have hnone : ∀ serial, e.names.get? g.name ≠ some (some serial) := by
      intro serial
      rw [h.names.eq, if_pos hghost, OrderedMap.get?_erase, if_pos rfl]
      exact fun hserial => nomatch hserial
    rw [block_named hghost, block_unnamed hnone]
    refine ⟨h.names.blocked_ghost hghost, ?_, hlayered _ _⟩
    intro hook
    rw [chain_dropped]
    exact (h.chain hook).trans
      (filter_dropFirst_self g.serial (e'.chain hook)).symm
  · have hsame := h.names.get?_eq_of_ne hghost
    by_cases hnamed : ∃ serial, e'.names.get? name = some (some serial)
    · -- another object is taken out on both sides
      obtain ⟨serial, hserial⟩ := hnamed
      have hs : serial ≠ g.serial := by
        rintro rfl
        exact hghost hserial
      have herased : (e'.names.erase name).get? name ≠
          some (some g.serial) := by
        rw [OrderedMap.get?_erase, if_pos rfl]
        exact fun hname => nomatch hname
      rw [block_named hserial, block_named (hsame.trans hserial)]
      refine ⟨(h.names.erased hghost).blocked herased, ?_, hlayered _ _⟩
      intro hook
      rw [chain_dropped, chain_dropped, h.chain]
      exact (filter_dropFirst hs _).symm
    · have hnone := not_exists.mp hnamed
      rw [block_unnamed hnone, block_unnamed (hsame ▸ hnone)]
      exact ⟨h.names.blocked hghost, h.chain, h.layered⟩

end Extensions

end LineShell
