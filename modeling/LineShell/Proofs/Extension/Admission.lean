import LineShell.Proofs.Extension.Changes
import LineShell.Proofs.OrderedMap
import Mathlib.Data.List.TakeWhile

/-! # Extensions — which objects are admitted

    Registering an object first takes its name and then puts its marked
    members into their chains, one after the other, and it may fail at any
    of these.  It fails for one of four reasons (`Extensions.Refuses`), and
    where there is none of them it succeeds (`Extensions.Admits`).  In
    three of the four cases nothing has been done when it fails.  In the
    fourth a member does not fit: then the object has its name, and its
    members before that one are in their chains, in order
    (`Extensions.entered`).  Of an object that succeeds all are. -/

namespace LineShell

namespace Extensions

variable {e : Extensions} {c : Class} {name label : String} {serial : Nat}
variable {f : Fault} {members : List (String × HookMark)}

/-! ## One member -/

/-- A marked member takes only what its hook offers; a hook that offers
    nothing by name takes any. -/
def Fits (entry : String × HookMark) : Prop :=
  ∀ offered, hookParams? (hookOf entry.1 entry.2) = some offered →
    ∀ p ∈ entry.2.params, p ∈ offered

/-- The implementation that a marked member becomes. -/
def implementationOf (c : Class) (name : String) (serial : Nat)
    (entry : String × HookMark) : Implementation :=
  ⟨name, serial, c.bind entry.1, entry.2⟩

/-- What is checked of a marked member is whether it fits. -/
theorem fits_iff (entry : String × HookMark) :
    Fits entry ↔
      (match hookParams? (hookOf entry.1 entry.2) with
        | none => true
        | some offered => entry.2.params.all offered.contains) = true := by
  rw [Fits]
  cases hookParams? (hookOf entry.1 entry.2) with
  | none => exact ⟨fun _ => rfl, fun _ _ h => nomatch h⟩
  | some offered =>
      simp only [Option.some.injEq, forall_eq', List.all_eq_true,
        List.contains_iff_mem]

instance (entry : String × HookMark) : Decidable (Fits entry) :=
  decidable_of_iff _ (fits_iff entry).symm

/-- A line is nothing that a hook of results offers. -/
example : ¬ Fits ("postcmd", ⟨false, false, none, ["line"]⟩) := by
  decide

theorem addImplementation_fits {entry : String × HookMark}
    (h : Fits entry) (e : Extensions) (c : Class) (name : String)
    (serial : Nat) :
    e.addImplementation (hookOf entry.1 entry.2)
        (implementationOf c name serial entry) =
      .ok (e.added (hookOf entry.1 entry.2)
        (implementationOf c name serial entry)) :=
  if_pos ((fits_iff entry).mp h)

theorem addImplementation_misfit {entry : String × HookMark}
    (h : ¬ Fits entry) (e : Extensions) (c : Class) (name : String)
    (serial : Nat) :
    e.addImplementation (hookOf entry.1 entry.2)
        (implementationOf c name serial entry) =
      .error .badExtension :=
  if_neg fun hchecked => h ((fits_iff entry).mpr hchecked)

/-! ## One member after the other -/

/-- The extensions with the implementations of an object, in the order of
    its marked members. -/
def addedAll (e : Extensions) (c : Class) (name : String) (serial : Nat)
    (members : List (String × HookMark)) : Extensions :=
  members.foldl (fun e entry => e.added (hookOf entry.1 entry.2)
    (implementationOf c name serial entry)) e

/-- A member that fits is put into its chain, and the rest follows. -/
theorem addMembers_cons {entry : String × HookMark} (h : Fits entry)
    (e : Extensions) (rest : List (String × HookMark)) :
    e.addMembers c name serial (entry :: rest) =
      (e.added (hookOf entry.1 entry.2)
        (implementationOf c name serial entry)).addMembers c name serial
          rest := by
  have hfirst := addImplementation_fits h e c name serial
  rw [implementationOf] at hfirst
  rw [addMembers, hfirst]
  rfl

theorem addMembers_fits (h : ∀ entry ∈ members, Fits entry)
    (e : Extensions) :
    e.addMembers c name serial members =
      (.ok (), e.addedAll c name serial members) := by
  induction members generalizing e with
  | nil => rfl
  | cons entry rest ih =>
      rw [addMembers_cons (h entry List.mem_cons_self)]
      exact ih (fun other ho => h other (List.mem_cons_of_mem _ ho)) _

/-- The first member that does not fit ends it with a fault; those before
    it are in their chains. -/
theorem addMembers_misfit {before after : List (String × HookMark)}
    {entry : String × HookMark} (hbefore : ∀ b ∈ before, Fits b)
    (hentry : ¬ Fits entry) (e : Extensions) :
    e.addMembers c name serial (before ++ entry :: after) =
      (.error .badExtension, e.addedAll c name serial before) := by
  induction before generalizing e with
  | nil =>
      have hfirst := addImplementation_misfit hentry e c name serial
      rw [implementationOf] at hfirst
      rw [List.nil_append, addMembers, hfirst]
      rfl
  | cons b rest ih =>
      -- those before it are put in as if all fitted
      rw [List.cons_append, addMembers_cons (hbefore b List.mem_cons_self)]
      exact ih (fun other ho => hbefore other (List.mem_cons_of_mem _ ho)) _

/-- Either all members of a list fit, or there is a first that does
    not. -/
theorem fits_or_misfit (members : List (String × HookMark)) :
    (∀ entry ∈ members, Fits entry) ∨
      ∃ before entry after, members = before ++ entry :: after ∧
        (∀ b ∈ before, Fits b) ∧ ¬ Fits entry := by
  induction members with
  | nil => exact Or.inl fun _ h => nomatch h
  | cons first rest ih =>
      by_cases hfirst : Fits first
      -- the first misfit of the rest is the first of all if this one fits
      · rcases ih with hrest | ⟨before, entry, after, rfl, hbefore, hentry⟩
        · refine Or.inl ?_
          intro entry hentry
          rcases List.mem_cons.mp hentry with rfl | hentry
          · exact hfirst
          · exact hrest entry hentry
        · refine Or.inr ⟨first :: before, entry, after, rfl, ?_, hentry⟩
          intro b hb
          rcases List.mem_cons.mp hb with rfl | hb
          · exact hfirst
          · exact hbefore b hb
      · refine Or.inr ⟨[], first, rest, rfl, ?_, hfirst⟩
        exact fun _ h => nomatch h

/-! ## The object -/

/-- The marked members of a class before the first that does not fit. -/
def fitting (c : Class) : List (String × HookMark) :=
  (markedMembers c).takeWhile fun entry => Fits entry

/-- They are all that there are, if all fit. -/
theorem fitting_of_fits (h : ∀ entry ∈ markedMembers c, Fits entry) :
    fitting c = markedMembers c :=
  List.takeWhile_eq_self_iff.mpr fun entry hentry =>
    decide_eq_true (h entry hentry)

theorem fitting_of_misfit {before after : List (String × HookMark)}
    {entry : String × HookMark}
    (h : markedMembers c = before ++ entry :: after)
    (hbefore : ∀ b ∈ before, Fits b) (hentry : ¬ Fits entry) :
    fitting c = before := by
  rw [fitting, h, List.takeWhile_append_of_pos fun b hb =>
      decide_eq_true (hbefore b hb), List.takeWhile_cons,
    if_neg (mt of_decide_eq_true hentry), List.append_nil]

/-- The extensions with an object that has come in under a name: it has the
    name, and its members are in their chains, up to the first that does
    not fit. -/
def entered (e : Extensions) (c : Class) (name : String) (serial : Nat) :
    Extensions :=
  { e with names := e.names.insert name (some serial) }.addedAll c name
    serial (fitting c)

/-- Adding members leaves the names. -/
theorem names_addedAll (e : Extensions) (c : Class) (name : String)
    (serial : Nat) (members : List (String × HookMark)) :
    (e.addedAll c name serial members).names = e.names := by
  induction members generalizing e with
  | nil => rfl
  | cons entry rest ih => exact ih _

theorem names_entered (e : Extensions) (c : Class) (name : String)
    (serial : Nat) :
    (e.entered c name serial).names = e.names.insert name (some serial) :=
  names_addedAll _ _ _ _ _

/-- What an object needs to be admitted under a name: the name is free,
    the object has none, and all its marked members fit. -/
structure Admits (e : Extensions) (c : Class) (name : String)
    (serial : Nat) : Prop where
  free : e.names.get? name = none
  unnamed : some serial ∉ e.names.values
  fits : ∀ entry ∈ markedMembers c, Fits entry

/-- Why an object is refused under a name, the fault of it, and the
    extensions that are left. -/
inductive Refuses (e : Extensions) (c : Class) (name : String)
    (serial : Nat) (label : String) : Fault → Extensions → Prop where
  /-- The name is blocked. -/
  | blocked (h : e.names.get? name = some none) :
      Refuses e c name serial label (.refused (.blockedExtension label)) e
  /-- Another object has the name. -/
  | taken (other : Nat) (h : e.names.get? name = some (some other)) :
      Refuses e c name serial label (.refused .takenExtension) e
  /-- The object has a name. -/
  | named (hfree : e.names.get? name = none)
      (h : some serial ∈ e.names.values) :
      Refuses e c name serial label (.refused .takenExtension) e
  /-- A marked member takes what its hook does not offer; those before it
      fit. -/
  | misfit (before after : List (String × HookMark))
      (entry : String × HookMark) (hfree : e.names.get? name = none)
      (hunnamed : some serial ∉ e.names.values)
      (h : markedMembers c = before ++ entry :: after)
      (hbefore : ∀ b ∈ before, Fits b) (hentry : ¬ Fits entry) :
      Refuses e c name serial label .badExtension
        (e.entered c name serial)

variable {left : Extensions}

theorem register_admits (h : e.Admits c name serial) (label : String) :
    e.register c name serial label = (.ok (), e.entered c name serial) := by
  rw [register_eq h.free h.unnamed, entered, fitting_of_fits h.fits]
  exact addMembers_fits h.fits _

theorem register_refuses (h : e.Refuses c name serial label f left) :
    e.register c name serial label = (.error f, left) := by
  cases h with
  | blocked h => rw [register, h]
  | taken other h => rw [register, h]
  | named hfree h =>
      rw [register, hfree]
      exact if_pos (List.contains_iff_mem.mpr h)
  | misfit before after entry hfree hunnamed h hbefore hentry =>
      rw [register_eq hfree hunnamed, entered,
        fitting_of_misfit h hbefore hentry, h]
      exact addMembers_misfit hbefore hentry _

/-- There is no third way. -/
theorem admits_or_refuses (e : Extensions) (c : Class) (name : String)
    (serial : Nat) (label : String) :
    e.Admits c name serial ∨
      ∃ f left, e.Refuses c name serial label f left := by
  cases hname : e.names.get? name with
  | some holder =>
      cases holder with
      | none => exact Or.inr ⟨_, _, .blocked hname⟩
      | some other => exact Or.inr ⟨_, _, .taken other hname⟩
  | none =>
      by_cases hserial : some serial ∈ e.names.values
      · exact Or.inr ⟨_, _, .named hname hserial⟩
      · rcases fits_or_misfit (markedMembers c) with
          hfits | ⟨before, entry, after, h, hbefore, hentry⟩
        · exact Or.inl ⟨hname, hserial, hfits⟩
        · exact Or.inr
            ⟨_, _, .misfit before after entry hname hserial h hbefore hentry⟩

/-- A refusal is for a member that does not fit, or nothing was done. -/
theorem Refuses.left_eq (h : e.Refuses c name serial label f left)
    (hf : f ≠ .badExtension) : left = e := by
  cases h with
  | blocked => rfl
  | taken => rfl
  | named => rfl
  | misfit => exact absurd rfl hf

/-- What is left where a member does not fit. -/
theorem Refuses.left_misfit
    (h : e.Refuses c name serial label .badExtension left) :
    left = e.entered c name serial := by
  cases h with
  | misfit => rfl

/-- An object that is refused for one of its members was free to come in
    otherwise: where its name is given back, the same object with that
    member corrected can have it, and so can any other that fits. -/
theorem Refuses.corrected
    (h : e.Refuses c name serial label .badExtension left)
    {other : Class} {number : Nat}
    (hn : number = serial ∨ some number ∉ e.names.values)
    (hfits : ∀ entry ∈ markedMembers other, Fits entry) :
    e.Admits other name number := by
  cases h with
  | misfit _ _ _ hfree hunnamed _ _ _ =>
      rcases hn with rfl | hn
      · exact ⟨hfree, hunnamed, hfits⟩
      · exact ⟨hfree, hn, hfits⟩

/-! ## After an object that came in -/

/-- Its name is taken, by itself. -/
theorem refuses_entered (e : Extensions) (c other : Class) (name : String)
    (serial number : Nat) (label : String) :
    (e.entered c name serial).Refuses other name number label
      (.refused .takenExtension) (e.entered c name serial) := by
  refine .taken serial ?_
  rw [names_entered, OrderedMap.get?_insert, if_pos rfl]

/-- Another object can come in under another name, if it could before. -/
theorem Admits.entered {other : Class} {key : String} {number : Nat}
    (h : e.Admits other key number) (hk : key ≠ name)
    (hn : number ≠ serial) :
    (e.entered c name serial).Admits other key number where
  free := by
    rw [names_entered, OrderedMap.get?_insert, if_neg (Ne.symm hk)]
    exact h.free
  unnamed := by
    intro hmem
    obtain ⟨held, hheld⟩ := OrderedMap.mem_values.mp hmem
    rw [names_entered, OrderedMap.get?_insert] at hheld
    -- the name that it is said to have is the new one, or was there before
    split at hheld
    · cases hheld
      exact hn rfl
    · exact h.unnamed (OrderedMap.mem_values.mpr ⟨held, hheld⟩)
  fits := h.fits

end Extensions

end LineShell
