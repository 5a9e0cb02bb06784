import LineShell.Proofs.Extension.Arrangement
import LineShell.Proofs.Session.Unnoticed

/-! # Registering — what an attempt leaves

    An object that is registered with a session is either admitted, with
    all its hooks and all that it handles (`Session.admitted`), or it is
    refused.  A refusal records nothing of what the object handles.  Where
    it is for the name, or because the object has one, nothing has changed.
    Where it is for a member that does not fit, it depends on the library
    that keeps the extensions: if that takes a failed registration back,
    nothing has changed; if not, the object has its name, and those of its
    members are in their chains that stand before the one that does not fit
    (`Run.Refused`, `Run.registerOne_leaves`). -/

namespace LineShell

open Extensions (Fits markedMembers fitting fill implementationsFor)

/-- Is an object admitted by a session? -/
def Session.Admits (s : Session) (r : Registration) : Prop :=
  s.extensions.Admits r.object r.label r.serial

/-- Why an object is refused by a session, the fault of it, and what is
    left of the extensions. -/
def Session.Refuses (s : Session) (r : Registration) (f : Fault)
    (left : Extensions) : Prop :=
  s.extensions.Refuses r.object r.label r.serial
    ((givenName? r.given).getD r.object.name) f left

/-- The session with an object that is admitted. -/
def Session.admitted (s : Session) (r : Registration) : Session :=
  { s with
    extensions := s.extensions.entered r.object r.label r.serial
    registry := s.registry.scan r.object r.label
    events := s.events ++ [.extensionRegistered r.label] }

theorem Session.admits_or_refuses (s : Session) (r : Registration) :
    s.Admits r ∨ ∃ f left, s.Refuses r f left :=
  Extensions.admits_or_refuses _ _ _ _ _

/-! ## Taken back or not -/

section Refused

variable {s : Session} {left : Extensions}

theorem Session.refused_self (s : Session) : s.refused s.extensions = s := by
  rw [Session.refused]
  split <;> rfl

theorem Session.refused_back (h : s.takesBack = true) : s.refused left = s :=
  if_pos h

theorem Session.refused_left (h : s.takesBack = false) :
    s.refused left = { s with extensions := left } :=
  if_neg (ne_true_of_eq_false h)

theorem Session.refused_frame (s : Session) (left : Extensions) :
    ∃ extensions, s.refused left = { s with extensions } := by
  rw [Session.refused]
  split
  · exact ⟨s.extensions, rfl⟩
  · exact ⟨left, rfl⟩

theorem Session.takesBack_refused (s : Session) (left : Extensions) :
    (s.refused left).takesBack = s.takesBack := by
  obtain ⟨extensions, h⟩ := s.refused_frame left
  rw [h]

end Refused

namespace Run

variable {s s' : Session} {r other : Registration} {l : List Registration}
variable {f : Fault} {left : Extensions}

/-- Registers an object. -/
def registerOne (r : Registration) : Run String :=
  registerExtension r.object r.serial r.given

theorem registerOne_admits (h : s.Admits r) :
    registerOne r s = some (.ok r.label, s.admitted r) :=
  registerExtension_ok (Extensions.register_admits h _)

theorem registerOne_refuses (h : s.Refuses r f left) :
    registerOne r s = some (.error f, s.refused left) :=
  registerExtension_error (Extensions.register_refuses h)

/-- An object that is registered is one that is admitted. -/
theorem of_registerOne {label : String}
    (h : registerOne r s = some (.ok label, s')) :
    s' = s.admitted r := by
  rcases s.admits_or_refuses r with ha | ⟨f, left, hf⟩
  · rw [registerOne_admits ha] at h
    cases h
    rfl
  · rw [registerOne_refuses hf] at h
    cases h

/-! ## Attempts -/

/-- Tries to register objects, in order; what each attempt came to. -/
def tryEach : List Registration → Run (List (Except Fault String))
  | [] => pure []
  | r :: rest => do
      let result ← (registerOne r).attempt
      let results ← tryEach rest
      pure (result :: results)

/-- An attempt comes to something, and then come the others. -/
theorem tryEach_cons (r : Registration) (rest : List Registration)
    (s : Session) :
    ∃ result s₁, registerOne r s = some (result, s₁) ∧
      ∀ {results s'}, tryEach rest s₁ = some (.ok results, s') →
        tryEach (r :: rest) s = some (.ok (result :: results), s') := by
  obtain ⟨result, s₁, hone⟩ : ∃ result s₁,
      registerOne r s = some (result, s₁) := by
    rcases s.admits_or_refuses r with h | ⟨f, left, h⟩
    · exact ⟨_, _, registerOne_admits h⟩
    · exact ⟨_, _, registerOne_refuses h⟩
  refine ⟨result, s₁, hone, ?_⟩
  intro results s' hrest
  rw [tryEach, bind_ok (attempt_eq hone), bind_ok hrest]
  rfl

/-- Attempts come to an end, each with a result. -/
theorem tryEach_returns (l : List Registration) (s : Session) :
    ∃ results s', tryEach l s = some (.ok results, s') ∧
      results.length = l.length := by
  induction l generalizing s with
  | nil => exact ⟨[], s, rfl, rfl⟩
  | cons r rest ih =>
      obtain ⟨result, s₁, -, htry⟩ := tryEach_cons r rest s
      obtain ⟨results, s', hrest, hlength⟩ := ih s₁
      exact ⟨_, _, htry hrest, congrArg (· + 1) hlength⟩

/-! ## What a refusal leaves -/

/-- What is left of a session that has refused an object. -/
structure Refused (s : Session) (r : Registration) (f : Fault)
    (s' : Session) : Prop where
  /-- At most the extensions have changed. -/
  frame : ∃ extensions, s' = { s with extensions }
  /-- Where no member was at fault, or all is taken back, nothing has. -/
  unchanged : f ≠ .badExtension ∨ s.takesBack = true → s' = s
  /-- So what is done after the attempt comes to what it comes to
      without. -/
  unnoticed : f ≠ .badExtension ∨ s.takesBack = true →
    ∀ later : Run Value,
      (do let _ ← (registerOne r).attempt; later) s = later s
  /-- A name that was not free is not. -/
  held : s.extensions.names.get? r.label ≠ none →
    ∀ other : Registration, other.label = r.label →
      ∃ g, registerOne other s' = some (.error g, s')
  /-- Where a member was at fault and all is taken back, an object that
      fits can have the name, the same one or a new one. -/
  corrected : f = .badExtension → s.takesBack = true →
    ∀ other : Registration, other.label = r.label →
      (other.serial = r.serial ∨
        some other.serial ∉ s.extensions.names.values) →
      (∀ entry ∈ markedMembers other.object, Fits entry) →
      registerOne other s' = some (.ok r.label, s'.admitted other)
  /-- Where it is not, the object has the name, and those of its members
      are in their chains that stand before the first that does not
      fit. -/
  halfway : f = .badExtension → s.takesBack = false →
    s'.extensions.names =
        s.extensions.names.insert r.label (some r.serial) ∧
      ∀ hook, s'.extensions.chain hook =
        fill (s.extensions.chain hook)
          (implementationsFor hook r.object r.label r.serial
            (fitting r.object))
  /-- Then no object can have the name any more. -/
  taken : f = .badExtension → s.takesBack = false →
    ∀ other : Registration, other.label = r.label →
      registerOne other s' =
        some (.error (.refused .takenExtension), s')
  /-- But another object can have another name, if it could before. -/
  elsewhere : f = .badExtension → s.takesBack = false →
    ∀ other : Registration, s.Admits other → other.label ≠ r.label →
      other.serial ≠ r.serial →
      registerOne other s' = some (.ok other.label, s'.admitted other)

/-- What a session refuses that has a holder for the name. -/
theorem registerOne_held (h : s.extensions.names.get? r.label ≠ none) :
    ∃ f, registerOne r s = some (.error f, s) := by
  obtain ⟨holder, hholder⟩ := Option.ne_none_iff_exists'.mp h
  cases holder with
  | none =>
      have hone : registerOne r s = _ :=
        registerOne_refuses (.blocked hholder)
      rw [s.refused_self] at hone
      exact ⟨_, hone⟩
  | some serial =>
      have hone : registerOne r s = _ :=
        registerOne_refuses (.taken serial hholder)
      rw [s.refused_self] at hone
      exact ⟨_, hone⟩

/-- Nothing was done if no member was at fault. -/
theorem refused_unchanged (h : s.Refuses r f left)
    (hf : f ≠ .badExtension ∨ s.takesBack = true) : s.refused left = s := by
  rcases hf with hf | hback
  · rw [h.left_eq hf, s.refused_self]
  · exact Session.refused_back hback

/-- A member was at fault, and nothing is taken back. -/
theorem refused_halfway (h : s.Refuses r .badExtension left)
    (hback : s.takesBack = false) :
    s.refused left = { s with
      extensions := s.extensions.entered r.object r.label r.serial } := by
  rw [Session.refused_left hback, h.left_misfit]

theorem refused_of_refuses (h : s.Refuses r f left) :
    Refused s r f (s.refused left) where
  frame := s.refused_frame left
  unchanged := refused_unchanged h
  unnoticed hf later := by
    have hone := registerOne_refuses h
    rw [refused_unchanged h hf] at hone
    exact bind_ok (attempt_eq hone)
  held hheld other hlabel := by
    have hother : ∃ g, registerOne other s = some (.error g, s) :=
      registerOne_held (hlabel ▸ hheld)
    -- members are looked at only where the name is free
    have hf : f ≠ .badExtension := by
      rintro rfl
      cases h with
      | misfit _ _ _ hfree _ _ _ _ => exact hheld hfree
    rwa [refused_unchanged h (.inl hf)]
  corrected hf hback other hlabel hserial hfits := by
    subst hf
    have hother : s.Admits other := by
      rw [Session.Admits, hlabel]
      exact h.corrected hserial hfits
    rw [Session.refused_back hback, registerOne_admits hother, hlabel]
  halfway hf hback := by
    subst hf
    rw [refused_halfway h hback]
    exact ⟨Extensions.names_entered _ _ _ _,
      fun hook => Extensions.chain_entered hook _⟩
  taken hf hback other hlabel := by
    subst hf
    rw [refused_halfway h hback]
    refine (registerOne_refuses (r := other) ?_).trans
      (congrArg (fun t => some (_, t)) (Session.refused_self _))
    rw [Session.Refuses, hlabel]
    exact Extensions.refuses_entered _ _ _ _ _ _ _
  elsewhere hf hback other hadmits hlabel hserial := by
    subst hf
    rw [refused_halfway h hback]
    exact registerOne_admits (r := other)
      (Extensions.Admits.entered hadmits hlabel hserial)

/-- **WHAT REGISTERING LEAVES**: after any attempts to register objects,
    the next object is admitted with all its hooks and all that it handles,
    or it is refused, and at most the extensions have changed: where a
    member of it does not fit, and only if the library does not take that
    back. -/
theorem registerOne_leaves (earlier : List Registration) (r : Registration)
    (s : Session) :
    ∃ results s', tryEach earlier s = some (.ok results, s') ∧
      results.length = earlier.length ∧
      ((s'.Admits r ∧ registerOne r s' = some (.ok r.label, s'.admitted r)) ∨
        ∃ f left, s'.Refuses r f left ∧
          registerOne r s' = some (.error f, s'.refused left) ∧
          Refused s' r f (s'.refused left)) := by
  obtain ⟨results, s', htry, hlength⟩ := tryEach_returns earlier s
  refine ⟨results, s', htry, hlength, ?_⟩
  rcases s'.admits_or_refuses r with h | ⟨f, left, h⟩
  · exact Or.inl ⟨h, registerOne_admits h⟩
  · exact Or.inr
      ⟨f, left, h, registerOne_refuses h, refused_of_refuses h⟩

end Run

/-! ## An object of which half is left -/

/-- Answers for unknown commands, and takes of a line what it does not
    offer. -/
def halfHook : Class :=
  ⟨0, "Half", .ofList
    [("default", .function (hookFunction ⟨false, false, none, []⟩
        fun _ => .done (.text "half"))),
      ("precmd", .function (hookFunction ⟨false, false, none, ["output"]⟩
        fun _ => .done .null))], []⟩

/-- The same object, with that corrected. -/
def wholeHook : Class :=
  ⟨0, "Whole", .ofList
    [("default", .function (hookFunction ⟨false, false, none, []⟩
        fun _ => .done (.text "whole"))),
      ("precmd", .function (hookFunction ⟨false, false, none, ["line"]⟩
        fun _ => .done .null))], []⟩

/-- A session with a library that takes nothing back. -/
def halvingSession : Session :=
  { askingSession with takesBack := false }

/-- What it is after the object was refused. -/
def halvedSession : Session :=
  { halvingSession with
    extensions :=
      ⟨.ofList [("n", some 0)], .ofList [("default",
        [⟨"n", 0, halfHook.bind "default", ⟨false, false, none, []⟩⟩])]⟩ }

theorem markedMembers_halfHook :
    markedMembers halfHook = [("default", ⟨false, false, none, []⟩),
      ("precmd", ⟨false, false, none, ["output"]⟩)] := by
  have hnames : halfHook.memberNames = ["default", "precmd"] := rfl
  rw [markedMembers, hnames, List.mergeSort_of_pairwise (by decide)]
  rfl

namespace Run

theorem registerOne_halfHook :
    registerOne ⟨halfHook, 0, some "n"⟩ halvingSession =
      some (.error .badExtension, halvedSession) := by
  have hrefuses : halvingSession.Refuses ⟨halfHook, 0, some "n"⟩ _ _ :=
    .misfit [("default", ⟨false, false, none, []⟩)] []
      ("precmd", ⟨false, false, none, ["output"]⟩) rfl (by decide)
      markedMembers_halfHook (by decide) (by decide)
  rw [registerOne_refuses hrefuses, Session.refused_left rfl,
    Extensions.entered, fitting, markedMembers_halfHook]
  rfl

/-- The names that attempts to register objects come to, and the text that
    a line comes to after them. -/
def afterwards (s : Session) (l : List Registration) (line : String) :
    Option (List (Option String) × Option String) := do
  let (results, s) ← tryEach l s
  let (result, _) ← runLine (executeWithin 9) (.text line) s
  pure ((results.toOption.getD []).map Except.toOption,
    result.toOption.bind Value.asText?)

/-- An object that was refused may leave something, and its name may be
    taken afterwards:

    * where nothing is taken back, a hook of an object answers for a
      command after the object was refused, and the corrected object cannot
      have the name;
    * whatever is taken back, an object that is refused because another has
      the name cannot have it either when it is corrected. -/
theorem registerOne_halfway :
    (registerOne ⟨halfHook, 0, some "n"⟩ halvingSession =
        some (.error .badExtension, halvedSession) ∧
      afterwards halvingSession [] "x" =
        some ([], some "x: Unknown command") ∧
      afterwards halvedSession [⟨wholeHook, 1, some "n"⟩] "x" =
        some ([none], some "half")) ∧
    afterwards askingSession
        [⟨silentHook, 0, some "n"⟩, ⟨halfHook, 1, some "n"⟩,
          ⟨wholeHook, 2, some "n"⟩] "x" =
      some ([some "n", none, none], some "x: Unknown command") :=
  ⟨⟨registerOne_halfHook, by decide +kernel, by decide +kernel⟩,
    by decide +kernel⟩

/-- Where it is taken back, an object that fits can have the name. -/
example : afterwards askingSession
    [⟨hookClass "precmd" ⟨false, false, none, ["output"]⟩ fun _ => .ok .null,
      0, some "n"⟩, ⟨plainHook, 1, some "n"⟩] "x" =
      some ([none, some "n"], some "xb: Unknown command") := by
  decide +kernel

end Run

end LineShell
