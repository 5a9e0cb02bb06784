import LineShell.Proofs.Extension.Arrangement
import LineShell.Proofs.Session.Admission

/-! # Threading — in what order the implementations of a hook are run

    An attempt to register an object brings its marked members into their
    chains, all of them or none; or, where it fails for one that does not
    fit and that is not taken back, those before it (`Contribution.of`).

    After any attempts the chain of a hook holds what they have brought, in
    the order that the marks give it (`Run.chain_tryEach`).  A value goes
    through it from the front: first through those that ask to be last, the
    latest of them first, then through those that ask for neither, and at
    the end through those that ask to be first (`Run.callChain_threads`).
    An answer is asked for from the back: those that ask to be first are
    asked first, and those that ask to be last are asked last
    (`Run.callFirst_asks`). -/

namespace LineShell

open Extensions (arranged fill fill_empty arranged_of_decided)
open Extensions (implementationsFor markedMembers fitting)
open Implementation (isLast isFirst isPlain)

/-! ## What attempts bring -/

/-- What an object brings into the chains: its marked members, or the first
    of them. -/
structure Contribution where
  registration : Registration
  members : List (String × HookMark)
  first : members <+: markedMembers registration.object

namespace Contribution

/-- All that an object has. -/
def whole (r : Registration) : Contribution :=
  ⟨r, markedMembers r.object, List.prefix_rfl⟩

/-- Nothing. -/
def nothing (r : Registration) : Contribution :=
  ⟨r, [], List.nil_prefix⟩

/-- What comes before the first member that does not fit. -/
def begun (r : Registration) : Contribution :=
  ⟨r, fitting r.object, List.takeWhile_prefix _⟩

/-- What an attempt to register an object brings, told from what it came
    to. -/
def of (takesBack : Bool) (r : Registration) :
    Except Fault String → Contribution
  | .ok _ => whole r
  | .error .badExtension => if takesBack then nothing r else begun r
  | .error _ => nothing r

theorem registration_of (takesBack : Bool) (r : Registration)
    (result : Except Fault String) :
    (of takesBack r result).registration = r := by
  unfold of
  split
  · rfl
  · split <;> rfl
  · rfl

/-- The implementations of a hook among it. -/
def forHook (hook : String) (c : Contribution) : List Implementation :=
  implementationsFor hook c.registration.object c.registration.label
    c.registration.serial c.members

end Contribution

/-- What attempts to register objects bring, with what each came to. -/
def contributions (takesBack : Bool) (l : List Registration)
    (results : List (Except Fault String)) : List Contribution :=
  (l.zip results).map fun attempt =>
    Contribution.of takesBack attempt.1 attempt.2

/-- The implementations of a hook that are brought, one after the
    other. -/
def implementations (hook : String) (l : List Contribution) :
    List Implementation :=
  l.flatMap (Contribution.forHook hook)

/-- Each of them is a marked member of an object. -/
theorem mem_implementations {hook : String} {l : List Contribution}
    {i : Implementation} (h : i ∈ implementations hook l) :
    ∃ c ∈ l, ∃ entry ∈ markedMembers c.registration.object,
      Extensions.hookOf entry.1 entry.2 = hook ∧
        i = Extensions.implementationOf c.registration.object
          c.registration.label c.registration.serial entry := by
  obtain ⟨c, hc, hi⟩ := List.mem_flatMap.mp h
  obtain ⟨entry, hentry, rfl⟩ := List.mem_map.mp hi
  obtain ⟨hmember, hhook⟩ := List.mem_filter.mp hentry
  exact ⟨c, hc, entry, c.first.subset hmember, eq_of_beq hhook, rfl⟩

theorem registration_mem_of_contributions {takesBack : Bool}
    {l : List Registration} {results : List (Except Fault String)}
    {c : Contribution} (h : c ∈ contributions takesBack l results) :
    c.registration ∈ l := by
  obtain ⟨⟨r, result⟩, hzip, rfl⟩ := List.mem_map.mp h
  rw [Contribution.registration_of]
  exact (List.of_mem_zip hzip).1

namespace Run

variable {s s' : Session} {l : List Registration} {r : Registration}
variable {results : List (Except Fault String)}

/-- An attempt brings into each chain what it brings at all. -/
theorem chain_registerOne {result : Except Fault String}
    (h : registerOne r s = some (result, s')) (hook : String) :
    s'.takesBack = s.takesBack ∧
      s'.extensions.chain hook = fill (s.extensions.chain hook)
        ((Contribution.of s.takesBack r result).forHook hook) := by
  rcases s.admits_or_refuses r with ha | ⟨f, left, hr⟩
  · rw [registerOne_admits ha] at h
    cases h
    refine ⟨rfl, (Extensions.chain_entered hook s.extensions).trans ?_⟩
    rw [Extensions.fitting_of_fits ha.fits]
    rfl
  · rw [registerOne_refuses hr] at h
    cases h
    refine ⟨s.takesBack_refused left, ?_⟩
    -- only what is refused for a member may leave something
    cases hr with
    | blocked => rw [s.refused_self]; rfl
    | taken => rw [s.refused_self]; rfl
    | named => rw [s.refused_self]; rfl
    | misfit =>
        cases hback : s.takesBack with
        | true =>
            rw [Session.refused_back hback]
            rfl
        | false =>
            rw [Session.refused_left hback]
            exact Extensions.chain_entered hook s.extensions

/-- So do attempts, one after the other. -/
theorem chain_tryEach (h : tryEach l s = some (.ok results, s'))
    (hook : String) :
    s'.extensions.chain hook = fill (s.extensions.chain hook)
      (implementations hook (contributions s.takesBack l results)) := by
  induction l generalizing s results with
  | nil =>
      cases h
      rfl
  | cons r rest ih =>
      obtain ⟨result, s₁, hone, htry⟩ := tryEach_cons r rest s
      obtain ⟨rest', s₂, hrest, -⟩ := tryEach_returns rest s₁
      rw [htry hrest] at h
      cases h
      obtain ⟨hback, hchain⟩ := chain_registerOne hone hook
      -- what the others bring comes in after what the first has brought
      rw [ih hrest, hback, hchain]
      exact List.foldl_append.symm

/-! ## Two parts of a chain -/

variable (execute : Executor)

theorem rewrite_append (hook key : String) (given : List (String × Value))
    (value : Value) (before after : List Implementation) :
    rewrite execute hook key given value (before ++ after) = (do
      let v ← rewrite execute hook key given value before
      rewrite execute hook key given v after) := by
  induction before generalizing value with
  | nil => rfl
  | cons i rest ih =>
      rw [List.cons_append, rewrite, rewrite, bind_assoc]
      simp only [ih]

theorem firstAnswer_append (hook : String) (given : List (String × Value))
    (before after : List Implementation) :
    firstAnswer execute hook given (before ++ after) = (do
      let v ← firstAnswer execute hook given before
      if v.isNull then firstAnswer execute hook given after else pure v) := by
  induction before with
  | nil => rfl
  | cons i rest ih =>
      rw [List.cons_append, firstAnswer, firstAnswer, bind_assoc]
      refine congrArg _ (funext fun v => ?_)
      cases hv : v.isNull with
      | true => exact ih
      | false =>
          simp only [Bool.false_eq_true, if_false, pure_bind, hv]

/-! ## The order of a chain -/

/-- What attempts bring into empty chains stands in the order that the
    marks give it. -/
theorem arranged_tryEach (hs : s.extensions = .empty)
    (h : tryEach l s = some (.ok results, s')) (hook : String) :
    s'.extensions.chain hook = arranged
      (implementations hook (contributions s.takesBack l results)) := by
  rw [chain_tryEach h, hs]
  exact fill_empty _

/-- An answer is asked for from the back of the chain: where no
    implementation asks to be first and last at once, those that ask to be
    first are asked first, and those that ask to be last are asked
    last. -/
theorem callFirst_asks {is : List Implementation} {hook : String}
    (hchain : s.extensions.chain hook = arranged is)
    (his : ∀ i ∈ is, i.isLast = true → i.isFirst = false)
    (given : List (String × Value)) :
    callFirst execute hook given s = (do
      let v ← firstAnswer execute hook given (is.filter isFirst).reverse
      if v.isNull then do
        let v ← firstAnswer execute hook given (is.filter isPlain).reverse
        if v.isNull then firstAnswer execute hook given (is.filter isLast)
        else pure v
      else pure v) s := by
  -- the chain from its back, in the three parts that the marks make
  have hreverse : (arranged is).reverse =
      (is.filter isFirst).reverse ++
        ((is.filter isPlain).reverse ++ is.filter isLast) := by
    rw [arranged_of_decided his, List.reverse_append, List.reverse_append,
      List.reverse_reverse]
  rw [callFirst, get_bind_eq, hchain, hreverse, firstAnswer_append,
    firstAnswer_append]

/-- **THE ORDER OF A CHAIN**: after any attempts to register objects, a
    chain hook takes its value through the implementations that they have
    brought in the order that their marks give them.  Where none of them
    asks to be first and last at once, these are first the ones that ask to
    be last, the latest first; then those that ask for neither, and then
    those that ask to be first, both in the order of the attempts. -/
theorem callChain_threads (hs : s.extensions = .empty)
    (earlier : List Registration) :
    ∃ results s', tryEach earlier s = some (.ok results, s') ∧
      results.length = earlier.length ∧
      ∀ hook key value given,
        let is := implementations hook
          (contributions s.takesBack earlier results)
        callChain execute hook key value given s' =
          rewrite execute hook key given value (arranged is) s' ∧
        ((∀ i ∈ is, i.isLast = true → i.isFirst = false) →
          callChain execute hook key value given s' = (do
            let v ← rewrite execute hook key given value
              (is.filter isLast).reverse
            let v ← rewrite execute hook key given v (is.filter isPlain)
            rewrite execute hook key given v (is.filter isFirst)) s') := by
  obtain ⟨results, s', htry, hlength⟩ := tryEach_returns earlier s
  refine ⟨results, s', htry, hlength, ?_⟩
  intro hook key value given is
  have hcall : callChain execute hook key value given s' =
      rewrite execute hook key given value (arranged is) s' := by
    rw [callChain, get_bind_eq, arranged_tryEach hs htry]
  refine ⟨hcall, ?_⟩
  intro his
  rw [hcall, arranged_of_decided his, rewrite_append, rewrite_append,
    bind_assoc]

/-! ## Objects that ask for different places -/

/-- Rewrite a line, and ask to be first or last. -/
def firstHook : Class :=
  markingHook ⟨true, false, none, ["line"]⟩ "f"

def lastHook : Class :=
  markingHook ⟨false, true, none, ["line"]⟩ "l"

def markedObjects : List Registration :=
  [⟨firstHook, 0, none⟩, ⟨plainHook, 1, none⟩, ⟨lastHook, 2, none⟩]

/-- None of the three objects asks to be first and last at once. -/
theorem decided_markedObjects (takesBack : Bool)
    (results : List (Except Fault String)) :
    ∀ i ∈ implementations "precmd"
      (contributions takesBack markedObjects results),
      i.isLast = true → i.isFirst = false := by
  have hall : ∀ r ∈ markedObjects, ∀ entry ∈ markedMembers r.object,
      entry.2.tryLast = true → entry.2.tryFirst = false := by
    decide +kernel
  intro i hi
  obtain ⟨c, hc, entry, hentry, -, rfl⟩ := mem_implementations hi
  exact hall c.registration (registration_mem_of_contributions hc) entry
    hentry

/-- Three objects of a shell: all are registered, and a line goes through
    the one that asks to be last, the one that asks for nothing and the one
    that asks to be first. -/
theorem callChain_threads_marked :
    askingSession.extensions = .empty ∧
    isRegistered markedObjects askingSession = true ∧
    outcome markedObjects "x" = some "xlbf: Unknown command" ∧
    ∃ results s', tryEach markedObjects askingSession =
        some (.ok results, s') ∧
      ∀ key value given,
        let is := implementations "precmd"
          (contributions askingSession.takesBack markedObjects results)
        callChain (executeWithin 9) "precmd" key value given s' = (do
          let v ← rewrite (executeWithin 9) "precmd" key given value
            (is.filter isLast).reverse
          let v ← rewrite (executeWithin 9) "precmd" key given v
            (is.filter isPlain)
          rewrite (executeWithin 9) "precmd" key given v
            (is.filter isFirst)) s' := by
  have hnone : askingSession.extensions = .empty := rfl
  obtain ⟨results, s', htry, _, hcalls⟩ :=
    callChain_threads (executeWithin 9) hnone markedObjects
  refine ⟨hnone, by decide +kernel, by decide +kernel, results, s', htry, ?_⟩
  intro key value given
  exact (hcalls "precmd" key value given).2
    (decided_markedObjects _ results)

/-- One that asks to be first comes after one that was registered later and
    asks for nothing, and one that asks to be last comes before one that
    was registered earlier. -/
theorem callChain_misplaced :
    (isRegistered [⟨firstHook, 0, none⟩, ⟨plainHook, 1, none⟩]
        askingSession = true ∧
      outcome [⟨firstHook, 0, none⟩, ⟨plainHook, 1, none⟩] "x" =
        some "xbf: Unknown command") ∧
    (isRegistered [⟨plainHook, 0, none⟩, ⟨lastHook, 1, none⟩]
        askingSession = true ∧
      outcome [⟨plainHook, 0, none⟩, ⟨lastHook, 1, none⟩] "x" =
        some "xlb: Unknown command") := by
  decide +kernel

end Run

end LineShell
