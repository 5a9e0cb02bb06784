import LineShell.Proofs.Session.Deeds
import LineShell.Proofs.Session.Erasure
import LineShell.Proofs.Session.Settlement
import LineShell.Proofs.Session.Unnoticed

/-! # Observers — every fault of a line is told once, and nothing else

    The faults of a line are those of what is done for it: of its hooks, of
    the members of the shell and the handler that it is routed to, and of
    splitting it.  The observers are told of the ordinary ones among them,
    each once, in the order of the faults and, for one fault, in the order
    of their chain; only a signal that an observer raises can keep others
    from being told, and that a fault has no text (`Run.runLine_tells`).  A
    line within a line, run by code, is a line of its own. -/

namespace LineShell

variable {α : Type} {deeds : List Deed} {r : Except Fault α} {s' : Session}

/-- A course that settles everything tells no more than there is to be
    told, and nothing less unless the signal of an observer stops it, or a
    report that cannot be made. -/
theorem Settled.tellings {answers : Bool}
    (h : Settled answers [] Course.clear deeds r s') :
    told deeds <+: due deeds ∧
      ((∀ d ∈ deeds, d.isObserver = true → d.stops = false) →
        (∀ telling ∈ due deeds, telling.1.isMute = false) →
        told deeds = due deeds) := by
  cases h with
  | done a _ _ h =>
      have h : told deeds = due deeds := h
      exact ⟨h ▸ List.prefix_rfl, fun _ _ => h⟩
  | failed f _ _ _ _ h =>
      have h : told deeds = due deeds := (List.append_nil _).symm.trans h
      exact ⟨h ▸ List.prefix_rfl, fun _ _ => h⟩
  | unsaid f _ rest _ _ _ hrest h =>
      have h : told deeds ++ rest = due deeds := h
      refine ⟨⟨rest, h⟩, fun _ hmade => ?_⟩
      -- what was left unsaid is due, and cannot be said
      obtain rfl : rest = [] := by
        refine List.eq_nil_iff_forall_not_mem.mpr ?_
        intro telling hmem
        have hdue : telling ∈ due deeds := h ▸ List.mem_append_right _ hmem
        exact absurd (hrest telling hmem)
          (ne_true_of_eq_false (hmade telling hdue))
      exact (List.append_nil _).symm.trans h
  | stopped f _ before after d hdeeds _ hd hf _ htold hall =>
      refine ⟨htold, fun hobservers _ => hall ?_⟩
      have hmem : d ∈ deeds := by
        rw [hdeeds]
        exact List.mem_append_right _ List.mem_cons_self
      have hstops : d.stops = true := by
        rw [Deed.stops, hd]
        exact hf
      -- what stopped the course is no observer, for those raise no signal
      cases hobserver : d.isObserver with
      | true =>
          rw [hobservers d hmem hobserver] at hstops
          cases hstops
      | false => rfl

/-- Who asks the producer of a topic tells nobody. -/
theorem told_forHelp (h : ∀ d ∈ deeds, Course.ForHelp d.doing) :
    told deeds = [] := by
  refine List.flatMap_eq_nil_iff.mpr ?_
  intro d hd
  have hd := h d hd
  rw [Deed.told]
  generalize d.doing = doing at hd ⊢
  cases hd
  rfl

namespace Run

/-- A line ends, and what is done for it on the way stands at its places.
    Nobody is told of anything but the ordinary faults of what is done.  If
    no observer raises a signal, and every fault that is to be reported has
    a text, then everybody is told of all of them: each observer once of
    each fault, in order, with the stage or the hook that it happened at.
    A producer of help that fails is told to nobody. -/
theorem runLine_tells (depth : Nat) (line : Value) (s : Session) :
    (∃ r s' deeds, runLine (executeWithin depth) line s = some (r, s') ∧
      Course.runLine (executeWithin depth) line s =
        some ((r, s'), deeds) ∧
      (∀ d ∈ deeds, Course.ForLine line d.doing) ∧
      told deeds <+: due deeds ∧
      ((∀ d ∈ deeds, d.isObserver = true → d.stops = false) →
        (∀ telling ∈ due deeds, telling.1.isMute = false) →
        told deeds = due deeds)) ∧
    ∀ args r s', helpText (executeWithin depth) args s = some (r, s') →
      ∃ deeds, Course.helpText (executeWithin depth) args s =
          some ((r, s'), deeds) ∧
        told deeds = [] := by
  constructor
  · obtain ⟨r, s', he, _⟩ := runLine_behaves (executeWithin_keeps depth)
      s.keeps_anything (.all (executeWithin_keeps depth) s.keeps_anything)
      line s .refl
    obtain ⟨deeds, hdeeds⟩ := Course.of_run (Course.run_runLine _ line) he
    obtain ⟨_, hsettled⟩ := Course.runLine_settles line s r s' deeds hdeeds
    exact ⟨r, s', deeds, he, hdeeds,
      Course.runLine_does line s r s' deeds hdeeds, hsettled.tellings⟩
  · intro args r s' he
    obtain ⟨deeds, hdeeds⟩ := Course.of_run (Course.run_helpText _ args) he
    exact ⟨deeds, hdeeds,
      told_forHelp (Course.helpText_does args s r s' deeds hdeeds)⟩

/-- Fails when it is told of a fault. -/
def failingObserver : Class :=
  hookClass "on_error" ⟨false, false, none, ["error"]⟩ fun _ =>
    .error (.raised "RuntimeError" "told")

/-- How often observers were told, and how often they were to be told, of
    the faults of a line in a shell with some objects. -/
def tellingsIn (s : Session) (l : List Registration) (line : String) :
    Option (Nat × Nat) :=
  match registerEach l s with
  | some (.ok (), s) =>
      (Course.runLine (executeWithin 9) (.text line) s).map fun result =>
        ((told result.2).length, (due result.2).length)
  | _ => none

def tellings (l : List Registration) (line : String) : Option (Nat × Nat) :=
  tellingsIn askingSession l line

/-- Two observers that fail are both told that a hook failed, and then that
    the command did: it registers something under a name that is taken. -/
example : tellings [⟨failingObserver, 0, some "x"⟩, ⟨failingHook, 1, none⟩,
    ⟨failingObserver, 2, none⟩] "add" = some (4, 4) := by
  decide +kernel

/-- Where they were told less than there was to be told, it was not
    told. -/
theorem told_ne_due {s : Session} {l : List Registration} {line : String}
    {m n : Nat} (h : tellingsIn s l line = some (m, n)) (hne : m ≠ n) :
    ∃ s₁ r s' deeds, registerEach l s = some (.ok (), s₁) ∧
      Course.runLine (executeWithin 9) (.text line) s₁ =
        some ((r, s'), deeds) ∧
      told deeds ≠ due deeds := by
  rw [tellingsIn] at h
  split at h
  · rename_i s₁ hs
    obtain ⟨⟨⟨r, s'⟩, deeds⟩, hdeeds, hcounts⟩ :=
      Option.map_eq_some_iff.mp h
    refine ⟨s₁, r, s', deeds, hs, hdeeds, fun heq => hne ?_⟩
    obtain ⟨htold, hdue⟩ := Prod.mk.inj hcounts
    rw [← htold, ← hdue, heq]
  · cases h

/-- A shell with a command that fails, and its fault has no text. -/
def wordlessShell : Class :=
  ⟨1, "Wordless", .ofList
    [("do_fail", BaseShell.member [] true none fun _ =>
        .fail (.textless "ValueError" (.raised "TypeError" "no text")))],
    [BaseShell.shellClass]⟩

def wordlessSession : Session :=
  { Session.bare ⟨default, [], []⟩ default default with
    shell := some wordlessShell
    registry := .discover [wordlessShell] }

/-- An observer that raises a signal keeps the one after it from being
    told, and nobody is told of a fault of a command that has no text. -/
theorem runLine_tells_interrupted :
    (∃ s r s' deeds, registerEach [⟨interruptingHook, 0, none⟩,
        ⟨failingObserver, 1, none⟩, ⟨failingHook, 2, none⟩] askingSession =
          some (.ok (), s) ∧
      Course.runLine (executeWithin 9) (.text "l") s =
        some ((r, s'), deeds) ∧
      told deeds ≠ due deeds) ∧
    ∃ s r s' deeds, registerEach [⟨failingObserver, 0, none⟩]
        wordlessSession = some (.ok (), s) ∧
      Course.runLine (executeWithin 9) (.text "fail") s =
        some ((r, s'), deeds) ∧
      told deeds ≠ due deeds := by
  have hstopped : tellingsIn askingSession [⟨interruptingHook, 0, none⟩,
      ⟨failingObserver, 1, none⟩, ⟨failingHook, 2, none⟩] "l" =
      some (1, 2) := by
    decide +kernel
  have hwordless : tellingsIn wordlessSession [⟨failingObserver, 0, none⟩]
      "fail" = some (0, 1) := by
    decide +kernel
  exact ⟨told_ne_due hstopped (by decide), told_ne_due hwordless (by decide)⟩

end Run

end LineShell
