import LineShell.Proofs.Session.Scope

/-! # Blocks — an overlay around code that changes variables

    The block of an overlay may set and remove any variables, the overlaid
    ones included, open blocks of its own, and end in any fault.  What it
    is given is the environment with the overlay on it; what is left is
    what it leaves, with the overlaid names as they were before
    (`Environment.Scopes`).  A block that changes nothing, and opens only
    blocks that change nothing, leaves the environment as it was, in its
    order (`Block.run_idle`).  Both are put together in
    `Run.withOverlay_scopes`. -/

namespace LineShell

namespace Environment

open OrderedMap

variable {env now : Environment} {name : String}

theorem get?_overlay (env : Environment) (texts : OrderedMap String)
    (name : String) :
    (env.overlay texts).get? name =
      ((texts.get? name).map Value.text).or (env.get? name) := by
  rw [overlay, get?_insertAll (texts.map Value.text).nodup]
  congr 1
  exact get?_map Value.text texts name

/-- What an overlay of texts does around a block: `inside` is what the block
    is given, `left` what it leaves, and `after` what is there in the
    end. -/
structure Scopes (before : Environment) (texts : OrderedMap String)
    (inside left after : Environment) : Prop where
  /-- Each overlaid name has its text. -/
  overlaid : ∀ name text, texts.get? name = some text →
    inside.get? name = some (.text text)
  /-- Every other name is what it was. -/
  beside : ∀ name, texts.get? name = none →
    inside.get? name = before.get? name
  /-- Each overlaid name is again what it was, or absent. -/
  restored : ∀ name text, texts.get? name = some text →
    after.get? name = before.get? name
  /-- Every other name is as the block left it. -/
  kept : ∀ name, texts.get? name = none →
    after.get? name = left.get? name
  /-- So is the order of the other names. -/
  order : after.names.filter (fun name => !texts.contains name) =
    left.names.filter fun name => !texts.contains name

/-- Bringing one name back moves no other name. -/
theorem names_restoreOne (saved : String × Option Value)
    {p : String → Bool} (hp : p saved.1 = false) :
    (now.restoreOne saved).names.filter p = now.names.filter p := by
  obtain ⟨key, value⟩ := saved
  cases value with
  | some v =>
      show (now.insert key v).names.filter p = _
      rw [names_insert]
      split
      · rfl
      · have hout : ¬ p key = true := ne_true_of_eq_false hp
        rw [List.filter_append, List.filter_cons_of_neg hout, List.filter_nil,
          List.append_nil]
  | none =>
      show (now.erase key).names.filter p = _
      rw [names_erase, List.filter_filter]
      refine List.filter_congr ?_
      intro other _
      by_cases h : other = key
      · subst h
        simp [hp]
      · simp [h]

theorem names_restore (saved : Saved) {p : String → Bool}
    (hp : ∀ entry ∈ saved, p entry.1 = false) :
    (now.restore saved).names.filter p = now.names.filter p := by
  induction saved generalizing now with
  | nil => rfl
  | cons entry rest ih =>
      show ((now.restoreOne entry).restore rest).names.filter p = _
      rw [ih fun other ho => hp other (List.mem_cons_of_mem _ ho),
        names_restoreOne entry (hp entry List.mem_cons_self)]

/-- Entering and leaving do this, whatever the block leaves. -/
theorem scopes_restore (before : Environment) (texts : OrderedMap String)
    (left : Environment) :
    before.Scopes texts (before.overlay texts) left
      (left.restore (before.save texts.names)) where
  overlaid name text h := by
    rw [get?_overlay, h]
    rfl
  beside name h := by
    rw [get?_overlay, h]
    rfl
  restored name text h := by
    have hmem : name ∈ texts.names := by
      rw [mem_names, h]
      rfl
    rw [get?_restore, if_pos hmem]
  kept name h := by
    rw [get?_restore, if_neg (notMem_names.mpr h)]
  order := by
    refine names_restore _ ?_
    intro entry hentry
    obtain ⟨name, hname, rfl⟩ := List.mem_map.mp hentry
    rw [OrderedMap.contains, mem_names.mp hname]
    rfl

end Environment

/-! ## Code that changes variables -/

/-- What code does with the variables.  It sees how a removal and a block
    of its own ended, and goes on or ends in its turn. -/
inductive Block where
  | done (v : Value)
  | fail (f : Fault)
  | set (name : String) (v : Value) (next : Block)
  | remove (name : String) (next : Except Fault Unit → Block)
  | look (name : String) (next : Option Value → Block)
  /-- A block in an overlay. -/
  | overlay (values : OrderedMap Value) (inner : Block)
      (next : Answer → Block)

/-- The session in an overlay. -/
def Session.overlaid (s : Session) (values : OrderedMap Value) : Session :=
  { s with env := s.env.overlay (s.texts values) }

namespace Block

open Run

/-- Runs code. -/
def run : Block → Run Value
  | done v => pure v
  | fail f => throw f
  | set name v next => do
      setVariable (.text name) v
      next.run
  | remove name next => do
      let result ← (removeVariable (.text name)).attempt
      (next result).run
  | look name next => do
      let v ← find? (.text name)
      (next v).run
  | overlay values inner next => do
      let result ← (withOverlay values inner.run).attempt
      (next result).run

/-- The fault of a name that is not there. -/
def absence (s : Session) (name : String) : Fault :=
  .missingKey ((Value.text name).shown s.identity)

/-- Code that sets nothing and removes nothing, as far as it is run from a
    session; nor do the blocks that it opens. -/
def Idle : Block → Session → Prop
  | done _, _ => True
  | fail _, _ => True
  | set .., _ => False
  | remove name next, s =>
      s.env.get? name = none ∧ (next (.error (absence s name))).Idle s
  | look name next, s => (next (s.env.get? name)).Idle s
  | overlay values inner next, s =>
      inner.Idle (s.overlaid values) ∧
        ∀ r s', withOverlay values inner.run s = some (r, s') →
          (next r).Idle s'

/-! ### One thing after the other -/

variable {s : Session} {name : String}

theorem run_set (name : String) (v : Value) (next : Block) (s : Session) :
    (set name v next).run s = next.run
      { s with env := s.env.insert name (.text (v.display s.identity)) } :=
  rfl

theorem run_look (name : String) (next : Option Value → Block)
    (s : Session) :
    (look name next).run s = (next (s.env.get? name)).run s :=
  rfl

theorem removeVariable_absent (h : s.env.get? name = none) :
    removeVariable (.text name) s = some (.error (absence s name), s) := by
  have hfind : find? (.text name) s = some (.ok none, s) := by
    rw [← h]
    rfl
  rw [removeVariable, variableOf, bind_error]
  rw [bind_ok hfind]
  rfl

theorem removeVariable_present {v : Value} (h : s.env.get? name = some v) :
    removeVariable (.text name) s =
      some (.ok (), { s with env := s.env.erase name }) := by
  have hfind : find? (.text name) s = some (.ok (some v), s) := by
    rw [← h]
    rfl
  have hvalue : variableOf (.text name) s = some (.ok v, s) := by
    rw [variableOf, bind_ok hfind]
    rfl
  rw [removeVariable, bind_ok hvalue]
  rfl

theorem run_remove_absent (h : s.env.get? name = none)
    (next : Except Fault Unit → Block) :
    (remove name next).run s = (next (.error (absence s name))).run s := by
  rw [run, bind_ok (attempt_eq (removeVariable_absent h))]

theorem run_remove_present {v : Value} (h : s.env.get? name = some v)
    (next : Except Fault Unit → Block) :
    (remove name next).run s =
      (next (.ok ())).run { s with env := s.env.erase name } := by
  rw [run, bind_ok (attempt_eq (removeVariable_present h))]

theorem withOverlay_ran {values : OrderedMap Value} {step : Run Value}
    {r : Answer} {s₁ : Session} (h : step (s.overlaid values) = some (r, s₁)) :
    withOverlay values step s = some (r, { s₁ with
      env := s₁.env.restore (s.env.save (s.texts values).names) }) := by
  rw [withOverlay_eq]
  show Option.map _ (step (s.overlaid values)) = _
  rw [h]
  rfl

/-! ### All of it -/

/-- Code comes to an end, and it changes variables only. -/
theorem run_returns (b : Block) (s : Session) :
    ∃ r env, b.run s = some (r, { s with env }) := by
  induction b generalizing s with
  | done v => exact ⟨.ok v, s.env, rfl⟩
  | fail f => exact ⟨.error f, s.env, rfl⟩
  | set name v next ih =>
      rw [run_set]
      exact ih _
  | remove name next ih =>
      cases hfound : s.env.get? name with
      | none =>
          rw [run_remove_absent hfound]
          exact ih _ s
      | some v =>
          rw [run_remove_present hfound]
          exact ih _ { s with env := s.env.erase name }
  | look name next ih =>
      rw [run_look]
      exact ih _ s
  | overlay values inner next ihInner ihNext =>
      obtain ⟨r, env, hinner⟩ := ihInner (s.overlaid values)
      rw [run, bind_ok (attempt_eq (withOverlay_ran hinner))]
      exact ihNext r _

/-- Code that changes nothing leaves the session as it is: every block in
    an overlay that it opens puts back what it covered. -/
theorem run_idle {b : Block} {s : Session} (h : b.Idle s) :
    ∃ r, b.run s = some (r, s) := by
  induction b generalizing s with
  | done v => exact ⟨.ok v, rfl⟩
  | fail f => exact ⟨.error f, rfl⟩
  | set name v next => exact absurd h id
  | remove name next ih =>
      obtain ⟨habsent, hnext⟩ := h
      rw [run_remove_absent habsent]
      exact ih _ hnext
  | look name next ih =>
      rw [run_look]
      exact ih _ h
  | overlay values inner next ihInner ihNext =>
      obtain ⟨hinner, hnext⟩ := h
      obtain ⟨r, hran⟩ := ihInner hinner
      -- the block leaves the overlay as it was put on, so it comes off whole
      have henv : (s.overlaid values).env.restore
          (s.env.save (s.texts values).names) = s.env :=
        s.env.restore_enter (s.texts values)
      have hover := withOverlay_ran hran
      rw [henv] at hover
      have hover : withOverlay values inner.run s = some (r, s) := hover
      rw [run, bind_ok (attempt_eq hover)]
      exact ihNext r (hnext r s hover)

end Block

namespace Run

/-- **A SCOPED UPDATE**: whatever a block in an overlay does, and however
    it ends, the overlay ends as the block does and changes variables only;
    the block is given the overlaid texts and every other variable as it
    was; afterwards the overlaid names are what they were before, and all
    others what the block left.  If nothing was set or removed in the
    block, the environment is what it was, in its order. -/
theorem withOverlay_scopes (values : OrderedMap Value) (body : Block)
    (s : Session) :
    ∃ r left after,
      body.run (s.overlaid values) = some (r, { s with env := left }) ∧
      withOverlay values body.run s = some (r, { s with env := after }) ∧
      s.env.Scopes (s.texts values) (s.overlaid values).env left after ∧
      (body.Idle (s.overlaid values) → after = s.env) := by
  obtain ⟨r, left, hran⟩ := body.run_returns (s.overlaid values)
  refine ⟨r, left, left.restore (s.env.save (s.texts values).names), hran,
    Block.withOverlay_ran hran, s.env.scopes_restore _ left, ?_⟩
  intro hidle
  obtain ⟨r', hsame⟩ := Block.run_idle hidle
  rw [hran] at hsame
  have hleft : left = s.env.overlay (s.texts values) :=
    congrArg Session.env (Prod.mk.inj (Option.some.inj hsame)).2
  rw [hleft]
  exact s.env.restore_enter (s.texts values)

end Run

end LineShell
