import LineShell.Environment
import LineShell.Proofs.OrderedMap

/-! # Overlays — leaving one undoes entering it

    Leaving an overlay goes through its names in the order in which they
    were entered, so on the way some names are back and others are not.
    What holds all the way is that the environment differs from what it
    was at the remaining names only, and that the names it had are in
    their order (`Environment.Within`). -/

namespace LineShell

namespace Environment

open OrderedMap

variable {env now : Environment} {name : String} {names : List String}

/-- An environment that differs from another at most under some names, and
    has the names of the other in their order. -/
structure Within (env : Environment) (names : List String)
    (now : Environment) : Prop where
  outside : ∀ name, name ∉ names → now.get? name = env.get? name
  order : (now.names.filter fun name => decide (name ∈ env.names)) = env.names

namespace Within

theorem refl (env : Environment) (names : List String) :
    env.Within names env where
  outside _ _ := rfl
  order := by
    refine List.filter_eq_self.mpr ?_
    intro name h
    exact decide_eq_true h

/-- A name that was there is still there. -/
theorem mem (h : env.Within names now) (hn : name ∈ env.names) :
    name ∈ now.names := by
  rw [← h.order] at hn
  exact (List.mem_filter.mp hn).1

theorem insert (h : env.Within names now) (hn : name ∈ names) (v : Value) :
    env.Within names (now.insert name v) where
  outside other ho := by
    have hne : name ≠ other := fun e => ho (e ▸ hn)
    rw [get?_insert, if_neg hne]
    exact h.outside other ho
  order := by
    rw [names_insert]
    split
    · exact h.order
    · -- a name that comes in at the end was not there before
      rename_i habsent
      have hnew : name ∉ env.names := fun he => habsent (h.mem he)
      rw [List.filter_append, h.order]
      simp [hnew]

theorem insertAll {pairs : List (String × Value)}
    (h : env.Within names now) (hp : ∀ pair ∈ pairs, pair.1 ∈ names) :
    env.Within names (now.insertAll pairs) := by
  induction pairs generalizing now with
  | nil => exact h
  | cons pair rest ih =>
      refine ih (h.insert (hp pair List.mem_cons_self) pair.2) ?_
      intro other ho
      exact hp other (List.mem_cons_of_mem _ ho)

/-- Bringing one name back leaves one name less to differ under. -/
theorem restoreOne (h : env.Within (name :: names) now) :
    env.Within names (now.restoreOne (name, env.get? name)) where
  outside other ho := by
    rw [get?_restoreOne]
    split
    · rename_i heq
      rw [← heq]
    · rename_i hne
      refine h.outside other ?_
      rw [List.mem_cons, not_or]
      exact ⟨fun e => hne e.symm, ho⟩
  order := by
    cases hv : env.get? name with
    | some v =>
        have hmem : name ∈ env.names := by
          rw [mem_names, hv]
          rfl
        show ((now.insert name v).names.filter _) = _
        rw [names_insert_of_mem (h.mem hmem)]
        exact h.order
    | none =>
        have habsent : name ∉ env.names := notMem_names.mpr hv
        show ((now.erase name).names.filter _) = _
        rw [names_erase, List.filter_filter]
        refine Eq.trans (List.filter_congr ?_) h.order
        intro other _
        by_cases ho : other ∈ env.names
        · have hne : other ≠ name := fun e => habsent (e ▸ ho)
          simp [ho, hne]
        · simp [ho]

/-- Bringing all names back leaves nothing to differ under. -/
theorem restore (h : env.Within names now) :
    now.restore (env.save names) = env := by
  induction names generalizing now with
  | cons name rest ih => exact ih h.restoreOne
  | nil =>
      have hall : ∀ name, now.get? name = env.get? name :=
        fun name => h.outside name List.not_mem_nil
      refine eq_of_get? ?_ hall
      rw [← h.order]
      refine (List.filter_eq_self.mpr ?_).symm
      intro name hn
      rw [decide_eq_true_iff, mem_names, ← hall, ← mem_names]
      exact hn

end Within

/-- Setting names to texts changes nothing under other names. -/
theorem within_overlay (env : Environment) (values : OrderedMap String) :
    env.Within values.names (env.overlay values) := by
  refine (Within.refl env _).insertAll ?_
  intro pair hp
  obtain ⟨entry, he, rfl⟩ := List.mem_map.mp hp
  exact List.mem_map_of_mem he

/-- Leaving an overlay right after it was entered leaves the environment as
    it was, in its order. -/
theorem restore_enter (env : Environment) (values : OrderedMap String) :
    (env.enter values).1.restore (env.enter values).2 = env :=
  (env.within_overlay values).restore

/-- What leaving an overlay does: under a name that it hides is what was
    there before, and every other name is what it is. -/
theorem get?_restore (env now : Environment) (names : List String)
    (name : String) :
    (now.restore (env.save names)).get? name =
      if name ∈ names then env.get? name else now.get? name := by
  induction names generalizing now with
  | nil => rfl
  | cons first rest ih =>
      show ((now.restoreOne (first, env.get? first)).restore
        (env.save rest)).get? name = _
      rw [ih, get?_restoreOne]
      by_cases hr : name ∈ rest
      · simp [hr]
      · by_cases hf : first = name
        · subst hf
          simp [hr]
        · have hf' : ¬ name = first := fun e => hf e.symm
          simp [hr, hf, hf']

end Environment

end LineShell
