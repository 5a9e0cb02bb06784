import LineShell.Extension
import LineShell.Proofs.OrderedMap
import Mathlib.Data.List.TakeWhile

/-! # Chains — an implementation more or less

    Some implementations of a chain are *shared*, the others are not; the
    question is when a chain with both is, for the shared ones, the chain
    that they make by themselves.  Adding to the front or to the end is no
    matter.  An implementation that asks for neither goes before those
    that stand at the end and ask to be first; it would go too far back if
    a shared one that asks to be first stood among the others.  So what
    adding preserves is that behind such a one there are only such
    (`Layered`).  It is preserved unless a shared implementation asks to
    be first and last at once. -/

namespace LineShell

/-! ## Prefixes of filtered lists -/

section Lists

variable {α : Type} {p q : α → Bool} {l : List α}

theorem filter_takeWhile
    (h : ∀ a ∈ l.dropWhile q, p a = true → q a = false) :
    (l.takeWhile q).filter p = (l.filter p).takeWhile q := by
  induction l with
  | nil => rfl
  | cons a rest ih =>
      cases hq : q a with
      | true =>
          rw [List.dropWhile_cons_of_pos hq] at h
          rw [List.takeWhile_cons_of_pos hq]
          cases hp : p a with
          | true =>
              rw [List.filter_cons_of_pos hp, List.filter_cons_of_pos hp,
                List.takeWhile_cons_of_pos hq, ih h]
          | false =>
              have hn : ¬ p a = true := ne_true_of_eq_false hp
              rw [List.filter_cons_of_neg hn, List.filter_cons_of_neg hn, ih h]
      | false =>
          have hn : ¬ q a = true := ne_true_of_eq_false hq
          rw [List.dropWhile_cons_of_neg hn] at h
          rw [List.takeWhile_cons_of_neg hn, List.filter_nil]
          cases hf : (a :: rest).filter p with
          | nil => rfl
          | cons b more =>
              have hb : b ∈ (a :: rest).filter p := by
                rw [hf]
                exact List.mem_cons_self
              obtain ⟨hmem, hpb⟩ := List.mem_filter.mp hb
              have hqb := ne_true_of_eq_false (h b hmem hpb)
              rw [List.takeWhile_cons_of_neg hqb]

theorem filter_dropWhile
    (h : ∀ a ∈ l.dropWhile q, p a = true → q a = false) :
    (l.dropWhile q).filter p = (l.filter p).dropWhile q := by
  -- both are what is left of the list after the same prefix
  have hsplit : (l.takeWhile q).filter p ++ (l.dropWhile q).filter p =
      (l.filter p).takeWhile q ++ (l.filter p).dropWhile q := by
    rw [← List.filter_append, List.takeWhile_append_dropWhile,
      List.takeWhile_append_dropWhile]
  rw [filter_takeWhile h] at hsplit
  exact List.append_cancel_left hsplit

end Lists

namespace Extensions

variable {shared : Implementation → Bool} {chain : List Implementation}
variable {i : Implementation}

/-- Behind a shared implementation that asks to be first stand only
    implementations that ask to be first. -/
def Layered (shared : Implementation → Bool)
    (chain : List Implementation) : Prop :=
  chain.Pairwise fun i j =>
    shared i = true → i.mark.tryFirst = true → j.mark.tryFirst = true

/-- Where an implementation goes, seen from the end of the chain. -/
theorem reverse_insert_plain (hl : i.mark.tryLast = false)
    (hf : i.mark.tryFirst = false) :
    (insertImplementation i chain).reverse =
      (chain.reverse.takeWhile fun j => j.mark.tryFirst) ++
        i :: (chain.reverse.dropWhile fun j => j.mark.tryFirst) := by
  rw [insertImplementation, if_neg (ne_true_of_eq_false hl),
    if_neg (ne_true_of_eq_false hf)]
  simp only [List.reverse_append, List.reverse_cons, List.reverse_reverse,
    List.append_assoc, List.singleton_append]

/-- No shared implementation asks to be first before the place where one
    that asks for nothing goes. -/
theorem Layered.dropWhile (h : Layered shared chain) :
    ∀ j ∈ chain.reverse.dropWhile (fun j => j.mark.tryFirst),
      shared j = true → j.mark.tryFirst = false := by
  have hrev := List.pairwise_reverse.mpr h
  have hdrop := hrev.sublist
    (List.dropWhile_sublist fun j : Implementation => j.mark.tryFirst)
  intro j hj hs
  cases hlist : chain.reverse.dropWhile (fun j => j.mark.tryFirst) with
  | nil =>
      rw [hlist] at hj
      cases hj
  | cons b rest =>
      have hb : b.mark.tryFirst = false := by
        have hne := List.head_dropWhile_not
          (fun j : Implementation => j.mark.tryFirst) (l := chain.reverse)
          (by rw [hlist]; exact List.cons_ne_nil _ _)
        simpa only [hlist, List.head_cons] using hne
      rw [hlist] at hj hdrop
      rcases List.mem_cons.mp hj with rfl | hj
      · exact hb
      · cases hfirst : j.mark.tryFirst with
        | false => rfl
        | true =>
            have hbad := List.rel_of_pairwise_cons hdrop hj hs hfirst
            rw [hb] at hbad
            cases hbad

/-- Adding a shared implementation and leaving out those that are not
    shared can be done in either order. -/
theorem filter_insert (h : Layered shared chain) (hi : shared i = true) :
    (insertImplementation i chain).filter shared =
      insertImplementation i (chain.filter shared) := by
  cases hl : i.mark.tryLast with
  | true =>
      rw [insertImplementation, insertImplementation, if_pos hl, if_pos hl,
        List.filter_cons_of_pos hi]
  | false =>
      cases hf : i.mark.tryFirst with
      | true =>
          have hn := ne_true_of_eq_false hl
          rw [insertImplementation, insertImplementation, if_neg hn,
            if_neg hn, if_pos hf, if_pos hf, List.filter_append,
            List.filter_cons_of_pos hi, List.filter_nil]
      | false =>
          refine List.reverse_inj.mp ?_
          rw [← List.filter_reverse, reverse_insert_plain hl hf,
            reverse_insert_plain hl hf, List.filter_append,
            List.filter_cons_of_pos hi, filter_takeWhile h.dropWhile,
            filter_dropWhile h.dropWhile, List.filter_reverse]

/-- One that is not shared is left out again. -/
theorem filter_insert_other (hi : shared i = false) :
    (insertImplementation i chain).filter shared = chain.filter shared := by
  have hskip : ¬ shared i = true := ne_true_of_eq_false hi
  cases hl : i.mark.tryLast with
  | true =>
      rw [insertImplementation, if_pos hl, List.filter_cons_of_neg hskip]
  | false =>
      cases hf : i.mark.tryFirst with
      | true =>
          rw [insertImplementation, if_neg (ne_true_of_eq_false hl),
            if_pos hf, List.filter_append, List.filter_cons_of_neg hskip,
            List.filter_nil, List.append_nil]
      | false =>
          refine List.reverse_inj.mp ?_
          rw [← List.filter_reverse, reverse_insert_plain hl hf,
            List.filter_append, List.filter_cons_of_neg hskip,
            ← List.filter_append, List.takeWhile_append_dropWhile,
            List.filter_reverse]

/-- Adding preserves the layers, unless a shared implementation asks to be
    first and last at once. -/
theorem Layered.insert (h : Layered shared chain)
    (hi : shared i = true → i.mark.tryFirst = true →
      i.mark.tryLast = false) :
    Layered shared (insertImplementation i chain) := by
  cases hl : i.mark.tryLast with
  | true =>
      rw [insertImplementation, if_pos hl]
      refine List.pairwise_cons.mpr ⟨?_, h⟩
      intro j _ hs hf
      rw [hi hs hf] at hl
      cases hl
  | false =>
      cases hf : i.mark.tryFirst with
      | true =>
          rw [insertImplementation, if_neg (ne_true_of_eq_false hl),
            if_pos hf]
          refine List.pairwise_append.mpr
            ⟨h, List.pairwise_singleton _ _, ?_⟩
          intro j _ last hlast _ _
          rw [List.mem_singleton.mp hlast]
          exact hf
      | false =>
          have hrev := List.pairwise_reverse.mpr h
          refine List.pairwise_reverse.mp ?_
          rw [reverse_insert_plain hl hf]
          refine List.pairwise_append.mpr ⟨hrev.sublist
            (List.takeWhile_sublist _), List.pairwise_cons.mpr
              ⟨?_, hrev.sublist (List.dropWhile_sublist _)⟩, ?_⟩
          · intro j hj hs hfirst
            rw [h.dropWhile j hj hs] at hfirst
            cases hfirst
          · intro j hj other _ _ _
            have hfirst := List.mem_takeWhile_imp hj
            exact hfirst

/-! ## Taking implementations out -/

/-- Taking out one that is shared, or leaving out those that are not, can
    be done in either order. -/
theorem filter_dropFirst {serial other : Nat} (h : other ≠ serial)
    (chain : List Implementation) :
    (dropFirst other chain).filter (fun i => i.serial != serial) =
      dropFirst other (chain.filter fun i => i.serial != serial) := by
  induction chain with
  | nil => rfl
  | cons i rest ih =>
      rw [dropFirst]
      cases ho : i.serial == other with
      | true =>
          have hi : (i.serial != serial) = true := by
            rw [eq_of_beq ho]
            exact bne_iff_ne.mpr h
          rw [if_pos rfl, List.filter_cons, if_pos hi, dropFirst, ho,
            if_pos rfl]
      | false =>
          rw [if_neg Bool.false_ne_true, List.filter_cons, List.filter_cons,
            ih]
          split
          · rw [dropFirst, ho, if_neg Bool.false_ne_true]
          · rfl

/-- Taking out one that is left out anyway is no matter. -/
theorem filter_dropFirst_self (serial : Nat) (chain : List Implementation) :
    (dropFirst serial chain).filter (fun i => i.serial != serial) =
      chain.filter fun i => i.serial != serial := by
  induction chain with
  | nil => rfl
  | cons i rest ih =>
      rw [dropFirst]
      cases ho : i.serial == serial with
      | true =>
          have hi : ¬ (i.serial != serial) = true := by
            rw [bne, ho]
            exact Bool.false_ne_true
          rw [if_pos rfl, List.filter_cons, if_neg hi]
      | false =>
          rw [if_neg Bool.false_ne_true, List.filter_cons, List.filter_cons,
            ih]

end Extensions

end LineShell
