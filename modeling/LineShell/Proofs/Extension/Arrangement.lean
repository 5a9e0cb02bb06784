import LineShell.Proofs.Extension.Admission
import LineShell.Proofs.Extension.Chain

/-! # Arrangement — where implementations stand in a chain

    A chain is filled by one insertion after the other.  Here its order is
    told from the order of the insertions (`Extensions.fill_empty`): those
    that ask to be last stand in front, the latest of them first; then come
    those that ask for neither, and then those that ask to be first, both
    in order of insertion (`Extensions.arranged_of_decided`).

    One that asks to be first and last at once goes to the front, and then
    gives way like one that asks to be first, as long as only such stand
    behind it.  So it matters whether it was inserted before the first one
    that does not ask to be first. -/

namespace LineShell

namespace Implementation

/-- Asks to be last. -/
def isLast (i : Implementation) : Bool := i.mark.tryLast

/-- Asks to be first. -/
def isFirst (i : Implementation) : Bool := i.mark.tryFirst

/-- Asks to be first, and not to be last. -/
def isOnlyFirst (i : Implementation) : Bool := !i.isLast && i.isFirst

/-- Asks for neither. -/
def isPlain (i : Implementation) : Bool := !i.isLast && !i.isFirst

variable {i : Implementation}

theorem isOnlyFirst_iff :
    i.isOnlyFirst = true ↔ i.isLast = false ∧ i.isFirst = true := by
  rw [isOnlyFirst, Bool.and_eq_true_iff, Bool.not_eq_true']

theorem isPlain_iff :
    i.isPlain = true ↔ i.isLast = false ∧ i.isFirst = false := by
  rw [isPlain, Bool.and_eq_true_iff, Bool.not_eq_true', Bool.not_eq_true']

/-- An implementation asks for one of three places. -/
theorem asks (i : Implementation) :
    i.isLast = true ∨ i.isOnlyFirst = true ∨ i.isPlain = true := by
  rw [isOnlyFirst, isPlain]
  cases i.isLast <;> cases i.isFirst <;> decide

/-! What each of the three is among others. -/

theorem filter_last (h : i.isLast = true) (rest : List Implementation) :
    (i :: rest).filter isLast = i :: rest.filter isLast ∧
    (i :: rest).filter isPlain = rest.filter isPlain ∧
    (i :: rest).filter isOnlyFirst = rest.filter isOnlyFirst := by
  refine ⟨List.filter_cons_of_pos h, List.filter_cons_of_neg ?_,
    List.filter_cons_of_neg ?_⟩
  · simp [isPlain, h]
  · simp [isOnlyFirst, h]

theorem filter_onlyFirst (h : i.isOnlyFirst = true)
    (rest : List Implementation) :
    (i :: rest).filter isLast = rest.filter isLast ∧
    (i :: rest).filter isPlain = rest.filter isPlain ∧
    (i :: rest).filter isOnlyFirst = i :: rest.filter isOnlyFirst := by
  obtain ⟨hl, hf⟩ := isOnlyFirst_iff.mp h
  refine ⟨List.filter_cons_of_neg (ne_true_of_eq_false hl),
    List.filter_cons_of_neg ?_, List.filter_cons_of_pos h⟩
  simp [isPlain, hf]

theorem filter_plain (h : i.isPlain = true) (rest : List Implementation) :
    (i :: rest).filter isLast = rest.filter isLast ∧
    (i :: rest).filter isPlain = i :: rest.filter isPlain ∧
    (i :: rest).filter isOnlyFirst = rest.filter isOnlyFirst := by
  obtain ⟨hl, hf⟩ := isPlain_iff.mp h
  refine ⟨List.filter_cons_of_neg (ne_true_of_eq_false hl),
    List.filter_cons_of_pos h, List.filter_cons_of_neg ?_⟩
  simp [isOnlyFirst, hf]

end Implementation

open Implementation (isLast isFirst isOnlyFirst isPlain)
open Implementation (isOnlyFirst_iff isPlain_iff)
open Implementation (filter_last filter_onlyFirst filter_plain)

namespace Extensions

variable {i : Implementation} {is chain behind : List Implementation}

/-- A chain with implementations inserted one after the other. -/
def fill (chain is : List Implementation) : List Implementation :=
  is.foldl (fun chain i => insertImplementation i chain) chain

/-- The order of a chain, told from the order of the insertions. -/
def arranged (is : List Implementation) : List Implementation :=
  ((is.dropWhile isFirst).filter isLast).reverse ++ is.filter isPlain ++
    ((is.takeWhile isFirst).filter isLast).reverse ++ is.filter isOnlyFirst

/-! ## One insertion -/

theorem insert_last (h : i.isLast = true) :
    insertImplementation i chain = i :: chain :=
  if_pos h

theorem insert_onlyFirst (h : i.isOnlyFirst = true) :
    insertImplementation i chain = chain ++ [i] := by
  obtain ⟨hl, hf⟩ := isOnlyFirst_iff.mp h
  exact (if_neg (ne_true_of_eq_false hl)).trans (if_pos hf)

/-- One that asks for neither passes those at the end that ask to be
    first. -/
theorem insert_plain (h : i.isPlain = true)
    (hbehind : ∀ j ∈ behind, isFirst j = true)
    (hchain : ∀ j ∈ chain.getLast?, isFirst j = false) :
    insertImplementation i (chain ++ behind) = chain ++ i :: behind := by
  obtain ⟨hl, hf⟩ := isPlain_iff.mp h
  have hpassed : ∀ j ∈ behind.reverse, isFirst j = true :=
    fun j hj => hbehind j (List.mem_reverse.mp hj)
  have hstop : chain.reverse.takeWhile isFirst = [] ∧
      chain.reverse.dropWhile isFirst = chain.reverse := by
    rcases List.eq_nil_or_concat chain with rfl | ⟨before, last, rfl⟩
    · exact ⟨rfl, rfl⟩
    · have hlast : ¬ isFirst last = true := by simpa using hchain
      rw [List.concat_eq_append, List.reverse_concat]
      exact ⟨List.takeWhile_cons_of_neg hlast,
        List.dropWhile_cons_of_neg hlast⟩
  refine List.reverse_inj.mp ?_
  rw [reverse_insert_plain hl hf]
  show (chain ++ behind).reverse.takeWhile isFirst ++
    i :: (chain ++ behind).reverse.dropWhile isFirst = _
  rw [List.reverse_append, List.takeWhile_append_of_pos hpassed,
    List.dropWhile_append_of_pos hpassed, hstop.1, hstop.2]
  simp

/-! ## One insertion after the other -/

/-- As long as all ask to be first, one that asks to be last as well goes
    to the front, and the others go to the end. -/
theorem fill_firsts (his : ∀ j ∈ is, isFirst j = true)
    (chain : List Implementation) :
    fill chain is =
      (is.filter isLast).reverse ++ chain ++ is.filter isOnlyFirst := by
  induction is generalizing chain with
  | nil => simp [fill]
  | cons i rest ih =>
      have hrest := ih fun j hj => his j (List.mem_cons_of_mem _ hj)
      show fill (insertImplementation i chain) rest = _
      cases hl : i.isLast with
      | true =>
          obtain ⟨hlasts, _, hfirsts⟩ := filter_last hl rest
          rw [insert_last hl, hrest, hlasts, hfirsts]
          simp
      | false =>
          have ho : i.isOnlyFirst = true :=
            isOnlyFirst_iff.mpr ⟨hl, his i List.mem_cons_self⟩
          obtain ⟨hlasts, _, hfirsts⟩ := filter_onlyFirst ho rest
          rw [insert_onlyFirst ho, hrest, hlasts, hfirsts]
          simp

/-- Behind one that does not ask to be first, all that stand there ask to
    be first, and so it stays: what asks for nothing comes to stand before
    them. -/
theorem fill_settled {a : Implementation} (ha : isFirst a = false)
    (hbehind : ∀ j ∈ behind, isFirst j = true) (is : List Implementation)
    (chain : List Implementation) :
    fill (chain ++ a :: behind) is =
      (is.filter isLast).reverse ++ chain ++
        a :: (is.filter isPlain ++ behind ++ is.filter isOnlyFirst) := by
  -- on the insertions; what is left behind, and behind which one, may change
  induction is generalizing chain a behind with
  | nil => simp [fill]
  | cons i rest ih =>
      show fill (insertImplementation i (chain ++ a :: behind)) rest = _
      rcases i.asks with h | h | h
      · obtain ⟨hlasts, hplains, hfirsts⟩ := filter_last h rest
        rw [insert_last h, ← List.cons_append, ih ha hbehind, hlasts,
          hplains, hfirsts]
        simp
      · have hmore : ∀ j ∈ behind ++ [i], isFirst j = true := by
          simpa [or_imp, forall_and, (isOnlyFirst_iff.mp h).2] using hbehind
        obtain ⟨hlasts, hplains, hfirsts⟩ := filter_onlyFirst h rest
        rw [insert_onlyFirst h, List.append_assoc, List.cons_append,
          ih ha hmore, hlasts, hplains, hfirsts]
        simp
      · -- the others that ask to be first now stand behind this one
        have hpast : insertImplementation i (chain ++ a :: behind) =
            (chain ++ [a]) ++ i :: behind := by
          rw [List.append_cons, insert_plain h hbehind]
          simpa using ha
        obtain ⟨hlasts, hplains, hfirsts⟩ := filter_plain h rest
        rw [hpast, ih (isPlain_iff.mp h).2 hbehind, hlasts, hplains, hfirsts]
        simp

/-- The first one that does not ask to be first comes to stand before all
    that do, and the others follow. -/
theorem fill_mixed (hbehind : ∀ j ∈ behind, isFirst j = true)
    (his : ∀ j ∈ is.head?, isFirst j = false) :
    fill behind is = (is.filter isLast).reverse ++
      (is.filter isPlain ++ behind ++ is.filter isOnlyFirst) := by
  cases is with
  | nil => simp [fill]
  | cons a rest =>
      have ha : isFirst a = false := his a rfl
      show fill (insertImplementation a behind) rest = _
      cases hl : a.isLast with
      | true =>
          obtain ⟨hlasts, hplains, hfirsts⟩ := filter_last hl rest
          rw [insert_last hl, ← List.nil_append (a :: behind),
            fill_settled ha hbehind, hlasts, hplains, hfirsts]
          simp
      | false =>
          have hp : a.isPlain = true := isPlain_iff.mpr ⟨hl, ha⟩
          have hinsert : insertImplementation a ([] ++ behind) =
              [] ++ a :: behind := insert_plain hp hbehind (by simp)
          rw [List.nil_append] at hinsert
          obtain ⟨hlasts, hplains, hfirsts⟩ := filter_plain hp rest
          rw [hinsert, fill_settled ha hbehind, hlasts, hplains, hfirsts]
          simp

/-- A list in two parts: up to the first one that does not ask to be first,
    and from there on. -/
theorem filter_lead_rest (is : List Implementation)
    (p : Implementation → Bool) :
    (is.takeWhile isFirst).filter p ++ (is.dropWhile isFirst).filter p =
      is.filter p := by
  rw [← List.filter_append, List.takeWhile_append_dropWhile]

/-- The order of a chain that is filled by insertions. -/
theorem fill_empty (is : List Implementation) : fill [] is = arranged is := by
  have hlead : ∀ j ∈ is.takeWhile isFirst, isFirst j = true :=
    fun j hj => List.mem_takeWhile_imp hj
  have hrest : ∀ j ∈ (is.dropWhile isFirst).head?, isFirst j = false := by
    intro j hj
    have hhead := List.head?_dropWhile_not isFirst is
    rw [Option.mem_def.mp hj] at hhead
    exact hhead
  -- up to the first one that does not ask to be first, all ask for it
  have hfilled := fill_firsts hlead []
  rw [List.append_nil] at hfilled
  have hbehind : ∀ j ∈ fill [] (is.takeWhile isFirst), isFirst j = true := by
    intro j hj
    rw [hfilled] at hj
    rcases List.mem_append.mp hj with hj | hj
    · exact hlead j (List.mem_filter.mp (List.mem_reverse.mp hj)).1
    · exact hlead j (List.mem_filter.mp hj).1
  have hplain : (is.takeWhile isFirst).filter isPlain = [] := by
    refine List.filter_eq_nil_iff.mpr ?_
    intro j hj
    simp [isPlain, hlead j hj]
  calc fill [] is
      = fill (fill [] (is.takeWhile isFirst)) (is.dropWhile isFirst) := by
        rw [fill, fill, fill, ← List.foldl_append,
          List.takeWhile_append_dropWhile]
    _ = ((is.dropWhile isFirst).filter isLast).reverse ++
          (((is.takeWhile isFirst).filter isPlain ++
              (is.dropWhile isFirst).filter isPlain) ++
            ((is.takeWhile isFirst).filter isLast).reverse ++
            ((is.takeWhile isFirst).filter isOnlyFirst ++
              (is.dropWhile isFirst).filter isOnlyFirst)) := by
        rw [fill_mixed hbehind hrest, hfilled, hplain]
        simp only [List.append_assoc, List.nil_append]
    _ = arranged is := by
        rw [filter_lead_rest, filter_lead_rest, arranged]
        simp only [List.append_assoc]

/-- Where no implementation asks to be first and last at once, those that
    ask to be last come first and those that ask to be first come last. -/
theorem arranged_of_decided
    (h : ∀ i ∈ is, i.isLast = true → i.isFirst = false) :
    arranged is =
      (is.filter isLast).reverse ++ is.filter isPlain ++
        is.filter isFirst := by
  have hlead : (is.takeWhile isFirst).filter isLast = [] := by
    refine List.filter_eq_nil_iff.mpr ?_
    intro j hj hl
    have hmem := (List.takeWhile_sublist _).subset hj
    have hf := List.mem_takeWhile_imp hj
    rw [h j hmem hl] at hf
    cases hf
  have hlast : (is.dropWhile isFirst).filter isLast = is.filter isLast := by
    rw [← filter_lead_rest is, hlead, List.nil_append]
  have hfirst : is.filter isOnlyFirst = is.filter isFirst := by
    refine List.filter_congr ?_
    intro i hi
    rw [isOnlyFirst]
    cases hl : i.isLast with
    | true =>
        rw [h i hi hl]
        rfl
    | false => rfl
  rw [arranged, hlead, hlast, hfirst, List.reverse_nil, List.append_nil]

/-- Where all ask for neither, the order is that of the insertions. -/
theorem arranged_of_plain (h : ∀ i ∈ is, i.isPlain = true) :
    arranged is = is := by
  have hasks : ∀ i ∈ is, i.isLast = false ∧ i.isFirst = false :=
    fun i hi => isPlain_iff.mp (h i hi)
  have hlast : is.filter isLast = [] :=
    List.filter_eq_nil_iff.mpr fun i hi => ne_true_of_eq_false (hasks i hi).1
  have hfirst : is.filter isFirst = [] :=
    List.filter_eq_nil_iff.mpr fun i hi => ne_true_of_eq_false (hasks i hi).2
  have hdecided : ∀ i ∈ is, i.isLast = true → i.isFirst = false :=
    fun i hi _ => (hasks i hi).2
  rw [arranged_of_decided hdecided, hlast, hfirst,
    List.filter_eq_self.mpr h, List.reverse_nil, List.nil_append,
    List.append_nil]

/-! ## Objects -/

variable {c : Class} {name : String} {serial : Nat}

/-- The implementations of a hook that marked members become. -/
def implementationsFor (hook : String) (c : Class) (name : String)
    (serial : Nat) (members : List (String × HookMark)) :
    List Implementation :=
  (members.filter fun entry => hookOf entry.1 entry.2 == hook).map
    (implementationOf c name serial)

/-- An object fills each chain with its implementations of the hook, in the
    order of its marked members. -/
theorem chain_addedAll (hook : String) (members : List (String × HookMark))
    (e : Extensions) :
    (e.addedAll c name serial members).chain hook =
      fill (e.chain hook)
        (implementationsFor hook c name serial members) := by
  induction members generalizing e with
  | nil => rfl
  | cons entry rest ih =>
      show ((e.added (hookOf entry.1 entry.2)
        (implementationOf c name serial entry)).addedAll c name serial
          rest).chain hook = _
      rw [ih, chain_added, implementationsFor, implementationsFor]
      by_cases h : hookOf entry.1 entry.2 = hook
      · rw [if_pos h, h, List.filter_cons, if_pos (beq_iff_eq.mpr h)]
        rfl
      · rw [if_neg h, List.filter_cons, if_neg (mt beq_iff_eq.mp h)]

/-- So does one that comes in, with those that stand before the first that
    does not fit. -/
theorem chain_entered (hook : String) (e : Extensions) :
    (e.entered c name serial).chain hook =
      fill (e.chain hook)
        (implementationsFor hook c name serial (fitting c)) :=
  chain_addedAll hook _ _

end Extensions

end LineShell
