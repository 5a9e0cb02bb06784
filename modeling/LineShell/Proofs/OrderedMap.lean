import LineShell.OrderedMap
import Mathlib.Data.List.Induction

/-! # Ordered maps by names and look-ups

    An ordered map is known by the order of its names and by what is found
    under each (`OrderedMap.eq_of_get?`).  So two ways to build a map are
    compared in these two respects.  Setting many names at once can be cut
    anywhere: setting the names of a map that was built by itself sets what
    the map was built from (`OrderedMap.insertAll_ofList`). -/

namespace LineShell

namespace OrderedMap

variable {α : Type} {m n : OrderedMap α} {name other : String}

theorem find_isSome {l : List (String × α)} :
    (find name l).isSome = true ↔ name ∈ l.map Prod.fst := by
  induction l with
  | nil => simp [find]
  | cons pair rest ih =>
      by_cases h : pair.1 = name
      · simp [find, h]
      · have h' : ¬ name = pair.1 := fun e => h e.symm
        simp [find, h, h', ih]

theorem find_eq_none {l : List (String × α)} :
    find name l = none ↔ name ∉ l.map Prod.fst := by
  rw [← find_isSome, Bool.not_eq_true, Option.isSome_eq_false_iff,
    Option.isNone_iff_eq_none]

/-- A name is there just when something is found under it. -/
theorem mem_names : name ∈ m.names ↔ (m.get? name).isSome = true :=
  find_isSome.symm

theorem notMem_names : name ∉ m.names ↔ m.get? name = none :=
  find_eq_none.symm

theorem mem_iff_find {l : List (String × α)} (hd : (l.map Prod.fst).Nodup)
    {a : α} : (name, a) ∈ l ↔ find name l = some a := by
  induction l with
  | nil => simp [find]
  | cons pair rest ih =>
      obtain ⟨habsent, hd⟩ := List.nodup_cons.mp hd
      rw [List.mem_cons, ih hd, find]
      by_cases h : pair.1 = name
      · -- the first name stands nowhere else
        subst h
        rw [if_pos rfl, find_eq_none.mpr habsent]
        simp [Prod.ext_iff, eq_comm]
      · have h' : (name, a) ≠ pair := fun e => h (congrArg Prod.fst e).symm
        simp [h, h']

/-- What is found stands in the list. -/
theorem mem_of_find {l : List (String × α)} {a : α}
    (h : find name l = some a) : (name, a) ∈ l := by
  induction l with
  | nil => cases h
  | cons pair rest ih =>
      rw [find] at h
      split at h
      · rename_i hname
        obtain rfl := Option.some.inj h
        exact hname ▸ List.mem_cons_self
      · exact List.mem_cons_of_mem _ (ih h)

/-- The values are what is found under the names. -/
theorem mem_values {a : α} : a ∈ m.values ↔ ∃ name, m.get? name = some a := by
  rw [values, List.mem_map]
  constructor
  · rintro ⟨⟨name, a⟩, hmem, rfl⟩
    exact ⟨name, (mem_iff_find m.nodup).mp hmem⟩
  · rintro ⟨name, hget⟩
    exact ⟨(name, a), (mem_iff_find m.nodup).mpr hget, rfl⟩

theorem eq_of_find {l₁ l₂ : List (String × α)}
    (hd : (l₁.map Prod.fst).Nodup) (hn : l₁.map Prod.fst = l₂.map Prod.fst)
    (hf : ∀ name, find name l₁ = find name l₂) : l₁ = l₂ := by
  induction l₁ generalizing l₂ with
  | nil => exact (List.map_eq_nil_iff.mp hn.symm).symm
  | cons pair rest ih =>
      obtain ⟨name, a⟩ := pair
      cases l₂ with
      | nil => cases hn
      | cons pair₂ rest₂ =>
          obtain ⟨name₂, a₂⟩ := pair₂
          obtain ⟨rfl, hrest⟩ := List.cons.inj hn
          obtain ⟨habsent, hd⟩ := List.nodup_cons.mp hd
          have ha := hf name
          simp only [find, if_true, Option.some.injEq] at ha
          have hfound : ∀ other, find other rest = find other rest₂ := by
            intro other
            by_cases h : name = other
            · -- the first name stands nowhere else
              subst h
              rw [find_eq_none.mpr habsent, find_eq_none.mpr (hrest ▸ habsent)]
            · have hother := hf other
              simp only [find, h, if_false] at hother
              exact hother
          rw [ha, ih hd hrest hfound]

/-- Maps with the same names in the same order, and the same under each,
    are the same. -/
theorem eq_of_get? (hn : m.names = n.names)
    (hg : ∀ name, m.get? name = n.get? name) : m = n :=
  ext (eq_of_find m.nodup hn hg)

theorem names_erase (m : OrderedMap α) (name : String) :
    (m.erase name).names = m.names.filter fun other => other != name := by
  rw [names, names, toList_erase, remove, List.filter_map]
  rfl

/-- Setting a name that is there keeps the order of the names. -/
theorem names_insert_of_mem (h : name ∈ m.names) (a : α) :
    (m.insert name a).names = m.names := by
  rw [names_insert, if_pos h]

/-- Setting a name and taking out another can be done in either order. -/
theorem erase_insert (h : name ≠ other) (a : α) :
    (m.insert name a).erase other = (m.erase other).insert name a := by
  refine eq_of_get? ?_ ?_
  · have hkeep : (name != other) = true := bne_iff_ne.mpr h
    rw [names_erase, names_insert, names_insert, names_erase]
    by_cases hm : name ∈ m.names
    · rw [if_pos hm, if_pos (List.mem_filter.mpr ⟨hm, hkeep⟩)]
    · rw [if_neg hm, if_neg fun hf => hm (List.mem_filter.mp hf).1,
        List.filter_append, List.filter_cons, if_pos hkeep, List.filter_nil]
  · intro third
    rw [get?_erase, get?_insert, get?_insert, get?_erase]
    by_cases h₁ : other = third
    · have h₂ : ¬ name = third := fun e => h (e.trans h₁.symm)
      simp [h₁, h₂]
    · simp [h₁]

theorem erase_erase (m : OrderedMap α) (name other : String) :
    (m.erase name).erase other = (m.erase other).erase name := by
  refine eq_of_get? ?_ ?_
  · rw [names_erase, names_erase, names_erase, names_erase,
      List.filter_filter, List.filter_filter]
    exact List.filter_congr fun _ _ => Bool.and_comm _ _
  · intro third
    rw [get?_erase, get?_erase, get?_erase, get?_erase]
    split <;> split <;> rfl

/-- Taking out a name that was not there before it was set undoes that. -/
theorem erase_insert_self (h : m.get? name = none) (a : α) :
    (m.insert name a).erase name = m := by
  have habsent : name ∉ m.names := notMem_names.mpr h
  refine eq_of_get? ?_ ?_
  · rw [names_erase, names_insert, if_neg habsent, List.filter_append,
      List.filter_cons, bne_self_eq_false, if_neg Bool.false_ne_true,
      List.filter_nil, List.append_nil]
    refine List.filter_eq_self.mpr ?_
    intro other hother
    exact bne_iff_ne.mpr fun e => habsent (e ▸ hother)
  · intro other
    rw [get?_erase, get?_insert]
    by_cases hother : name = other
    · rw [if_pos hother, ← hother, h]
    · rw [if_neg hother, if_neg hother]

/-! ## Setting many names -/

theorem mem_names_insert_self (m : OrderedMap α) (name : String) (a : α) :
    name ∈ (m.insert name a).names := by
  rw [names_insert]
  split
  · assumption
  · exact List.mem_append_right _ List.mem_cons_self

theorem mem_names_insert (h : name ∈ m.names) (a : α) :
    name ∈ (m.insert other a).names := by
  rw [names_insert]
  split
  · exact h
  · exact List.mem_append_left _ h

/-- Of two values for one name the last counts. -/
theorem insert_insert_self (m : OrderedMap α) (name : String) (a b : α) :
    (m.insert name a).insert name b = m.insert name b := by
  refine eq_of_get? ?_ ?_
  · rw [names_insert_of_mem (mem_names_insert_self m name a), names_insert,
      names_insert]
  · intro third
    rw [get?_insert, get?_insert, get?_insert]
    split <;> rfl

/-- A name that is there can be set before or after another one. -/
theorem insert_insert_of_mem (h : name ∈ m.names) (hne : name ≠ other)
    (a b : α) :
    (m.insert other b).insert name a = (m.insert name a).insert other b := by
  refine eq_of_get? ?_ ?_
  · rw [names_insert_of_mem (mem_names_insert h b), names_insert,
      names_insert, names_insert_of_mem h]
  · intro third
    rw [get?_insert, get?_insert, get?_insert, get?_insert]
    by_cases h₁ : name = third
    · have h₂ : ¬ other = third := fun e => hne (h₁.trans e.symm)
      rw [if_pos h₁, if_neg h₂, if_pos h₁]
    · rw [if_neg h₁, if_neg h₁]

/-- A name that is there can be set before or after others. -/
theorem insertAll_insert_of_mem {pairs : List (String × α)}
    (h : name ∈ m.names) (hp : name ∉ pairs.map Prod.fst) (a : α) :
    (m.insertAll pairs).insert name a =
      (m.insert name a).insertAll pairs := by
  induction pairs generalizing m with
  | nil => rfl
  | cons pair rest ih =>
      obtain ⟨hne, hrest⟩ := not_or.mp (mt List.mem_cons.mpr hp)
      show ((m.insert pair.1 pair.2).insertAll rest).insert name a =
        ((m.insert name a).insert pair.1 pair.2).insertAll rest
      rw [ih (mem_names_insert h pair.2) hrest, insert_insert_of_mem h hne]

/-- Setting a name in a list of pairs and then setting all of them is
    setting the name last. -/
theorem insertAll_put {l : List (String × α)}
    (hd : (l.map Prod.fst).Nodup) (a : α) :
    m.insertAll (put name a l) = (m.insertAll l).insert name a := by
  induction l generalizing m with
  | nil => rfl
  | cons pair rest ih =>
      obtain ⟨habsent, hd⟩ := List.nodup_cons.mp hd
      rw [put]
      split
      · rename_i h
        subst h
        show (m.insert pair.1 a).insertAll rest =
          ((m.insert pair.1 pair.2).insertAll rest).insert pair.1 a
        rw [insertAll_insert_of_mem (mem_names_insert_self m _ _) habsent,
          insert_insert_self]
      · exact ih hd

/-- Setting the names of a map that others were set in is setting its names
    and then the others. -/
theorem insertAll_insertAll (m n : OrderedMap α)
    (pairs : List (String × α)) :
    m.insertAll (n.insertAll pairs).toList =
      (m.insertAll n.toList).insertAll pairs := by
  induction pairs generalizing n with
  | nil => rfl
  | cons pair rest ih =>
      show m.insertAll ((n.insert pair.1 pair.2).insertAll rest).toList =
        ((m.insertAll n.toList).insert pair.1 pair.2).insertAll rest
      rw [ih, toList_insert, insertAll_put n.nodup]

theorem insertAll_append (m : OrderedMap α) (l₁ l₂ : List (String × α)) :
    m.insertAll (l₁ ++ l₂) = (m.insertAll l₁).insertAll l₂ :=
  List.foldl_append

/-- Setting the names of the map of some pairs is setting the pairs. -/
theorem insertAll_ofList (m : OrderedMap α) (pairs : List (String × α)) :
    m.insertAll (ofList pairs).toList = m.insertAll pairs :=
  insertAll_insertAll m empty pairs

theorem put_of_notMem {l : List (String × α)}
    (h : name ∉ l.map Prod.fst) (a : α) : put name a l = l ++ [(name, a)] := by
  induction l with
  | nil => rfl
  | cons pair rest ih =>
      obtain ⟨hne, hrest⟩ := not_or.mp (mt List.mem_cons.mpr h)
      rw [put, if_neg fun e => hne e.symm, ih hrest, List.cons_append]

/-- New names, no two the same, come to stand behind those that are there. -/
theorem toList_insertAll_of_nodup {pairs : List (String × α)}
    (h : ((m.toList ++ pairs).map Prod.fst).Nodup) :
    (m.insertAll pairs).toList = m.toList ++ pairs := by
  induction pairs generalizing m with
  | nil => exact (List.append_nil _).symm
  | cons pair rest ih =>
      have hnew : pair.1 ∉ m.toList.map Prod.fst := by
        intro hmem
        rw [List.map_append, List.nodup_append] at h
        exact h.2.2 pair.1 hmem pair.1 List.mem_cons_self rfl
      have hput : (m.insert pair.1 pair.2).toList = m.toList ++ [pair] :=
        put_of_notMem hnew pair.2
      show ((m.insert pair.1 pair.2).insertAll rest).toList = _
      rw [ih (by rwa [hput, List.append_assoc, List.singleton_append]), hput,
        List.append_assoc, List.singleton_append]

/-- The map of the pairs of a map is the map. -/
theorem ofList_toList (m : OrderedMap α) : ofList m.toList = m :=
  ext (toList_insertAll_of_nodup (m := empty) m.nodup)

/-- Setting the names of a list: a name of the list is found there. -/
theorem get?_insertAll {pairs : List (String × α)}
    (hd : (pairs.map Prod.fst).Nodup) (m : OrderedMap α) (name : String) :
    (m.insertAll pairs).get? name = (find name pairs).or (m.get? name) := by
  induction pairs generalizing m with
  | nil => rfl
  | cons pair rest ih =>
      obtain ⟨habsent, hd⟩ := List.nodup_cons.mp hd
      show ((m.insert pair.1 pair.2).insertAll rest).get? name = _
      rw [ih hd, get?_insert, find]
      by_cases h : pair.1 = name
      · -- the first name stands nowhere else
        subst h
        rw [find_eq_none.mpr habsent]
        simp
      · simp [h]

theorem ofList_concat (pairs : List (String × α)) (name : String) (a : α) :
    ofList (pairs ++ [(name, a)]) = (ofList pairs).insert name a :=
  insertAll_append empty pairs [(name, a)]

/-- The map of a list of pairs keeps the first place of each name. -/
theorem names_ofList (pairs : List (String × α)) :
    (ofList pairs).names = (pairs.map Prod.fst).eraseDups := by
  induction pairs using List.reverseRecOn with
  | nil => rfl
  | append_singleton pairs pair ih =>
      rw [ofList_concat, names_insert, ih, List.map_append,
        List.eraseDups_append]
      split
      · rename_i hmem
        simp [List.removeAll, List.mem_eraseDups.mp hmem]
      · rename_i hmem
        simp [List.removeAll, mt List.mem_eraseDups.mpr hmem,
          List.eraseDups_cons]

/-- The map of a list of pairs keeps the last value of each name. -/
theorem get?_ofList (pairs : List (String × α)) (name : String) :
    (ofList pairs).get? name = find name pairs.reverse := by
  induction pairs using List.reverseRecOn with
  | nil => rfl
  | append_singleton pairs pair ih =>
      rw [ofList_concat, get?_insert, ih, List.reverse_concat, find]

/-- What stands in the map of a list of pairs stands in the list. -/
theorem mem_of_mem_ofList {pairs : List (String × α)} {pair : String × α}
    (h : pair ∈ (ofList pairs).toList) : pair ∈ pairs := by
  have hfound := (mem_iff_find (ofList pairs).nodup).mp h
  have hget := (get?_ofList pairs pair.1).symm.trans hfound
  exact List.mem_reverse.mp (mem_of_find hget)

end OrderedMap

end LineShell
