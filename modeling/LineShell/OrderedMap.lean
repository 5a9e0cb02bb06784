/-! # Ordered maps — one value a name, in order of first appearance

    A map from names to values that remembers the order in which its names
    came in.  Setting a name that is there changes its value and keeps its
    place; a new name goes to the end; a name that was removed and comes
    back goes to the end as well.  That no name stands twice is part of
    the type. -/

namespace LineShell

/-- A list of pairs in which no name stands twice. -/
structure OrderedMap (α : Type) where
  toList : List (String × α)
  nodup : (toList.map Prod.fst).Nodup

namespace OrderedMap

variable {α β : Type}

/-- Sets a name in a list of pairs. -/
def put (name : String) (value : α) :
    List (String × α) → List (String × α)
  | [] => [(name, value)]
  | (other, old) :: rest =>
      if other = name then (name, value) :: rest
      else (other, old) :: put name value rest

/-- The first value of a name in a list of pairs. -/
def find (name : String) : List (String × α) → Option α
  | [] => none
  | (other, value) :: rest =>
      if other = name then some value else find name rest

/-- The pairs of the other names. -/
def remove (name : String) (l : List (String × α)) : List (String × α) :=
  l.filter fun pair => pair.1 != name

theorem names_put (name : String) (value : α) (l : List (String × α)) :
    (put name value l).map Prod.fst =
      if name ∈ l.map Prod.fst then l.map Prod.fst
      else l.map Prod.fst ++ [name] := by
  induction l with
  | nil => simp [put]
  | cons pair rest ih =>
      by_cases h : pair.1 = name
      · simp [put, h]
      · have h' : ¬ name = pair.1 := fun e => h e.symm
        simp only [put, h, if_false, List.map_cons, ih, List.mem_cons, h',
          false_or]
        split <;> rfl

theorem nodup_put {name : String} {value : α} {l : List (String × α)}
    (h : (l.map Prod.fst).Nodup) :
    ((put name value l).map Prod.fst).Nodup := by
  rw [names_put]
  split
  · exact h
  · rename_i absent
    rw [List.nodup_append]
    refine ⟨h, by simp, ?_⟩
    intro a ha b hb
    rw [List.mem_singleton.mp hb]
    exact fun e => absent (e ▸ ha)

/-- The map without names. -/
def empty : OrderedMap α := ⟨[], by simp⟩

instance : Inhabited (OrderedMap α) := ⟨empty⟩

instance : EmptyCollection (OrderedMap α) := ⟨empty⟩

/-- Sets a name. -/
def insert (m : OrderedMap α) (name : String) (value : α) : OrderedMap α :=
  ⟨put name value m.toList, nodup_put m.nodup⟩

/-- Removes a name. -/
def erase (m : OrderedMap α) (name : String) : OrderedMap α :=
  ⟨remove name m.toList,
    (List.filter_sublist.map Prod.fst).nodup m.nodup⟩

/-- The value of a name. -/
def get? (m : OrderedMap α) (name : String) : Option α :=
  find name m.toList

/-- Is the name there? -/
def contains (m : OrderedMap α) (name : String) : Bool :=
  (m.get? name).isSome

/-- The names, in order. -/
def names (m : OrderedMap α) : List String :=
  m.toList.map Prod.fst

/-- The values, in the order of their names. -/
def values (m : OrderedMap α) : List α :=
  m.toList.map Prod.snd

/-- How many names there are. -/
def size (m : OrderedMap α) : Nat :=
  m.toList.length

/-- Sets the names of a list one after the other. -/
def insertAll (m : OrderedMap α) (pairs : List (String × α)) :
    OrderedMap α :=
  pairs.foldl (fun m pair => m.insert pair.1 pair.2) m

/-- The map of a list of pairs: first place, last value. -/
def ofList (pairs : List (String × α)) : OrderedMap α :=
  empty.insertAll pairs

/-- Changes every value. -/
def map (f : α → β) (m : OrderedMap α) : OrderedMap β :=
  ⟨m.toList.map fun pair => (pair.1, f pair.2), by
    simpa [List.map_map, Function.comp_def] using m.nodup⟩

@[ext] theorem ext {m n : OrderedMap α} (h : m.toList = n.toList) :
    m = n := by
  cases m
  cases n
  cases h
  rfl

@[simp] theorem toList_empty : (empty : OrderedMap α).toList = [] := rfl

@[simp] theorem toList_insert (m : OrderedMap α) (name : String)
    (value : α) : (m.insert name value).toList = put name value m.toList :=
  rfl

@[simp] theorem toList_erase (m : OrderedMap α) (name : String) :
    (m.erase name).toList = remove name m.toList :=
  rfl

theorem names_insert (m : OrderedMap α) (name : String) (value : α) :
    (m.insert name value).names =
      if name ∈ m.names then m.names else m.names ++ [name] :=
  names_put name value m.toList

theorem find_put (name other : String) (value : α)
    (l : List (String × α)) :
    find other (put name value l) =
      if name = other then some value else find other l := by
  induction l with
  | nil => simp [put, find]
  | cons pair rest ih => grind [put, find]

theorem find_remove (name other : String) (l : List (String × α)) :
    find other (remove name l) =
      if name = other then none else find other l := by
  induction l with
  | nil => simp [remove, find]
  | cons pair rest ih => grind [remove, find]

theorem get?_insert (m : OrderedMap α) (name other : String) (value : α) :
    (m.insert name value).get? other =
      if name = other then some value else m.get? other :=
  find_put name other value m.toList

theorem get?_erase (m : OrderedMap α) (name other : String) :
    (m.erase name).get? other =
      if name = other then none else m.get? other :=
  find_remove name other m.toList

theorem find_map (f : α → β) (name : String) (l : List (String × α)) :
    find name (l.map fun pair => (pair.1, f pair.2)) =
      (find name l).map f := by
  induction l with
  | nil => rfl
  | cons pair rest ih => grind [find]

theorem get?_map (f : α → β) (m : OrderedMap α) (name : String) :
    (m.map f).get? name = (m.get? name).map f :=
  find_map f name m.toList

end OrderedMap

end LineShell
