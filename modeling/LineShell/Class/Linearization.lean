import LineShell.Class

/-! # Linearisation — one order of look-up for several bases

    The ancestors of a class are merged from the lineages of its bases and
    the list of its bases: again and again the first head that stands in
    no tail is taken.  So every base keeps its own order, and the bases
    keep theirs.  Where every head stands in some tail there is no such
    order. -/

namespace LineShell

namespace Class

/-- Does a class stand in a list behind its head? -/
def inTail (c : Class) (queue : List Class) : Bool :=
  queue.tail.any fun other => other.number == c.number

/-- The first head that stands in no tail. -/
def candidate? (queues : List (List Class)) : Option Class :=
  queues.findSome? fun queue =>
    match queue with
    | [] => none
    | c :: _ => if queues.any (inTail c) then none else some c

/-- Takes a class off the front of a list. -/
def dropHead (c : Class) : List Class → List Class
  | [] => []
  | other :: rest =>
      if other.number == c.number then rest else other :: rest

/-- How many classes there are in all lists. -/
def remaining (queues : List (List Class)) : Nat :=
  queues.flatten.length

/-- Merges lists in at most so many steps; the lists that are left when
    there is no candidate. -/
def mergeWithin : Nat → List (List Class) →
    Except (List (List Class)) (List Class)
  | 0, queues => if queues.all List.isEmpty then .ok [] else .error queues
  | steps + 1, queues =>
      if queues.all List.isEmpty then .ok []
      else
        match candidate? queues with
        | none => .error queues
        | some c =>
            (mergeWithin steps (queues.map (dropHead c))).map (c :: ·)

/-- Merges lists. -/
def merge (queues : List (List Class)) :
    Except (List (List Class)) (List Class) :=
  mergeWithin (remaining queues) queues

/-- The classes that stand at the heads of the lists when the merge is
    stuck.  A lineage that is used up still ends in the class of all
    objects. -/
def stuckNames (lineages : List (List Class)) (bases : List Class) :
    List String :=
  (lineages.map (fun queue => (queue.head?.map Class.name).getD "object")
    ++ (bases.head?.map Class.name).toList).eraseDups

/-- The first class that stands in a list twice. -/
def repeated? : List Class → Option Class
  | [] => none
  | c :: rest =>
      if rest.any fun other => other.number == c.number then some c
      else repeated? rest

/-- The ancestors of a class with these bases. -/
def ancestorsOf (bases : List Class) : Except Mismatch (List Class) :=
  match repeated? bases with
  | some c => .error (.duplicateBase c.name)
  | none =>
      match merge (bases.map lineage ++ [bases]) with
      | .ok ancestors => .ok ancestors
      | .error queues =>
          .error (.inconsistentBases
            (stuckNames queues.dropLast (queues.getLast?.getD [])))

end Class

/-- What a class is made of. -/
structure ClassPlan where
  name : String
  bases : List String
  members : List (String × Attribute)
  deriving Inhabited

/-- Classes by name. -/
structure Catalogue where
  classes : OrderedMap Class
  /-- How many classes were made. -/
  made : Nat
  deriving Inhabited

namespace Catalogue

/-- The class of a name. -/
def find? (k : Catalogue) (name : String) : Option Class :=
  k.classes.get? name

/-- A catalogue of one class without ancestors. -/
def ofClass (name : String) (members : List (String × Attribute)) :
    Catalogue :=
  ⟨OrderedMap.empty.insert name ⟨0, name, .ofList members, []⟩, 1⟩

/-- Makes a class.  A name that is no class is left out of the bases. -/
def make (k : Catalogue) (plan : ClassPlan) :
    Except Mismatch Catalogue := do
  let ancestors ← Class.ancestorsOf (plan.bases.filterMap k.find?)
  let c : Class :=
    ⟨k.made, plan.name, .ofList plan.members, ancestors⟩
  pure ⟨k.classes.insert plan.name c, k.made + 1⟩

/-- Makes classes in order. -/
def makeAll (k : Catalogue) (plans : List ClassPlan) :
    Except Mismatch Catalogue :=
  plans.foldlM make k

end Catalogue

end LineShell
