import LineShell.Proofs.Session.Blocks
import LineShell.Proofs.Session.Escape

/-! # Variables — what an environment stores

    An environment keeps what it starts with as it is, and stores the text
    of whatever it is given later.  Every request about it comes to one of a
    few steps (`EnvironmentStep`): it changes nothing, sets names to texts,
    removes names, or enters or leaves an overlay; and leaving one brings
    back only what was stored when it was entered.  So after any requests
    what is stored under a name is what the environment started with there,
    or the text of something that was given for the name.  An environment
    that starts with texts stores only texts, and a program gets only
    texts (`Run.stores_texts`). -/

namespace LineShell

/-! ## What is stored -/

namespace Environment

open OrderedMap

variable {P : String → Value → Prop} {env now : Environment}

/-- Everything that is stored is as `P` says for its name. -/
def Holds (env : Environment) (P : String → Value → Prop) : Prop :=
  ∀ name v, env.get? name = some v → P name v

/-- Everything that is remembered is as `P` says for its name. -/
def Saved.Holds (saved : Saved) (P : String → Value → Prop) : Prop :=
  ∀ name v, (name, some v) ∈ saved → P name v

/-- Nothing but texts is stored. -/
def Textual (env : Environment) : Prop :=
  env.Holds fun _ v => ∃ text, v = .text text

theorem holds_empty : Holds empty P :=
  fun _ _ h => absurd h (by simp [get?, find])

theorem holds_insert {name : String} {v : Value} (h : env.Holds P)
    (hv : P name v) : Holds (env.insert name v) P := by
  intro other w hw
  rw [get?_insert] at hw
  by_cases hname : name = other
  · subst hname
    rw [if_pos rfl] at hw
    cases hw
    exact hv
  · rw [if_neg hname] at hw
    exact h other w hw

theorem holds_insertAll {pairs : List (String × Value)} (h : env.Holds P)
    (hpairs : ∀ pair ∈ pairs, P pair.1 pair.2) :
    Holds (env.insertAll pairs) P := by
  induction pairs generalizing env with
  | nil => exact h
  | cons pair pairs ih =>
      obtain ⟨hpair, hrest⟩ := List.forall_mem_cons.mp hpairs
      exact ih (holds_insert h hpair) hrest

theorem holds_erase (h : env.Holds P) (name : String) :
    Holds (env.erase name) P := by
  intro other w hw
  rw [get?_erase] at hw
  by_cases hname : name = other
  · rw [if_pos hname] at hw
    cases hw
  · rw [if_neg hname] at hw
    exact h other w hw

/-- What is remembered is what is stored. -/
theorem holds_save (h : env.Holds P) (names : List String) :
    (env.save names).Holds P := by
  intro name v hmem
  obtain ⟨other, -, hpair⟩ := List.mem_map.mp hmem
  obtain ⟨rfl, hfound⟩ := Prod.mk.inj hpair
  exact h other v hfound

/-- Bringing names back stores nothing but what was remembered. -/
theorem holds_restore {saved : Saved} (h : now.Holds P)
    (hsaved : saved.Holds P) : (now.restore saved).Holds P := by
  -- names are brought back one by one: each is what was remembered, and
  -- the others are what they were
  induction saved generalizing now with
  | nil => exact h
  | cons entry rest ih =>
      have hfirst : (now.restoreOne entry).Holds P := by
        intro name v hv
        rw [get?_restoreOne] at hv
        by_cases hname : entry.1 = name
        · rw [if_pos hname] at hv
          refine hsaved name v ?_
          rw [← hname, ← hv]
          exact List.mem_cons_self
        · rw [if_neg hname] at hv
          exact h name v hv
      refine ih hfirst ?_
      intro name v hmem
      exact hsaved name v (List.mem_cons_of_mem _ hmem)

end Environment

/-! ## The steps of an environment -/

/-- The name under which a value is set. -/
def Value.keyFor (me : Identity) (name : Value) : String :=
  name.asText?.getD (name.display me)

/-- What a request gives an environment to store, under which names. -/
def EnvironmentRequest.given (me : Identity) :
    EnvironmentRequest → List (String × Value)
  | .set name v => [(name.keyFor me, v)]
  | .setDefault name fallback => [(name.keyFor me, fallback)]
  | .update pairs => pairs
  | .enter pairs => pairs
  | _ => []

/-- A request that stores a value under a name, in an environment. -/
inductive EnvironmentRequest.Puts (env : Environment) (name : String)
    (v : Value) : EnvironmentRequest → Prop where
  | set : Puts env name v (.set (.text name) v)
  | setDefault (h : env.get? name = none) :
      Puts env name v (.setDefault (.text name) v)
  /-- Of the values of one name the last one counts. -/
  | update {pairs : List (String × Value)}
      (h : (OrderedMap.ofList pairs).get? name = some v) :
      Puts env name v (.update pairs)
  | enter {pairs : List (String × Value)}
      (h : (OrderedMap.ofList pairs).get? name = some v) :
      Puts env name v (.enter pairs)

namespace Session

/-- Values as the texts that are stored of them. -/
def stored (s : Session) (pairs : List (String × Value)) :
    List (String × Value) :=
  pairs.map fun pair => (pair.1, .text (pair.2.display s.identity))

/-- What is stored once names were set. -/
def assigned (s : Session) (pairs : List (String × Value)) : Session :=
  { s with env := s.env.insertAll (s.stored pairs) }

/-- What is stored once a name was removed. -/
def without (s : Session) (name : String) : Session :=
  { s with env := s.env.erase name }

/-- An overlay that was entered by hand. -/
def entered (s : Session) (pairs : List (String × Value)) : Session :=
  { s with
    env := s.env.overlay (s.texts (.ofList pairs))
    overlays := s.overlays ++
      [some (s.env.save (s.texts (.ofList pairs)).names)] }

/-- The overlay of an index, left. -/
def dropped (s : Session) (index : Nat) (saved : Environment.Saved) :
    Session :=
  { s with
    env := s.env.restore saved
    overlays := s.overlays.set index none }

/-- What an overlay stores is the texts of its values. -/
theorem overlay_texts (s : Session) (values : OrderedMap Value) :
    s.env.overlay (s.texts values) =
      s.env.insertAll (s.stored values.toList) := by
  show s.env.insertAll (List.map _ (List.map _ _)) = _
  rw [List.map_map]
  rfl

/-- In an overlay each of its names has the text of its value. -/
theorem get?_overlay_texts {s : Session} {values : OrderedMap Value}
    {name : String} {v : Value} (h : values.get? name = some v) :
    (s.env.overlay (s.texts values)).get? name =
      some (.text (v.display s.identity)) := by
  rw [Environment.get?_overlay, texts, OrderedMap.get?_map, h]
  rfl

/-- So it has once the names were set. -/
theorem get?_assigned {s : Session} {values : OrderedMap Value}
    {name : String} {v : Value} (h : values.get? name = some v) :
    (s.assigned values.toList).env.get? name =
      some (.text (v.display s.identity)) := by
  rw [← get?_overlay_texts h, overlay_texts]
  rfl

end Session

/-- What a request about the environment turns a session into. -/
inductive EnvironmentStep (s : Session) :
    EnvironmentRequest → Session → Prop where
  /-- A request that only looks, or that fails, changes nothing. -/
  | same (request : EnvironmentRequest) : EnvironmentStep s request s
  | set (name v : Value) :
      EnvironmentStep s (.set name v) (s.assigned [(name.keyFor s.identity, v)])
  | setDefault (name fallback : Value) :
      EnvironmentStep s (.setDefault name fallback)
        (s.assigned [(name.keyFor s.identity, fallback)])
  | update (pairs : List (String × Value)) :
      EnvironmentStep s (.update pairs)
        (s.assigned (OrderedMap.ofList pairs).toList)
  | removed (request : EnvironmentRequest) (name : String) :
      EnvironmentStep s request (s.without name)
  | clear : EnvironmentStep s .clear { s with env := .empty }
  | enter (pairs : List (String × Value)) :
      EnvironmentStep s (.enter pairs) (s.entered pairs)
  | leave {index : Nat} {saved : Environment.Saved} (fault : Option Fault)
      (h : some saved ∈ s.overlays) :
      EnvironmentStep s (.leave index fault) (s.dropped index saved)

namespace Run

variable {s s' : Session} {name : String}

/-! ## What a request comes to -/

/-- A look at a name fails, or finds what is stored. -/
theorem find?_eq (name : Value) (s : Session) :
    (∃ f, find? name s = some (.error f, s)) ∨
      find? name s = some (.ok (name.asText?.bind s.env.get?), s) := by
  cases hname : name.isUnhashable with
  | true =>
      left
      refine ⟨.mismatch (.unhashable (name.kindName s.identity)), ?_⟩
      rw [find?, nameOf, hname]
      rfl
  | false =>
      right
      rw [find?, nameOf, hname]
      rfl

theorem variableOf_eq (name : Value) (s : Session) :
    (∃ f, variableOf name s = some (.error f, s)) ∨
      ∃ v, variableOf name s = some (.ok v, s) := by
  rcases find?_eq name s with ⟨f, hfind⟩ | hfind
  · exact .inl ⟨f, bind_error hfind⟩
  · rw [variableOf, bind_ok hfind]
    cases name.asText?.bind s.env.get? with
    | none => exact .inl ⟨_, rfl⟩
    | some v => exact .inr ⟨v, rfl⟩

/-- Setting a name fails, or stores the text of the value under it. -/
theorem setVariable_eq (name v : Value) (s : Session) :
    (∃ f, setVariable name v s = some (.error f, s)) ∨
      setVariable name v s =
        some (.ok (), s.assigned [(name.keyFor s.identity, v)]) := by
  cases hname : name.isUnhashable with
  | true =>
      left
      refine ⟨.mismatch (.unhashable (name.kindName s.identity)), ?_⟩
      rw [setVariable, nameOf, hname]
      rfl
  | false =>
      right
      rw [setVariable, nameOf, hname]
      rfl

/-- Setting names that are texts does not fail. -/
theorem setVariables_eq (pairs : List (String × Value)) (s : Session) :
    setVariables pairs s = some (.ok (), s.assigned pairs) := by
  induction pairs generalizing s with
  | nil => rfl
  | cons pair pairs ih =>
      have hfirst : setVariable (.text pair.1) pair.2 s =
          some (.ok (), s.assigned [pair]) := rfl
      show (setVariable (.text pair.1) pair.2 >>= fun _ =>
        setVariables pairs) s = _
      rw [bind_ok hfirst, ih]
      rfl

/-- Removing a name fails, or removes it. -/
theorem removeVariable_eq (name : Value) (s : Session) :
    (∃ f, removeVariable name s = some (.error f, s)) ∨
      removeVariable name s =
        some (.ok (), s.without (name.asText?.getD "")) := by
  rcases variableOf_eq name s with ⟨f, hlook⟩ | ⟨v, hlook⟩
  · exact .inl ⟨f, bind_error hlook⟩
  · rw [removeVariable, bind_ok hlook]
    exact .inr rfl

/-- Every request about the environment ends, in one of the steps. -/
theorem answerEnvironment_step (request : EnvironmentRequest)
    (s : Session) :
    ∃ r s', answerEnvironment request s = some (r, s') ∧
      EnvironmentStep s request s' := by
  cases request with
  | set name v =>
      rcases setVariable_eq name v s with ⟨f, h⟩ | h
      · exact ⟨_, s, bind_error h, .same _⟩
      · exact ⟨_, _, bind_ok h, .set name v⟩
  | get name =>
      rcases variableOf_eq name s with ⟨f, h⟩ | ⟨v, h⟩
      · exact ⟨_, s, h, .same _⟩
      · exact ⟨_, s, h, .same _⟩
  | delete name =>
      rcases removeVariable_eq name s with ⟨f, h⟩ | h
      · exact ⟨_, s, bind_error h, .same _⟩
      · exact ⟨_, _, bind_ok h, .removed _ _⟩
  | contains name =>
      rcases find?_eq name s with ⟨f, h⟩ | h
      · exact ⟨_, s, bind_error h, .same _⟩
      · exact ⟨_, s, bind_ok h, .same _⟩
  | update pairs =>
      exact ⟨_, _, bind_ok (setVariables_eq _ s), .update pairs⟩
  | lookup name fallback =>
      rcases find?_eq name s with ⟨f, h⟩ | h
      · exact ⟨_, s, bind_error h, .same _⟩
      · exact ⟨_, s, bind_ok h, .same _⟩
  | pop name fallback =>
      rcases find?_eq name s with ⟨f, h⟩ | h
      · exact ⟨_, s, bind_error h, .same _⟩
      · rw [answerEnvironment, bind_ok h]
        cases name.asText?.bind s.env.get? with
        | some v =>
            rcases removeVariable_eq name s with ⟨f, h⟩ | h
            · exact ⟨_, s, bind_error h, .same _⟩
            · exact ⟨_, _, bind_ok h, .removed _ _⟩
        -- what is not there is answered with the fallback, or is a fault
        | none => cases fallback <;> exact ⟨_, s, rfl, .same _⟩
  | popFirst =>
      rw [answerEnvironment, get_bind_eq]
      cases s.env.toList with
      | nil => exact ⟨_, s, rfl, .same _⟩
      | cons pair rest => exact ⟨_, _, rfl, .removed _ pair.1⟩
  | setDefault name fallback =>
      rcases find?_eq name s with ⟨f, h⟩ | h
      · exact ⟨_, s, bind_error h, .same _⟩
      · rw [answerEnvironment, bind_ok h]
        cases name.asText?.bind s.env.get? with
        | some v => exact ⟨_, s, rfl, .same _⟩
        | none =>
            rcases setVariable_eq name fallback s with ⟨f, h⟩ | h
            · exact ⟨_, s, bind_error h, .same _⟩
            · exact ⟨_, _, bind_ok h, .setDefault name fallback⟩
  | clear => exact ⟨_, _, rfl, .clear⟩
  | enter pairs => exact ⟨_, _, rfl, .enter pairs⟩
  | leave index fault =>
      -- an overlay that was left before, or never entered, is no overlay
      have hdrop : ∃ s', dropOverlay index s = some (.ok (), s') ∧
          EnvironmentStep s (.leave index fault) s' := by
        rw [dropOverlay, get_bind_eq]
        cases hsaved : (s.overlays[index]?).join with
        | none => exact ⟨s, rfl, .same _⟩
        | some saved =>
            have hmem : some saved ∈ s.overlays :=
              List.mem_of_getElem? (Option.join_eq_some_iff.mp hsaved)
            exact ⟨_, rfl, .leave fault hmem⟩
      obtain ⟨s', h, hstep⟩ := hdrop
      exact ⟨_, s', bind_ok h, hstep⟩
  | _ => exact ⟨_, s, rfl, .same _⟩

/-- A request that puts a value under a name stores its text there. -/
theorem answerEnvironment_puts {request : EnvironmentRequest} {v : Value}
    (h : request.Puts s.env name v) :
    ∃ answer s', answerEnvironment request s = some (.ok answer, s') ∧
      s'.env.get? name = some (.text (v.display s.identity)) := by
  have hone : (OrderedMap.ofList [(name, v)]).get? name = some v := by
    simp [OrderedMap.ofList, OrderedMap.insertAll, OrderedMap.get?_insert]
  have hset : setVariable (.text name) v s =
      some (.ok (), s.assigned [(name, v)]) := rfl
  cases h with
  | set => exact ⟨.null, _, bind_ok hset, Session.get?_assigned hone⟩
  | setDefault habsent =>
      have hfind : find? (.text name) s = some (.ok none, s) := by
        rw [← habsent]
        rfl
      refine ⟨v, _, ?_, Session.get?_assigned hone⟩
      rw [answerEnvironment, bind_ok hfind]
      exact bind_ok hset
  | update hpairs =>
      exact ⟨.null, _, bind_ok (setVariables_eq _ s),
        Session.get?_assigned hpairs⟩
  | enter hpairs =>
      exact ⟨.bool true, s.entered _, rfl,
        Session.get?_overlay_texts hpairs⟩

end Run

/-! ## What a step keeps -/

/-- What is stored, and what the overlays that are not left remember, is as
    `P` says for its name. -/
structure Session.Stores (s : Session) (P : String → Value → Prop) :
    Prop where
  stored : s.env.Holds P
  remembered : ∀ saved, some saved ∈ s.overlays → saved.Holds P

namespace Session.Stores

variable {s : Session} {P : String → Value → Prop}
variable {pairs : List (String × Value)}

/-- The texts of values that may be given may be stored. -/
theorem holds_stored
    (given : ∀ pair ∈ pairs, P pair.1 (.text (pair.2.display s.identity))) :
    ∀ pair ∈ s.stored pairs, P pair.1 pair.2 := by
  intro pair hpair
  obtain ⟨raw, hraw, rfl⟩ := List.mem_map.mp hpair
  exact given raw hraw

theorem assigned (hs : s.Stores P)
    (given : ∀ pair ∈ pairs, P pair.1 (.text (pair.2.display s.identity))) :
    (s.assigned pairs).Stores P where
  stored := Environment.holds_insertAll hs.stored (holds_stored given)
  remembered := hs.remembered

/-- Entering an overlay remembers only what is stored. -/
theorem entered (hs : s.Stores P)
    (given : ∀ pair ∈ pairs, P pair.1 (.text (pair.2.display s.identity))) :
    (s.entered pairs).Stores P where
  stored := by
    show Environment.Holds (s.env.overlay (s.texts (.ofList pairs))) P
    rw [Session.overlay_texts]
    refine Environment.holds_insertAll hs.stored (holds_stored ?_)
    intro pair hpair
    exact given pair (OrderedMap.mem_of_mem_ofList hpair)
  remembered := by
    intro saved hsaved
    rcases List.mem_append.mp hsaved with hold | hnew
    · exact hs.remembered saved hold
    · cases List.mem_singleton.mp hnew
      exact Environment.holds_save hs.stored _

theorem dropped (hs : s.Stores P) (index : Nat)
    {saved : Environment.Saved} (h : some saved ∈ s.overlays) :
    (s.dropped index saved).Stores P where
  stored := Environment.holds_restore hs.stored (hs.remembered saved h)
  remembered := by
    intro other hother
    rcases List.mem_or_eq_of_mem_set hother with hold | hgone
    · exact hs.remembered other hold
    · cases hgone

end Session.Stores

namespace EnvironmentStep

variable {s s' : Session} {request : EnvironmentRequest}
variable {P : String → Value → Prop}

/-- A step changes nothing but the environment and its overlays. -/
theorem changes (h : EnvironmentStep s request s') :
    ∃ env overlays, s' = { s with env, overlays } := by
  cases h with
  | same => exact ⟨s.env, s.overlays, rfl⟩
  | set | setDefault | update | removed | clear =>
      exact ⟨_, s.overlays, rfl⟩
  | enter | leave => exact ⟨_, _, rfl⟩

/-- A step stores the texts of what its request gives, and brings back
    what is remembered. -/
theorem stores (h : EnvironmentStep s request s') (hs : s.Stores P)
    (given : ∀ pair ∈ request.given s.identity,
      P pair.1 (.text (pair.2.display s.identity))) : s'.Stores P := by
  cases h with
  | same => exact hs
  | set name v => exact hs.assigned given
  | setDefault name fallback => exact hs.assigned given
  | update pairs =>
      refine hs.assigned ?_
      intro pair hpair
      exact given pair (OrderedMap.mem_of_mem_ofList hpair)
  | removed _ name =>
      exact ⟨Environment.holds_erase hs.stored name, hs.remembered⟩
  | clear => exact ⟨Environment.holds_empty, hs.remembered⟩
  | enter pairs => exact hs.entered given
  | leave _ hmem => exact hs.dropped _ hmem

end EnvironmentStep

/-! ## What a run keeps -/

namespace Run

variable {s : Session} {P : String → Value → Prop}

/-- Answers requests about the environment, one after the other. -/
def answerAll : List EnvironmentRequest → Run (List Answer)
  | [] => pure []
  | request :: requests => do
      let answer ← (answerEnvironment request).attempt
      let answers ← answerAll requests
      pure (answer :: answers)

/-- All requests are answered, and what is stored afterwards was stored or
    remembered before, or is the text of what one of them gave. -/
theorem answerAll_stores (requests : List EnvironmentRequest)
    (hs : s.Stores P)
    (given : ∀ pair ∈ requests.flatMap (·.given s.identity),
      P pair.1 (.text (pair.2.display s.identity))) :
    ∃ answers env overlays,
      answerAll requests s =
        some (.ok answers, { s with env, overlays }) ∧ env.Holds P := by
  -- by induction on the requests; what `Stores` says is kept by each step
  induction requests generalizing s with
  | nil => exact ⟨[], s.env, s.overlays, rfl, hs.stored⟩
  | cons request requests ih =>
      rw [List.flatMap_cons] at given
      obtain ⟨r, s₁, hanswer, hstep⟩ := answerEnvironment_step request s
      have hfirst := hstep.stores hs fun pair hpair =>
        given pair (List.mem_append_left _ hpair)
      obtain ⟨env₁, overlays₁, rfl⟩ := hstep.changes
      obtain ⟨answers, env, overlays, hrest, hholds⟩ := ih hfirst
        fun pair hpair => given pair (List.mem_append_right _ hpair)
      refine ⟨r :: answers, env, overlays, ?_, hholds⟩
      rw [answerAll, bind_ok (attempt_eq hanswer), bind_ok hrest]
      rfl

/-- A program that is run in an overlay gets only texts from an environment
    that stores only texts. -/
theorem escape_textual {c : Class} (depth : Nat) (hc : s.shell = some c)
    (hd : c.lookup? "shell_escape" =
      OrderedMap.find "shell_escape" BaseShell.members)
    (h : s.env.Textual) (values : OrderedMap Value) (program : String)
    (args : List String) :
    ∃ r env,
      withOverlay values (callShell (executeWithin (depth + 1))
          "shell_escape" ((program :: args).map .text)) s =
        some (r, s.launched (program :: args) env) ∧ env.Textual := by
  let env := s.env.overlay (s.texts values)
  have hrun := escape_inherited (s := { s with env := env }) depth hc hd
    program args
  refine ⟨_, env, withOverlay_undone (t := s.launched (program :: args) env)
    hrun, ?_⟩
  show Environment.Textual (s.env.overlay (s.texts values))
  rw [Session.overlay_texts]
  -- the overlay puts nothing but texts over an environment of texts
  have htexts : ∀ pair ∈ s.stored values.toList,
      ∃ text, pair.2 = .text text :=
    Session.Stores.holds_stored (P := fun _ v => ∃ text, v = .text text)
      fun _ _ => ⟨_, rfl⟩
  exact Environment.holds_insertAll h htexts

/-- **STORED AS TEXTS**: after any requests about a fresh environment, what
    is stored under a name is what the environment started with there, or
    the text of something that was given for the name; and a value that is
    put there next is stored as its text.  So if the environment started
    with texts, it stores only texts, and in any overlay a program gets
    only texts. -/
theorem stores_texts (s : Session) (fresh : s.overlays = [])
    (requests : List EnvironmentRequest) :
    ∃ answers s', answerAll requests s = some (.ok answers, s') ∧
      (∀ name v, s'.env.get? name = some v →
        s.env.get? name = some v ∨
        ∃ w, (name, w) ∈ requests.flatMap (·.given s.identity) ∧
          v = .text (w.display s.identity)) ∧
      (∀ request name v, request.Puts s'.env name v →
        ∃ answer after,
          answerEnvironment request s' = some (.ok answer, after) ∧
          after.env.get? name = some (.text (v.display s.identity))) ∧
      (s.env.Textual →
        s'.env.Textual ∧
        ∀ depth c, s.shell = some c →
          c.lookup? "shell_escape" =
            OrderedMap.find "shell_escape" BaseShell.members →
          ∀ values program args, ∃ r env,
            withOverlay values (callShell (executeWithin (depth + 1))
                "shell_escape" ((program :: args).map .text)) s' =
              some (r, s'.launched (program :: args) env) ∧
            env.Textual) := by
  have hstart : s.Stores fun name v =>
      s.env.get? name = some v ∨
      ∃ w, (name, w) ∈ requests.flatMap (·.given s.identity) ∧
        v = .text (w.display s.identity) := by
    refine ⟨fun name v h => .inl h, ?_⟩
    rw [fresh]
    intro saved hsaved
    cases hsaved
  obtain ⟨answers, env, overlays, hrun, hholds⟩ :=
    answerAll_stores requests hstart fun pair hpair =>
      .inr ⟨pair.2, hpair, rfl⟩
  refine ⟨answers, _, hrun, hholds,
    fun _ _ _ hputs => answerEnvironment_puts hputs, ?_⟩
  intro htexts
  have htextual : env.Textual := by
    intro name v hv
    rcases hholds name v hv with hfirst | ⟨w, -, hgiven⟩
    · exact htexts name v hfirst
    · exact ⟨_, hgiven⟩
  refine ⟨htextual, ?_⟩
  intro depth c hc hd values program args
  exact escape_textual (s := { s with env, overlays }) depth hc hd htextual
    values program args

/-- A variable is set to a number, another one is covered by an overlay and
    uncovered, and then the number gives way to a truth value. -/
theorem stores_texts_covered :
    let requests : List EnvironmentRequest :=
      [.set (.text "N") (.int 3), .enter [("A", .bool true)], .leave 0 none]
    launchingSession.overlays = [] ∧
    launchingSession.env.Textual ∧
    launchingSession.shell = some BaseShell.shellClass ∧
    BaseShell.shellClass.lookup? "shell_escape" =
      OrderedMap.find "shell_escape" BaseShell.members ∧
    ∃ answers s', answerAll requests launchingSession =
        some (.ok answers, s') ∧
      EnvironmentRequest.Puts s'.env "N" (.bool true)
        (.update [("N", .bool true)]) ∧
      (∃ answer after,
        answerEnvironment (.update [("N", .bool true)]) s' =
          some (.ok answer, after) ∧
        after.env.get? "N" = some (.text "True")) ∧
      s'.env.Textual ∧
      ∃ r env,
        withOverlay (.ofList [("A", .int 2)])
            (callShell (executeWithin 1) "shell_escape" [.text "p"]) s' =
          some (r, s'.launched ["p"] env) ∧
        env.Textual := by
  intro requests
  have htexts : launchingSession.env.Textual :=
    Environment.holds_insert Environment.holds_empty ⟨"0", rfl⟩
  obtain ⟨answers, s', hrun, -, hputs, hall⟩ :=
    stores_texts launchingSession rfl requests
  obtain ⟨htextual, hprogram⟩ := hall htexts
  have hnext : EnvironmentRequest.Puts s'.env "N" (.bool true)
      (.update [("N", .bool true)]) := .update rfl
  exact ⟨rfl, htexts, rfl, rfl, answers, s', hrun, hnext,
    hputs _ "N" (.bool true) hnext, htextual,
    hprogram 0 BaseShell.shellClass rfl rfl _ "p" []⟩

/-- What an environment starts with is not made a text: a number is found
    as it is, also once an overlay was left, and a program gets it so. -/
theorem stores_first_values :
    let s := { launchingSession with env := .ofList [("A", .int 1)] }
    let requests : List EnvironmentRequest :=
      [.get (.text "A"), .enter [("A", .int 2)], .get (.text "A"),
        .leave 0 none, .get (.text "A")]
    s.overlays = [] ∧
    ∃ s', answerAll requests s =
        some (.ok [.ok (.int 1), .ok (.bool true), .ok (.text "2"),
          .ok (.bool false), .ok (.int 1)], s') ∧
      ¬ s'.env.Textual ∧
      callShell (executeWithin 1) "shell_escape" [.text "p"] s' =
        some (.ok (.text "out"),
          s'.launched ["p"] (.ofList [("A", .int 1)])) := by
  intro s requests
  refine ⟨rfl, { s with overlays := [none] }, rfl, ?_, rfl⟩
  intro htextual
  obtain ⟨text, h⟩ := htextual "A" (.int 1) rfl
  cases h

end Run

end LineShell
