import LineShell.Proofs.Line.Quoting
import LineShell.Proofs.Session.Deeds
import LineShell.Proofs.Session.Erasure
import LineShell.Proofs.Session.Reachable
import LineShell.Proofs.Session.Route
import LineShell.Proofs.Session.Scope

/-! # Routing — what is done for the route of a line

    Of what is done for a line, only some things take a route: the members
    of the shell that are called for the command, its handler, and the
    hooks that are asked in their place (`Doing.isRouted`).  All of them
    belong to one route, the first that applies, and nothing of another
    route is done (`Run.runLine_routes`). -/

namespace LineShell

/-- Something that is done to take a route. -/
def Doing.isRouted : Doing → Bool
  | .method place _ _ => place.stage == .handler
  | .handler .. => true
  | .hook name .. => name == "emptycommand" || name == "default"
  | _ => false

/-- Something by which a command gets to a handler or to the default. -/
def Doing.isDispatched : Doing → Bool
  | .handler .. => true
  | .hook name .. => name == "default"
  | .method _ name _ => name == "default"
  | _ => false

/-- What is done to take a route, in order. -/
def routed (deeds : List Deed) : List Doing :=
  (deeds.map Deed.doing).filter Doing.isRouted

/-- What the hook of a route and the member of the shell that stands in for
    it come to: implementations are asked until one answers or stops
    everything, and if all pass then the member is called. -/
inductive FirstOf (execute : Executor) (hook : String)
    (given : List (String × Value)) (last : Doing) :
    List Implementation → Session → List Doing → Prop where
  | last {s : Session} : FirstOf execute hook given last [] s [last]
  | answered {i : Implementation} {rest : List Implementation}
      {s s' : Session} {v : Value}
      (h : Run.runImplementation execute hook i given s = some (.ok v, s'))
      (hv : v.isNull = false) :
      FirstOf execute hook given last (i :: rest) s [.hook hook i given]
  | stopped {i : Implementation} {rest : List Implementation}
      {s s' : Session} {f : Fault}
      (h : Run.runImplementation execute hook i given s =
        some (.error f, s')) :
      FirstOf execute hook given last (i :: rest) s [.hook hook i given]
  | passed {i : Implementation} {rest : List Implementation}
      {s s' : Session} {v : Value} {doings : List Doing}
      (h : Run.runImplementation execute hook i given s = some (.ok v, s'))
      (hv : v.isNull = true)
      (hrest : FirstOf execute hook given last rest s' doings) :
      FirstOf execute hook given last (i :: rest) s
        (.hook hook i given :: doings)

/-- What is done to take a route in a session that has entered the overlay
    of the line. -/
inductive Takes (execute : Executor) (raw : Value) (line : Line)
    (s : Session) : Route → List Doing → Prop where
  | empty {doings : List Doing}
      (h : FirstOf execute "emptycommand" [("shell", s.shellValue)]
        (.method ⟨.handler, line.command, raw⟩ "emptycommand" [])
        (s.extensions.chain "emptycommand").reverse s doings) :
      Takes execute raw line s .empty doings
  | quit :
      Takes execute raw line s .quit
        [.method ⟨.handler, line.command, raw⟩ "quit" []]
  | help :
      Takes execute raw line s .help
        [.method ⟨.handler, line.command, raw⟩ "help" line.args]
  | escape (argv : List Value) :
      Takes execute raw line s (.escape argv)
        [.method ⟨.handler, line.command, raw⟩ "shell_escape" argv]
  | handler (b : Bound) :
      Takes execute raw line s (.handler b)
        [.handler ⟨.handler, line.command, raw⟩ b line.args]
  | unknown {doings : List Doing}
      (h : FirstOf execute "default"
        [("shell", s.shellValue), ("command", .text line.command),
          ("args", .list line.args)]
        (.method ⟨.handler, line.command, raw⟩ "default"
          (.text line.command :: line.args))
        (s.extensions.chain "default").reverse s doings) :
      Takes execute raw line s .unknown doings

variable {execute : Executor} {s s' : Session} {raw : Value} {line : Line}

/-! ## What is routed -/

theorem routed_append (first rest : List Deed) :
    routed (first ++ rest) = routed first ++ routed rest := by
  rw [routed, List.map_append, List.filter_append]
  rfl

theorem mem_routed {deeds : List Deed} {d : Deed} (hd : d ∈ deeds)
    (h : d.doing.isRouted = true) : d.doing ∈ routed deeds :=
  List.mem_filter.mpr ⟨List.mem_map_of_mem hd, h⟩

/-- What gets a command of a line to a handler or to the default takes a
    route. -/
theorem isRouted_of_isDispatched {doing : Doing}
    (hline : Course.ForLine raw doing) (h : doing.isDispatched = true) :
    doing.isRouted = true := by
  cases hline with
  | routed => rfl
  | handler => rfl
  | hook hook i given hhook =>
      rw [Doing.isRouted, Bool.or_eq_true]
      exact .inr h
  | _ => simp [Doing.isDispatched] at h

theorem Takes.of_handler {b : Bound} {doings : List Doing}
    (h : Takes execute raw line s (.handler b) doings) :
    doings = [.handler ⟨.handler, line.command, raw⟩ b line.args] := by
  cases h
  rfl

theorem FirstOf.mem {hook : String} {given : List (String × Value)}
    {last doing : Doing} {chain : List Implementation}
    {doings : List Doing}
    (h : FirstOf execute hook given last chain s doings)
    (hdoing : doing ∈ doings) :
    doing = last ∨ ∃ i, doing = .hook hook i given := by
  induction h with
  | last => exact .inl (List.mem_singleton.mp hdoing)
  | answered => exact .inr ⟨_, List.mem_singleton.mp hdoing⟩
  | stopped => exact .inr ⟨_, List.mem_singleton.mp hdoing⟩
  | passed _ _ _ ih =>
      rcases List.mem_cons.mp hdoing with rfl | hdoing
      · exact .inr ⟨_, rfl⟩
      · exact ih hdoing

/-- The routes before that of a handler get no command to a handler or to
    the default. -/
theorem Takes.not_dispatched {route : Route} {doings : List Doing}
    (h : Takes execute raw line s route doings) (hrank : route.rank ≤ 3)
    {doing : Doing} (hdoing : doing ∈ doings) :
    doing.isDispatched = false := by
  cases h with
  | empty h =>
      rcases h.mem hdoing with rfl | ⟨i, rfl⟩ <;> rfl
  | handler => simp [Route.rank] at hrank
  | unknown => simp [Route.rank] at hrank
  | _ =>
      obtain rfl := List.mem_singleton.mp hdoing
      rfl

namespace Course

/-- Nothing that is done takes a route. -/
abbrev Unrouted {α : Type} (c : Course α) : Prop :=
  Does (fun doing => doing.isRouted = false) c

theorem Unrouted.routed {α : Type} {c : Course α} (h : Unrouted c)
    {r : Except Fault α} {deeds : List Deed}
    (he : c s = some ((r, s'), deeds)) : routed deeds = [] := by
  refine List.filter_eq_nil_iff.mpr ?_
  intro doing hdoing
  obtain ⟨d, hd, rfl⟩ := List.mem_map.mp hdoing
  rw [h s r s' deeds he d hd]
  exact Bool.false_ne_true

theorem watch_unrouted {α : Type} {doing : Doing}
    (h : doing.isRouted = false) (step : Run α) :
    Unrouted (watch doing step) :=
  .watch h step

theorem answerFault_unrouted (place : Place) (f : Fault) :
    Unrouted (answerFault execute place f) :=
  answerFault_does (fun _ _ => rfl) (fun _ => rfl) place f

theorem answerUnread_unrouted (place : Place) (f : Fault) :
    Unrouted (answerUnread execute place f) :=
  answerUnread_does (fun _ _ => rfl) (fun _ => rfl) place f

theorem readRewritten_unrouted (title : String) (raw line : Value) :
    Unrouted (readRewritten execute ⟨.precmd, title, raw⟩ line) := by
  refine .bind (watch_unrouted rfl _) ?_
  intro _
  refine .bind (.own _) ?_
  intro shell
  refine .bind (callChain_does (fun _ _ => rfl) (fun _ _ => rfl) _ _ _) ?_
  intro _
  exact watch_unrouted rfl _

theorem rewriteResult_unrouted (result line : Value) :
    Unrouted (rewriteResult execute result line) := by
  refine .bind (watch_unrouted rfl _).attempt ?_
  intro r
  cases r with
  | ok v =>
      refine .bind (.own _) ?_
      intro shell
      exact callChain_does (fun _ _ => rfl) (fun _ _ => rfl) _ _ _
  | error f =>
      dsimp only
      split
      · exact .own _
      · exact answerFault_unrouted _ _

/-- Where no handling of a fault takes a route, what is done for a course
    that contains its faults is routed as the course is. -/
theorem routed_contain {α : Type} {c : Course α}
    {handle : Fault → Course α} (hhandle : ∀ f, Unrouted (handle f))
    {r : Except Fault α} {deeds : List Deed}
    (h : contain c handle s = some ((r, s'), deeds)) :
    ∃ result s₁ first, c s = some ((result, s₁), first) ∧
      routed deeds = routed first := by
  obtain ⟨result, s₁, first, rest, hfirst, hrest, rfl⟩ := of_attempt_bind h
  refine ⟨result, s₁, first, hfirst, ?_⟩
  have hhandled : routed rest = [] := by
    cases result with
    | ok a => exact Unrouted.routed (.pure a) hrest
    | error f =>
        dsimp only at hrest
        split at hrest
        · exact Unrouted.routed (.own _) hrest
        · exact (hhandle f).routed hrest
  rw [routed_append, hhandled, List.append_nil]

/-! ## Hooks in place of members -/

/-- What is still to be done when the implementations of a hook are through
    with it. -/
def stillDue (last : Doing) : Except Fault Value → List Doing
  | .ok v => if v.isNull then [last] else []
  | .error _ => []

section Hooks

variable {hook : String} {given : List (String × Value)}
variable (hhook : ∀ i given, (Doing.hook hook i given).isRouted = true)
include hhook

/-- To run an implementation is to ask it once. -/
theorem runImplementation_routed {i : Implementation}
    {r : Except Fault Value} {deeds : List Deed}
    (h : runImplementation execute hook i given s =
      some ((r, s'), deeds)) :
    routed deeds = [.hook hook i given] := by
  obtain ⟨result, s₁, first, hfirst, hrouted⟩ := routed_contain
    (fun f => .bind (.own _) fun _ =>
      .bind (notify_does (fun _ _ => rfl) _) fun _ => .pure _) h
  obtain ⟨_, rfl⟩ := of_watch hfirst
  rw [hrouted, routed]
  exact List.filter_cons_of_pos (hhook i given)

/-- The implementations of a chain are asked in order; where they all pass,
    what comes after them is still to be done. -/
theorem firstAnswer_routed {chain : List Implementation}
    {r : Except Fault Value} {deeds : List Deed}
    (h : firstAnswer execute hook given chain s = some ((r, s'), deeds))
    (last : Doing) :
    FirstOf execute hook given last chain s
      (routed deeds ++ stillDue last r) := by
  induction chain generalizing s deeds with
  | nil =>
      have h : own (pure .null) s = some ((r, s'), deeds) := h
      obtain ⟨hpure, rfl⟩ := of_own h
      cases hpure
      exact .last
  | cons i rest ih =>
      rcases of_bind h with
        ⟨f, rfl, hfirst⟩ | ⟨v, s₁, first, more, hfirst, hmore, rfl⟩
      · rw [runImplementation_routed hhook hfirst]
        exact .stopped (run_eq (run_runImplementation ..) hfirst)
      · have hasked := run_eq (run_runImplementation ..) hfirst
        rw [routed_append, runImplementation_routed hhook hfirst]
        cases hv : v.isNull with
        | true =>
            rw [hv, if_pos rfl] at hmore
            exact .passed hasked hv (ih hmore)
        | false =>
            rw [hv, if_neg Bool.false_ne_true] at hmore
            obtain ⟨hpure, rfl⟩ := of_own hmore
            cases hpure
            rw [stillDue, hv]
            exact .answered hasked hv

/-- A hook asks from the back of its chain. -/
theorem callFirst_routed {r : Except Fault Value} {deeds : List Deed}
    (h : callFirst execute hook given s = some ((r, s'), deeds))
    (last : Doing) :
    FirstOf execute hook given last (s.extensions.chain hook).reverse s
      (routed deeds ++ stillDue last r) := by
  rcases of_bind h with ⟨f, rfl, hget⟩ | ⟨t, s₁, _, _, hget, h₁, rfl⟩
  · cases (of_own hget).1
  obtain ⟨hsession, rfl⟩ := of_own hget
  cases hsession
  exact firstAnswer_routed hhook h₁ last

/-- The first answer of a hook, or that of the member that stands in for
    it. -/
theorem firstResult_routed {place : Place}
    (hplace : place.stage = .handler) {args : List Value}
    {r : Except Fault Value} {deeds : List Deed}
    (h : firstResult execute place hook args given s =
      some ((r, s'), deeds)) :
    FirstOf execute hook (("shell", s.shellValue) :: given)
      (.method place hook args) (s.extensions.chain hook).reverse s
      (routed deeds) := by
  rcases of_bind h with ⟨f, rfl, hshell⟩ | ⟨shell, s₁, _, _, hshell, h₁, rfl⟩
  · cases (of_own hshell).1
  obtain ⟨hparam, rfl⟩ := of_own hshell
  cases hparam
  have hmethod : (Doing.method place hook args).isRouted = true := by
    rw [Doing.isRouted, hplace]
    rfl
  rcases of_bind h₁ with
    ⟨f, rfl, hfirst⟩ | ⟨v, s₁, first, rest, hfirst, hrest, rfl⟩
  · have hdone :=
      callFirst_routed hhook hfirst (.method place hook args)
    rwa [stillDue, List.append_nil] at hdone
  · have hdone :=
      callFirst_routed hhook hfirst (.method place hook args)
    rw [List.nil_append, routed_append]
    cases hv : v.isNull with
    | true =>
        rw [hv, if_pos rfl] at hrest
        obtain ⟨_, rfl⟩ := of_watch hrest
        rw [stillDue, hv, if_pos rfl] at hdone
        have hlast : routed [⟨.method place hook args, faultOf? r, s'⟩] =
            [.method place hook args] :=
          List.filter_cons_of_pos hmethod
        rwa [hlast]
    | false =>
        rw [hv, if_neg Bool.false_ne_true] at hrest
        obtain ⟨_, rfl⟩ := of_own hrest
        rwa [stillDue, hv, if_neg Bool.false_ne_true] at hdone

end Hooks

/-! ## Routes -/

/-- What is done to take a route. -/
theorem follow_takes {route : Route} {r : Except Fault Value}
    {deeds : List Deed}
    (h : follow execute ⟨.handler, line.command, raw⟩ line route s =
      some ((r, s'), deeds)) :
    Takes execute raw line s route (routed deeds) := by
  cases route with
  | empty => exact .empty (firstResult_routed (fun _ _ => rfl) rfl h)
  | unknown => exact .unknown (firstResult_routed (fun _ _ => rfl) rfl h)
  | quit =>
      obtain ⟨_, rfl⟩ := of_watch h
      exact .quit
  | help =>
      obtain ⟨_, rfl⟩ := of_watch h
      exact .help
  | escape argv =>
      obtain ⟨_, rfl⟩ := of_watch h
      exact .escape argv
  | handler b =>
      obtain ⟨_, rfl⟩ := of_watch h
      exact .handler b

/-- What is done in an overlay is routed as it is without one. -/
theorem routed_overlay {saved : Environment.Saved} {e l : Deed}
    (hentered : e.doing = .entered saved) (hleft : l.doing = .left saved)
    (inner : List Deed) : routed (e :: inner ++ [l]) = routed inner := by
  have hfirst : routed [e] = [] := by
    rw [routed, List.map_singleton, hentered]
    rfl
  have hlast : routed [l] = [] := by
    rw [routed, List.map_singleton, hleft]
    rfl
  rw [routed_append, ← List.singleton_append, routed_append, hfirst, hlast,
    List.nil_append, List.append_nil]

/-- A line that is dispatched takes the route of the registry, in its
    overlay, and no other. -/
theorem dispatch_takes {r : Except Fault Value} {deeds : List Deed}
    (h : dispatch execute line raw s = some ((r, s'), deeds)) :
    ∃ saved u, Run.enterOverlay line.overlay s = some (.ok saved, u) ∧
      Takes execute raw line u (s.registry.route line) (routed deeds) := by
  obtain ⟨saved, e, l, inner, u, u', rfl, hentered, -, hleft, -, henter,
    hinner⟩ := of_withOverlay h
  obtain ⟨result, s₁, first, hfirst, hrouted⟩ :=
    routed_contain (answerFault_unrouted _) hinner
  have hregistry : s.registry = u.registry := by
    rw [← (Prod.mk.inj (Option.some.inj henter)).2]
  refine ⟨saved, u, henter, ?_⟩
  rw [routed_overlay hentered hleft, hrouted, hregistry]
  rcases of_bind hfirst with ⟨f, rfl, hget⟩ | ⟨t, u₁, _, _, hget, h₁, rfl⟩
  · cases (of_own hget).1
  obtain ⟨hsession, rfl⟩ := of_own hget
  cases hsession
  exact follow_takes h₁

end Course

/-! ## Lines that are taken as typed -/

/-- The shell takes a line as it is typed: its member `precmd` gives the
    line back, and no extension implements the hook of that name.  What
    else the member does shows in the session that it leaves. -/
structure Typed (depth : Nat) (text : String) (s t : Session) : Prop where
  precmd : Run.callShell (Run.executeWithin depth) "precmd" [.text text] s =
    some (.ok (.text text), t)
  unhooked : t.extensions.chain "precmd" = []

/-- A class that inherits `precmd` gives every line back. -/
theorem precmd_inherited (depth : Nat) {c : Class} (hc : s.shell = some c)
    (hd : c.lookup? "precmd" = OrderedMap.find "precmd" BaseShell.members)
    (line : Value) :
    Run.callShell (Run.executeWithin (depth + 1)) "precmd" [line] s =
      some (.ok line, s) := by
  obtain ⟨rest, hcall⟩ := Run.callShell_function hc hd [line] rfl
  exact hcall

/-- Without hooks it takes them as they are typed. -/
theorem Typed.inherited (depth : Nat) {c : Class} (hc : s.shell = some c)
    (hd : c.lookup? "precmd" = OrderedMap.find "precmd" BaseShell.members)
    (hhooks : s.extensions.chain "precmd" = []) (text : String) :
    Typed (depth + 1) text s s :=
  ⟨precmd_inherited depth hc hd (.text text), hhooks⟩

/-- A name and arguments in quotes are read as they are. -/
theorem read_words (name : String) (args : List String) :
    Line.read (written [] (name :: args)) =
      .ok ⟨name, .empty, args.map .text⟩ := by
  rw [Line.read, tokenize_written [] (List.forall_mem_nil _)]
  show Except.ok (Line.ofWords (quotedWord name :: args.map quotedWord)) = _
  rw [Line.ofWords, Line.ofWordsAfter, assignment?_of_plain_eq_zero _ rfl]
  simp [text_quotedWord, Function.comp_def]

/-- A line that is taken as typed is not rewritten. -/
theorem Typed.rewriteLine {depth : Nat} {text : String} {t : Session}
    (h : Typed depth text s t) :
    Run.rewriteLine (Run.executeWithin depth) (.text text) s =
      some (.ok (.text text), t) := by
  have hshell : Run.shellParam t =
      some (.ok ("shell", t.shellValue), t) := rfl
  rw [Run.rewriteLine, Run.bind_ok h.precmd, Run.bind_ok hshell,
    Run.callChain, Run.get_bind_eq, h.unhooked]
  rfl

/-- A line that is taken as typed and can be split is split as it is. -/
theorem Typed.readRewritten {depth : Nat} {text : String} {t : Session}
    (h : Typed depth text s t) (hread : Line.read text = .ok line) :
    Run.readRewritten (Run.executeWithin depth) (.text text) s =
      some (.ok line, t) := by
  have hidentity : Run.identity t = some (.ok t.identity, t) := rfl
  have hvalue : Line.ofValue t.identity (.text text) = .ok line := by
    have htext : (Value.text text).asText? = some text := rfl
    simp only [Line.ofValue, htext, hread]
  rw [Run.readRewritten, Run.bind_ok h.rewriteLine, Run.bind_ok hidentity,
    hvalue]
  rfl

namespace Run

/-- The result of a line that is taken as typed and can be split comes from
    the route of the registry. -/
theorem lineResult_takes {depth : Nat} {text : String} {t : Session}
    (h : Typed depth text s t) (hread : Line.read text = .ok line)
    {r : Except Fault Value} {deeds : List Deed}
    (he : Course.lineResult (executeWithin depth) (.text text) s =
      some ((r, s'), deeds)) :
    ∃ saved u, enterOverlay line.overlay t = some (.ok saved, u) ∧
      Takes (executeWithin depth) (.text text) line u
        (t.registry.route line) (routed deeds) := by
  obtain ⟨result, s₁, first, rest, hfirst, hrest, rfl⟩ :=
    Course.of_attempt_bind he
  have hsplit := h.readRewritten hread
  rw [Course.run_eq (Course.run_readRewritten ..) hfirst] at hsplit
  cases hsplit
  rw [routed_append, (Course.readRewritten_unrouted _ _ _).routed hfirst,
    List.nil_append]
  exact Course.dispatch_takes hrest

/-- So does everything else that is done for the line: rewriting the result
    takes no route. -/
theorem runLine_takes {depth : Nat} {text : String} {t : Session}
    (h : Typed depth text s t) (hread : Line.read text = .ok line)
    {r : Except Fault Value} {deeds : List Deed}
    (he : Course.runLine (executeWithin depth) (.text text) s =
      some ((r, s'), deeds)) :
    ∃ saved u, enterOverlay line.overlay t = some (.ok saved, u) ∧
      Takes (executeWithin depth) (.text text) line u
        (t.registry.route line) (routed deeds) := by
  rcases Course.of_bind he with
    ⟨f, rfl, hfirst⟩ | ⟨v, s₁, first, rest, hfirst, hrest, rfl⟩
  · exact lineResult_takes h hread hfirst
  · rw [routed_append, (Course.rewriteResult_unrouted _ _).routed hrest,
      List.append_nil]
    exact lineResult_takes h hread hfirst

/-- Every line ends, and so does its course. -/
theorem runLine_ends (depth : Nat) (line : Value) (s : Session) :
    ∃ r s' deeds, runLine (executeWithin depth) line s = some (r, s') ∧
      Course.runLine (executeWithin depth) line s =
        some ((r, s'), deeds) := by
  obtain ⟨r, s', he, _⟩ := runLine_behaves (executeWithin_keeps depth)
    s.keeps_anything (.all (executeWithin_keeps depth) s.keeps_anything)
    line s .refl
  obtain ⟨deeds, hdeeds⟩ := Course.of_run (Course.run_runLine _ line) he
  exact ⟨r, s', deeds, he, hdeeds⟩

/-- A line that is taken as typed and can be split takes exactly one route,
    the first that applies: nothing is done for any other.  So a command of
    a special form gets to no handler and not to the default; and a handler
    that is listed, recorded and not missing is called, once and with the
    arguments that were typed, for its name and any arguments in quotes,
    unless the name is empty or of a special form. -/
theorem runLine_routes :
    (∀ depth s t text line, Typed depth text s t →
      Line.read text = .ok line →
      ∃ r s' deeds saved u route,
        runLine (executeWithin depth) (.text text) s = some (r, s') ∧
        Course.runLine (executeWithin depth) (.text text) s =
          some ((r, s'), deeds) ∧
        enterOverlay line.overlay t = some (.ok saved, u) ∧
        Registry.IsFirst t.registry line route ∧
        Takes (executeWithin depth) (.text text) line u route
          (routed deeds) ∧
        (Registry.Special line.command →
          ∀ d ∈ deeds, d.doing.isDispatched = false)) ∧
    ∀ depth s t name (args : List String) h, name ≠ "" →
      ¬ Registry.Special name → name ∈ t.registry.dispatchable →
      t.registry.handler? name = some h → h.member.isNull = false →
      Typed depth (written [] (name :: args)) s t →
      ∃ r s' deeds,
        runLine (executeWithin depth)
          (.text (written [] (name :: args))) s = some (r, s') ∧
        Course.runLine (executeWithin depth)
          (.text (written [] (name :: args))) s = some ((r, s'), deeds) ∧
        routed deeds =
          [.handler ⟨.handler, name, .text (written [] (name :: args))⟩
            h.member (args.map .text)] := by
  constructor
  · intro depth s t text line htyped hread
    obtain ⟨r, s', deeds, he, hdeeds⟩ := runLine_ends depth (.text text) s
    obtain ⟨saved, u, henter, htakes⟩ := runLine_takes htyped hread hdeeds
    have hfirst := t.registry.route_isFirst line
    refine ⟨r, s', deeds, saved, u, _, he, hdeeds, henter, hfirst, htakes,
      ?_⟩
    intro hspecial d hd
    -- whatever dispatches a command takes a route, and so it is of this one
    refine Bool.eq_false_iff.mpr fun hdispatched => ?_
    have hrouted := isRouted_of_isDispatched
      (Course.runLine_does _ s r s' deeds hdeeds d hd) hdispatched
    have hnot := htakes.not_dispatched (hfirst.rank_special hspecial)
      (mem_routed hd hrouted)
    rw [hdispatched] at hnot
    cases hnot
  · intro depth s t name args h hname hspecial hlisted hfound hmember htyped
    obtain ⟨r, s', deeds, he, hdeeds⟩ :=
      runLine_ends depth (.text (written [] (name :: args))) s
    obtain ⟨saved, u, henter, htakes⟩ :=
      runLine_takes htyped (read_words name args) hdeeds
    rw [Registry.route_handler hname hspecial hlisted hfound hmember]
      at htakes
    exact ⟨r, s', deeds, he, hdeeds, htakes.of_handler⟩

/-- A handler that is recorded under names of every form. -/
def versionHandler : Handler :=
  ⟨BaseShell.shellClass.bind "do_version", BaseShell.className⟩

/-- A shell of the base class with a handler under every name. -/
def crowdedSession : Session :=
  { Session.bare default default default with
    shell := some BaseShell.shellClass
    registry := ["", "quit", "HELP", "?", "!x", "it's"].foldl
      (fun r name => r.addHandler name versionHandler) .empty }

/-- A quit word in mixed letters, with a blank before it. -/
def quitLine : String := "'\tQU\u0130t' now"

/-- A quit word quits, although there is a handler under it, and a name
    with a quote in it leads to its handler. -/
theorem runLine_routes_crowded :
    Typed 1 quitLine crowdedSession crowdedSession ∧
    Line.read quitLine =
      .ok ⟨"\tQU\u0130t", .empty, [.text "now"]⟩ ∧
    (∃ r s' deeds,
      Course.runLine (executeWithin 1) (.text quitLine) crowdedSession =
        some ((r, s'), deeds) ∧
      routed deeds =
        [.method ⟨.handler, "\tQU\u0130t", .text quitLine⟩ "quit" []]) ∧
    Typed 1 "'it'\\''s' 'a b'" crowdedSession crowdedSession ∧
    ∃ r s' deeds,
      Course.runLine (executeWithin 1) (.text "'it'\\''s' 'a b'")
        crowdedSession = some ((r, s'), deeds) ∧
      routed deeds = [.handler
        ⟨.handler, "it's", .text "'it'\\''s' 'a b'"⟩
        versionHandler.member [.text "a b"]] := by
  obtain ⟨hroutes, hreaches⟩ := runLine_routes
  have htyped : ∀ text, Typed 1 text crowdedSession crowdedSession :=
    Typed.inherited 0 rfl rfl rfl
  have hread : Line.read quitLine =
      .ok ⟨"\tQU\u0130t", .empty, [.text "now"]⟩ := by
    rfl
  have hquit : Registry.Applies crowdedSession.registry
      ⟨"\tQU\u0130t", .empty, [.text "now"]⟩ .quit :=
    .quit (Registry.isKeyword_quitWords.mp (by decide +kernel))
  have hname : written [] ("it's" :: ["a b"]) = "'it'\\''s' 'a b'" := by
    decide +kernel
  have hspecial : ¬ Registry.Special "it's" := by
    rintro (h | h | h)
    · exact absurd (Registry.isKeyword_quitWords.mpr h) (by decide +kernel)
    · exact absurd (Registry.isKeyword_helpWords.mpr h) (by decide +kernel)
    · have hfirst := congrArg (fun text => text.toList.head?) h
      rw [String.toList_append] at hfirst
      have hfirst : some 'i' = some '!' := hfirst
      cases hfirst
  refine ⟨htyped _, hread, ?_, htyped _, ?_⟩
  · obtain ⟨r, s', deeds, saved, u, route, -, hdeeds, -, hfirst, htakes, -⟩ :=
      hroutes 1 _ _ _ _ (htyped _) hread
    refine ⟨r, s', deeds, hdeeds, ?_⟩
    have hroute : route = .quit := by
      rcases hfirst.first .quit hquit with hroute | hrank
      · exact hroute.symm
      · have happlies := hfirst.applies
        cases happlies with
        | empty h => exact absurd h (by decide)
        | _ => simp [Route.rank] at hrank
    rw [hroute] at htakes
    generalize routed deeds = doings at htakes ⊢
    cases htakes
    rfl
  · rw [← hname]
    obtain ⟨r, s', deeds, -, hdeeds, hrouted⟩ := hreaches 1 _ _ "it's"
      ["a b"] versionHandler (by decide) hspecial (by decide +kernel) rfl rfl
      (htyped _)
    exact ⟨r, s', deeds, hdeeds, hrouted⟩

end Run

end LineShell
