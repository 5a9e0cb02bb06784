import LineShell.Proofs.Session.Scope
import Mathlib.Data.String.Basic

/-! # Completion — which candidates are listed, and when there are none

    The words that stand for completion are *offered* by the shell or by
    the completer of a command (`Offers`); the ones that start with what
    is typed are *listed*, in order and each once (`Lists`).  A completer
    is asked for one command only (`Asked`), and only what it comes to can
    keep candidates from being listed: a signal, which passes, or a value
    that has no items, which nothing contains. -/

namespace LineShell

open LineShell.Text

/-! ## Sorted names -/

/-- Of names in order, each is left once, and they still are in order. -/
theorem increasing_eraseDups {names : List String}
    (h : names.Pairwise (· ≤ ·)) : names.eraseDups.Pairwise (· < ·) := by
  match names, h with
  | [], _ => exact .nil
  | first :: rest, .cons hfirst hrest =>
      rw [List.eraseDups_cons]
      refine .cons ?_ (increasing_eraseDups
        (hrest.sublist List.filter_sublist))
      intro name hname
      obtain ⟨hmem, hne⟩ :=
        List.mem_filter.mp (List.mem_eraseDups.mp hname)
      refine lt_of_le_of_ne (hfirst name hmem) ?_
      rintro rfl
      rw [beq_self_eq_true] at hne
      cases hne
termination_by names.length
decreasing_by exact Nat.lt_succ_of_le (List.length_filter_le _ _)

/-- The names that start with what is typed, in order and each once. -/
structure Lists (typed : String) (offered listed : List String) : Prop where
  increasing : listed.Pairwise (· < ·)
  exact_names : ∀ name,
    name ∈ listed ↔ name ∈ offered ∧ typed.toList <+: name.toList

/-- The candidates are the offered names that start with what is typed. -/
theorem candidatesFor_lists (typed : String) (offered : List String) :
    Lists typed offered (candidatesFor typed offered) where
  increasing := by
    refine increasing_eraseDups ?_
    have htrans : ∀ a b c : String, decide (a ≤ b) = true →
        decide (b ≤ c) = true → decide (a ≤ c) = true := by
      intro a b c hab hbc
      exact decide_eq_true
        (le_trans (of_decide_eq_true hab) (of_decide_eq_true hbc))
    have htotal : ∀ a b : String,
        (decide (a ≤ b) || decide (b ≤ a)) = true := by
      intro a b
      rw [Bool.or_eq_true, decide_eq_true_eq, decide_eq_true_eq]
      exact le_total a b
    exact (List.pairwise_mergeSort htrans htotal _).imp of_decide_eq_true
  exact_names := by
    intro name
    rw [candidatesFor, List.mem_eraseDups, List.mem_mergeSort,
      List.mem_filter, List.isPrefixOf_iff_prefix]

/-- Where nothing is offered nothing is listed. -/
@[simp] theorem candidatesFor_nil (typed : String) :
    candidatesFor typed [] = [] := by
  simp [candidatesFor]

/-! ## Completers -/

/-- The candidates that the answer of a completer stands for: a value that
    counts as false stands for none. -/
def Value.candidates? : Value → Option (List Value)
  | null => some []
  | list items => some items
  | v => if v.isTrue then v.items? else some []

/-- The answer stands for the candidates that are taken from it. -/
theorem Value.candidates?_eq (v : Value) :
    v.candidates? = if v.isTrue then v.items? else some [] := by
  cases v with
  | list items =>
      cases items with
      | nil => rfl
      | cons => rfl
  | _ => rfl

namespace Run

variable {execute : Executor} {typed line : String} {start : Int}
variable {s s' : Session}

/-- The text before a word is read as a command that has a completer, and
    the completer is asked for candidates. -/
inductive Asked (execute : Executor) (typed line : String) (start : Int)
    (s : Session) : String → Except Fault Value → Session → Prop where
  | intro {before : Line} {b : Bound} {r : Except Fault Value} {s' : Session}
      (hread : Line.read (String.ofList (leading line.toList start)) =
        .ok before)
      (hcommand : before.command ≠ "")
      (hcompleter : s.registry.completer? before.command = some b)
      (hcall : callBound execute b
        (.ofArgs [.text typed, .text line, .int start]) s = some (r, s')) :
      Asked execute typed line start s before.command r s'

/-- Asking a completer has one outcome. -/
theorem Asked.unique {command command' : String} {r r' : Except Fault Value}
    {t t' : Session} (h : Asked execute typed line start s command r t)
    (h' : Asked execute typed line start s command' r' t') : r' = r := by
  obtain ⟨hread, _, hcompleter, hcall⟩ := h
  obtain ⟨hread', _, hcompleter', hcall'⟩ := h'
  obtain rfl := Except.ok.inj (hread.symm.trans hread')
  obtain rfl := Option.some.inj (hcompleter.symm.trans hcompleter')
  rw [hcall] at hcall'
  cases hcall'
  rfl

/-- What is offered for a word, and the session that finding out leaves:
    nothing where the text before the word cannot be read, every word that
    a line can start with where there is no command yet, and otherwise
    what the completer of the command has, which is nothing where there is
    none or where it fails. -/
inductive Offers (execute : Executor) (typed line : String) (start : Int)
    (s : Session) : List String → Session → Prop where
  | unreadable {e : LineError}
      (hread : Line.read (String.ofList (leading line.toList start)) =
        .error e) :
      Offers execute typed line start s [] s
  | commands {before : Line}
      (hread : Line.read (String.ofList (leading line.toList start)) =
        .ok before)
      (hcommand : before.command = "") :
      Offers execute typed line start s
        (s.registry.dispatchable ++ helpWords ++ quitWords) s
  | missing {before : Line}
      (hread : Line.read (String.ofList (leading line.toList start)) =
        .ok before)
      (hcommand : before.command ≠ "")
      (hcompleter : s.registry.completer? before.command = none) :
      Offers execute typed line start s [] s
  | failed {command : String} {f : Fault} {s' : Session}
      (hasked : Asked execute typed line start s command (.error f) s')
      (hf : f.isSignal = false) :
      Offers execute typed line start s []
        { s' with events := s'.events ++ [.completerFailed command] }
  | answered {command : String} {v : Value} {items : List Value}
      {s' : Session}
      (hasked : Asked execute typed line start s command (.ok v) s')
      (hitems : v.candidates? = some items) :
      Offers execute typed line start s
        (items.map fun item => item.display s'.identity) s'

/-- A line without a command is empty. -/
theorem isEmpty_iff (before : Line) :
    before.isEmpty = true ↔ before.command = "" :=
  String.isEmpty_iff

/-- Where a completer is asked, its answer is all that is left to wait
    for. -/
theorem complete_eq_of_completer {before : Line} {b : Bound}
    (hread : Line.read (String.ofList (leading line.toList start)) =
      .ok before)
    (hcommand : before.command ≠ "")
    (hcompleter : s.registry.completer? before.command = some b) :
    complete execute typed line start s =
      (completerItems execute before.command b typed line start >>=
        fun items => do
          let me ← identity
          pure (candidatesFor typed (items.map fun v => v.display me))) s := by
  rw [complete, get_bind_eq, hread]
  dsimp only
  rw [if_neg (mt (isEmpty_iff before).mp hcommand), hcompleter]

/-- A completer that fails has no candidates, which is recorded. -/
theorem completerItems_failed {command : String} {b : Bound} {f : Fault}
    (hcall : callBound execute b
      (.ofArgs [.text typed, .text line, .int start]) s =
        some (.error f, s'))
    (hf : f.isSignal = false) :
    completerItems execute command b typed line start s = some (.ok [],
      { s' with events := s'.events ++ [.completerFailed command] }) := by
  rw [completerItems, bind_ok (contain_error hcall hf)]
  rfl

/-- A signal passes. -/
theorem completerItems_signalled {command : String} {b : Bound} {f : Fault}
    (hcall : callBound execute b
      (.ofArgs [.text typed, .text line, .int start]) s =
        some (.error f, s'))
    (hf : f.isSignal = true) :
    completerItems execute command b typed line start s =
      some (.error f, s') :=
  bind_error (contain_signal hcall hf)

/-- The candidates are taken from an answer outside of what contains the
    faults of the completer. -/
theorem completerItems_answered {b : Bound} {v : Value}
    (hcall : callBound execute b
      (.ofArgs [.text typed, .text line, .int start]) s =
        some (.ok v, s')) (command : String) :
    completerItems execute command b typed line start s =
      match v.candidates? with
      | some items => some (.ok items, s')
      | none =>
          some (.error (.mismatch (.notIterable (v.kindName s'.identity))),
            s') := by
  rw [completerItems, bind_ok (contain_ok hcall), Value.candidates?_eq]
  cases v.isTrue with
  | false => rfl
  | true =>
      rw [if_pos rfl, if_pos rfl]
      cases v.items? <;> rfl

/-- What is offered is listed. -/
theorem complete_of_offers {offered : List String}
    (h : Offers execute typed line start s offered s') :
    complete execute typed line start s =
      some (.ok (candidatesFor typed offered), s') := by
  cases h with
  | unreadable hread =>
      rw [complete, get_bind_eq, hread, candidatesFor_nil]
      rfl
  | commands hread hcommand =>
      rw [complete, get_bind_eq, hread]
      dsimp only
      rw [if_pos ((isEmpty_iff _).mpr hcommand)]
      rfl
  | missing hread hcommand hcompleter =>
      rw [complete, get_bind_eq, hread]
      dsimp only
      rw [if_neg (mt (isEmpty_iff _).mp hcommand), hcompleter,
        candidatesFor_nil]
      rfl
  | failed hasked hf =>
      obtain ⟨hread, hcommand, hcompleter, hcall⟩ := hasked
      rw [complete_eq_of_completer hread hcommand hcompleter,
        bind_ok (completerItems_failed hcall hf)]
      simp only [List.map_nil, candidatesFor_nil]
      rfl
  | answered hasked hitems =>
      obtain @⟨before, _, _, _, hread, hcommand, hcompleter, hcall⟩ := hasked
      have hgiven := completerItems_answered hcall before.command
      rw [hitems] at hgiven
      rw [complete_eq_of_completer hread hcommand hcompleter, bind_ok hgiven]
      rfl

/-- A fault that keeps candidates from being listed: a signal of the
    completer, or an answer that stands for no candidates. -/
inductive Withholds (execute : Executor) (typed line : String) (start : Int)
    (s : Session) : Fault → Session → Prop where
  | signalled {command : String} {f : Fault} {s' : Session}
      (hasked : Asked execute typed line start s command (.error f) s')
      (hf : f.isSignal = true) :
      Withholds execute typed line start s f s'
  | uniterable {command : String} {v : Value} {s' : Session}
      (hasked : Asked execute typed line start s command (.ok v) s')
      (hitems : v.candidates? = none) :
      Withholds execute typed line start s
        (.mismatch (.notIterable (v.kindName s'.identity))) s'

/-- Such a fault is what completion ends in. -/
theorem complete_of_withholds {f : Fault}
    (h : Withholds execute typed line start s f s') :
    complete execute typed line start s = some (.error f, s') := by
  cases h with
  | signalled hasked hf =>
      obtain ⟨hread, hcommand, hcompleter, hcall⟩ := hasked
      rw [complete_eq_of_completer hread hcommand hcompleter,
        bind_error (completerItems_signalled hcall hf)]
  | uniterable hasked hitems =>
      obtain @⟨before, _, _, _, hread, hcommand, hcompleter, hcall⟩ := hasked
      have hgiven := completerItems_answered hcall before.command
      rw [hitems] at hgiven
      rw [complete_eq_of_completer hread hcommand hcompleter,
        bind_error hgiven]

/-- Something is offered, or a fault keeps it back. -/
theorem offers_or_withholds (depth : Nat) (typed line : String)
    (start : Int) (s : Session) :
    (∃ offered s',
      Offers (executeWithin depth) typed line start s offered s') ∨
    ∃ f s', Withholds (executeWithin depth) typed line start s f s' := by
  cases hread : Line.read (String.ofList (leading line.toList start)) with
  | error e => exact .inl ⟨_, _, .unreadable hread⟩
  | ok before =>
      by_cases hcommand : before.command = ""
      · exact .inl ⟨_, _, .commands hread hcommand⟩
      · cases hcompleter : s.registry.completer? before.command with
        | none => exact .inl ⟨_, _, .missing hread hcommand hcompleter⟩
        | some b =>
            -- code comes to an end, whatever it is
            obtain ⟨r, s', hcall, _⟩ := callBound_behaves
              (executeWithin_keeps depth) s.keeps_anything
              (s.keeps_anything.registry.completer? hcompleter)
              (.ofArgs [.text typed, .text line, .int start]) s .refl
            have hasked : Asked (executeWithin depth) typed line start s
                before.command r s' :=
              .intro hread hcommand hcompleter hcall
            cases r with
            | error f =>
                cases hf : f.isSignal with
                | false => exact .inl ⟨_, _, .failed hasked hf⟩
                | true => exact .inr ⟨_, _, .signalled hasked hf⟩
            | ok v =>
                cases hitems : v.candidates? with
                | some items => exact .inl ⟨_, _, .answered hasked hitems⟩
                | none => exact .inr ⟨_, _, .uniterable hasked hitems⟩

/-! ## Words at a cursor -/

/-- The word at the end of a text is the end of the text. -/
theorem lastWord_suffix (cs : List Char) : lastWord cs <:+ cs := by
  have hprefix := List.takeWhile_prefix (fun c => !isBlank c) (l := cs.reverse)
  rw [← List.reverse_suffix, List.reverse_reverse] at hprefix
  exact hprefix

/-- Completing the word before a cursor, however the word is found. -/
def completeWordBy (word : List Char → List Char) (execute : Executor)
    (text : String) (cursor : Int) : Run Value := do
  let cs := text.toList
  if (cs.length : Int) < cursor then
    throw (.outside
      s!"cursor_position={cursor}, len_text={cs.length}")
  else
    let before := leading cs cursor
    let typed := word before
    let names ← complete execute (String.ofList typed)
      (String.ofList before) (before.length - typed.length : Nat)
    pure (.list (names.map fun name =>
      .list [.text name, .int (-(typed.length : Int))]))

/-- The word is what is not blank. -/
theorem completeWord_eq (execute : Executor) :
    completeWord execute = completeWordBy lastWord execute :=
  rfl

/-- The text before the cursor once a completion is put in: it takes the
    place of what stands from where it starts, which is counted from the
    cursor. -/
def applied (before name : List Char) (start : Int) : List Char :=
  (if start = 0 then before else leading before start) ++ name

/-- A completion of the word at the end of a text extends the text. -/
theorem applied_extends {before typed name : List Char}
    (hword : typed <:+ before) (hname : typed <+: name) :
    before <+: applied before name (-(typed.length : Int)) := by
  obtain ⟨kept, rfl⟩ := hword
  obtain ⟨more, rfl⟩ := hname
  refine ⟨more, ?_⟩
  cases typed with
  | nil => simp [applied]
  | cons c cs =>
      have hnegative : -((c :: cs).length : Int) < 0 := by
        rw [List.length_cons]
        omega
      have hkept : leading (kept ++ c :: cs) (-((c :: cs).length : Int)) =
          kept := by
        rw [leading, if_pos hnegative, Int.natAbs_neg, Int.natAbs_natCast,
          List.length_append, Nat.add_sub_cancel, List.take_left]
      rw [applied, if_neg (Int.ne_of_lt hnegative), hkept,
        List.append_assoc]

/-- The completions of the word before a cursor are the candidates for it,
    each from where the word starts. -/
theorem of_completeWordBy {word : List Char → List Char} {text : String}
    {cursor : Int} {before typed : List Char} {v : Value}
    (hbefore : before = leading text.toList cursor)
    (htyped : typed = word before)
    (h : completeWordBy word execute text cursor s = some (.ok v, s')) :
    ∃ names, complete execute (String.ofList typed) (String.ofList before)
        (before.length - typed.length : Nat) s = some (.ok names, s') ∧
      v = .list (names.map fun name =>
        .list [.text name, .int (-(typed.length : Int))]) := by
  subst hbefore htyped
  rw [completeWordBy] at h
  dsimp only at h
  split at h
  · cases h
  · obtain ⟨names, s₁, hnames, hpure⟩ := of_bind_ok h
    cases hpure
    exact ⟨names, hnames, rfl⟩

/-! ## What is listed -/

/-- A fault that completion ends in is one that keeps candidates back. -/
theorem withholds_of_complete {depth : Nat} {f : Fault}
    (h : complete (executeWithin depth) typed line start s =
      some (.error f, s')) :
    Withholds (executeWithin depth) typed line start s f s' := by
  rcases offers_or_withholds depth typed line start s with
    ⟨offered, t, hoffers⟩ | ⟨g, t, hwithholds⟩
  · rw [complete_of_offers hoffers] at h
    cases h
  · rw [complete_of_withholds hwithholds] at h
    cases h
    exact hwithholds

/-- What is listed is what is offered. -/
theorem lists_of_complete {depth : Nat} {names : List String}
    (h : complete (executeWithin depth) typed line start s =
      some (.ok names, s')) :
    ∃ offered, Offers (executeWithin depth) typed line start s offered s' ∧
      Lists typed offered names := by
  rcases offers_or_withholds depth typed line start s with
    ⟨offered, t, hoffers⟩ | ⟨g, t, hwithholds⟩
  · rw [complete_of_offers hoffers] at h
    cases h
    exact ⟨offered, hoffers, candidatesFor_lists typed offered⟩
  · rw [complete_of_withholds hwithholds] at h
    cases h

/-- Completion comes to an end.  What it comes to is a list, in order, of
    names that start with what is typed, but for two faults: the signals
    of a completer, and an answer of a completer that counts as true and
    has no items. -/
theorem complete_returns (depth : Nat) (typed line : String) (start : Int)
    (s : Session) :
    (∃ r s', complete (executeWithin depth) typed line start s =
        some (r, s') ∧
      ∀ names, r = .ok names → names.Pairwise (· < ·) ∧
        ∀ name ∈ names, typed.toList <+: name.toList) ∧
    ∀ f s', complete (executeWithin depth) typed line start s =
        some (.error f, s') ↔
      Withholds (executeWithin depth) typed line start s f s' := by
  constructor
  · rcases offers_or_withholds depth typed line start s with
      ⟨offered, t, hoffers⟩ | ⟨f, t, hwithholds⟩
    · refine ⟨_, t, complete_of_offers hoffers, ?_⟩
      rintro names ⟨⟩
      have hlists := candidatesFor_lists typed offered
      exact ⟨hlists.increasing,
        fun name hname => ((hlists.exact_names name).mp hname).2⟩
    · refine ⟨_, t, complete_of_withholds hwithholds, ?_⟩
      intro names h
      cases h
  · intro f s'
    exact ⟨withholds_of_complete, complete_of_withholds⟩

/-- An object by which the command `x` is completed as a program does. -/
def completingClass (p : Program) : Class :=
  ⟨1, "Completing", .ofList
    [("complete_x", BaseShell.member ["text", "line", "begidx"] false none
      fun _ => p)], []⟩

/-- A shell with the object. -/
def completingSession (p : Program) : Session :=
  { Session.bare default default default with
    shell := some BaseShell.shellClass
    registry := .discover [completingClass p] }

theorem completer?_completing (p : Program) :
    (completingSession p).registry.completer? "x" =
      some ((completingClass p).bind "complete_x") := by
  have hhandler :
      Registry.afterMarker? Registry.handlerMarker "complete_x" = none := by
    decide
  have hhelp :
      Registry.afterMarker? Registry.helpMarker "complete_x" = none := by
    decide
  have hcompleter :
      Registry.afterMarker? Registry.completerMarker "complete_x" =
        some "x" := by
    decide
  show (Registry.empty.addByName "Completing"
    ((completingClass p).bind "complete_x")).completer? "x" = _
  rw [Registry.addByName]
  simp only [Class.bind, hhandler, hhelp, hcompleter]
  rfl

/-- The completer of the command is asked for a word after it. -/
theorem asked_completing {p : Program} {r : Except Fault Value}
    {s' : Session} (h : ∀ frame,
      executeWithin 1 frame p (completingSession p) = some (r, s')) :
    Asked (executeWithin 1) "a" "x a" 2 (completingSession p) "x" r s' := by
  have hread : Line.read (String.ofList (leading "x a".toList 2)) =
      .ok ⟨"x", .empty, []⟩ := rfl
  exact .intro hread (by decide) (completer?_completing p) (h _)

/-- A number has no items, and nothing contains that. -/
theorem complete_uniterable :
    complete (executeWithin 1) "a" "x a" 2
        (completingSession (.done (.int 5))) =
      some (.error (.mismatch (.notIterable "int")),
        completingSession (.done (.int 5))) :=
  complete_of_withholds
    (.uniterable (asked_completing fun _ => rfl) (v := .int 5) rfl)

/-- What a completer may come to for its candidates to be listed: an
    ordinary fault, nothing, or a list of anything. -/
inductive Completes : Except Fault Value → Prop where
  | failed {f : Fault} (hf : f.isSignal = false) : Completes (.error f)
  | missing : Completes (.ok .null)
  | items (items : List Value) : Completes (.ok (.list items))

/-- Where a completer raises an ordinary fault or answers nothing or a
    list, the candidates for a word are listed: those that start with what
    is typed, of what is offered, in order and each once.  A signal of the
    completer passes.  And however the word before a cursor is found at the
    end of a text, each of its completions, put in where it starts, extends
    the text before the cursor. -/
theorem complete_exact {word : List Char → List Char}
    (hword : ∀ cs, word cs <:+ cs) (depth : Nat) (s : Session) :
    (∀ typed line (start : Int),
      (∀ command r s', Asked (executeWithin depth) typed line start s
        command r s' → Completes r) →
      ∃ offered names s',
        Offers (executeWithin depth) typed line start s offered s' ∧
        complete (executeWithin depth) typed line start s =
          some (.ok names, s') ∧
        Lists typed offered names) ∧
    (∀ typed line (start : Int) command f s',
      Asked (executeWithin depth) typed line start s command (.error f) s' →
      f.isSignal = true →
      complete (executeWithin depth) typed line start s =
        some (.error f, s')) ∧
    ∀ text cursor v s',
      completeWordBy word (executeWithin depth) text cursor s =
        some (.ok v, s') →
      ∃ before typed names,
        before = leading text.toList cursor ∧ typed = word before ∧
        complete (executeWithin depth) (String.ofList typed)
          (String.ofList before) (before.length - typed.length : Nat) s =
          some (.ok names, s') ∧
        v = .list (names.map fun name =>
          .list [.text name, .int (-(typed.length : Int))]) ∧
        ∀ name ∈ names,
          before <+: applied before name.toList (-(typed.length : Int)) := by
  refine ⟨?_, ?_, ?_⟩
  · intro typed line start hcompletes
    rcases offers_or_withholds depth typed line start s with
      ⟨offered, s', hoffers⟩ | ⟨f, s', hwithholds⟩
    · exact ⟨offered, _, s', hoffers, complete_of_offers hoffers,
        candidatesFor_lists typed offered⟩
    -- nothing that a completer may come to keeps its candidates back
    · cases hwithholds with
      | signalled hasked hf =>
          cases hcompletes _ _ _ hasked with
          | failed hordinary =>
              rw [hf] at hordinary
              cases hordinary
      | uniterable hasked hitems =>
          cases hcompletes _ _ _ hasked with
          | missing => cases hitems
          | items items => cases hitems
  · intro typed line start command f s' hasked hf
    exact complete_of_withholds (.signalled hasked hf)
  · intro text cursor v s' h
    obtain ⟨names, hnames, hv⟩ := of_completeWordBy rfl rfl h
    refine ⟨_, _, names, rfl, rfl, hnames, hv, ?_⟩
    intro name hname
    obtain ⟨_, _, hlists⟩ := lists_of_complete hnames
    obtain ⟨_, hstarts⟩ := (hlists.exact_names name).mp hname
    rw [String.toList_ofList] at hstarts
    exact applied_extends (hword _) hstarts

/-- Offers two names, one of them twice, and a number. -/
def offering : Program :=
  .done (.list [.text "apply", .int 12, .text "all", .text "apply"])

/-- A completer that offers candidates, which are listed and put in at a
    cursor, and one that interrupts. -/
theorem complete_exact_completing :
    (∃ offered names s',
      Offers (executeWithin 1) "a" "x a" 2 (completingSession offering)
        offered s' ∧
      complete (executeWithin 1) "a" "x a" 2 (completingSession offering) =
        some (.ok names, s') ∧
      Lists "a" offered names ∧
      completeWord (executeWithin 1) "x a" 3 (completingSession offering) =
        some (.ok (.list (names.map fun name =>
          .list [.text name, .int (-1)])), s') ∧
      ∀ name ∈ names,
        "x a".toList <+: applied "x a".toList name.toList (-1)) ∧
    complete (executeWithin 1) "a" "x a" 2
        (completingSession (.fail (.interrupt "stop"))) =
      some (.error (.interrupt "stop"),
        completingSession (.fail (.interrupt "stop"))) := by
  constructor
  · obtain ⟨hlisted, _, hextends⟩ := complete_exact lastWord_suffix 1
      (completingSession offering)
    obtain ⟨offered, names, s', hoffers, hnames, hlists⟩ :=
      hlisted "a" "x a" 2 fun command r s' hasked => by
        rw [(asked_completing fun _ => rfl).unique hasked]
        exact .items _
    have hword : completeWordBy lastWord (executeWithin 1) "x a" 3
        (completingSession offering) =
        some (.ok (.list (names.map fun name =>
          .list [.text name, .int (-1)])), s') :=
      bind_ok hnames
    obtain ⟨_, _, names', rfl, rfl, hnames', -, hstarts⟩ :=
      hextends _ _ _ _ hword
    obtain rfl : names' = names := by
      cases hnames'.symm.trans hnames
      rfl
    refine ⟨offered, names', s', hoffers, hnames, hlists, ?_, hstarts⟩
    rw [completeWord_eq]
    exact hword
  · obtain ⟨_, hsignal, _⟩ := complete_exact lastWord_suffix 1
      (completingSession (.fail (.interrupt "stop")))
    exact hsignal _ _ _ _ _ _ (asked_completing fun _ => rfl) rfl

/-- A completer that interrupts: nothing is listed, not even nothing. -/
theorem complete_interrupted :
    Asked (executeWithin 1) "a" "x a" 2
      (completingSession (.fail (.interrupt "stop"))) "x"
      (.error (.interrupt "stop"))
      (completingSession (.fail (.interrupt "stop"))) ∧
    ∀ names s', complete (executeWithin 1) "a" "x a" 2
      (completingSession (.fail (.interrupt "stop"))) ≠
        some (.ok names, s') := by
  have hasked := asked_completing (p := .fail (.interrupt "stop"))
    fun _ => rfl
  refine ⟨hasked, ?_⟩
  intro names s'
  rw [complete_of_withholds (.signalled hasked rfl)]
  intro h
  cases h

end Run

end LineShell
