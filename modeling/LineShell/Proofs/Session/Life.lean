import LineShell.Proofs.Session.Reference
import LineShell.Proofs.Session.Rest

/-! # Lives — what is asked of a shell from its first session on

    The life of a shell is a list of operations that are asked of it from
    outside, one after the other: lines, sessions, registrations, changes
    of the prompt, anything that code can ask for.  What a session does is
    listed with the operation that ran it (`Course.life`).

    Once the shell is over between two operations it stays over, and from
    then on no operation runs a loop, however deep (`Stretch.Sound`).  So
    one leave at most is taken to its end; others were broken off, and
    their operations failed.

    The lists hold what is done by the sessions that are run from outside.
    Where code asks for no session there are no others (`Stretch.Alone`).
    But a session that code asks for may end the shell while the session
    around it goes on (`Run.life_ends_nested`). -/

namespace LineShell

/-- What a shell is asked from outside: to run a session, or anything
    else. -/
inductive Operation where
  | run
  | ask (r : Request) (hr : r ≠ .run)
  | prompt (use : PromptUse) (code : List Value → Program)
      (bound : Option (List Value)) (args : List Value)

/-- The code of a prompt that is handed over. -/
def Operation.Keeps (k : Conduct) : Operation → Prop
  | .run => True
  | .ask _ _ => True
  | .prompt _ code _ _ => ∀ args, (code args).Keeps k

namespace Run

variable {α : Type} {s : Session} {member : String}

/-- A step about a member of the shell fails where there is none. -/
theorem withShell_none (h : s.shell = none) (step : Run α) :
    withShell (some member) step s =
      some (.error (.noAttribute "NoneType" member), s) := by
  rw [withShell, get_bind_eq, h]
  rfl

theorem withShell_some {c : Class} (h : s.shell = some c) (step : Run α) :
    withShell (some member) step s = step s := by
  rw [withShell, get_bind_eq, h]

end Run

/-- Answers an operation. -/
def Run.operate (execute : Executor) : Operation → Run Value
  | .run => answer execute .outside .run
  | .ask r _ => answer execute .outside r
  | .prompt use code bound args =>
      answerPromptCode execute use code bound args

/-- What became of an operation: the session that it found, the answer,
    what was done if a session was run, and the session that it left. -/
structure Stretch where
  op : Operation
  found : Session
  answer : Answer
  deeds : List Deed
  left : Session

/-- Did the operation fail? -/
def Stretch.failed (e : Stretch) : Bool :=
  e.answer matches .error _

namespace Course

variable (execute : Executor)

/-- Answers an operation; what a session does is listed. -/
def operate : Operation → Course Value
  | .run => do
      own (Run.withShell Request.run.shellMember? (pure ()))
      session execute
      pure .null
  | .ask r hr => own (Run.operate execute (.ask r hr))
  | .prompt use code bound args =>
      own (Run.operate execute (.prompt use code bound args))

/-- The life of a shell that goes on whatever an operation comes to. -/
def life : List Operation → Session → Option (List Stretch)
  | [], _ => some []
  | op :: rest, s =>
      match operate execute op s with
      | none => none
      | some ((a, s'), deeds) =>
          (life rest s').map (⟨op, s, a, deeds, s'⟩ :: ·)

variable {execute : Executor} {op : Operation} {rest : List Operation}
variable {s s' : Session} {a : Answer} {deeds : List Deed}
variable {l : List Stretch}

theorem run_operate (execute : Executor) (op : Operation) :
    (operate execute op).run = Run.operate execute op := by
  cases op with
  | run =>
      simp only [operate, run_bind, run_own, run_session, run_pure]
      funext s
      show (do
        Run.withShell (some "run") (pure ())
        Run.session execute
        pure .null : Run Value) s = Run.withShell (some "run") _ s
      cases hshell : s.shell with
      | none =>
          rw [Run.bind_error (Run.withShell_none hshell _)]
          exact (Run.withShell_none hshell _).symm
      | some c =>
          rw [Run.bind_ok (Run.withShell_some hshell _)]
          exact (Run.withShell_some hshell _).symm
  | ask r hr => exact run_own _
  | prompt use code bound args => exact run_own _

theorem of_life_cons (h : life execute (op :: rest) s = some l) :
    ∃ a s' deeds tail, operate execute op s = some ((a, s'), deeds) ∧
      life execute rest s' = some tail ∧
      l = ⟨op, s, a, deeds, s'⟩ :: tail := by
  rw [life] at h
  split at h
  · cases h
  · rename_i a s' deeds hop
    obtain ⟨tail, htail, rfl⟩ := Option.map_eq_some_iff.mp h
    exact ⟨a, s', deeds, tail, hop, htail, rfl⟩

/-- A session is run where there is a shell. -/
theorem of_operate_run
    (h : operate execute .run s = some ((a, s'), deeds)) :
    s.shell = none ∧ deeds = [] ∨ ∃ c r, s.shell = some c ∧
      session execute s = some ((r, s'), deeds) ∧
      a = r.map fun _ => .null := by
  rcases of_bind h with ⟨f, rfl, hnone⟩ | ⟨_, s₁, _, _, hsome, h₁, rfl⟩
  · obtain ⟨hshell, rfl⟩ := of_own hnone
    left
    cases hc : s.shell with
    | none => exact ⟨rfl, rfl⟩
    | some c => cases (Run.withShell_some hc _).symm.trans hshell
  · obtain ⟨hshell, rfl⟩ := of_own hsome
    right
    cases hc : s.shell with
    | none => cases (Run.withShell_none hc _).symm.trans hshell
    | some c =>
        cases (Run.withShell_some hc _).symm.trans hshell
        rcases of_bind h₁ with ⟨f, rfl, hrun⟩ | ⟨_, s₂, _, _, hrun, h₂, rfl⟩
        · exact ⟨c, .error f, rfl, hrun, rfl⟩
        · obtain ⟨hv, rfl⟩ := of_own h₂
          cases hv
          rw [List.append_nil]
          exact ⟨c, .ok (), rfl, hrun, rfl⟩

/-- What is listed with an operation is what a session did. -/
theorem of_operate (h : operate execute op s = some ((a, s'), deeds)) :
    deeds = [] ∨ ∃ r, Visit execute s deeds r s' ∧
      a = r.map fun _ => .null := by
  cases op with
  | ask r hr => exact Or.inl (of_own h).2
  | prompt use code bound args => exact Or.inl (of_own h).2
  | run =>
      rcases of_operate_run h with ⟨_, hnil⟩ | ⟨_, r, _, hrun, ha⟩
      · exact Or.inl hnil
      · exact Or.inr ⟨r, of_session hrun, ha⟩

end Course

/-! ## What holds of every operation -/

/-- What holds of an operation whatever code does.  Whatever is listed was
    done by a session; and an operation on a shell that is over leaves it
    so and runs no loop. -/
structure Stretch.Sound (depth : Nat) (e : Stretch) : Prop where
  answered : Run.operate (Run.executeWithin depth) e.op e.found =
    some (e.answer, e.left)
  visit : e.deeds ≠ [] → ∃ r,
    Visit (Run.executeWithin depth) e.found e.deeds r e.left ∧
      e.answer = r.map fun _ => .null
  finished : e.found.phase = .terminated →
    e.deeds = [] ∧ e.left.phase = .terminated ∧
      Run.operate (Run.loopless depth) e.op e.found =
        some (e.answer, e.left)

/-- What holds of an operation if code asks for no session: no loop is run
    but the one that is listed, and the shell is over if it was before or
    if that loop has come to its end. -/
structure Stretch.Alone (depth : Nat) (e : Stretch) : Prop where
  answered : Run.operate (Run.loopless depth) e.op e.found =
    some (e.answer, e.left)
  finished : e.left.phase = .terminated → e.found.phase = .terminated ∨
    e.failed = false ∧ ∃ d ∈ e.deeds, d.doing.isEnd = true

namespace Stretch.Sound

variable {depth : Nat} {e : Stretch} {p : Doing → Bool}

/-- An operation that ran a session and did not fail ended it. -/
theorem ended (h : e.Sound depth) (hd : e.deeds ≠ [])
    (hf : e.failed = false) : e.left.phase = .terminated := by
  obtain ⟨r, hvisit, ha⟩ := h.visit hd
  cases r with
  | ok u => exact hvisit.ended
  | error f =>
      rw [Stretch.failed, ha] at hf
      cases hf

/-- So did one that came to the end of a session. -/
theorem ended_of_end (h : e.Sound depth) {d : Deed} (hd : d ∈ e.deeds)
    (hend : d.doing.isEnd = true) : e.left.phase = .terminated := by
  obtain ⟨r, hvisit, _⟩ := h.visit (List.ne_nil_of_mem hd)
  obtain rfl := hvisit.ok_of_end hd hend
  exact hvisit.ended

theorem endsLast (h : e.Sound depth) : EndsLast e.deeds := by
  by_cases hd : e.deeds = []
  · rw [hd]
    exact .nil
  · obtain ⟨r, hvisit, _⟩ := h.visit hd
    exact hvisit.endsLast

theorem countP_le (h : e.Sound depth) (hp : Framing p) :
    e.deeds.countP (fun d => p d.doing) ≤
      [Doing.moved .running, .moved .quitting, .persist,
        .moved .terminated].countP p := by
  by_cases hd : e.deeds = []
  · rw [hd]
    exact Nat.zero_le _
  · obtain ⟨r, hvisit, _⟩ := h.visit hd
    exact hvisit.countP_le hp

end Stretch.Sound

namespace Run

variable {k : Conduct} {p : Phase} {depth : Nat} {op : Operation}
variable {s s' : Session} {a : Answer} {deeds : List Deed}

theorem operate_rests (hk : k.RestsIn p) (hop : op.Keeps k)
    (hrun : op ≠ .run) :
    Agree (Resting k p) (operate (executeWithin depth) op)
      (operate (loopless depth) op) := by
  have ha := loopless_accord hk depth
  cases op with
  | run => exact absurd rfl hrun
  | ask r hr => exact answer_rests ha Frame.keeps_outside hr
  | prompt use code bound args =>
      exact answerPromptCode_agree bond_resting.toBond ha use hop bound args

/-- Where the shell is over, every operation rests. -/
theorem operate_over (op : Operation) :
    Agree (Resting .anything .terminated)
      (operate (executeWithin depth) op) (operate (loopless depth) op) := by
  cases op with
  | run => exact withShell_agree bond_resting.toBond (.giving over_rests _) _
  | ask r hr => exact operate_rests (.inl rfl) trivial nofun
  | prompt use code bound args =>
      refine operate_rests (.inl rfl) ?_ nofun
      exact fun args => (code args).keeps_anything

/-- An operation is answered. -/
theorem operate_returns (depth : Nat) (op : Operation) (s : Session) :
    ∃ a s' deeds, Course.operate (executeWithin depth) op s =
      some ((a, s'), deeds) := by
  have hx : (executeWithin depth).Keeps .anything := executeWithin_keeps depth
  have hs := s.keeps_anything
  have hreturns : ∃ a s', operate (executeWithin depth) op s =
      some (a, s') := by
    cases op with
    | run =>
        obtain ⟨a, s', h, _⟩ := answer_behaves hx hs Frame.keeps_outside
          (r := .run) trivial s .refl
        exact ⟨a, s', h⟩
    | ask r hr =>
        obtain ⟨a, s', h, _⟩ := answer_behaves hx hs Frame.keeps_outside
          (r := r) trivial s .refl
        exact ⟨a, s', h⟩
    | prompt use code bound args =>
        obtain ⟨a, s', h, _⟩ := answerPromptCode_behaves hx hs use
          (fun args => (code args).keeps_anything) bound args s .refl
        exact ⟨a, s', h⟩
  obtain ⟨a, s', h⟩ := hreturns
  obtain ⟨deeds, hdeeds⟩ := Course.of_run (Course.run_operate _ op) h
  exact ⟨a, s', deeds, hdeeds⟩

theorem operate_sound
    (h : Course.operate (executeWithin depth) op s = some ((a, s'), deeds)) :
    Stretch.Sound depth ⟨op, s, a, deeds, s'⟩ := by
  have hrun := Course.run_eq (Course.run_operate _ op) h
  refine ⟨hrun, ?_, ?_⟩
  · intro hd
    rcases Course.of_operate h with hnil | hvisit
    · exact absurd hnil hd
    · exact hvisit
  · intro hp
    obtain ⟨hsame, _, hphase⟩ :=
      (operate_over op).rests s.keeps_anything hp hrun
    refine ⟨?_, hphase, hsame⟩
    rcases Course.of_operate h with hnil | ⟨r, hvisit, _⟩
    · exact hnil
    · cases hvisit with
      | past => rfl
      | ungreeted hnot => exact absurd hp hnot
      | broken hnot => exact absurd hp hnot
      | leaving hnot => exact absurd hp hnot

theorem operate_alone (hk : ¬ k.asks .run) (hs : s.Keeps k)
    (hop : op.Keeps k)
    (h : Course.operate (executeWithin depth) op s = some ((a, s'), deeds)) :
    Stretch.Alone depth ⟨op, s, a, deeds, s'⟩ ∧ s'.Keeps k := by
  have hrun := Course.run_eq (Course.run_operate _ op) h
  by_cases heq : op = .run
  · subst heq
    rcases Course.of_operate_run h with ⟨hnone, rfl⟩ | ⟨c, r, hc, hsession, rfl⟩
    -- without a shell both sides fail before there is a session
    · have hfails : ∀ x, operate x .run s =
          some (.error (.noAttribute "NoneType" "run"), s) :=
        fun x => withShell_none hnone _
      cases (hfails _).symm.trans hrun
      exact ⟨⟨hfails _, Or.inl⟩, hs⟩
    · obtain ⟨hsame, hs', hover⟩ := session_rests hk hs hsession
      refine ⟨⟨?_, ?_⟩, hs'⟩
      · show withShell (some "run") _ s = _
        rw [withShell_some hc]
        cases r with
        | ok u => exact bind_ok hsame
        | error f => exact bind_error hsame
      · intro hp
        rcases hover hp with hp | rfl
        · exact Or.inl hp
        by_cases hp : s.phase = .terminated
        · exact Or.inl hp
        · exact Or.inr ⟨rfl, (Course.of_session hsession).end_mem hp⟩
  · obtain ⟨hsame, hs', hp⟩ :=
      (operate_rests (.inr hk) hop heq).rests hs rfl hrun
    exact ⟨⟨hsame, fun h => Or.inl (hp.symm.trans h)⟩, hs'⟩

/-! ## Lives -/

variable {ops : List Operation} {l : List Stretch}

theorem life_returns (depth : Nat) (ops : List Operation) (s : Session) :
    ∃ l, Course.life (executeWithin depth) ops s = some l := by
  induction ops generalizing s with
  | nil => exact ⟨[], rfl⟩
  | cons op rest ih =>
      obtain ⟨a, s', deeds, hop⟩ := operate_returns depth op s
      obtain ⟨tail, htail⟩ := ih s'
      refine ⟨⟨op, s, a, deeds, s'⟩ :: tail, ?_⟩
      rw [Course.life, hop]
      dsimp only
      rw [htail]
      rfl

theorem life_sound (h : Course.life (executeWithin depth) ops s = some l) :
    ∀ e ∈ l, e.Sound depth := by
  induction ops generalizing s l with
  | nil =>
      cases h
      exact fun e he => nomatch he
  | cons op rest ih =>
      obtain ⟨a, s', deeds, tail, hop, htail, rfl⟩ := Course.of_life_cons h
      intro e he
      rcases List.mem_cons.mp he with rfl | he
      · exact operate_sound hop
      · exact ih htail e he

theorem life_alone (hk : ¬ k.asks .run) (hs : s.Keeps k)
    (hops : ∀ op ∈ ops, op.Keeps k)
    (h : Course.life (executeWithin depth) ops s = some l) :
    ∀ e ∈ l, e.Alone depth := by
  induction ops generalizing s l with
  | nil =>
      cases h
      exact fun e he => nomatch he
  | cons op rest ih =>
      obtain ⟨a, s', deeds, tail, hop, htail, rfl⟩ := Course.of_life_cons h
      obtain ⟨halone, hs'⟩ :=
        operate_alone hk hs (hops op List.mem_cons_self) hop
      intro e he
      rcases List.mem_cons.mp he with rfl | he
      · exact halone
      · exact ih hs' (fun o ho => hops o (List.mem_cons_of_mem _ ho)) htail e
          he

/-- A shell that is over stays so. -/
theorem life_over (h : Course.life (executeWithin depth) ops s = some l)
    (hp : s.phase = .terminated) :
    ∀ e ∈ l, e.found.phase = .terminated := by
  induction ops generalizing s l with
  | nil =>
      cases h
      exact fun e he => nomatch he
  | cons op rest ih =>
      obtain ⟨a, s', deeds, tail, hop, htail, rfl⟩ := Course.of_life_cons h
      intro e he
      rcases List.mem_cons.mp he with rfl | he
      · exact hp
      · exact ih htail ((operate_sound hop).finished hp).2.1 e he

/-- So once an operation has left it over, every later one finds it so. -/
theorem life_permanent
    (h : Course.life (executeWithin depth) ops s = some l) :
    l.Pairwise fun e e' =>
      e.left.phase = .terminated → e'.found.phase = .terminated := by
  induction ops generalizing s l with
  | nil =>
      cases h
      exact .nil
  | cons op rest ih =>
      obtain ⟨a, s', deeds, tail, hop, htail, rfl⟩ := Course.of_life_cons h
      refine .cons ?_ (ih htail)
      intro e he hp
      exact life_over htail hp e he

/-- How often a kind of thing is done in a life. -/
def times (p : Doing → Bool) (l : List Stretch) : Nat :=
  (l.flatMap Stretch.deeds).countP fun d => p d.doing

/-- How many operations failed after such a thing was done. -/
def failures (p : Doing → Bool) (l : List Stretch) : Nat :=
  l.countP fun e => e.failed && e.deeds.any fun d => p d.doing

/-- What a session does itself, and once at most, is done once more in a
    life only after a session that failed. -/
theorem times_le {q : Doing → Bool} (hq : Framing q)
    (hone : [Doing.moved .running, .moved .quitting, .persist,
      .moved .terminated].countP q = 1)
    (hsound : ∀ e ∈ l, e.Sound depth)
    (hover : l.Pairwise fun e e' =>
      e.left.phase = .terminated → e'.found.phase = .terminated) :
    times q l ≤ 1 + failures q l := by
  induction l with
  | nil => exact Nat.zero_le _
  | cons e rest ih =>
      obtain ⟨hhead, htail⟩ := List.pairwise_cons.mp hover
      have hrest : ∀ e' ∈ rest, e'.Sound depth := fun e' he' =>
        hsound e' (List.mem_cons_of_mem _ he')
      have he := hsound e List.mem_cons_self
      have hle := he.countP_le hq
      have htimes : times q (e :: rest) =
          e.deeds.countP (fun d => q d.doing) + times q rest := by
        rw [times, List.flatMap_cons, List.countP_append]
        rfl
      have hfailures : failures q (e :: rest) = failures q rest +
          if e.failed && e.deeds.any (fun d => q d.doing) then 1 else 0 := by
        rw [failures, List.countP_cons]
        rfl
      have hrec := ih hrest htail
      rw [hone] at hle
      cases hany : e.deeds.any fun d => q d.doing with
      | false =>
          -- nothing of the kind was done for this operation
          have hnone : e.deeds.countP (fun d => q d.doing) = 0 :=
            List.countP_eq_zero.mpr (List.any_eq_false.mp hany)
          omega
      | true =>
          cases hfailed : e.failed with
          | true =>
              rw [hany, hfailed, Bool.and_self, if_pos rfl] at hfailures
              omega
          | false =>
              -- the shell is over, so that nothing is done any more
              have hne : e.deeds ≠ [] := by
                intro hnil
                rw [hnil] at hany
                cases hany
              have hnil : times q rest = 0 := by
                rw [times, List.flatMap_eq_nil_iff.mpr]
                · rfl
                · intro e' he'
                  exact ((hrest e' he').finished
                    (hhead e' he' (he.ended hne hfailed))).1
              omega

/-- What holds of a life whatever code does.  Once the shell is over
    between two operations, no later one changes that; nothing that is done
    follows the end; and goodbye is said once more, and the history is
    written once more, only after an operation that failed when that was
    done. -/
structure Lifelong (depth : Nat) (l : List Stretch) : Prop where
  sound : ∀ e ∈ l, e.Sound depth
  permanent : l.Pairwise fun e e' => e.left.phase = .terminated →
    e'.found.phase = .terminated ∧ e'.deeds = [] ∧
      e'.left.phase = .terminated
  endsLast : EndsLast (l.flatMap Stretch.deeds)
  farewells : times Doing.isFarewell l ≤ 1 + failures Doing.isFarewell l
  persists : times Doing.isPersist l ≤ 1 + failures Doing.isPersist l

theorem life_lifelong
    (h : Course.life (executeWithin depth) ops s = some l) :
    Lifelong depth l := by
  have hsound := life_sound h
  have hover := life_permanent h
  refine ⟨hsound, ?_, ?_, times_le .farewell rfl hsound hover,
    times_le .persist rfl hsound hover⟩
  · refine hover.imp_of_mem ?_
    intro e e' _ he' himp hp
    obtain ⟨hnil, hleft, _⟩ := (hsound e' he').finished (himp hp)
    exact ⟨himp hp, hnil, hleft⟩
  · refine List.pairwise_flatMap.mpr ⟨fun e he => (hsound e he).endsLast, ?_⟩
    refine hover.imp_of_mem ?_
    intro e e' he he' himp d hd d' hd'
    cases hend : d.doing.isEnd with
    | false => rfl
    | true =>
        have hp := (hsound e he).ended_of_end hd hend
        rw [((hsound e' he').finished (himp hp)).1] at hd'
        cases hd'

/-- Where the shell is over, any code leaves it so and runs no loop; and
    operations, one after the other, do not bring it back, whatever code
    does.  If no code asks for a session, then none changes the phase or
    runs a loop in any phase, so that all this is said of every loop that
    is run, and the shell is over from the end of the first that comes to
    its end. -/
theorem life_ends (depth : Nat) (ops : List Operation) (s : Session) :
    (∀ frame q, Agree (Resting .anything .terminated)
      (executeWithin depth frame q) (loopless depth frame q)) ∧
    ∃ l, Course.life (executeWithin depth) ops s = some l ∧
      Lifelong depth l ∧
      ∀ k : Conduct, ¬ k.asks .run → s.Keeps k →
        (∀ op ∈ ops, op.Keeps k) →
        (∀ frame q, frame.Keeps k → q.Keeps k → ∀ p, Agree (Resting k p)
          (executeWithin depth frame q) (loopless depth frame q)) ∧
        ∀ e ∈ l, e.Alone depth := by
  constructor
  · intro frame q
    exact loopless_rests (.inl rfl) depth frame q
      (fun a _ => a.keeps_anything) q.keeps_anything
  · obtain ⟨l, h⟩ := life_returns depth ops s
    refine ⟨l, h, life_lifelong h, ?_⟩
    intro k hk hs hops
    constructor
    · intro frame q hf hq p
      exact loopless_rests (.inr hk) depth frame q hf hq
    · exact life_alone hk hs hops h

/-- Code that asks for anything but a session. -/
def sessionless : Conduct where
  asks r := r ≠ .run
  raises _ := True
  hears _ := True
  plain _ := trivial
  causes _ _ := trivial

/-- A shell whose code asks for no session is run twice: a command
    interrupts the first run, and there is no second. -/
theorem life_ends_interrupted :
    ∃ s l, start (executeWithin 1) interruptedPlan
        (.bare default default default) = some (.ok (), s) ∧
      Course.life (executeWithin 3) [.run, .run] s = some l ∧
      Lifelong 3 l ∧ ∀ e ∈ l, e.Alone 3 := by
  have hplan : interruptedPlan.Keeps sessionless := by
    refine ⟨BaseShell.keeps_derived ?_ ?_, fun _ _ => trivial, nofun, nofun⟩
    · rintro r hr _ rfl
      cases hr
    · intro entry h
      simp only [List.mem_cons, List.not_mem_nil, or_false] at h
      rcases h with rfl | rfl | rfl <;> exact fun _ => trivial
  obtain ⟨s, hstart, _⟩ := interruptedPlan_starts
  have hreached : s.Reached sessionless := .of_start hplan hstart
  obtain ⟨_, l, hl, hlife, halone⟩ := life_ends 3 [.run, .run] s
  have hops : ∀ op ∈ [Operation.run, .run], op.Keeps sessionless := by
    intro op hop
    simp only [List.mem_cons, List.not_mem_nil, or_self, or_false] at hop
    rw [hop]
    trivial
  exact ⟨s, l, hstart, hl, hlife,
    (halone sessionless (fun h => h rfl) hreached.keeps hops).2⟩

/-- A shell with a command that runs it once more. -/
def nestedPlan : ShellPlan :=
  { interruptedPlan with
    shellClass := ⟨1, "Nested", .ofList
      [("do_again", BaseShell.member [] true none fun _ => .answer .run),
        ("outro", BaseShell.member [] false none fun _ =>
          .answer (.trace (.text "bye")))], [BaseShell.shellClass]⟩
    reader := some ⟨.script [.line "again", .line "quit"] false, none, 0,
      []⟩ }

/-- Whether a session is done with well although the shell was over on the
    way, and how often it said goodbye. -/
def leavesTwice (s : Session) : Bool :=
  match Course.operate (executeWithin 6) .run s with
  | some ((.ok _, s'), deeds) =>
      (!deeds.Pairwise fun d e =>
        d.left.phase = .terminated → e.left.phase = .terminated) &&
      s'.trace.map Value.asText? == [some "bye", some "bye"]
  | _ => false

/-- The session that the command runs ends the shell; the one around it
    does not stay over, but says goodbye once more. -/
theorem life_ends_nested :
    ∃ s v s' deeds, start (executeWithin 1) nestedPlan
        (.bare default default default) = some (.ok (), s) ∧
      Course.operate (executeWithin 6) .run s =
        some ((.ok v, s'), deeds) ∧
      (¬ deeds.Pairwise fun d e =>
        d.left.phase = .terminated → e.left.phase = .terminated) ∧
      s'.trace.map Value.asText? = [some "bye", some "bye"] := by
  have htwice : (start (executeWithin 1) nestedPlan
      (.bare default default default)).any
        (fun result => leavesTwice result.2) = true := by
    decide +kernel
  obtain ⟨s, hstart⟩ : ∃ s, start (executeWithin 1) nestedPlan
      (.bare default default default) = some (.ok (), s) := ⟨_, rfl⟩
  rw [hstart, Option.any_some, leavesTwice] at htwice
  split at htwice
  · rename_i v s' deeds hrun
    obtain ⟨hphase, htrace⟩ := Bool.and_eq_true_iff.mp htwice
    exact ⟨s, v, s', deeds, hstart, hrun, by simpa using hphase,
      beq_iff_eq.mp htrace⟩
  · cases htwice

end Run

end LineShell
