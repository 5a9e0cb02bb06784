import LineShell.Proofs.Session.Scope
import LineShell.Proofs.Session.SessionEnds

/-! # Rest — where no loop runs, the phase stays

    Only sessions move from phase to phase.  So a run in which no session
    is run leaves the phase as it is; and where the shell is over, code may
    ask for sessions as well, for all that they do is to record it.

    That no session is run is a property of executors: `Run.loopless`
    answers a request for a session as in a shell that is over, to any
    depth.  Code that asks for no session, and any code where the shell is
    over, comes to what it comes to with that executor
    (`Run.loopless_rests`). -/

namespace LineShell

variable {k : Conduct} {p : Phase}

/-- The relation of a session in a phase to itself. -/
def Resting (k : Conduct) (p : Phase) (s t : Session) : Prop :=
  s = t ∧ s.Keeps k ∧ s.phase = p

/-- Where code asks for no session, and where there is none to ask for. -/
def Conduct.RestsIn (k : Conduct) (p : Phase) : Prop :=
  p = .terminated ∨ ¬ k.asks .run

namespace Run

/-! ## Executing without sessions -/

/-- What a session that is over does for a request to be run. -/
def decline : Run Value := do
  record [.runAfterEnd (← get).identity.className]
  pure .null

/-- Replies to code whose requests for sessions are declined. -/
def Replies.loopless (execute : Executor) (frame : Frame) : Replies where
  request
    | .run => withShell Request.run.shellMember? decline
    | r => answer execute frame r
  prompt := answerPromptCode execute

/-- Executes programs without running sessions. -/
def loopless : Nat → Executor
  | 0 => fun _ _ => throw tooDeep
  | depth + 1 => fun frame p =>
      performBy (.loopless (loopless depth) frame) p

/-! ## Steps that rest -/

theorem bond_resting : Bond.Free k (Resting k p) where
  core := by
    rintro s _ ⟨rfl, _⟩
    rfl
  keeps h := h.2.1
  update := by
    rintro s _ f hf ⟨rfl, hs, hp⟩
    exact ⟨rfl, hf.keeps s hs, (hf.phase s).trans hp⟩
  amended := by
    rintro s _ name change ⟨rfl, hs, hp⟩
    exact ⟨rfl, { hs with }, hp⟩
  env := by
    rintro s _ env ⟨rfl, hs, hp⟩
    exact ⟨rfl, { hs with }, hp⟩

theorem recalls_resting {r : Request} : Recalls (Resting k p) r :=
  .of_memory (by rintro s _ ⟨rfl, _⟩; rfl) r

/-- What a step comes to in a resting session, another comes to that agrees
    with it, and the session rests. -/
theorem Agree.rests {α : Type} {step₁ step₂ : Run α} {s s' : Session}
    {r : Except Fault α} (h : Agree (Resting k p) step₁ step₂)
    (hs : s.Keeps k) (hp : s.phase = p) (he : step₁ s = some (r, s')) :
    step₂ s = some (r, s') ∧ s'.Keeps k ∧ s'.phase = p := by
  obtain ⟨_, hstep, rfl, hs', hp'⟩ := h s s ⟨rfl, hs, hp⟩ r s' he
  exact ⟨hstep, hs', hp'⟩

theorem registerExtension_rests {c : Class} (hc : c.Keeps k) (serial : Nat)
    (name : Option String) :
    Agree (Resting k p) (registerExtension c serial name)
      (registerExtension c serial name) := by
  rintro s _ ⟨rfl, hs, hp⟩ r s' h
  refine ⟨s', h, rfl, registerExtension_keeps hc hs h, ?_⟩
  obtain ⟨_, _, _, rfl⟩ := registerExtension_frame h
  exact hp

variable {x y : Executor} {frame : Frame}

/-- Only a request for a session depends on whether sessions are run. -/
theorem answer_rests (ha : Accord k (Resting k p) x y) (hf : frame.Keeps k)
    {r : Request} (hr : r ≠ .run) :
    Agree (Resting k p) (answer x frame r) (answer y frame r) := by
  cases hregister : r.isRegistering with
  | false =>
      exact answer_agree_free bond_resting ha hf recalls_resting hregister
        fun h => absurd h hr
  | true =>
      refine withShell_agree bond_resting.toBond ?_ _
      cases r with
      | register className name twice =>
          refine register_agree (V := Class.Keeps k) (W := Whatever)
            bond_resting.toBond ?_ (fun _ _ _ => trivial) ?_ ?_
          · intro s t hst c hc
            exact hst.2.1.catalogue _ c hc
          · rintro s _ ⟨rfl, hs, hp⟩ n s' h
            cases h
            exact ⟨_, rfl, rfl, { hs with }, hp⟩
          · intro c serial hc _
            exact registerExtension_rests hc serial name
      | block name =>
          rintro s _ ⟨rfl, hs, hp⟩ v s' h
          cases h
          exact ⟨_, rfl, rfl, { hs with
            extensions := Extensions.Keeps.block hs.extensions name }, hp⟩
      | report =>
          rintro s _ ⟨rfl, hs, hp⟩ v s' h
          cases h
          exact ⟨_, rfl, rfl, hs, hp⟩
      | _ => cases hregister

/-- A session that is over is declined. -/
theorem declined_rests :
    Agree (Resting k .terminated)
      (do
        session x
        pure .null)
      decline := by
  rintro s _ ⟨rfl, hs, hp⟩ r s' h
  have hrecord : session x s =
      some (.ok (), s.recorded [.runAfterEnd s.identity.className]) :=
    session_over hp
  rw [bind_ok hrecord] at h
  cases h
  exact ⟨_, rfl, rfl, { hs with }, hp⟩

/-- Sessions that are over are, whatever executes their code. -/
theorem over_rests :
    Agree (Resting k .terminated) (session x) (session y) := by
  rintro s _ ⟨rfl, hs, hp⟩ r s' h
  rw [session_over hp] at h
  cases h
  exact ⟨_, session_over hp, rfl, { hs with }, hp⟩

theorem accord_resting
    (hc : ∀ frame q, frame.Keeps k → q.Keeps k →
      Agree (Resting k p) (x frame q) (y frame q)) :
    Accord k (Resting k p) x y := by
  refine .of_passing bond_resting.toBond hc (.of_same ?_)
  rintro s _ ⟨rfl, _⟩
  rfl

/-- Code that asks for no session, and any code where the shell is over,
    does what it does without sessions, and leaves the phase alone. -/
theorem loopless_rests (hk : k.RestsIn p) (depth : Nat) (frame : Frame)
    (q : Program) (hf : frame.Keeps k) (hq : q.Keeps k) :
    Agree (Resting k p) (executeWithin depth frame q)
      (loopless depth frame q) := by
  -- what code calls in turn is executed one call less deep
  induction depth generalizing frame q with
  | zero => exact .throw _
  | succ depth ih =>
      have hb : Bond k (Resting k p) := bond_resting.toBond
      have ha := accord_resting ih
      refine perform_agree hb (executeWithin_keeps depth) ha hf ?_ hq
      intro r hr
      have hother := fun h => answer_rests ha hf (r := r) h
      cases r with
      | run =>
          -- the request is declined on the second side only
          rcases hk with rfl | hk
          · exact withShell_agree hb declined_rests _
          · exact absurd hr hk
      | _ => exact hother nofun

theorem loopless_accord (hk : k.RestsIn p) (depth : Nat) :
    Accord k (Resting k p) (executeWithin depth) (loopless depth) :=
  accord_resting (loopless_rests hk depth)

/-! ## Sessions whose code asks for none -/

section Sessions

variable {depth : Nat} {s s' : Session} {r : Except Fault Unit}
variable {deeds : List Deed} (hk : ¬ k.asks .run) (hs : s.Keeps k)
include hk hs

theorem sayAt_rests {stage : Stage}
    (h : Course.sayAt (executeWithin depth) stage s =
      some ((r, s'), deeds)) :
    sayAt (loopless depth) stage s = some (r, s') ∧ s'.Keeps k ∧
      s'.phase = s.phase := by
  have hrun := Course.run_eq (Course.run_sayAt _ stage) h
  exact (sayAt_agree bond_resting.toBond (loopless_accord (.inr hk) depth)
    stage).rests hs rfl hrun

theorem conversation_rests
    (h : Course.conversation (executeWithin depth) s =
      some ((r, s'), deeds)) :
    conversation (loopless depth) s = some (r, s') ∧ s'.Keeps k ∧
      s'.phase = s.phase := by
  have hrun := Course.run_eq (Course.run_conversation _) h
  exact (conversation_agree bond_resting
    (loopless_accord (.inr hk) depth)).rests hs rfl hrun

omit hk in
theorem persist_rests (h : persist s = some (r, s')) :
    s'.Keeps k ∧ s'.phase = s.phase :=
  ((Agree.persist bond_resting.toBond).rests hs rfl h).2

/-- Taking leave ends the session if it ends well, and only then. -/
theorem takeLeave_rests
    (h : Course.takeLeave (executeWithin depth) s =
      some ((r, s'), deeds)) :
    takeLeave (loopless depth) s = some (r, s') ∧ s'.Keeps k ∧
      (s'.phase = .terminated → r = .ok ()) := by
  have hquitting : (s.movedTo .quitting).Keeps k := { hs with }
  have hleave : takeLeave (loopless depth) s =
      (do
        sayAt (loopless depth) .outro
        persist
        setPhase .terminated : Run Unit) (s.movedTo .quitting) := rfl
  rw [hleave]
  cases Course.of_takeLeave h with
  | unsaid f said _ hsaid =>
      obtain ⟨hsame, hs', hp⟩ := sayAt_rests hk hquitting hsaid
      refine ⟨bind_error hsame, hs', fun hover => ?_⟩
      -- the session is still taking leave
      cases hp.symm.trans hover
  | unwritten f said s₁ _ hsaid hwrite =>
      obtain ⟨hsame, hs₁, hp⟩ := sayAt_rests hk hquitting hsaid
      obtain ⟨hs', hp'⟩ := persist_rests hs₁ hwrite
      refine ⟨?_, hs', fun hover => ?_⟩
      · rw [bind_ok hsame, bind_error hwrite]
      · cases (hp'.trans hp).symm.trans hover
  | left said s₁ s₂ hsaid hwrite =>
      obtain ⟨hsame, hs₁, _⟩ := sayAt_rests hk hquitting hsaid
      obtain ⟨hs₂, _⟩ := persist_rests hs₁ hwrite
      refine ⟨?_, { hs₂ with }, fun _ => rfl⟩
      rw [bind_ok hsame, bind_ok hwrite]
      rfl

/-- A session whose code asks for none is the only one that is run.  It is
    over if it was before, or if it ends well. -/
theorem session_rests
    (h : Course.session (executeWithin depth) s = some ((r, s'), deeds)) :
    session (loopless depth) s = some (r, s') ∧ s'.Keeps k ∧
      (s'.phase = .terminated → s.phase = .terminated ∨ r = .ok ()) := by
  have hbegun : s.begun.Keeps k := { hs with }
  cases Course.of_session h with
  | past hp =>
      refine ⟨?_, { hs with }, fun _ => Or.inl hp⟩
      rw [session_over hp]
      rfl
  | ungreeted hp f greeting _ hg =>
      obtain ⟨hsame, hs', hphase⟩ := sayAt_rests hk hbegun hg
      refine ⟨?_, hs', fun hover => ?_⟩
      · rw [session_begun hp]
        exact bind_error hsame
      -- the session is still running
      · cases hphase.symm.trans hover
  | broken hp f greeting talk s₁ _ hg ht =>
      obtain ⟨hsame, hs₁, hphase⟩ := sayAt_rests hk hbegun hg
      obtain ⟨hsame', hs', hphase'⟩ := conversation_rests hk hs₁ ht
      refine ⟨?_, hs', fun hover => ?_⟩
      · rw [session_begun hp, sessionFrom, bind_ok hsame]
        exact bind_error hsame'
      · cases (hphase'.trans hphase).symm.trans hover
  | leaving hp greeting talk leave s₁ s₂ _ _ hg ht hl =>
      obtain ⟨hsame, hs₁, _⟩ := sayAt_rests hk hbegun hg
      obtain ⟨hsame', hs₂, _⟩ := conversation_rests hk hs₁ ht
      obtain ⟨hleft, hs', hover⟩ := takeLeave_rests hk hs₂ hl
      refine ⟨?_, hs', fun h => Or.inr (hover h)⟩
      rw [session_begun hp, sessionFrom, bind_ok hsame, bind_ok hsame']
      exact hleft

end Sessions

end Run

end LineShell
