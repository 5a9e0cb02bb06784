import LineShell.Proofs.Session.Deeds
import LineShell.Proofs.Session.Erasure
import LineShell.Proofs.Session.Settlement

/-! # Session ends — in which ways a session ends, and what it does once

    A session that is not over greets, converses and takes leave, and every
    part begins only when the one before it has ended well.  So there are
    few ways in which it can end (`Visit`), and few in which taking leave
    can (`Leave`); in each of them it is known what was done, in order.

    The moves from phase to phase and writing the history are done by the
    session itself (`Framing`): none is done in the greeting, for a line or
    in saying goodbye.  So each is done once at most, and nothing is done
    after the move to the end (`EndsLast`). -/

namespace LineShell

/-- Is it writing the history? -/
def Doing.isPersist : Doing → Bool
  | .persist => true
  | _ => false

/-- Is it a move to another phase, or writing the history? -/
def Doing.isOwn : Doing → Bool
  | .persist => true
  | .moved _ => true
  | _ => false

/-- Is it beginning to say goodbye? -/
def Doing.isFarewell : Doing → Bool
  | .moved .quitting => true
  | _ => false

/-- Is it ending the session? -/
def Doing.isEnd : Doing → Bool
  | .moved .terminated => true
  | _ => false

/-- The session in a phase. -/
def Session.movedTo (s : Session) (p : Phase) : Session :=
  { s with phase := p }

/-- Something that was done without a fault. -/
def Deed.well (doing : Doing) (left : Session) : Deed :=
  ⟨doing, none, left⟩

section Ends

variable (execute : Executor)

/-- The ways in which taking leave ends: with the first of its parts that
    fails, or with the last. -/
inductive Leave (s : Session) :
    List Deed → Except Fault Unit → Session → Prop where
  | unsaid (f : Fault) (said : List Deed) (s' : Session)
      (hs : Course.sayAt execute .outro (s.movedTo .quitting) =
        some ((.error f, s'), said)) :
      Leave s (.well (.moved .quitting) (s.movedTo .quitting) :: said)
        (.error f) s'
  | unwritten (f : Fault) (said : List Deed) (s₁ s' : Session)
      (hs : Course.sayAt execute .outro (s.movedTo .quitting) =
        some ((.ok (), s₁), said))
      (hp : Run.persist s₁ = some (.error f, s')) :
      Leave s (.well (.moved .quitting) (s.movedTo .quitting) ::
        said ++ [⟨.persist, some f, s'⟩]) (.error f) s'
  | left (said : List Deed) (s₁ s₂ : Session)
      (hs : Course.sayAt execute .outro (s.movedTo .quitting) =
        some ((.ok (), s₁), said))
      (hp : Run.persist s₁ = some (.ok (), s₂)) :
      Leave s (.well (.moved .quitting) (s.movedTo .quitting) ::
        said ++ [.well .persist s₂,
          .well (.moved .terminated) (s₂.movedTo .terminated)])
        (.ok ()) (s₂.movedTo .terminated)

/-- The ways in which a session ends: it is over already, or one of its
    parts is the last. -/
inductive Visit (s : Session) :
    List Deed → Except Fault Unit → Session → Prop where
  | past (h : s.phase = .terminated) :
      Visit s [] (.ok ()) (s.recorded [.runAfterEnd s.identity.className])
  | ungreeted (h : s.phase ≠ .terminated) (f : Fault)
      (greeting : List Deed) (s' : Session)
      (hg : Course.sayAt execute .intro s.begun =
        some ((.error f, s'), greeting)) :
      Visit s (.well (.moved .running) s.begun :: greeting) (.error f) s'
  | broken (h : s.phase ≠ .terminated) (f : Fault)
      (greeting talk : List Deed) (s₁ s' : Session)
      (hg : Course.sayAt execute .intro s.begun =
        some ((.ok (), s₁), greeting))
      (ht : Course.conversation execute s₁ = some ((.error f, s'), talk)) :
      Visit s (.well (.moved .running) s.begun :: (greeting ++ talk))
        (.error f) s'
  | leaving (h : s.phase ≠ .terminated) (greeting talk leave : List Deed)
      (s₁ s₂ s' : Session) (r : Except Fault Unit)
      (hg : Course.sayAt execute .intro s.begun =
        some ((.ok (), s₁), greeting))
      (ht : Course.conversation execute s₁ = some ((.ok (), s₂), talk))
      (hl : Course.takeLeave execute s₂ = some ((r, s'), leave)) :
      Visit s (.well (.moved .running) s.begun ::
        (greeting ++ (talk ++ leave))) r s'

end Ends

namespace Course

variable {execute : Executor} {s s' : Session} {deeds : List Deed}
variable {r : Except Fault Unit}

/-- Taking leave ends in one of the ways in which it can. -/
theorem of_takeLeave
    (h : takeLeave execute s = some ((r, s'), deeds)) :
    Leave execute s deeds r s' := by
  rcases of_bind h with ⟨f, rfl, hm⟩ | ⟨_, s₀, _, rest, hm, h₁, rfl⟩
  · cases (of_watch hm).1
  obtain ⟨hm, rfl⟩ := of_watch hm
  cases hm
  rcases of_bind h₁ with ⟨f, rfl, hs⟩ | ⟨_, s₁, said, rest, hs, h₂, rfl⟩
  · exact .unsaid f _ s' hs
  rcases of_bind h₂ with ⟨f, rfl, hp⟩ | ⟨_, s₂, _, rest, hp, h₃, rfl⟩
  · obtain ⟨hwrite, rfl⟩ := of_watch hp
    exact .unwritten f said s₁ s' hs hwrite
  · obtain ⟨hwrite, rfl⟩ := of_watch hp
    obtain ⟨ht, rfl⟩ := of_watch h₃
    cases ht
    exact .left said s₁ s₂ hs hwrite

/-- A session ends in one of the ways in which it can. -/
theorem of_session (h : session execute s = some ((r, s'), deeds)) :
    Visit execute s deeds r s' := by
  rcases of_bind h with ⟨f, rfl, hget⟩ | ⟨_, s₀, _, rest, hget, h₀, rfl⟩
  · cases (of_own hget).1
  obtain ⟨hget, rfl⟩ := of_own hget
  cases hget
  by_cases hp : s.phase = .terminated
  · have hover : (s.phase == .terminated) = true := beq_iff_eq.mpr hp
    rw [if_pos hover] at h₀
    obtain ⟨hr, rfl⟩ := of_own h₀
    cases hr
    exact .past hp
  · have hopen : ¬ (s.phase == .terminated) = true :=
      fun hb => hp (beq_iff_eq.mp hb)
    rw [if_neg hopen] at h₀
    rcases of_bind h₀ with ⟨f, rfl, hm⟩ | ⟨_, s₁, _, rest, hm, h₁, rfl⟩
    · cases (of_watch hm).1
    obtain ⟨hm, rfl⟩ := of_watch hm
    cases hm
    rcases of_bind h₁ with
      ⟨f, rfl, hg⟩ | ⟨_, s₁, greeting, rest, hg, h₂, rfl⟩
    · exact .ungreeted hp f _ s' hg
    rcases of_bind h₂ with ⟨f, rfl, ht⟩ | ⟨_, s₂, talk, leave, ht, hl, rfl⟩
    · exact .broken hp f greeting _ s₁ s' hg ht
    · exact .leaving hp greeting talk leave s₁ s₂ s' r hg ht hl

/-- A conversation ends as its turns do, but for an interrupt, which is
    recorded. -/
theorem of_conversation
    (h : conversation execute s = some ((r, s'), deeds)) :
    ∃ result s₁, turnsUnlessStopped execute s =
        some ((result, s₁), deeds) ∧
      ((∃ text, result = .error (.interrupt text) ∧ r = .ok () ∧
          s' = s₁.recorded [.interrupted]) ∨
        (∀ text, result ≠ .error (.interrupt text)) ∧ r = result ∧
          s' = s₁) := by
  obtain ⟨result, s₁, first, rest, ht, hnext, rfl⟩ := of_attempt_bind h
  cases result with
  | ok u =>
      obtain ⟨hr, rfl⟩ := of_own hnext
      cases hr
      rw [List.append_nil]
      exact ⟨_, s', ht, Or.inr ⟨nofun, rfl, rfl⟩⟩
  | error f =>
      by_cases hf : ∃ text, f = .interrupt text
      · obtain ⟨text, rfl⟩ := hf
        obtain ⟨hr, rfl⟩ := of_own hnext
        cases hr
        rw [List.append_nil]
        exact ⟨_, s₁, ht, Or.inl ⟨text, rfl, rfl, rfl⟩⟩
      · have hthrow : own (throw f : Run Unit) s₁ =
            some ((r, s'), rest) := by
          cases f with
          | interrupt text => exact absurd ⟨text, rfl⟩ hf
          | _ => exact hnext
        obtain ⟨hr, rfl⟩ := of_own hthrow
        cases hr
        rw [List.append_nil]
        refine ⟨_, s', ht, Or.inr ⟨?_, rfl, rfl⟩⟩
        rintro text heq
        cases heq
        exact hf ⟨text, rfl⟩

/-! ## What is done where -/

/-- Nothing of a kind is done where only other things are. -/
theorem countP_of_does {P : Doing → Prop} {p : Doing → Bool}
    (h : ∀ d ∈ deeds, P d.doing) (hp : ∀ doing, P doing → p doing = false) :
    deeds.countP (fun d => p d.doing) = 0 := by
  refine List.countP_eq_zero.mpr ?_
  intro d hd
  rw [hp d.doing (h d hd)]
  exact Bool.false_ne_true

end Course

/-- A kind of things that a session does itself: neither for what it says
    nor for a line. -/
structure Framing (p : Doing → Bool) : Prop where
  stage : ∀ stage doing, Course.ForStage stage doing → p doing = false
  turn : ∀ doing, Course.ForTurn doing → p doing = false

namespace Framing

variable {execute : Executor} {s s' : Session} {deeds : List Deed}
variable {r : Except Fault Unit} {p q : Doing → Bool}

theorem own : Framing Doing.isOwn := by
  constructor
  · intro stage doing h
    cases h <;> rfl
  · intro doing h
    cases h with
    | line line h => cases h <;> rfl
    | _ => rfl

/-- Some of the things of such a kind. -/
theorem mono (hp : Framing p) (h : ∀ doing, q doing = true → p doing = true) :
    Framing q := by
  have hfalse : ∀ doing, p doing = false → q doing = false := by
    intro doing hd
    cases hq : q doing with
    | false => rfl
    | true => cases (h doing hq).symm.trans hd
  constructor
  · exact fun stage doing hd => hfalse doing (hp.stage stage doing hd)
  · exact fun doing hd => hfalse doing (hp.turn doing hd)

theorem persist : Framing Doing.isPersist :=
  own.mono fun doing h => by
    cases doing <;> first | rfl | cases h

theorem farewell : Framing Doing.isFarewell :=
  own.mono fun doing h => by
    cases doing <;> first | rfl | cases h

theorem ending : Framing Doing.isEnd :=
  own.mono fun doing h => by
    cases doing <;> first | rfl | cases h

theorem said (hp : Framing p) {stage : Stage}
    (h : Course.sayAt execute stage s = some ((r, s'), deeds)) :
    deeds.countP (fun d => p d.doing) = 0 :=
  Course.countP_of_does (Course.sayAt_does stage _ _ _ _ h) (hp.stage stage)

theorem talked (hp : Framing p)
    (h : Course.conversation execute s = some ((r, s'), deeds)) :
    deeds.countP (fun d => p d.doing) = 0 :=
  Course.countP_of_does (Course.conversation_does _ _ _ _ h) hp.turn

end Framing

/-- Nothing is done after the end. -/
def EndsLast (deeds : List Deed) : Prop :=
  deeds.Pairwise fun d _ => d.doing.isEnd = false

section Ends

variable {execute : Executor} {s s' : Session} {deeds rest : List Deed}
variable {d : Deed} {r : Except Fault Unit} {p : Doing → Bool}

theorem isEnd_of_countP (h : deeds.countP (fun d => d.doing.isEnd) = 0)
    (hd : d ∈ deeds) : d.doing.isEnd = false :=
  Bool.eq_false_iff.mpr (List.countP_eq_zero.mp h d hd)

theorem EndsLast.of_none (h : deeds.countP (fun d => d.doing.isEnd) = 0) :
    EndsLast deeds := by
  refine List.Pairwise.imp_of_mem ?_ (List.pairwise_of_forall fun _ _ => trivial)
  intro d e hd _ _
  exact isEnd_of_countP h hd

theorem EndsLast.append (h : deeds.countP (fun d => d.doing.isEnd) = 0)
    (hr : EndsLast rest) : EndsLast (deeds ++ rest) := by
  refine List.pairwise_append.mpr ⟨EndsLast.of_none h, hr, ?_⟩
  intro d hd _ _
  exact isEnd_of_countP h hd

/-- What is said after something that is no end holds no end. -/
theorem countP_opened {stage : Stage} (hd : d.doing.isEnd = false)
    (h : Course.sayAt execute stage s = some ((r, s'), deeds)) :
    (d :: deeds).countP (fun d => d.doing.isEnd) = 0 := by
  have hskip := List.countP_cons_of_neg
    (p := fun d : Deed => d.doing.isEnd) (l := deeds)
    (ne_true_of_eq_false hd)
  rw [hskip]
  exact Framing.ending.said h

namespace Leave

/-- What a session does itself when it takes leave is at most this. -/
theorem countP_le (h : Leave execute s deeds r s') (hp : Framing p) :
    deeds.countP (fun d => p d.doing) ≤
      [Doing.moved .quitting, .persist, .moved .terminated].countP p := by
  cases h with
  | unsaid f said _ hs =>
      simp only [List.countP_cons, List.countP_nil, hp.said hs, Deed.well]
      omega
  | unwritten f said s₁ _ hs _ =>
      simp only [List.cons_append, List.countP_cons, List.countP_append,
        List.countP_nil, hp.said hs, Deed.well]
      omega
  | left said s₁ s₂ hs _ =>
      simp only [List.cons_append, List.countP_cons, List.countP_append,
        List.countP_nil, hp.said hs, Deed.well]
      omega

/-- If it ends well it is all of it, and the session is over. -/
theorem ended (h : Leave execute s deeds (.ok ()) s') :
    s'.phase = .terminated ∧ ∀ p, Framing p →
      deeds.countP (fun d => p d.doing) =
        [Doing.moved .quitting, .persist, .moved .terminated].countP p := by
  cases h with
  | left said s₁ s₂ hs _ =>
      refine ⟨rfl, fun p hp => ?_⟩
      simp only [List.cons_append, List.countP_cons, List.countP_append,
        List.countP_nil, hp.said hs, Deed.well]
      omega

theorem endsLast (h : Leave execute s deeds r s') : EndsLast deeds := by
  cases h with
  | unsaid f said _ hs => exact EndsLast.of_none (countP_opened rfl hs)
  | unwritten f said s₁ _ hs _ =>
      exact EndsLast.append (countP_opened rfl hs)
        (List.pairwise_singleton _ _)
  | left said s₁ s₂ hs _ =>
      exact EndsLast.append (countP_opened rfl hs)
        (List.pairwise_pair.mpr rfl)

/-- Only a leave that ends well comes to the end. -/
theorem ok_of_end (h : Leave execute s deeds r s') (hd : d ∈ deeds)
    (hend : d.doing.isEnd = true) : r = .ok () := by
  cases h with
  | unsaid f said _ hs =>
      cases (isEnd_of_countP (countP_opened rfl hs) hd).symm.trans hend
  | unwritten f said s₁ _ hs _ =>
      rcases List.mem_append.mp hd with hd | hd
      · cases (isEnd_of_countP (countP_opened rfl hs) hd).symm.trans hend
      · obtain rfl := List.mem_singleton.mp hd
        cases hend
  | left => rfl

end Leave

namespace Visit

/-- What a session does itself is at most this. -/
theorem countP_le (h : Visit execute s deeds r s') (hp : Framing p) :
    deeds.countP (fun d => p d.doing) ≤
      [Doing.moved .running, .moved .quitting, .persist,
        .moved .terminated].countP p := by
  cases h with
  | past => exact Nat.zero_le _
  | ungreeted _ f greeting _ hg =>
      simp only [List.countP_cons, List.countP_nil, hp.said hg, Deed.well]
      omega
  | broken _ f greeting talk s₁ _ hg ht =>
      simp only [List.countP_cons, List.countP_append, List.countP_nil,
        hp.said hg, hp.talked ht, Deed.well]
      omega
  | leaving _ greeting talk leave s₁ s₂ _ _ hg ht hl =>
      have hleave := (Course.of_takeLeave hl).countP_le hp
      simp only [List.countP_cons, List.countP_append, List.countP_nil,
        hp.said hg, hp.talked ht, Deed.well] at hleave ⊢
      omega

/-- A session that ends well is over. -/
theorem ended (h : Visit execute s deeds (.ok ()) s') :
    s'.phase = .terminated := by
  cases h with
  | past hp => exact hp
  | leaving _ _ _ _ _ _ _ _ _ _ hl => exact (Course.of_takeLeave hl).ended.1

/-- One that was not over before comes to its end. -/
theorem end_mem (h : Visit execute s deeds (.ok ()) s')
    (hp : s.phase ≠ .terminated) :
    ∃ d ∈ deeds, d.doing.isEnd = true := by
  cases h with
  | past hover => exact absurd hover hp
  | leaving _ greeting talk leave _ _ _ _ _ _ hl =>
      have hcount := (Course.of_takeLeave hl).ended.2 _ Framing.ending
      obtain ⟨d, hd, hend⟩ :=
        List.countP_pos_iff.mp (Nat.lt_of_lt_of_eq Nat.one_pos hcount.symm)
      exact ⟨d, List.mem_cons_of_mem _ (List.mem_append_right _
        (List.mem_append_right _ hd)), hend⟩

theorem endsLast (h : Visit execute s deeds r s') : EndsLast deeds := by
  -- no part but the last, taking leave, holds an end
  cases h with
  | past => exact .nil
  | ungreeted _ f greeting _ hg => exact EndsLast.of_none (countP_opened rfl hg)
  | broken _ f greeting talk s₁ _ hg ht =>
      exact EndsLast.append (countP_opened rfl hg)
        (EndsLast.of_none (Framing.ending.talked ht))
  | leaving _ greeting talk leave s₁ s₂ _ _ hg ht hl =>
      exact EndsLast.append (countP_opened rfl hg)
        (EndsLast.append (Framing.ending.talked ht)
          (Course.of_takeLeave hl).endsLast)

/-- Only a session that ends well comes to the end. -/
theorem ok_of_end (h : Visit execute s deeds r s') (hd : d ∈ deeds)
    (hend : d.doing.isEnd = true) : r = .ok () := by
  have hnot : ∀ {l : List Deed}, l.countP (fun d => d.doing.isEnd) = 0 →
      d ∉ l := fun hl hmem =>
    Bool.false_ne_true ((isEnd_of_countP hl hmem).symm.trans hend)
  cases h with
  | past => cases hd
  | ungreeted _ f greeting _ hg =>
      exact absurd hd (hnot (countP_opened rfl hg))
  | broken _ f greeting talk s₁ _ hg ht =>
      rw [← List.cons_append] at hd
      rcases List.mem_append.mp hd with hd | hd
      · exact absurd hd (hnot (countP_opened rfl hg))
      · exact absurd hd (hnot (Framing.ending.talked ht))
  | leaving _ greeting talk leave s₁ s₂ _ _ hg ht hl =>
      rw [← List.cons_append] at hd
      rcases List.mem_append.mp hd with hd | hd
      · exact absurd hd (hnot (countP_opened rfl hg))
      rcases List.mem_append.mp hd with hd | hd
      · exact absurd hd (hnot (Framing.ending.talked ht))
      · exact (Course.of_takeLeave hl).ok_of_end hd hend

end Visit

end Ends

end LineShell
