import LineShell.Request

/-! # Programs — user code as a tree of requests

    A program ends in a value or a fault, or it asks something of its
    session and goes on with the answer.  It can see faults and go on
    after them.  All of Lean stands behind the arrows, so a statement
    about every program is a statement about every piece of user code
    that acts on its session through requests only. -/

namespace LineShell

/-- What a request comes to. -/
abbrev Answer := Except Fault Value

/-- User code. -/
inductive Program where
  | done (v : Value)
  | fail (f : Fault)
  | request (r : Request) (next : Answer → Program)
  /-- Hands over a prompt that is code: a function of the shell and
      further arguments, `bound` when it carries them itself. -/
  | promptCode (use : PromptUse) (code : List Value → Program)
      (bound : Option (List Value)) (args : List Value)
      (next : Answer → Program)
  deriving Inhabited

namespace Program

/-- The program that an answer is. -/
def ofAnswer : Answer → Program
  | .ok v => done v
  | .error f => fail f

/-- Goes on with the value of a program; its faults stay. -/
def bind (p : Program) (next : Value → Program) : Program :=
  match p with
  | done v => next v
  | fail f => fail f
  | request r k => request r fun a => (k a).bind next
  | promptCode use code bound args k =>
      promptCode use code bound args fun a => (k a).bind next

/-- Asks, and goes on with the value of the answer. -/
def ask (r : Request) (next : Value → Program) : Program :=
  request r fun
    | .ok v => next v
    | .error f => fail f

/-- Asks, and ends with the answer. -/
def answer (r : Request) : Program :=
  request r ofAnswer

@[simp] theorem bind_done (v : Value) (next : Value → Program) :
    (done v).bind next = next v := rfl

@[simp] theorem bind_fail (f : Fault) (next : Value → Program) :
    (fail f).bind next = fail f := rfl

/-- Asking and going on is going on with what answering gives. -/
theorem bind_answer (r : Request) (next : Value → Program) :
    (answer r).bind next = ask r next := by
  simp only [answer, bind, ask]
  congr 1
  funext a
  cases a <;> rfl

end Program

end LineShell
