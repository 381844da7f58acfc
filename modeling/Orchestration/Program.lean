/-!
# Programs over calls

The engine computes by asking its collaborators: it reads a run, publishes a message, looks at the
clock. A program is the tree of what it asks. A leaf holds its result, and a node holds a call with
the program that goes on from each answer. The tree says nothing about how a call is answered, so
the same program can be run against tables in memory, against a scripted server, or one call at a
time next to other programs.

`Program.run` carries a state through the tree. A program followed by another runs as the one and
then the other (`run_bind`).
-/

namespace Orchestration

/-- A program that makes calls of one kind and ends with a result. -/
inductive Program {Call : Type} (Answer : Call → Type) (α : Type) where
  /-- The program has come to its end. -/
  | done (result : α)
  /-- The program makes a call and goes on with the answer. -/
  | call (c : Call) (next : Answer c → Program Answer α)

namespace Program

variable {Call : Type} {Answer : Call → Type} {α β γ σ : Type}

/-- Goes on with the result of a program. -/
def bind : Program Answer α → (α → Program Answer β) → Program Answer β
  | .done a, k => k a
  | .call c next, k => .call c fun answer => (next answer).bind k

instance : Monad (Program Answer) where
  pure := .done
  bind := bind

/-- Makes one call; its answer is the result. -/
def ask (c : Call) : Program Answer (Answer c) := .call c .done

@[simp] theorem pure_eq (a : α) : (pure a : Program Answer α) = .done a := rfl

@[simp] theorem done_bind (a : α) (k : α → Program Answer β) : (.done a >>= k) = k a := rfl

@[simp] theorem call_bind (c : Call) (next : Answer c → Program Answer α)
    (k : α → Program Answer β) :
    (.call c next >>= k) = .call c fun answer => next answer >>= k := rfl

theorem bind_done (p : Program Answer α) : (p >>= .done) = p := by
  induction p with
  | done a => rfl
  | call c next ih => simp [ih]

theorem bind_bind (p : Program Answer α) (f : α → Program Answer β) (g : β → Program Answer γ) :
    (p >>= f) >>= g = p >>= fun a => f a >>= g := by
  induction p with
  | done a => rfl
  | call c next ih => simp [ih]

instance : LawfulMonad (Program Answer) :=
  .mk' (Program Answer) bind_done (fun _ _ => rfl) bind_bind

/-- What a program comes to with so many calls at most, if that is enough. -/
def cut : Nat → Program Answer α → Program Answer (Option α)
  | _, .done a => .done (some a)
  | 0, .call _ _ => .done none
  | n + 1, .call c next => .call c fun answer => (next answer).cut n

/-! ## Running -/

/-- Runs a program from a state, by a rule that answers calls. -/
def run (answer : (c : Call) → σ → Answer c × σ) : Program Answer α → σ → α × σ
  | .done a, s => (a, s)
  | .call c next, s =>
    let (reply, s) := answer c s
    (next reply).run answer s

variable (answer : (c : Call) → σ → Answer c × σ)

@[simp] theorem run_done (a : α) (s : σ) : (Program.done a).run answer s = (a, s) := rfl

@[simp] theorem run_call (c : Call) (next : Answer c → Program Answer α) (s : σ) :
    (Program.call c next).run answer s = (next (answer c s).1).run answer (answer c s).2 := rfl

@[simp] theorem run_ask (c : Call) (s : σ) : (ask c).run answer s = answer c s := rfl

theorem run_bind (p : Program Answer α) (k : α → Program Answer β) (s : σ) :
    (p >>= k).run answer s = (k (p.run answer s).1).run answer (p.run answer s).2 := by
  induction p generalizing s with
  | done a => rfl
  | call c next ih => simp [ih]

end Program

end Orchestration
