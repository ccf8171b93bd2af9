/-!
# Programs that call an environment

Whatever has to ask another party (the ledger, a store, the far end of a stream) is written as a
`Program`: a tree that either is done with a value or asks one call and goes on with the reply.  An
`Interface` lists the calls and the type of the reply to each.

A program says nothing about who answers.  `run` answers every call with a handler that carries a
state along, so one program can be run against an undisturbed ledger, against one that other writers
change between two calls, or against one that fails at chosen calls.  `run?` is the same with a
handler that may have no answer, in which case the program waits.
-/

namespace CardHolds

/-- The calls that a program may make, and the type of the reply to each. -/
structure Interface where
  Call : Type
  Reply : Call → Type

/-- A finite tree of calls. -/
inductive Program (I : Interface) (α : Type) where
  | done (value : α)
  | ask (call : I.Call) (next : I.Reply call → Program I α)

namespace Program

variable {I J : Interface} {α β γ σ : Type}

/-- Goes on with `f` where the program is done. -/
def bind : Program I α → (α → Program I β) → Program I β
  | done a, f => f a
  | ask c next, f => ask c fun r => (next r).bind f

instance : Monad (Program I) where
  pure := done
  bind := bind

@[simp] theorem pure_eq (a : α) : (pure a : Program I α) = done a := rfl
@[simp] theorem bind_eq (p : Program I α) (f : α → Program I β) : p >>= f = p.bind f := rfl
@[simp] theorem bind_done (a : α) (f : α → Program I β) : (done a).bind f = f a := rfl
@[simp] theorem bind_ask (c : I.Call) (next : I.Reply c → Program I α) (f : α → Program I β) :
    (ask c next).bind f = ask c fun r => (next r).bind f := rfl

/-- Makes the calls of one interface through another. -/
def embed (call : I.Call → J.Call) (reply : ∀ c, J.Reply (call c) → I.Reply c) :
    Program I α → Program J α
  | done a => done a
  | ask c next => ask (call c) fun r => (next (reply c r)).embed call reply

/-- Answers the calls of a program one after the other. -/
def run (answer : (c : I.Call) → σ → I.Reply c × σ) : Program I α → σ → α × σ
  | done a, s => (a, s)
  | ask c next, s => (next (answer c s).1).run answer (answer c s).2

@[simp] theorem run_done (answer : (c : I.Call) → σ → I.Reply c × σ) (a : α) (s : σ) :
    (done a).run answer s = (a, s) := rfl

@[simp] theorem run_ask (answer : (c : I.Call) → σ → I.Reply c × σ) (c : I.Call)
    (next : I.Reply c → Program I α) (s : σ) :
    (ask c next).run answer s = (next (answer c s).1).run answer (answer c s).2 := rfl

@[simp] theorem run_bind (answer : (c : I.Call) → σ → I.Reply c × σ) (p : Program I α)
    (f : α → Program I β) (s : σ) :
    (p.bind f).run answer s = (f (p.run answer s).1).run answer (p.run answer s).2 := by
  induction p generalizing s with
  | done a => rfl
  | ask c next ih => rw [bind_ask, run_ask, run_ask, ih]

/-- Running an embedded program answers its calls by way of the larger interface. -/
theorem run_embed (answer : (c : J.Call) → σ → J.Reply c × σ) (call : I.Call → J.Call)
    (reply : ∀ c, J.Reply (call c) → I.Reply c) (p : Program I α) (s : σ) :
    (p.embed call reply).run answer s =
      p.run (fun c s => (reply c (answer (call c) s).1, (answer (call c) s).2)) s := by
  induction p generalizing s with
  | done a => rfl
  | ask c next ih => rw [embed, run_ask, run_ask, ih]

/-- Answers the calls of a program as long as the handler has an answer. -/
def run? (answer : (c : I.Call) → σ → Option (I.Reply c × σ)) : Program I α → σ → Option (α × σ)
  | done a, s => some (a, s)
  | ask c next, s =>
    match answer c s with
    | some (r, s') => (next r).run? answer s'
    | none => none

end Program

end CardHolds
