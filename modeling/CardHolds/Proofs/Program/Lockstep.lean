import CardHolds.Proofs.Program.Contract

/-!
# Programs in lockstep

Two programs are in lockstep if they make the same calls, whatever they are told, and end with related
values.  The second gets every reply through `reply`, and a pair of programs need not be in lockstep
after a reply that is not `Shown`.

Runs of two such programs pass through corresponding states, if the handlers do in each step and no
other replies than these are shown (`Lockstep.run_eq`, `Lockstep.accrued_eq`).
-/

namespace CardHolds

namespace Program
variable {I J : Interface} {α β γ δ σ τ M : Type}

/-- The same calls, and values at the end that are related. -/
inductive Lockstep (reply : ∀ c, I.Reply c → I.Reply c) (Shown : ∀ c, I.Reply c → Prop)
    (R : α → β → Prop) : Program I α → Program I β → Prop where
  | done {a : α} {b : β} (h : R a b) : Lockstep reply Shown R (.done a) (.done b)
  | ask {c : I.Call} {next : I.Reply c → Program I α} {next' : I.Reply c → Program I β}
    (h : ∀ r, Shown c r → Lockstep reply Shown R (next r) (next' (reply c r))) :
    Lockstep reply Shown R (.ask c next) (.ask c next')

namespace Lockstep
variable {reply : ∀ c, I.Reply c → I.Reply c} {Shown : ∀ c, I.Reply c → Prop} {R : α → β → Prop}

/-- Two programs in a row are in lockstep if the second ones are after all related values. -/
theorem bind {p : Program I α} {q : Program I β} (h : Lockstep reply Shown R p q)
    {f : α → Program I γ} {g : β → Program I δ} {R' : γ → δ → Prop}
    (next : ∀ a b, R a b → Lockstep reply Shown R' (f a) (g b)) :
    Lockstep reply Shown R' (p.bind f) (q.bind g) := by
  induction h with
  | done h => exact next _ _ h
  | ask _ ih => exact ask ih

/-- The same if the first ones end with the same value. -/
theorem andThen {p q : Program I α} (h : Lockstep reply Shown Eq p q) {f : α → Program I γ}
    {g : α → Program I δ} {R : γ → δ → Prop} (next : ∀ a, Lockstep reply Shown R (f a) (g a)) :
    Lockstep reply Shown R (p.bind f) (q.bind g) :=
  h.bind fun a _ hab => hab ▸ next a

/-- A program is in lockstep with itself where it gets the replies as they are. -/
theorem refl (hreply : ∀ c r, reply c r = r) (p : Program I α) : Lockstep reply Shown Eq p p := by
  induction p with
  | done a => exact done rfl
  | ask c next ih => exact ask fun r _ => (hreply c r).symm ▸ ih r

theorem embed {p : Program I α} {q : Program I β} (h : Lockstep reply Shown R p q)
    (call : I.Call → J.Call) (through : ∀ c, J.Reply (call c) → I.Reply c)
    {reply' : ∀ c, J.Reply c → J.Reply c} {Shown' : ∀ c, J.Reply c → Prop}
    (hreply : ∀ c r, through c (reply' (call c) r) = reply c (through c r))
    (hshown : ∀ c r, Shown' (call c) r → Shown c (through c r)) :
    Lockstep reply' Shown' R (p.embed call through) (q.embed call through) := by
  induction h with
  | done h => exact done h
  | ask _ ih => exact ask fun r hr => (hreply _ r).symm ▸ ih _ (hshown _ r hr)

end Lockstep

/-- All replies in a run have the property. -/
def Sees (answer : (c : I.Call) → σ → I.Reply c × σ) (Shown : ∀ c, I.Reply c → Prop) :
    Program I α → σ → Prop
  | done _, _ => True
  | ask c next, x =>
    Shown c (answer c x).1 ∧ (next (answer c x).1).Sees answer Shown (answer c x).2

theorem sees_of_forall {answer : (c : I.Call) → σ → I.Reply c × σ} {Shown : ∀ c, I.Reply c → Prop}
    (h : ∀ c r, Shown c r) (p : Program I α) (x : σ) : p.Sees answer Shown x := by
  induction p generalizing x with
  | done a => trivial
  | ask c next ih => exact ⟨h c _, ih _ _⟩

theorem Sees.and {answer : (c : I.Call) → σ → I.Reply c × σ} {Shown Shown' : ∀ c, I.Reply c → Prop}
    {p : Program I α} {x : σ} (h : p.Sees answer Shown x) (h' : p.Sees answer Shown' x) :
    p.Sees answer (fun c r => Shown c r ∧ Shown' c r) x := by
  induction p generalizing x with
  | done a => trivial
  | ask c next ih => exact ⟨⟨h.1, h'.1⟩, ih _ h.2 h'.2⟩

theorem Sees.mono {answer : (c : I.Call) → σ → I.Reply c × σ} {Shown Shown' : ∀ c, I.Reply c → Prop}
    {p : Program I α} {x : σ} (h : p.Sees answer Shown x) (weaker : ∀ c r, Shown c r → Shown' c r) :
    p.Sees answer Shown' x := by
  induction p generalizing x with
  | done a => trivial
  | ask c next ih => exact ⟨weaker _ _ h.1, ih _ h.2⟩

instance decidableSees (answer : (c : I.Call) → σ → I.Reply c × σ) (Shown : ∀ c, I.Reply c → Prop)
    [∀ c r, Decidable (Shown c r)] : (p : Program I α) → (x : σ) → Decidable (p.Sees answer Shown x)
  | done _, _ => .isTrue trivial
  | ask c next, x =>
    have := decidableSees answer Shown (next (answer c x).1) (answer c x).2
    inferInstanceAs (Decidable (Shown c (answer c x).1 ∧ (next (answer c x).1).Sees answer Shown _))

namespace Lockstep
variable {reply : ∀ c, I.Reply c → I.Reply c} {Shown : ∀ c, I.Reply c → Prop} {R : α → β → Prop}
  {p : Program I α} {q : Program I β} {answer : (c : I.Call) → σ → I.Reply c × σ}
  {answer' : (c : I.Call) → τ → I.Reply c × τ} {f : σ → τ}

/-- **Runs of programs in lockstep** end with related values in corresponding states. -/
theorem run_eq (h : Lockstep reply Shown R p q)
    (hanswer : ∀ c x, answer' c (f x) = (reply c (answer c x).1, f (answer c x).2)) {x : σ}
    (hx : p.Sees answer Shown x) :
    R (p.run answer x).1 (q.run answer' (f x)).1 ∧
      (q.run answer' (f x)).2 = f (p.run answer x).2 := by
  induction h generalizing x with
  | done h => exact ⟨h, rfl⟩
  | ask _ ih =>
    rw [run_ask, run_ask, hanswer]
    exact ih _ hx.1 hx.2

/-- What the calls of two such runs are worth is the same. -/
theorem accrued_eq [Zero M] [Add M] {worth : I.Call → σ → M} {worth' : I.Call → τ → M}
    (h : Lockstep reply Shown R p q)
    (hanswer : ∀ c x, answer' c (f x) = (reply c (answer c x).1, f (answer c x).2))
    (hworth : ∀ c x, worth' c (f x) = worth c x) {x : σ} (hx : p.Sees answer Shown x) :
    q.accrued answer' worth' (f x) = p.accrued answer worth x := by
  induction h generalizing x with
  | done h => rfl
  | ask _ ih =>
    rw [accrued_ask, accrued_ask, hanswer, hworth]
    exact congrArg _ (ih _ hx.1 hx.2)

end Lockstep

end Program

end CardHolds
