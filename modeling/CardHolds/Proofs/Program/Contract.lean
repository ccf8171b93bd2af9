import CardHolds.Program
import Mathlib.Algebra.Group.Nat.Defs

/-!
# Contracts on the calls of a program

A `Contract` watches a program from outside.  It keeps a record of the calls and replies so far
(`observe`), and it binds both sides: which calls the program may make (`Asks`), and which replies
the environment may give to them (`Replies`).

`p.Ensures K s post` says that `p`, started when the record is `s`, makes only such calls and ends
with a value and a record that satisfy `post`, whatever replies it is given within the contract.  It
is a statement about the tree alone.  `Ensures.run_accrued` carries it over to a run against a
handler that keeps its side of the contract, and `Ensures.exists_end` picks one possible end of the
program, which tells what must be true of the record already when a run is cut short.

`accrued` sums up a quantity over the calls of one run.  Two contracts can be kept at the same time
(`Contract.both`), and `Returns` is what remains of a contract that binds nobody.
-/

namespace CardHolds

/-- A record of the calls of a program, and what both sides are bound to. -/
structure Contract (I : Interface) where
  State : Type
  /-- The program may make this call. -/
  Asks : State → I.Call → Prop
  /-- The environment may give this reply. -/
  Replies : State → (c : I.Call) → I.Reply c → Prop
  /-- The record after a call and its reply. -/
  observe : State → (c : I.Call) → I.Reply c → State

namespace Program

variable {I : Interface} {α β σ M : Type}

/-- The program keeps the contract and ends in `post`, whatever replies it is given within it. -/
def Ensures (K : Contract I) : Program I α → K.State → (α → K.State → Prop) → Prop
  | done a, s, post => post a s
  | ask c next, s, post =>
    K.Asks s c ∧ ∀ r, K.Replies s c r → (next r).Ensures K (K.observe s c r) post

section Ensures
variable {K : Contract I} {s : K.State} {post post' : α → K.State → Prop}

@[simp] theorem ensures_done {a : α} : (done a : Program I α).Ensures K s post ↔ post a s := Iff.rfl

@[simp] theorem ensures_ask {c : I.Call} {next : I.Reply c → Program I α} :
    (ask c next).Ensures K s post ↔
      K.Asks s c ∧ ∀ r, K.Replies s c r → (next r).Ensures K (K.observe s c r) post := Iff.rfl

theorem Ensures.mono {p : Program I α} (h : p.Ensures K s post)
    (weaker : ∀ a s', post a s' → post' a s') : p.Ensures K s post' := by
  induction p generalizing s with
  | done a => exact weaker a s h
  | ask c next ih => exact ⟨h.1, fun r hr => ih r (h.2 r hr)⟩

/-- The contract is kept by two programs in a row if the second keeps it after any end of the first. -/
theorem ensures_bind {p : Program I α} {f : α → Program I β} {after : β → K.State → Prop} :
    (p.bind f).Ensures K s after ↔ p.Ensures K s fun a s' => (f a).Ensures K s' after := by
  induction p generalizing s with
  | done a => exact Iff.rfl
  | ask c next ih =>
    rw [bind_ask, ensures_ask, ensures_ask]
    exact and_congr Iff.rfl (forall_congr' fun r => imp_congr_right fun _ => ih r)

theorem Ensures.bind {p : Program I α} {f : α → Program I β} {after : β → K.State → Prop}
    (h : p.Ensures K s post) (next : ∀ a s', post a s' → (f a).Ensures K s' after) :
    (p.bind f).Ensures K s after :=
  ensures_bind.mpr (h.mono next)

/-- A program that keeps a contract has an end in `post` at which the record still has the property
`Q`, if every call it may make has a permitted reply that keeps `Q`. -/
theorem Ensures.exists_end {p : Program I α} (h : p.Ensures K s post) (Q : K.State → Prop)
    (reply : ∀ c s, Q s → K.Asks s c → ∃ r, K.Replies s c r ∧ Q (K.observe s c r)) (hs : Q s) :
    ∃ a s', post a s' ∧ Q s' := by
  induction p generalizing s with
  | done a => exact ⟨a, s, h, hs⟩
  | ask c next ih =>
    obtain ⟨r, hr, hq⟩ := reply c s hs h.1
    exact ih r (h.2 r hr) hq

end Ensures

/-- A run of two programs in a row is a run of the first and then one of the second. -/
theorem run_of_bind {answer : (c : I.Call) → σ → I.Reply c × σ} {p : Program I α}
    {f : α → Program I β} {x z : σ} {b : β} (h : (p >>= f).run answer x = (b, z)) :
    ∃ a y, p.run answer x = (a, y) ∧ (f a).run answer y = (b, z) :=
  ⟨_, _, rfl, (run_bind answer p f x).symm.trans h⟩

theorem run_bind_of {answer : (c : I.Call) → σ → I.Reply c × σ} {p : Program I α} {x y : σ} {a : α}
    (h : p.run answer x = (a, y)) (f : α → Program I β) :
    (p >>= f).run answer x = (f a).run answer y := by
  rw [bind_eq, run_bind, h]

section Accrued
variable [Zero M] [Add M]

/-- The sum of what the calls of a run are worth, each in the state in which it is made. -/
def accrued (answer : (c : I.Call) → σ → I.Reply c × σ) (worth : I.Call → σ → M) :
    Program I α → σ → M
  | done _, _ => 0
  | ask c next, x => worth c x + (next (answer c x).1).accrued answer worth (answer c x).2

@[simp] theorem accrued_done (answer : (c : I.Call) → σ → I.Reply c × σ) (worth : I.Call → σ → M)
    (a : α) (x : σ) : (done a : Program I α).accrued answer worth x = 0 := rfl

@[simp] theorem accrued_ask (answer : (c : I.Call) → σ → I.Reply c × σ) (worth : I.Call → σ → M)
    (c : I.Call) (next : I.Reply c → Program I α) (x : σ) :
    (ask c next).accrued answer worth x =
      worth c x + (next (answer c x).1).accrued answer worth (answer c x).2 := rfl

end Accrued

/-- Two programs in a row are worth what both are worth. -/
theorem accrued_bind [AddMonoid M] (answer : (c : I.Call) → σ → I.Reply c × σ)
    (worth : I.Call → σ → M) (p : Program I α) (f : α → Program I β) (x : σ) :
    (p.bind f).accrued answer worth x = p.accrued answer worth x +
      (f (p.run answer x).1).accrued answer worth (p.run answer x).2 := by
  induction p generalizing x with
  | done a => exact (zero_add _).symm
  | ask c next ih => rw [bind_ask, accrued_ask, accrued_ask, ih, add_assoc, run_ask]

theorem accrued_bind_of [AddMonoid M] {answer : (c : I.Call) → σ → I.Reply c × σ}
    {p : Program I α} {x y : σ} {a : α} (h : p.run answer x = (a, y)) (worth : I.Call → σ → M)
    (f : α → Program I β) :
    (p >>= f).accrued answer worth x =
      p.accrued answer worth x + (f a).accrued answer worth y := by
  rw [bind_eq, accrued_bind, h]

theorem accrued_embed {J : Interface} [Zero M] [Add M] (answer : (c : J.Call) → σ → J.Reply c × σ)
    (worth : J.Call → σ → M) (call : I.Call → J.Call) (reply : ∀ c, J.Reply (call c) → I.Reply c)
    (p : Program I α) (x : σ) :
    (p.embed call reply).accrued answer worth x =
      p.accrued (fun c s => (reply c (answer (call c) s).1, (answer (call c) s).2))
        (fun c => worth (call c)) x := by
  induction p generalizing x with
  | done a => rfl
  | ask c next ih => rw [embed, accrued_ask, accrued_ask, ih]

/-- **A contract carries over to runs.**  `Inv` relates the state of the handler to the record; if the
handler replies within the contract and keeps `Inv`, the run ends in `post`.  The record also keeps a
total to which every call adds what it is worth. -/
theorem Ensures.run_accrued {K : Contract I} {s : K.State} {post : α → K.State → Prop}
    [AddMonoid M] {p : Program I α} (h : p.Ensures K s post)
    (answer : (c : I.Call) → σ → I.Reply c × σ) (worth : I.Call → σ → M)
    (Inv : σ → K.State → Prop) (total : K.State → M)
    (keeps : ∀ c x s, Inv x s → K.Asks s c →
      K.Replies s c (answer c x).1 ∧ Inv (answer c x).2 (K.observe s c (answer c x).1) ∧
        total (K.observe s c (answer c x).1) = total s + worth c x)
    {x : σ} (hx : Inv x s) :
    ∃ s', post (p.run answer x).1 s' ∧ Inv (p.run answer x).2 s' ∧
      total s' = total s + p.accrued answer worth x := by
  induction p generalizing s x with
  | done a => exact ⟨s, h, hx, by rw [accrued_done, add_zero]⟩
  | ask c next ih =>
    obtain ⟨hreply, hinv, htotal⟩ := keeps c x s hx h.1
    obtain ⟨s', hpost, hinv', htotal'⟩ := ih _ (h.2 _ hreply) hinv
    exact ⟨s', hpost, hinv', by rw [htotal', htotal, accrued_ask, add_assoc]⟩

/-- A contract carries over to runs also where nothing is counted. -/
theorem Ensures.run_keeps {K : Contract I} {s : K.State} {post : α → K.State → Prop}
    {p : Program I α} (h : p.Ensures K s post) (answer : (c : I.Call) → σ → I.Reply c × σ)
    (Inv : σ → K.State → Prop)
    (keeps : ∀ c x s, Inv x s → K.Asks s c →
      K.Replies s c (answer c x).1 ∧ Inv (answer c x).2 (K.observe s c (answer c x).1))
    {x : σ} (hx : Inv x s) :
    ∃ s', post (p.run answer x).1 s' ∧ Inv (p.run answer x).2 s' := by
  obtain ⟨s', hpost, hinv, -⟩ := h.run_accrued answer (fun _ _ => (0 : ℕ)) Inv (fun _ => 0)
    (fun c x s hx hask => ⟨(keeps c x s hx hask).1, (keeps c x s hx hask).2, rfl⟩) hx
  exact ⟨s', hpost, hinv⟩

/-! ## Several contracts, or none -/

end Program

namespace Contract
variable {I : Interface}

/-- Both records are kept, and everybody is bound by both contracts. -/
@[reducible] def both (K K' : Contract I) : Contract I where
  State := K.State × K'.State
  Asks s c := K.Asks s.1 c ∧ K'.Asks s.2 c
  Replies s c r := K.Replies s.1 c r ∧ K'.Replies s.2 c r
  observe s c r := (K.observe s.1 c r, K'.observe s.2 c r)

/-- The contract that binds nobody. -/
@[reducible] def unbound (I : Interface) : Contract I where
  State := Unit
  Asks _ _ := True
  Replies _ _ _ := True
  observe _ _ _ := ()

end Contract

namespace Program
variable {I : Interface} {α β : Type}

theorem Ensures.both {K K' : Contract I} {s : K.State} {s' : K'.State} {post : α → K.State → Prop}
    {post' : α → K'.State → Prop} {p : Program I α} (h : p.Ensures K s post)
    (h' : p.Ensures K' s' post') :
    p.Ensures (K.both K') (s, s') fun a t => post a t.1 ∧ post' a t.2 := by
  induction p generalizing s s' with
  | done a => exact ⟨h, h'⟩
  | ask c next ih => exact ⟨⟨h.1, h'.1⟩, fun r hr => ih r (h.2 r hr.1) (h'.2 r hr.2)⟩

/-- Every value that the program can end with, whatever it is told. -/
def Returns (p : Program I α) (post : α → Prop) : Prop :=
  p.Ensures (.unbound I) () fun a _ => post a

theorem Returns.mono {p : Program I α} {post post' : α → Prop} (h : p.Returns post)
    (weaker : ∀ a, post a → post' a) : p.Returns post' :=
  Ensures.mono h fun a _ => weaker a

theorem Returns.bind {p : Program I α} {f : α → Program I β} {post : α → Prop} {after : β → Prop}
    (h : p.Returns post) (next : ∀ a, post a → (f a).Returns after) : (p.bind f).Returns after :=
  Ensures.bind h fun a _ => next a

theorem returns_true (p : Program I α) : p.Returns fun _ => True := by
  induction p with
  | done a => trivial
  | ask c next ih => exact ⟨trivial, fun r _ => ih r⟩

end Program

end CardHolds
