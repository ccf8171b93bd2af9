import CardHolds.Proofs.Lifecycle.Planning

/-!
# Taking a move back

A move changes each quantity of its account by an integer, whatever credits and debits it was planned
from.  To take it back is to subtract this integer from what the account holds now.  That comes to
an amount again or it does not, and accordingly `undoOn` gives the update that writes it or fails on
the first quantity for which it does not (`BalanceMove.reverse_cases`, `BalanceMove.undoOn_cases`).

Main statement (`BalanceMove.undo_inverts`): the undo of a planned move is its inverse on any later
state of the account.
-/

namespace CardHolds

/-- Why a change cannot be taken back from a quantity: what was added is no longer there, or there is
no room for what was removed. -/
inductive Irreversible (account : AccountId) (quantity : Quantity) (change : ℤ) : MoveError → Prop
  | spent {added : Amount} (positive : 0 < change) (amount : (added.units : ℤ) = change) :
      Irreversible account quantity change (.underflow account quantity added)
  | refilled {removed : Amount} (negative : change < 0) (amount : (removed.units : ℤ) = -change) :
      Irreversible account quantity change (.overflow account quantity removed)

namespace BalanceMove

/-! ## One quantity -/

variable {m : BalanceMove} {q : Quantity} {current old new : Amount}

theorem reverse_of_le (hle : old.units ≤ new.units) :
    m.reverse q current old new = match current.sub? (new.minus old) with
      | some result => .ok result
      | none => .error (.underflow m.account q (new.minus old)) := by
  have hsub : new.sub? old = some (new.minus old) := if_pos hle
  cases hresult : current.sub? (new.minus old) <;> simp only [reverse, hsub, hresult]

theorem reverse_of_lt (hlt : new.units < old.units) :
    m.reverse q current old new = match current.add? (old.minus new) with
      | some result => .ok result
      | none => .error (.overflow m.account q (old.minus new)) := by
  have hsub : new.sub? old = none := Amount.sub?_eq_none_iff.mpr hlt
  cases hresult : current.add? (old.minus new) <;> simp only [reverse, hsub, hresult]

/-- **What a change leaves when it is taken back from a quantity.** -/
theorem reverse_cases (m : BalanceMove) (q : Quantity) (current old new : Amount) :
    (∃ result : Amount, m.reverse q current old new = .ok result ∧
      (result.units : ℤ) = current.units - ((new.units : ℤ) - old.units)) ∨
    (¬ IsAmount (current.units - ((new.units : ℤ) - old.units)) ∧
      ∃ e, m.reverse q current old new = .error e ∧
        Irreversible m.account q ((new.units : ℤ) - old.units) e) := by
  rcases Nat.lt_or_ge new.units old.units with hlt | hle
  · rw [reverse_of_lt hlt]
    have hremoved : ((old.minus new).units : ℤ) = -((new.units : ℤ) - old.units) := by
      show ((old.units - new.units : ℕ) : ℤ) = _
      omega
    cases hsum : current.add? (old.minus new) with
    | some result =>
      have hunits := Amount.add?_eq_some_iff.mp hsum
      exact Or.inl ⟨result, rfl, by omega⟩
    | none =>
      have hlarge : 2 ^ 64 ≤ current.units + (old.minus new).units :=
        Amount.add?_eq_none_iff.mp hsum
      exact Or.inr ⟨fun h => by have := h.2; omega, _, rfl, .refilled (by omega) hremoved⟩
  · rw [reverse_of_le hle]
    have hadded : ((new.minus old).units : ℤ) = (new.units : ℤ) - old.units := by
      show ((new.units - old.units : ℕ) : ℤ) = _
      omega
    cases hdiff : current.sub? (new.minus old) with
    | some result =>
      have hunits := Amount.sub?_eq_some_iff.mp hdiff
      exact Or.inl ⟨result, rfl, by omega⟩
    | none =>
      have hsmall := Amount.sub?_eq_none_iff.mp hdiff
      exact Or.inr ⟨fun h => by have := h.1; omega, _, rfl, .spent (by omega) hadded⟩

/-! ## Both quantities -/

/-- What becomes of an attempt to take a move back from an account. -/
inductive TakesBack (m : BalanceMove) (current : Account) : Except MoveError BalanceUpdate → Prop
  | possible {balance blocked : Amount}
      (written : ((balance.units : ℤ), (blocked.units : ℤ)) = current.held - m.delta) :
      TakesBack m current (.ok ⟨some balance, some blocked, some current.version⟩)
  | impossible {q : Quantity} {e : MoveError} (first : q = .blocked →
        IsAmount (Quantity.balance.of (current.held - m.delta)))
      (refused : ¬ IsAmount (q.of (current.held - m.delta)))
      (error : Irreversible m.account q (q.of m.delta) e) : TakesBack m current (.error e)

/-- **A move is taken back from both quantities of an account, or fails on the first that it cannot be
taken back from.** -/
theorem undoOn_cases (m : BalanceMove) (current : Account) :
    m.TakesBack current (m.undoOn current) := by
  unfold undoOn
  rcases m.reverse_cases .balance current.balance m.oldBalance m.newBalance with
    ⟨balance, hbalance, hunits⟩ | ⟨hrefused, e, he, herror⟩
  · rw [hbalance]
    rcases m.reverse_cases .blocked current.blocked m.oldBlocked m.newBlocked with
      ⟨blocked, hblocked, hunits'⟩ | ⟨hrefused, e, he, herror⟩
    · rw [hblocked]
      exact .possible (Prod.ext hunits hunits')
    · rw [he]
      refine .impossible (q := .blocked) (fun _ => ?_) hrefused herror
      have hrange := balance.isAmount_units
      rwa [hunits] at hrange
  · rw [he]
    exact .impossible (q := .balance) (fun h => by cases h) hrefused herror

/-! ## Planned moves -/

section Plans
variable {snapshot : Account} {label : String} {steps : List Step}

/-- Steps add up, and leave the reading that a plan starts from alone. -/
theorem foldlM_take_spec {m m' : BalanceMove} (h : steps.foldlM take m = .ok m') :
    m'.delta = m.delta + (steps.map Step.delta).sum ∧ ∀ a, m.PlannedOn a → m'.PlannedOn a := by
  induction steps generalizing m with
  | nil =>
    cases h
    exact ⟨(add_zero _).symm, fun _ hp => hp⟩
  | cons step rest ih =>
    rw [List.foldlM_cons] at h
    obtain ⟨m₁, hstep, hrest⟩ := ok_of_bind h
    obtain ⟨hdelta, hplanned⟩ := take_spec step hstep
    obtain ⟨hdelta', hplanned'⟩ := ih hrest
    refine ⟨?_, fun a hp => hplanned' a (hplanned a hp)⟩
    rw [hdelta', hdelta, List.map_cons, List.sum_cons, add_assoc]

/-- A plan changes what its steps add up to. -/
theorem plan_spec (h : plan snapshot label steps = .ok m) :
    m.PlannedOn snapshot ∧ m.delta = (steps.map Step.delta).sum := by
  obtain ⟨hdelta, hplanned⟩ := foldlM_take_spec h
  exact ⟨hplanned _ (plannedOn_on _ _), by rw [hdelta, delta_on, zero_add]⟩

/-- What a move leaves of the account that it was planned from. -/
theorem PlannedOn.forward_held (hp : m.PlannedOn snapshot) :
    snapshot.held + m.forward.change snapshot.held = snapshot.held + m.delta := by
  rw [← hp.heldBefore, change_forward]

end Plans

/-- How the undo of a move that was planned from the account `snapshot` acts on the account as it is
now. -/
structure Inverts (m : BalanceMove) (snapshot current : Account) : Prop where
  /-- It can be taken back just if both differences are amounts. -/
  isOk_iff : (∃ u, m.undoOn current = .ok u) ↔
    IsAmount (current.balance.units - m.delta.1) ∧ IsAmount (current.blocked.units - m.delta.2)
  /-- Then the update carries them, and expects the version that the account has now. -/
  writes : ∀ u, m.undoOn current = .ok u → ∃ balance blocked : Amount,
    u = ⟨some balance, some blocked, some current.version⟩ ∧
      (balance.units : ℤ) = current.balance.units - m.delta.1 ∧
      (blocked.units : ℤ) = current.blocked.units - m.delta.2
  /-- Otherwise it fails on the first quantity, the balance before the blocked money, whose difference
  is no amount. -/
  fails : ∀ e, m.undoOn current = .error e → ∃ q : Quantity,
    (q = .blocked → IsAmount (Quantity.balance.of (current.held - m.delta))) ∧
      ¬ IsAmount (q.of (current.held - m.delta)) ∧ Irreversible snapshot.id q (q.of m.delta) e
  /-- Whatever others have added since the move was carried out stays. -/
  keeps_others : ∀ others u, current.held = snapshot.held + m.forward.change snapshot.held + others →
    m.undoOn current = .ok u → current.held + u.change current.held = snapshot.held + others
  /-- If they have added nothing, the account is given what it held before. -/
  restores : current.held = snapshot.held + m.forward.change snapshot.held →
    m.undoOn current = .ok ⟨some snapshot.balance, some snapshot.blocked, some current.version⟩

variable {snapshot : Account}

theorem TakesBack.isOk_iff {current : Account} {result : Except MoveError BalanceUpdate}
    (h : m.TakesBack current result) : (∃ u, result = .ok u) ↔
      IsAmount (current.balance.units - m.delta.1) ∧
        IsAmount (current.blocked.units - m.delta.2) := by
  cases h with
  | @possible balance blocked written =>
    obtain ⟨hbalance, hblocked⟩ := Prod.mk.inj written
    refine iff_of_true ⟨_, rfl⟩ ⟨?_, ?_⟩
    · exact hbalance ▸ balance.isAmount_units
    · exact hblocked ▸ blocked.isAmount_units
  | @impossible q e first refused error =>
    refine iff_of_false (fun ⟨_, hu⟩ => by cases hu) fun ⟨hbalance, hblocked⟩ => ?_
    cases q with
    | balance => exact refused hbalance
    | blocked => exact refused hblocked

/-- A difference that is two amounts is written. -/
theorem undoOn_of_held_sub {current : Account} {balance blocked : Amount}
    (h : current.held - m.delta = (↑balance.units, ↑blocked.units)) :
    m.undoOn current = .ok ⟨some balance, some blocked, some current.version⟩ := by
  have hcases := m.undoOn_cases current
  cases hundo : m.undoOn current with
  | ok u =>
    rw [hundo] at hcases
    cases hcases with
    | possible written =>
      obtain ⟨hbalance, hblocked⟩ := Prod.mk.inj (written.trans h)
      rw [Amount.ext (Int.ofNat_inj.mp hbalance), Amount.ext (Int.ofNat_inj.mp hblocked)]
  | error e =>
    rw [hundo] at hcases
    cases hcases with
    | @impossible q _ first refused error =>
      rw [h] at refused
      cases q with
      | balance => exact absurd balance.isAmount_units refused
      | blocked => exact absurd blocked.isAmount_units refused

/-- **The undo of a planned move is its inverse on any later state of the account.** -/
theorem undo_inverts {label : String} {steps : List Step}
    (h : plan snapshot label steps = .ok m) :
    m.PlannedOn snapshot ∧ m.delta = (steps.map Step.delta).sum ∧
      ∀ current, m.Inverts snapshot current := by
  obtain ⟨hp, hdelta⟩ := plan_spec h
  refine ⟨hp, hdelta, fun current => ?_⟩
  have hcases := m.undoOn_cases current
  have hwrites : ∀ u, m.undoOn current = .ok u → ∃ balance blocked : Amount,
      u = ⟨some balance, some blocked, some current.version⟩ ∧
        ((balance.units : ℤ), (blocked.units : ℤ)) = current.held - m.delta := by
    intro u hu
    rw [hu] at hcases
    cases hcases with
    | possible written => exact ⟨_, _, rfl, written⟩
  refine ⟨hcases.isOk_iff, fun u hu => ?_, fun e he => ?_, fun others u hothers hu => ?_,
    fun hforward => ?_⟩
  · obtain ⟨balance, blocked, hu, hwritten⟩ := hwrites u hu
    exact ⟨balance, blocked, hu, congrArg Prod.fst hwritten, congrArg Prod.snd hwritten⟩
  · rw [he] at hcases
    cases hcases with
    | impossible first refused error => exact ⟨_, first, refused, hp.account ▸ error⟩
  · rw [(change_of_undoOn hu).2, hothers, hp.forward_held]
    abel
  · refine undoOn_of_held_sub ?_
    rw [hforward, hp.forward_held, add_sub_cancel_right]
    rfl

end BalanceMove

/-! ## A mixed plan -/

namespace MixedPlan

open Sample

def holder : AccountId := ⟨"holder"⟩

def account (balance blocked : ℕ) (version : Int64) : Account :=
  { (default : Account) with
    id := holder, balance := units balance, blocked := units blocked, version := version }

/-- Sixty units are held, seventy come in, fifteen of the hold are given back. -/
def steps : List BalanceMove.Step :=
  [.debitBalance (units 60), .block (units 60), .creditBalance (units 70), .release (units 15)]

def move : BalanceMove := ⟨holder, "mixed", 4, units 100, units 0, units 110, units 45⟩

/-- Others have taken five units and held them: both stays, and the move is taken back.  Where the
hold has been released by others it cannot be. -/
theorem undo_inverts_mixedPlan :
    BalanceMove.plan (account 100 0 4) "mixed" steps = .ok move ∧ move.delta = (10, 45) ∧
      (∃ u, move.undoOn (account 105 50 6) = .ok u ∧
        (account 105 50 6).held + u.change (account 105 50 6).held = (95, 5)) ∧
      move.undoOn (account 110 44 6) = .error (.underflow holder .blocked (units 45)) := by
  have hplan : BalanceMove.plan (account 100 0 4) "mixed" steps = .ok move := by decide
  obtain ⟨-, hdelta, hinverts⟩ := BalanceMove.undo_inverts hplan
  obtain ⟨u, hu⟩ := (hinverts (account 105 50 6)).isOk_iff.mpr (by decide)
  refine ⟨hplan, hdelta.trans (by decide), ⟨u, hu, ?_⟩, by decide⟩
  exact (hinverts (account 105 50 6)).keeps_others (-5, 5) u (by decide) hu

end MixedPlan

end CardHolds
