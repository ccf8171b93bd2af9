import CardHolds.Proofs.Ledger.Holdings

/-!
# Keeping count of what the accounts hold

`Tally v₀ v s x` compares the store with an account `v` that somebody else keeps of it: what the
account `x` holds is `v x`.  It asks this only of rows whose version can still be read, since the
update that carries a version beyond its numbers takes effect and is answered with an error.  The
balance that was counted is not below zero unless it has never changed from `v₀`.

An update keeps the count if its change is entered just when it is answered with the account
(`Tally.updateBalance`).
-/

namespace CardHolds

/-- The count `v` of what the accounts hold is right for the account `x`. -/
structure Tally (v₀ v : AccountId → Delta) (s : LedgerStore) (x : AccountId) : Prop where
  unknown : s.accounts.find? x = none → v x = 0
  held : ∀ row n, s.accounts.find? x = some row → row.version = .counted n → row.held = v x
  solvent : v x = v₀ x ∨ 0 ≤ (v x).1

namespace Tally
variable {v₀ v : AccountId → Delta} {s s' : LedgerStore} {x id : AccountId}

/-- At the start the count is what the accounts hold. -/
theorem holdings (s : LedgerStore) (x : AccountId) : Tally s.holdings s.holdings s x := by
  refine ⟨fun hnone => ?_, fun row n hrow _ => ?_, Or.inl rfl⟩
  · rw [LedgerStore.holdings, hnone, Option.elim_none]
  · exact (LedgerStore.holdings_of_find? hrow).symm

theorem of_find?_eq (h : Tally v₀ v s x) (hfind : s'.accounts.find? x = s.accounts.find? x) :
    Tally v₀ v s' x :=
  ⟨fun hnone => h.unknown (hfind ▸ hnone), fun row n hrow => h.held row n (hfind ▸ hrow), h.solvent⟩

theorem of_account (h : Tally v₀ v s x) {l : Ledger} (hl : l.store = s) {a : Account}
    (ha : l.account x = .ok a) : a.held = v x := by
  obtain ⟨row, hrow, -, hversion, hheld⟩ := Ledger.account_spec ha
  rw [← hheld]
  exact h.held row a.version (hl ▸ hrow) hversion

/-- A new account holds nothing. -/
theorem insert (h : Tally v₀ v s x) (now : Timestamp) (details : NewAccount) :
    Tally v₀ v (s.insert id now details).2 x := by
  have hfind := LedgerStore.find?_insert s id now details x
  split at hfind
  · rename_i hx
    subst hx
    cases hrow : s.accounts.find? x with
    | some row =>
      rw [hrow, Option.getD_some] at hfind
      exact h.of_find?_eq (hfind.trans hrow.symm)
    | none =>
      rw [hrow, Option.getD_none] at hfind
      refine ⟨fun hnone => h.unknown hrow, fun row' n hrow' _ => ?_, h.solvent⟩
      rw [hfind] at hrow'
      cases hrow'
      rw [h.unknown hrow, AccountRow.held_opened]
  · exact h.of_find?_eq hfind

/-- An amendment touches no quantity. -/
theorem amend (h : Tally v₀ v s x) (update : AccountUpdate) :
    Tally v₀ v (s.amend id update).2 x := by
  have hfind := LedgerStore.find?_amend s id update x
  split at hfind
  · -- the version goes up, so a version that can be read could be read before
    refine ⟨fun hnone => ?_, fun row' n hrow' hversion => ?_, h.solvent⟩
    · rw [hfind, Option.map_eq_none_iff] at hnone
      exact h.unknown hnone
    · rw [hfind] at hrow'
      obtain ⟨row, hrow, rfl⟩ := Option.map_eq_some_iff.mp hrow'
      cases hcounted : row.version with
      | counted m => exact h.held row m hrow hcounted
      | outgrown =>
        have hnext : row.version.next = .counted n := hversion
        rw [hcounted] at hnext
        cases hnext
  · exact h.of_find?_eq hfind

/-- **An update that is written is counted when it is answered with the account.** -/
theorem write {u : BalanceUpdate} {row row' : AccountRow} {n : Int64} (h : ∀ x, Tally v₀ v s x)
    (hw : s.Written id u row row') (hversion : row.version = .counted n) (x : AccountId) :
    Tally v₀ (v + if (s.updateBalance id u).1.isOk then Pi.single id (u.change row.held) else 0)
      (s.updateBalance id u).2 x := by
  have hfind := hw.stored x
  by_cases hx : x = id
  · rw [if_pos hx] at hfind
    have hrow : row.held = v x := (h x).held row n (hx ▸ hw.found) hversion
    by_cases hok : (s.updateBalance id u).1.isOk = true
    · have hsum : (v + Pi.single id (u.change row.held) : AccountId → Delta) x = row'.held := by
        rw [Pi.add_apply, hx, Pi.single_eq_same, hw.held, hrow, hx]
      rw [if_pos hok]
      refine ⟨fun hnone => ?_, fun row₁ m hrow₁ _ => ?_, Or.inr ?_⟩
      · rw [hfind] at hnone
        cases hnone
      · rw [hfind] at hrow₁
        cases hrow₁
        exact hsum.symm
      · rw [hsum]
        exact hw.balance_nonneg
    · -- the row was written all the same, but its version has outgrown its numbers
      rw [if_neg hok, add_zero]
      refine ⟨fun hnone => ?_, fun row₁ m hrow₁ hversion₁ => ?_, (h x).solvent⟩
      · rw [hfind] at hnone
        cases hnone
      · rw [hfind] at hrow₁
        cases hrow₁
        exact absurd (hw.answered.mpr ⟨m, hversion₁⟩) hok
  · rw [if_neg hx] at hfind
    have hsame : (v + if (s.updateBalance id u).1.isOk then Pi.single id (u.change row.held) else 0 :
        AccountId → Delta) x = v x := by
      split
      · rw [Pi.add_apply, Pi.single_eq_of_ne hx, add_zero]
      · rw [add_zero]
    have hbefore := (h x).of_find?_eq hfind
    exact ⟨fun hnone => hsame.trans (hbefore.unknown hnone),
      fun row₁ m hrow₁ hversion₁ => (hbefore.held row₁ m hrow₁ hversion₁).trans hsame.symm,
      hsame.symm ▸ hbefore.solvent⟩

/-- **An update keeps the count**, refused or written, if its change is entered just when it is
answered with the account. -/
theorem updateBalance {l : Ledger} {u : BalanceUpdate} {entered : AccountId → Delta}
    (hv : ∀ x, Tally v₀ v l.store x)
    (refused : ∀ error, (l.updateBalance id u).1 = .error error → entered = 0)
    (written : ∀ row row', l.store.Written id u row row' → ∃ n, row.version = .counted n ∧
      ∀ a, (l.updateBalance id u).1 = .ok a → entered = Pi.single id (u.change row.held))
    (x : AccountId) : Tally v₀ (v + entered) (l.updateBalance id u).2.store x := by
  rcases l.updateBalance_cases id u with ⟨error, herror⟩ | ⟨⟨row, row', hw⟩, hanswer, hstore⟩
  · rw [refused error (congrArg Prod.fst herror), add_zero, herror]
    exact hv x
  · obtain ⟨n, hversion, hchange⟩ := written row row' hw
    have hentered : entered =
        if (l.store.updateBalance id u).1.isOk then Pi.single id (u.change row.held) else 0 := by
      cases hreply : (l.store.updateBalance id u).1 with
      | error error => exact refused error (hanswer.trans hreply)
      | ok a => exact hchange a (hanswer.trans hreply)
    rw [hstore, hentered]
    exact write hv hw hversion x

end Tally

end CardHolds
