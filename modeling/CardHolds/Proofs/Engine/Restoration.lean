import CardHolds.Proofs.Engine.Limits
import CardHolds.Proofs.Ledger.Contents
import CardHolds.Proofs.Lifecycle.Compensation

/-!
# A compensation that nobody disturbs

On a ledger that nobody else writes accounts are read, and moves are planned from these readings and
carried out (`Saga.Grows`).  The moves of one account then lie one on the other: each was planned from
the account as the one before it has left it (`BalanceMove.Stacked`).  An undo of the newest uncovers
the one below it, up to the version, which counts the undo as one more write (`Saga.undoAll_stacked`).
What is done to other accounts meanwhile does not matter (`Ledger.Spares`).

So an account gets back what it held, as long as its version leaves room to count all these writes.

Main statement (`Saga.compensation`): what a compensation keeps to on every ledger, and what it leaves
on one that nobody disturbs.
-/

namespace CardHolds

open Program

/-! ## Accounts that are not written -/

/-- What the ledgers have of an account is the same. -/
structure Ledger.Spares (x : AccountId) (l l' : Ledger) : Prop where
  row : l'.store.accounts.find? x = l.store.accounts.find? x
  entries : l'.store.entries = l.store.entries
  closed : l'.closed = l.closed

namespace Ledger
variable {x id : AccountId} {l l' l'' : Ledger}

theorem Spares.refl (x : AccountId) (l : Ledger) : Spares x l l := ⟨rfl, rfl, rfl⟩

theorem Spares.trans (h : Spares x l l') (h' : Spares x l' l'') : Spares x l l'' :=
  ⟨h'.row.trans h.row, h'.entries.trans h.entries, h'.closed.trans h.closed⟩

theorem Spares.account (h : Spares x l l') : l'.account x = l.account x := by
  cases hclosed : l.closed with
  | true =>
    simp only [Ledger.account, read, h.closed, hclosed, if_true]
  | false =>
    rw [account_eq (h.closed.trans hclosed), account_eq hclosed, h.row]
    cases l.store.accounts.find? x with
    | none => rfl
    | some row => exact LedgerStore.readRow_of_entries_eq h.entries row

theorem Spares.holdings (h : Spares x l l') : l'.store.holdings x = l.store.holdings x := by
  rw [LedgerStore.holdings, h.row, LedgerStore.holdings]

theorem spares_updateBalance (l : Ledger) (hx : x ≠ id) (u : BalanceUpdate) :
    Spares x l (l.updateBalance id u).2 := by
  refine ⟨?_, l.entries_updateBalance id u, ?_⟩
  · rcases l.store_change fun s => s.updateBalance id u with hstore | hstore
    · exact congrArg (·.accounts.find? x) hstore
    · exact (congrArg (·.accounts.find? x) hstore).trans (LedgerStore.find?_updateBalance_of_ne hx u)
  · unfold updateBalance change
    split <;> rfl

theorem Spares.of_updateBalance {u : BalanceUpdate} {answer : Except LedgerError Account}
    (hx : x ≠ id) (h : l.updateBalance id u = (answer, l')) : Spares x l l' := by
  have hspares := l.spares_updateBalance hx u
  rwa [h] at hspares

theorem holdings_of_account {a : Account} (h : l.account x = .ok a) :
    l.store.holdings x = a.held := by
  obtain ⟨row, hrow, -, -, hheld⟩ := account_spec h
  exact (LedgerStore.holdings_of_find? hrow).trans hheld

end Ledger

/-- No update is made of the account. -/
@[reducible] def sparing (x : AccountId) : Contract ledgerCalls where
  State := Unit
  Asks
    | _, .updateBalance id _ => x ≠ id
    | _, .account _ => True
    | _, .openStream => True
  Replies _ _ _ := True
  observe _ _ _ := ()

theorem Ledger.spares_run {α : Type} {p : Program ledgerCalls α} {x : AccountId}
    {post : α → Unit → Prop} (h : p.Ensures (sparing x) () post) (l : Ledger) :
    Ledger.Spares x l (p.run Ledger.answer l).2 := by
  refine (h.run_keeps Ledger.answer (fun l' _ => Ledger.Spares x l l') (fun c l' s hl hasks =>
    ⟨trivial, hl.trans ?_⟩) (.refl x l)).elim fun _ hend => hend.2
  cases c with
  | updateBalance id u => exact l'.spares_updateBalance hasks u
  | account id => exact .refl x l'
  | openStream => exact .refl x l'

namespace BalanceMove
variable {m : BalanceMove} {x : AccountId}

/-- An undo updates no account but that of its move. -/
theorem undo_spares (hx : x ≠ m.account) (attempts : ℕ) :
    (m.undo attempts).Ensures (sparing x) () fun _ _ => True := by
  induction attempts with
  | zero => trivial
  | succ attempts ih =>
    refine ⟨trivial, fun reading _ => ?_⟩
    cases reading with
    | error e => trivial
    | ok a =>
      simp only [bind_eq, bind_done]
      cases m.undoOn a with
      | error e => trivial
      | ok u =>
        refine ⟨hx, fun reply _ => ?_⟩
        cases reply with
        | ok a' => trivial
        | error e =>
          show Ensures _ (if e.isVersionConflict then _ else _) _ _
          split
          · exact ih
          · trivial

/-! ## Moves that lie one on the other -/

/-- Those of some moves (newest first) that are moves of an account lead from `before` to the last
account, each planned from what the one below it has left. -/
inductive Stacked (x : AccountId) (before : Account) : List BalanceMove → Account → Prop
  | bottom : Stacked x before [] before
  | other {m : BalanceMove} {rest : List BalanceMove} {a : Account} (below : Stacked x before rest a)
      (elsewhere : x ≠ m.account) : Stacked x before (m :: rest) a
  | top {m : BalanceMove} {rest : List BalanceMove} {a : Account} (below : Stacked x before rest a)
      (here : m.account = x) (planned : m.PlannedOn a) (storable : m.FromStorable) :
      Stacked x before (m :: rest) (m.result a)

/-- How many of some moves are moves of an account. -/
def countOn (x : AccountId) (ms : List BalanceMove) : ℕ := ms.countP fun m => decide (m.account = x)

theorem countOn_cons_of_ne {rest : List BalanceMove} (hx : x ≠ m.account) :
    countOn x (m :: rest) = countOn x rest :=
  List.countP_cons_of_neg (by simpa using hx.symm)

theorem countOn_cons_of_eq {rest : List BalanceMove} (hx : m.account = x) :
    countOn x (m :: rest) = countOn x rest + 1 :=
  List.countP_cons_of_pos (by simpa using hx)

/-- The undo of a move that is on top uncovers the account below it; the version counts on. -/
theorem run_undo_top {l : Ledger} {a : Account} {v : Int64} (planned : m.PlannedOn a)
    (storable : m.FromStorable) (hread : l.account m.account = .ok { m.result a with version := v })
    (hv : v.toInt + 1 < 2 ^ 63) : ∃ l' a',
    (m.undo compensationAttempts).run Ledger.answer l = (.ok a', l') ∧
      l'.account m.account = .ok { a with version := v + 1 } := by
  obtain ⟨l', hundo, hreplaces⟩ := run_undo hread rfl rfl storable hv 4
  have hwritten : Account.write { m.result a with version := v } m.oldBalance m.oldBlocked =
      { a with version := v + 1 } := by
    rw [planned.balance, planned.blocked]
    rfl
  rw [hwritten] at hundo hreplaces
  have hshown : l'.account a.id = .ok { a with version := v + 1 } := hreplaces.account_self rfl
  exact ⟨l', _, hundo, planned.account ▸ hshown⟩

end BalanceMove

namespace Saga
open BalanceMove (Stacked countOn countOn_cons_of_eq countOn_cons_of_ne)
variable {x : AccountId} {ms : List BalanceMove} {m : BalanceMove} {before a : Account}
  {l l' : Ledger} {saga saga' : Saga} {v : Int64}

/-- A move of another account is undone or reported, and the account is as before. -/
theorem run_undoAll_other (hx : x ≠ m.account) (rest : List BalanceMove) (l : Ledger) : ∃ l',
    Ledger.Spares x l l' ∧
      ((undoAll (m :: rest)).run Ledger.answer l).2 = ((undoAll rest).run Ledger.answer l').2 ∧
      ∀ f ∈ ((undoAll (m :: rest)).run Ledger.answer l).1,
        f ∈ ((undoAll rest).run Ledger.answer l').1 ∨ f.account ≠ x := by
  have hspares := Ledger.spares_run (BalanceMove.undo_spares hx compensationAttempts) l
  cases hundo : (m.undo compensationAttempts).run Ledger.answer l with
  | mk result l' =>
    rw [hundo] at hspares
    cases result with
    | ok a =>
      rw [run_undoAll_of_ok hundo]
      exact ⟨l', hspares, rfl, fun f hf => Or.inl hf⟩
    | error fault =>
      rw [run_undoAll_of_error hundo]
      refine ⟨l', hspares, rfl, fun f hf => ?_⟩
      rcases List.mem_cons.mp hf with rfl | hf
      · exact Or.inr hx.symm
      · exact Or.inl hf

/-- A compensation of moves of other accounts. -/
theorem undoAll_spares (h : ∀ m ∈ ms, x ≠ m.account) (l : Ledger) :
    Ledger.Spares x l ((undoAll ms).run Ledger.answer l).2 ∧
      ∀ f ∈ ((undoAll ms).run Ledger.answer l).1, f.account ≠ x := by
  induction ms generalizing l with
  | nil => exact ⟨.refl x l, fun f hf => absurd hf List.not_mem_nil⟩
  | cons m rest ih =>
    obtain ⟨hm, hrest⟩ := List.forall_mem_cons.mp h
    obtain ⟨l', hspares, hledger, hfailures⟩ := run_undoAll_other hm rest l
    obtain ⟨hspares', hothers⟩ := ih hrest l'
    rw [hledger]
    exact ⟨hspares.trans hspares', fun f hf => (hfailures f hf).elim (hothers f) id⟩

/-- **Undone from the top, moves that lie one on the other leave what was below them.** -/
theorem undoAll_stacked (h : Stacked x before ms a) (hread : l.account x = .ok { a with version := v })
    (hroom : v.toInt + countOn x ms < 2 ^ 63) :
    (∀ f ∈ ((undoAll ms).run Ledger.answer l).1, f.account ≠ x) ∧
      ∃ w, ((undoAll ms).run Ledger.answer l).2.account x = .ok { before with version := w } ∧
        w.toInt = v.toInt + countOn x ms := by
  induction h generalizing l v with
  | bottom => exact ⟨fun f hf => absurd hf List.not_mem_nil, v, hread, (Int.add_zero _).symm⟩
  | @other m rest a below elsewhere ih =>
    obtain ⟨l', hspares, hledger, hfailures⟩ := run_undoAll_other elsewhere rest l
    rw [countOn_cons_of_ne elsewhere] at hroom ⊢
    obtain ⟨hothers, hrestored⟩ := ih (hspares.account.trans hread) hroom
    rw [hledger]
    exact ⟨fun f hf => (hfailures f hf).elim (hothers f) id, hrestored⟩
  | @top m rest a below here planned storable ih =>
    rw [countOn_cons_of_eq here] at hroom ⊢
    obtain ⟨l', a', hundo, hread'⟩ := BalanceMove.run_undo_top planned storable
      (here ▸ hread) (by omega)
    have hnext : (v + 1).toInt = v.toInt + 1 := Int64.toInt_add_one (by omega)
    rw [run_undoAll_of_ok hundo]
    obtain ⟨hothers, w, hrestored, hw⟩ := ih (here ▸ hread') (by omega)
    exact ⟨hothers, w, hrestored, by omega⟩

/-! ## How a saga grows -/

/-- Accounts are read from the ledger, and moves are planned from these readings and carried out, while
nobody else writes. -/
inductive Grows (start : Ledger) : List Account → Saga → Ledger → Prop
  | start : Grows start [] {} start
  | read {readings saga l id a} (h : Grows start readings saga l) (shown : l.account id = .ok a) :
      Grows start (a :: readings) saga l
  | apply {readings saga l snapshot label steps m a saga' l'} (h : Grows start readings saga l)
      (read : snapshot ∈ readings) (planned : BalanceMove.plan snapshot label steps = .ok m)
      (applied : (saga.apply m).run Ledger.answer l = ((.ok a, saga'), l')) :
      Grows start readings saga' l'

/-- A move that is carried out is remembered. -/
theorem apply_ok (h : (saga.apply m).run Ledger.answer l = ((.ok a, saga'), l')) :
    l.updateBalance m.account m.forward = (.ok a, l') ∧ saga' = { applied := saga.applied ++ [m] } := by
  cases hupdate : l.updateBalance m.account m.forward with
  | mk result l₁ =>
    have hasked : (Ask.updateBalance m.account m.forward).run Ledger.answer l = (result, l₁) := hupdate
    unfold apply at h
    rw [run_bind_of hasked] at h
    cases result with
    | ok a₁ =>
      cases h
      exact ⟨rfl, rfl⟩
    | error e => cases h

end Saga

/-- **A move that is carried out was planned from the version that it met**, and has left its result. -/
theorem BalanceMove.PlannedOn.version_of_updateBalance {m : BalanceMove} {snapshot a b : Account}
    {l l' : Ledger} (hp : m.PlannedOn snapshot)
    (hupdate : l.updateBalance m.account m.forward = (.ok b, l'))
    (hread : l.account m.account = .ok a) :
    snapshot.version = a.version ∧ a.version.toInt + 1 < 2 ^ 63 ∧ m.ToStorable := by
  rcases l.updateBalance_cases m.account m.forward with ⟨e, he⟩ | ⟨⟨row, row', hwritten⟩, hanswer, -⟩
  · cases he.symm.trans hupdate
  obtain ⟨row₁, hrow₁, -, hversion, hheld⟩ := Ledger.account_spec hread
  cases hwritten.found.symm.trans hrow₁
  have hsnapshot : row.version = .counted snapshot.version := by
    rw [← hp.version]
    exact of_decide_eq_true hwritten.expected
  have hnext : row'.version = (RowVersion.counted a.version).next := hversion ▸ hwritten.version
  obtain ⟨n, hn⟩ := hwritten.answered.mp (by rw [← hanswer, hupdate]; rfl)
  have hlast : a.version ≠ Int64.maxValue := fun hlast => by
    rw [hn, hlast] at hnext
    cases hnext
  have hheld' : row'.held = ((m.newBalance.units : ℤ), (m.newBlocked.units : ℤ)) :=
    hwritten.held.trans (BalanceUpdate.add_change m.newBalance m.newBlocked _ row.held)
  obtain ⟨hbalance, hblocked⟩ := Prod.mk.inj hheld'
  have hroom := RowVersion.toInt_lt_add_one hlast
  have hroom' := (a.version + 1).toInt_lt
  have := row'.balance.toInt_lt
  have := row'.blocked.toInt_lt
  exact ⟨RowVersion.counted.inj (hsnapshot.symm.trans hversion), by omega, by omega, by omega⟩

namespace Saga
open BalanceMove (Stacked countOn countOn_cons_of_eq countOn_cons_of_ne)
variable {x : AccountId} {before a : Account} {l l' start : Ledger} {saga : Saga}
  {readings : List Account}

/-- What has become of an account that could be read at the start: its moves lie one on the other, and
the readings of it that show its version show it as it is. -/
structure Carries (x : AccountId) (before : Account) (readings : List Account) (saga : Saga)
    (l : Ledger) (a : Account) : Prop where
  shown : l.account x = .ok a
  stacked : Stacked x before saga.applied.reverse a
  version : a.version.toInt = before.version.toInt + countOn x saga.applied
  readings : ∀ r ∈ readings, r.id = x →
    r.version.toInt ≤ a.version.toInt ∧ (r.version = a.version → r = a)

theorem countOn_append (ms : List BalanceMove) (m : BalanceMove) :
    countOn x (ms ++ [m]) = countOn x ms + countOn x [m] := List.countP_append

/-- One more move. -/
theorem Carries.apply (h : Carries x before readings saga l a) {m : BalanceMove}
    {snapshot b : Account} (read : snapshot ∈ readings) (planned : m.PlannedOn snapshot)
    (hupdate : l.updateBalance m.account m.forward = (.ok b, l')) :
    ∃ a', Carries x before readings { applied := saga.applied ++ [m] } l' a' := by
  obtain ⟨shown, stacked, version, readings⟩ := h
  by_cases hx : x = m.account
  · subst hx
    obtain ⟨hversion, hroom, hto⟩ := planned.version_of_updateBalance hupdate shown
    obtain ⟨-, hsame⟩ := readings snapshot read planned.account.symm
    -- the reading that the move was planned from shows the account as it is
    rw [hsame hversion] at planned
    have hid : a.id = m.account := planned.account.symm
    obtain ⟨l₁, hupdate₁, hreplaces⟩ :=
      Ledger.updateBalance_forward (hid ▸ shown) planned hto hroom
    cases hupdate₁.symm.trans hupdate
    have hnext : (a.version + 1).toInt = a.version.toInt + 1 := Int64.toInt_add_one hroom
    refine ⟨m.result a, hid ▸ hreplaces.account_self rfl, ?_, ?_, fun r hr hrx => ?_⟩
    · rw [List.reverse_concat]
      exact .top stacked rfl planned (planned.fromStorable (Ledger.storable_of_account shown))
    · rw [countOn_append, countOn_cons_of_eq rfl]
      refine hnext.trans ?_
      rw [version, Nat.cast_add, ← Int.add_assoc]
      rfl
    · obtain ⟨hle, -⟩ := readings r hr hrx
      have hlt : r.version.toInt < (m.result a).version.toInt := by
        refine Int.lt_of_le_of_lt hle (lt_of_lt_of_eq ?_ hnext.symm)
        exact Int.lt_succ _
      exact ⟨hlt.le, fun heq => absurd (congrArg Int64.toInt heq) hlt.ne⟩
  · have hspares : Ledger.Spares x l l' := .of_updateBalance hx hupdate
    refine ⟨a, hspares.account.trans shown, ?_, ?_, readings⟩
    · rw [List.reverse_concat]
      exact .other stacked hx
    · rw [countOn_append, countOn_cons_of_ne hx]
      exact version

/-- What a saga on a ledger that nobody else writes has made of an account. -/
theorem Grows.carries (h : Grows start readings saga l) (hread : start.account x = .ok before) :
    ∃ a, Carries x before readings saga l a := by
  induction h with
  | start =>
    exact ⟨before, hread, .bottom, (Int.add_zero _).symm, fun r hr => absurd hr List.not_mem_nil⟩
  | @read readings saga l id b h shown ih =>
    obtain ⟨a, ha⟩ := ih
    refine ⟨a, ha.shown, ha.stacked, ha.version, fun r hr hrx => ?_⟩
    rcases List.mem_cons.mp hr with rfl | hr
    · obtain ⟨-, -, hid, -⟩ := Ledger.account_spec shown
      subst hid
      subst hrx
      cases shown.symm.trans ha.shown
      exact ⟨le_refl _, fun _ => rfl⟩
    · exact ha.readings r hr hrx
  | apply h read planned applied ih =>
    obtain ⟨a, ha⟩ := ih
    obtain ⟨hupdate, rfl⟩ := apply_ok applied
    exact ha.apply read (BalanceMove.plan_spec planned).1 hupdate

/-- An account that could not be read at the start has no move. -/
theorem Grows.spares (h : Grows start readings saga l) (hread : ∀ a, start.account x ≠ .ok a) :
    Ledger.Spares x start l ∧ (∀ r ∈ readings, x ≠ r.id) ∧ ∀ m ∈ saga.applied, x ≠ m.account := by
  induction h with
  | start =>
    exact ⟨.refl x start, fun r hr => absurd hr List.not_mem_nil,
      fun m hm => absurd hm List.not_mem_nil⟩
  | @read readings saga l id b h shown ih =>
    obtain ⟨hspares, hreadings, hmoves⟩ := ih
    refine ⟨hspares, List.forall_mem_cons.mpr ⟨fun hx => ?_, hreadings⟩, hmoves⟩
    obtain ⟨-, -, hid, -⟩ := Ledger.account_spec shown
    subst hid
    subst hx
    exact hread _ (hspares.account.symm.trans shown)
  | @apply readings saga l snapshot label steps m a saga' l' h read planned applied ih =>
    obtain ⟨hspares, hreadings, hmoves⟩ := ih
    obtain ⟨hupdate, rfl⟩ := apply_ok applied
    have hm : x ≠ m.account := (BalanceMove.plan_spec planned).1.account ▸ hreadings snapshot read
    have hspares' : Ledger.Spares x l l' := .of_updateBalance hm hupdate
    refine ⟨hspares.trans hspares', hreadings, fun m' hm' => ?_⟩
    rcases List.mem_append.mp hm' with hm' | hm'
    · exact hmoves m' hm'
    · exact List.mem_singleton.mp hm' ▸ hm

/-- The version of an account leaves room for the moves of a saga and for their undos. -/
def RoomFor (start : Ledger) (saga : Saga) (x : AccountId) : Prop :=
  ∀ a, start.account x = .ok a → a.version.toInt + 2 * countOn x saga.applied < 2 ^ 63

/-- An account after a saga was compensated. -/
structure Restored (start : Ledger) (saga : Saga) (x : AccountId)
    (out : List CompensationFailure × Ledger) : Prop where
  unreported : ∀ f ∈ out.1, f.account ≠ x
  holdings : out.2.store.holdings x = start.store.holdings x
  /-- It is as before, and its version has counted each move and each undo. -/
  account : ∀ a, start.account x = .ok a → ∃ v : Int64,
    out.2.account x = .ok { a with version := v } ∧
      v.toInt = a.version.toInt + 2 * countOn x saga.applied

theorem countOn_reverse (ms : List BalanceMove) : countOn x ms.reverse = countOn x ms :=
  List.countP_reverse

/-- **What an undisturbed compensation leaves of an account** is what it held at the start. -/
theorem Grows.restored (h : Grows start readings saga l) (room : RoomFor start saga x) :
    Restored start saga x (saga.compensate.run Ledger.answer l) := by
  cases hread : start.account x with
  | ok before =>
    obtain ⟨a, ha⟩ := h.carries hread
    have hroom := room before hread
    have hversion := ha.version
    obtain ⟨hfailures, v, haccount, hv⟩ :=
      undoAll_stacked (v := a.version) ha.stacked ha.shown (by rw [countOn_reverse]; omega)
    rw [countOn_reverse] at hv
    refine ⟨hfailures, ?_, fun before' h' => ?_⟩
    · exact (Ledger.holdings_of_account haccount).trans (Ledger.holdings_of_account hread).symm
    · cases hread.symm.trans h'
      exact ⟨v, haccount, by omega⟩
  | error e =>
    have hnone : ∀ a, start.account x ≠ .ok a := fun a ha => by cases hread.symm.trans ha
    obtain ⟨hspares, -, hmoves⟩ := h.spares hnone
    obtain ⟨hspares', hfailures⟩ :=
      undoAll_spares (fun m hm => hmoves m (List.mem_reverse.mp hm)) l
    exact ⟨hfailures, (hspares.trans hspares').holdings, fun a ha => absurd (hread.symm.trans ha) nofun⟩

/-- **Compensation undoes each move at most once and reports the rest.**  Whatever the ledger replies,
it proceeds in rounds, one for each move, newest first.  On a ledger that nobody else writes, where
the moves were planned from readings and carried out, it leaves every account whose version has the
room for it as it was before the first move, and reports no move of it. -/
theorem compensation (saga : Saga) :
    (∀ (σ : Type) (answer : (c : LedgerCall) → σ → ledgerCalls.Reply c × σ) (s : σ),
      ∃ rounds, Rounds saga.applied.reverse (saga.compensate.calls answer s)
        (saga.compensate.run answer s).1 rounds) ∧
      ∀ start readings l, Grows start readings saga l →
        (∀ x, RoomFor start saga x →
          Restored start saga x (saga.compensate.run Ledger.answer l)) ∧
        ((∀ x, RoomFor start saga x) → (saga.compensate.run Ledger.answer l).1 = []) := by
  refine ⟨fun σ answer s => saga.compensate_rounds answer s, fun start readings l h =>
    ⟨fun x => h.restored, fun hroom => ?_⟩⟩
  refine List.eq_nil_iff_forall_not_mem.mpr fun f hf => ?_
  exact (h.restored (hroom f.account)).unreported f hf rfl

end Saga

/-! ## Two holds and a credit, and a version that has run out -/

namespace TwoHolds

open Sample
open BalanceMove (plan)

def customer : AccountId := ⟨"customer"⟩

def merchant : AccountId := ⟨"merchant"⟩

def row (id : AccountId) (version : Int64) : AccountRow :=
  { AccountRow.opened id default (details "Cora") with
    balance := 100, version := .counted version }

def start : Ledger := { store := ⟨⟨[row customer 1, row merchant 4], by decide⟩, []⟩ }

def moveOf (a : Account) (label : String) (steps : List BalanceMove.Step) : BalanceMove :=
  (plan a label steps).toOption.getD default

/-- The ledger after a move was carried out. -/
def moved (l : Ledger) (m : BalanceMove) : Ledger := (l.updateBalance m.account m.forward).2

def firstHold : BalanceMove :=
  moveOf (shown start customer) "hold" [.debitBalance (units 60), .block (units 60)]

def credit : BalanceMove := moveOf (shown start merchant) "credit" [.creditBalance (units 5)]

/-- The second hold is planned from what the first one has left. -/
def secondHold : BalanceMove :=
  moveOf (shown (moved start firstHold) customer) "hold" [.debitBalance (units 30), .block (units 30)]

def saga : Saga := ⟨[firstHold, credit, secondHold]⟩

/-- The ledger with all moves in place. -/
def ended : Ledger := moved (moved (moved start firstHold) credit) secondHold

theorem grows : Saga.Grows start
    [shown (moved start firstHold) customer, shown start merchant, shown start customer] saga ended := by
  have hcustomer : start.account customer = .ok (shown start customer) := rfl
  have hmerchant : start.account merchant = .ok (shown start merchant) := rfl
  have hagain : (moved start firstHold).account customer =
      .ok (shown (moved start firstHold) customer) := rfl
  have hfirst : plan (shown start customer) "hold" [.debitBalance (units 60), .block (units 60)] =
      .ok firstHold := rfl
  have hcredit : plan (shown start merchant) "credit" [.creditBalance (units 5)] = .ok credit := rfl
  have hsecond : plan (shown (moved start firstHold) customer) "hold"
      [.debitBalance (units 30), .block (units 30)] = .ok secondHold := rfl
  have hheld : Saga.Grows start _ ⟨[firstHold]⟩ (moved start firstHold) :=
    ((Saga.Grows.start.read hcustomer).read hmerchant).apply (.tail _ (.head _)) hfirst rfl
  have hcredited : Saga.Grows start _ ⟨[firstHold, credit]⟩ (moved (moved start firstHold) credit) :=
    (hheld.read hagain).apply (.tail _ (.head _)) hcredit rfl
  exact hcredited.apply (.head _) hsecond rfl

/-- Both versions leave room. -/
theorem roomFor (x : AccountId) : Saga.RoomFor start saga x := by
  intro a ha
  obtain ⟨row', hrow, -, hversion, -⟩ := Ledger.account_spec ha
  have hmem : row' ∈ [row customer 1, row merchant 4] := Table.mem_of_find? hrow
  have hsmall : a.version.toInt ≤ 4 := by
    rcases List.mem_pair.mp hmem with rfl | rfl
    · rw [← RowVersion.counted.inj hversion]
      decide
    · rw [← RowVersion.counted.inj hversion]
      decide
  have hcount : BalanceMove.countOn x saga.applied ≤ 3 := List.countP_le_length
  omega

/-- Three moves are undone, two of which were made on the same account. -/
theorem compensation_twoHolds :
    ended.store.holdings customer = (10, 90) ∧ ended.store.holdings merchant = (105, 0) ∧
      (saga.compensate.run Ledger.answer ended).1 = [] ∧
      (saga.compensate.run Ledger.answer ended).2.store.holdings customer = (100, 0) ∧
      (saga.compensate.run Ledger.answer ended).2.store.holdings merchant = (100, 0) ∧
      (saga.compensate.calls Ledger.answer ended).length = 6 := by
  obtain ⟨hrestored, hnone⟩ := (Saga.compensation saga).2 start _ ended grows
  refine ⟨by decide, by decide, hnone roomFor, ?_, ?_, rfl⟩
  · exact (hrestored customer (roomFor customer)).holdings.trans (by decide)
  · exact (hrestored merchant (roomFor merchant)).holdings.trans (by decide)

end TwoHolds

namespace LastVersion

open Sample (units shown)
open TwoHolds (customer moveOf moved)

/-- The account can be written once more. -/
def start : Ledger :=
  { store := ⟨⟨[TwoHolds.row customer (Int64.maxValue - 1)], List.pairwise_singleton _ _⟩, []⟩ }

def hold : BalanceMove := moveOf (shown start customer) "hold" [.debitBalance (units 60)]

theorem grows : Saga.Grows start [shown start customer] ⟨[hold]⟩ (moved start hold) := by
  have hcustomer : start.account customer = .ok (shown start customer) := rfl
  have hplan : BalanceMove.plan (shown start customer) "hold" [.debitBalance (units 60)] = .ok hold :=
    rfl
  exact (Saga.Grows.start.read hcustomer).apply (.head _) hplan rfl

/-- The move takes the last version, so its undo cannot be read back and is reported. -/
theorem not_all_restored :
    ((Saga.mk [hold]).compensate.run Ledger.answer (moved start hold)).1 =
        [hold.stranded (.ledger (.database .versionOutgrown))] ∧
      ¬ ∀ start readings saga l, Saga.Grows start readings saga l →
        (saga.compensate.run Ledger.answer l).1 = [] := by
  have hreported : ((Saga.mk [hold]).compensate.run Ledger.answer (moved start hold)).1 =
      [hold.stranded (.ledger (.database .versionOutgrown))] := rfl
  refine ⟨hreported, fun hclaim => ?_⟩
  cases hreported.symm.trans (hclaim start _ _ _ grows)

end LastVersion

end CardHolds
