import CardHolds.Proofs.Engine.Statements
import CardHolds.Proofs.Engine.Transaction
import CardHolds.Proofs.Engine.Visibility

/-!
# The payment log only grows

A `Journal` is kept beside a workload.  It notes what each call got for the rows that it inserted, and
what became of them: a commit adds them to the payments that are committed, and any other end of their
transaction discards them.

`Workload.log_appends` says that callers see exactly the payments that the log held in the beginning
and after them those that the journal has as committed, each as its call got it.  Nothing that was
discarded comes to light, now or later.

What carries the proof is that a row is in one place at a time: in the log, among the discarded ones, or
in the transaction of one call (`Workload.rowsAt`).  A step of a call adds a fresh row to its
transaction or moves the rows of its transaction to another place, so no two places ever share a name
(`Apart`).
-/

namespace CardHolds

open PaymentRow (ReadAs)
open Program

/-! ## Places -/

/-- Where a row can be. -/
inductive Place (ι : Type) where
  | log
  | discarded
  /-- In the transaction of a call. -/
  | pending (k : ι)
deriving DecidableEq

theorem Place.pending_ne_log {ι : Type} (k : ι) : Place.pending k ≠ .log := by
  intro h
  cases h

/-- No name is found in two places. -/
def Apart {ι : Type} (rows : Place ι → List PaymentRow) : Prop :=
  ∀ a b, a ≠ b → ∀ r ∈ rows a, ∀ s ∈ rows b, r.id ≠ s.id

namespace Apart
variable {ι : Type} {rows rows' : Place ι → List PaymentRow} {a b : Place ι}

/-- All rows of one place have gone to another one. -/
theorem moved (h : Apart rows) (left : rows' a = []) (gained : rows' b = rows b ++ rows a)
    (others : ∀ p, p ≠ a → p ≠ b → rows' p = rows p) : Apart rows' := by
  -- every row is where it was, or it was in the first place and is in the second
  have hfrom : ∀ p r, r ∈ rows' p → p ≠ a ∧ (r ∈ rows p ∨ p = b ∧ r ∈ rows a) := by
    intro p r hr
    by_cases hpa : p = a
    · rw [hpa, left] at hr
      cases hr
    · refine ⟨hpa, ?_⟩
      by_cases hpb : p = b
      · rw [hpb, gained] at hr
        rcases List.mem_append.mp hr with hr | hr
        · exact Or.inl (hpb ▸ hr)
        · exact Or.inr ⟨hpb, hr⟩
      · exact Or.inl (others p hpa hpb ▸ hr)
  intro p q hne r hr s hs
  obtain ⟨hpa, hr⟩ := hfrom p r hr
  obtain ⟨hqa, hs⟩ := hfrom q s hs
  rcases hr with hr | ⟨rfl, hr⟩
  · rcases hs with hs | ⟨-, hs⟩
    · exact h p q hne r hr s hs
    · exact h p a hpa r hr s hs
  · rcases hs with hs | ⟨rfl, hs⟩
    · exact h a q hqa.symm r hr s hs
    · exact absurd rfl hne

/-- A row under a name of its own has come to one place. -/
theorem added (h : Apart rows) {row : PaymentRow} (gained : rows' a = rows a ++ [row])
    (others : ∀ p, p ≠ a → rows' p = rows p)
    (fresh : ∀ p, p ≠ a → ∀ r ∈ rows p, r.id ≠ row.id) : Apart rows' := by
  have hfrom : ∀ p r, r ∈ rows' p → r ∈ rows p ∨ p = a ∧ r = row := by
    intro p r hr
    by_cases hpa : p = a
    · rw [hpa, gained] at hr
      rcases List.mem_append.mp hr with hr | hr
      · exact Or.inl (hpa ▸ hr)
      · exact Or.inr ⟨hpa, List.mem_singleton.mp hr⟩
    · exact Or.inl (others p hpa ▸ hr)
  intro p q hne r hr s hs
  rcases hfrom p r hr with hr | ⟨rfl, rfl⟩
  · rcases hfrom q s hs with hs | ⟨rfl, rfl⟩
    · exact h p q hne r hr s hs
    · exact fresh p hne r hr
  · rcases hfrom q s hs with hs | ⟨rfl, -⟩
    · exact (fresh q hne.symm s hs).symm
    · exact absurd rfl hne

end Apart

/-! ## The journal -/

/-- What became of the rows that calls inserted. -/
structure Journal (ι : Type) where
  /-- What each call got for the rows in its open transaction. -/
  drafts : ι → List Payment := fun _ => []
  /-- What the calls got for the rows that were committed, in the order of the commits. -/
  committed : List Payment := []
  /-- The rows whose transaction was rolled back or could not be committed. -/
  discarded : List PaymentRow := []

variable {ι : Type}

namespace Workload
variable {w : Workload ι} {j : Journal ι} {ps : List Payment}

/-- The rows in each place. -/
def rowsAt (w : Workload ι) (j : Journal ι) : Place ι → List PaymentRow
  | .log => w.engine.log.rows.rows
  | .discarded => j.discarded
  | .pending k => (w.callers k).transaction.inserted

/-- The journal is right about a workload whose log started with the given payments. -/
structure Keeps (w : Workload ι) (j : Journal ι) (ps : List Payment) : Prop where
  injective : Function.Injective w.engine.mint.paymentId
  read : ReadAs w.engine.log.rows.rows (ps ++ j.committed)
  filing : ∀ k, ∃ f, (w.callers k).Filing w.engine f ∧ ∀ ds, f.drafts = some ds → j.drafts k = ds
  minted : ∀ place, place ≠ .log → ∀ row ∈ w.rowsAt j place, w.engine.Minted 0 row.id
  apart : Apart (w.rowsAt j)

theorem keeps_start {e : Engine} (readable : ReadAs e.log.rows.rows ps)
    (injective : Function.Injective e.mint.paymentId) (instructions : ι → Instruction)
    (faults : ι → Interference) : (start e instructions faults).Keeps {} ps where
  injective := injective
  read := by
    rw [List.append_nil]
    exact readable
  filing k := ⟨{}, Caller.filing_start e (instructions k) (faults k), fun _ h => by cases h⟩
  minted place hplace row hrow := by
    cases place with
    | log => exact absurd rfl hplace
    | discarded => cases hrow
    | pending k => cases hrow
  apart a b hne r hr s hs := by
    -- there are rows in the log alone
    cases a with
    | discarded => cases hr
    | pending k => cases hr
    | log =>
      cases b with
      | log => exact absurd rfl hne
      | discarded => cases hs
      | pending k => cases hs

/-- Somebody else acts, and log and names stay as they are. -/
theorem Keeps.outside (h : w.Keeps j ps) {e : Engine} (mint : e.mint.paymentId = w.engine.mint.paymentId)
    (inserted : e.paymentsInserted = w.engine.paymentsInserted)
    (rows : e.log.rows = w.engine.log.rows) : ({ w with engine := e } : Workload ι).Keeps j ps := by
  have hrows : ({ w with engine := e } : Workload ι).rowsAt j = w.rowsAt j := by
    funext place
    cases place with
    | log => exact congrArg Table.rows rows
    | discarded => rfl
    | pending k => rfl
  refine ⟨?_, ?_, fun k => ?_, ?_, hrows ▸ h.apart⟩
  · show Function.Injective e.mint.paymentId
    rw [mint]
    exact h.injective
  · show ReadAs e.log.rows.rows _
    rw [rows]
    exact h.read
  · obtain ⟨f, hf, hdrafts⟩ := h.filing k
    exact ⟨f, hf.onward (.of_rows_eq mint inserted.ge rows), hdrafts⟩
  · rw [hrows]
    exact fun place hplace row hrow => (h.minted place hplace row hrow).mono mint inserted.ge

theorem Keeps.hides (h : w.Keeps j ps) (place : Place ι) (hplace : place ≠ .log) {row : PaymentRow}
    (hrow : row ∈ w.rowsAt j place) : w.engine.Hides row.id := by
  refine (Engine.shows_of_readAs h.read).hides fun p hp => ?_
  obtain ⟨stored, hstored, hread⟩ := h.read.exists_row hp
  rw [PaymentRow.id_of_read hread]
  exact h.apart .log place hplace.symm stored hstored row hrow

/-- A name that has not been given yet is none of those that were given. -/
theorem Keeps.ne_of_minted (h : w.Keeps j ps) {place : Place ι} (hplace : place ≠ .log)
    {row : PaymentRow} (hrow : row ∈ w.rowsAt j place) :
    row.id ≠ w.engine.mint.paymentId w.engine.paymentsInserted := by
  obtain ⟨n, -, hlt, hid⟩ := h.minted place hplace row hrow
  rw [hid]
  intro heq
  exact absurd (h.injective heq) (Nat.ne_of_lt hlt)

end Workload

variable [DecidableEq ι]

/-- Enters the next step of a call. -/
def Journal.enter (j : Journal ι) (k : ι) (c : Caller) (e : Engine) : Journal ι where
  drafts := Function.update j.drafts k (c.drafts e (j.drafts k))
  committed := if c.commits e then j.committed ++ j.drafts k else j.committed
  discarded := j.discarded ++ c.discards e

namespace Workload
variable {w : Workload ι} {j : Journal ι} {ps : List Payment}

/-- The journal after an act. -/
def note (w : Workload ι) (j : Journal ι) : Act ι → Journal ι
  | .goOn k => j.enter k (w.callers k) w.engine
  | _ => j

/-- The journal after a schedule. -/
def journal (w : Workload ι) (j : Journal ι) : List (Act ι) → Journal ι
  | [] => j
  | a :: rest => (w.step a).journal (w.note j a) rest

theorem run_append (w : Workload ι) (schedule more : List (Act ι)) :
    w.run (schedule ++ more) = (w.run schedule).run more := List.foldl_append

theorem journal_append (w : Workload ι) (j : Journal ι) (schedule more : List (Act ι)) :
    w.journal j (schedule ++ more) = (w.run schedule).journal (w.journal j schedule) more := by
  induction schedule generalizing w j with
  | nil => rfl
  | cons a rest ih => exact ih (w.step a) (w.note j a)

theorem rowsAt_pending_self (w : Workload ι) (j : Journal ι) (k : ι) :
    (w.step (.goOn k)).rowsAt (w.note j (.goOn k)) (.pending k) =
      ((w.callers k).step w.engine).1.transaction.inserted :=
  congrArg (fun c : Caller => c.transaction.inserted) (Function.update_self ..)

theorem rowsAt_pending_of_ne (w : Workload ι) (j : Journal ι) {k l : ι} (hne : l ≠ k) :
    (w.step (.goOn k)).rowsAt (w.note j (.goOn k)) (.pending l) = w.rowsAt j (.pending l) :=
  congrArg (fun c : Caller => c.transaction.inserted) (Function.update_of_ne hne ..)

/-- **Each row stays in one place.** -/
theorem Keeps.apart_goOn (h : w.Keeps j ps) (k : ι) :
    Apart ((w.step (.goOn k)).rowsAt (w.note j (.goOn k))) := by
  have hself := w.rowsAt_pending_self j k
  have hothers : ∀ {l}, l ≠ k → (w.step (.goOn k)).rowsAt (w.note j (.goOn k)) (.pending l) =
    w.rowsAt j (.pending l) := fun hne => w.rowsAt_pending_of_ne j hne
  have hlog : (w.step (.goOn k)).rowsAt (w.note j (.goOn k)) .log =
    ((w.callers k).step w.engine).2.log.rows.rows := rfl
  have hdiscarded : (w.step (.goOn k)).rowsAt (w.note j (.goOn k)) .discarded =
    j.discarded ++ (w.callers k).discards w.engine := rfl
  cases (w.callers k).transactionStep w.engine with
  | stays _ htransaction hrows =>
    have hnone : (w.callers k).discards w.engine = [] :=
      Caller.discards_of_subset fun row hrow => htransaction ▸ hrow
    have hsame : (w.step (.goOn k)).rowsAt (w.note j (.goOn k)) = w.rowsAt j := by
      funext place
      cases place with
      | log => exact congrArg Table.rows hrows
      | discarded => rw [hdiscarded, hnone, List.append_nil]; rfl
      | pending l =>
        by_cases hl : l = k
        · rw [hl, hself, htransaction]
          rfl
        · exact hothers hl
    rw [hsame]
    exact h.apart
  | inserts row _ htransaction hrows hid _ hfresh =>
    have hnone : (w.callers k).discards w.engine = [] :=
      Caller.discards_of_subset fun row hrow => htransaction ▸ List.mem_append_left _ hrow
    refine h.apart.added (hself.trans htransaction) ?_ ?_
    · intro place hplace
      cases place with
      | log => exact congrArg Table.rows hrows
      | discarded => rw [hdiscarded, hnone, List.append_nil]; rfl
      | pending l => exact hothers fun hl => hplace (hl ▸ rfl)
    · intro place hplace r hr
      by_cases hislog : place = .log
      · rw [hislog] at hr
        exact hfresh r hr
      · rw [hid]
        exact h.ne_of_minted hislog hr
  | commits hcommits htransaction hrows =>
    have hnone := Caller.discards_of_commits hcommits
    refine h.apart.moved (a := .pending k) (b := .log) ?_ hrows ?_
    · rw [hself, htransaction]
    · intro place hplace hnot
      cases place with
      | log => exact absurd rfl hnot
      | discarded => rw [hdiscarded, hnone, List.append_nil]; rfl
      | pending l => exact hothers fun hl => hplace (hl ▸ rfl)
  | discards hcommits htransaction hrows =>
    have hall := Caller.discards_of_empty hcommits htransaction
    refine h.apart.moved (a := .pending k) (b := .discarded) ?_ ?_ ?_
    · rw [hself, htransaction]
    · rw [hdiscarded, hall]
      rfl
    · intro place hplace hnot
      cases place with
      | log => exact congrArg Table.rows hrows
      | discarded => exact absurd rfl hnot
      | pending l => exact hothers fun hl => hplace (hl ▸ rfl)

/-- What a call commits is what it got for the one row of its transaction. -/
theorem Keeps.read_goOn (h : w.Keeps j ps) (k : ι) :
    ReadAs (w.step (.goOn k)).engine.log.rows.rows (ps ++ (w.note j (.goOn k)).committed) := by
  have hcommitted : (w.note j (.goOn k)).committed =
    if (w.callers k).commits w.engine then j.committed ++ j.drafts k else j.committed := rfl
  have hsame : (w.callers k).commits w.engine = false →
      ((w.callers k).step w.engine).2.log.rows = w.engine.log.rows →
        ReadAs (w.step (.goOn k)).engine.log.rows.rows (ps ++ (w.note j (.goOn k)).committed) := by
    intro hcommits hrows
    show ReadAs ((w.callers k).step w.engine).2.log.rows.rows _
    rw [hcommitted, hcommits, hrows]
    exact h.read
  cases (w.callers k).transactionStep w.engine with
  | stays hcommits _ hrows => exact hsame hcommits hrows
  | inserts _ hcommits _ hrows => exact hsame hcommits hrows
  | discards hcommits _ hrows => exact hsame hcommits hrows
  | commits hcommits _ hrows =>
    obtain ⟨f, hf, hdrafts⟩ := h.filing k
    obtain ⟨next, hrest⟩ := Caller.rest_of_commits hcommits
    obtain ⟨-, p, hp, -⟩ := hf.asks hrest
    show ReadAs ((w.callers k).step w.engine).2.log.rows.rows _
    rw [hcommitted, if_pos hcommits, hrows, hdrafts _ hp, ← List.append_assoc]
    exact h.read.append (hf.drafted _ hp).1

theorem Keeps.goOn (h : w.Keeps j ps) (k : ι) :
    (w.step (.goOn k)).Keeps (w.note j (.goOn k)) ps := by
  obtain ⟨f, hf, hdrafts⟩ := h.filing k
  have honward := hf.logOnward
  have hnames : (w.step (.goOn k)).engine.mint.paymentId = w.engine.mint.paymentId := honward.names
  refine ⟨hnames ▸ h.injective, h.read_goOn k, fun l => ?_, fun place hplace row hrow => ?_,
    h.apart_goOn k⟩
  · by_cases hl : l = k
    · subst hl
      show ∃ f, (Function.update w.callers l _ l).Filing _ f ∧
        ∀ ds, f.drafts = some ds → Function.update j.drafts l _ l = ds
      rw [Function.update_self, Function.update_self]
      cases hrest : (w.callers l).rest with
      | done result =>
        rw [Caller.drafts, hrest]
        refine ⟨f, ?_, hdrafts⟩
        show ((w.callers l).step w.engine).1.Filing ((w.callers l).step w.engine).2 f
        rw [Caller.step_done hrest]
        exact hf
      | ask call next => exact ⟨_, hf.observe hrest, Caller.drafts_of_file hrest hdrafts⟩
    · obtain ⟨g, hg, hgdrafts⟩ := h.filing l
      show ∃ f, (Function.update w.callers k _ l).Filing _ f ∧
        ∀ ds, f.drafts = some ds → Function.update j.drafts k _ l = ds
      rw [Function.update_of_ne hl, Function.update_of_ne hl]
      exact ⟨g, hg.onward honward, hgdrafts⟩
  · -- only a new row has a new name
    have hold : ∀ {p}, p ≠ .log → row ∈ w.rowsAt j p → (w.step (.goOn k)).engine.Minted 0 row.id :=
      fun hp hr => (h.minted _ hp row hr).mono hnames honward.inserted
    cases place with
    | log => exact absurd rfl hplace
    | discarded =>
      rcases List.mem_append.mp hrow with hr | hr
      · exact hold hplace hr
      · exact hold (Place.pending_ne_log k) (Caller.mem_of_mem_discards hr)
    | pending l =>
      by_cases hl : l = k
      · subst hl
        rw [rowsAt_pending_self] at hrow
        rcases Caller.mem_transaction_step hrow with hr | ⟨hid, hinserted⟩
        · exact hold (Place.pending_ne_log l) hr
        · refine ⟨w.engine.paymentsInserted, Nat.zero_le _, ?_, hid.trans ?_⟩
          · show _ < ((w.callers l).step w.engine).2.paymentsInserted
            rw [hinserted]
            exact Nat.lt_succ_self _
          · rw [hnames]
      · rw [rowsAt_pending_of_ne w j hl] at hrow
        exact hold hplace hrow

theorem Keeps.step (h : w.Keeps j ps) (a : Act ι) : (w.step a).Keeps (w.note j a) ps := by
  cases a with
  | goOn k => exact h.goOn k
  | operate command => exact h.outside rfl rfl rfl
  | setClock now => exact h.outside rfl rfl rfl
  | closeLedger => exact h.outside rfl rfl rfl
  | closeLog => exact h.outside rfl rfl rfl
  | reopen => exact h.outside rfl rfl rfl

/-- **The journal stays right**, whatever is done. -/
theorem Keeps.run (h : w.Keeps j ps) (schedule : List (Act ι)) :
    (w.run schedule).Keeps (w.journal j schedule) ps := by
  induction schedule generalizing w j with
  | nil => exact h
  | cons a rest ih => exact ih (h.step a)

/-! ## What callers see -/

theorem journal_grows (w : Workload ι) (j : Journal ι) (schedule : List (Act ι)) :
    j.committed <+: (w.journal j schedule).committed ∧
      j.discarded <+: (w.journal j schedule).discarded := by
  induction schedule generalizing w j with
  | nil => exact ⟨List.prefix_rfl, List.prefix_rfl⟩
  | cons a rest ih =>
    obtain ⟨hcommitted, hdiscarded⟩ := ih (w.step a) (w.note j a)
    have hnote : j.committed <+: (w.note j a).committed ∧ j.discarded <+: (w.note j a).discarded := by
      cases a with
      | goOn k =>
        refine ⟨?_, List.prefix_append _ _⟩
        show _ <+: if (w.callers k).commits w.engine then _ else _
        split
        · exact List.prefix_append _ _
        · exact List.prefix_rfl
      | _ => exact ⟨List.prefix_rfl, List.prefix_rfl⟩
    exact ⟨hnote.1.trans hcommitted, hnote.2.trans hdiscarded⟩

/-- A call that takes no step stays as it is. -/
theorem callers_run_of_not_mem (w : Workload ι) {k : ι} {schedule : List (Act ι)}
    (h : .goOn k ∉ schedule) : (w.run schedule).callers k = w.callers k := by
  induction schedule generalizing w with
  | nil => rfl
  | cons a rest ih =>
    have hstep : (w.step a).callers k = w.callers k := by
      cases a with
      | goOn l =>
        refine Function.update_of_ne (fun hkl => h ?_) ..
        rw [hkl]
        exact List.mem_cons_self
      | _ => rfl
    exact (ih (w.step a) fun hmem => h (List.mem_cons_of_mem a hmem)).trans hstep

/-- The log is append-only as far as callers can see.  After the schedule they see the payments from the
beginning and the committed ones after them, and no two of the same name.  After any more acts the
committed payments are the same and perhaps others after them, so that an answer for an account is a
prefix of any later one; and nobody gets to see a row that was discarded, or one in the transaction of
a call that was dropped. -/
structure AppendOnly (w : Workload ι) (ps : List Payment) (schedule : List (Act ι)) : Prop where
  shows : (w.run schedule).engine.Shows (ps ++ (w.journal {} schedule).committed)
  names : ((ps ++ (w.journal {} schedule).committed).map Payment.id).Nodup
  committed : ∀ more,
    (w.journal {} schedule).committed <+: (w.journal {} (schedule ++ more)).committed
  answers : ∀ more x i i' earlier later,
    ((w.run schedule).engine.call i (paymentsForAccount x)).1 = .ok earlier →
      ((w.run (schedule ++ more)).engine.call i' (paymentsForAccount x)).1 = .ok later →
        earlier <+: later
  discarded : ∀ more, ∀ row ∈ (w.journal {} schedule).discarded,
    (w.run (schedule ++ more)).engine.Hides row.id
  dropped : ∀ more k, .goOn k ∉ more →
    ∀ row ∈ ((w.run schedule).callers k).transaction.inserted,
      (w.run (schedule ++ more)).engine.Hides row.id

/-- **The payment log is append-only and reads are exact.**  From any log that reads back, whatever the
calls, their faults and the order of their steps, callers see the payments that the log held and after
them those that were committed, each as its call got it when inserting it, and no others. -/
theorem log_appends {e : Engine} (readable : ReadAs e.log.rows.rows ps)
    (injective : Function.Injective e.mint.paymentId) (instructions : ι → Instruction)
    (faults : ι → Interference) (schedule : List (Act ι)) :
    (start e instructions faults).AppendOnly ps schedule := by
  have hkeeps := (keeps_start readable injective instructions faults).run schedule
  generalize start e instructions faults = w at hkeeps
  have hlater : ∀ more, (w.run (schedule ++ more)).Keeps (w.journal {} (schedule ++ more)) ps := by
    intro more
    rw [run_append, journal_append]
    exact hkeeps.run more
  have hgrows : ∀ more, (w.journal {} schedule).committed <+:
        (w.journal {} (schedule ++ more)).committed ∧
      (w.journal {} schedule).discarded <+: (w.journal {} (schedule ++ more)).discarded := by
    intro more
    rw [journal_append]
    exact (w.run schedule).journal_grows _ more
  refine ⟨Engine.shows_of_readAs hkeeps.read, hkeeps.read.nodup_ids, fun more => (hgrows more).1,
    fun more x i i' earlier later hearlier hlater' => ?_, fun more row hrow => ?_,
    fun more k hk row hrow => ?_⟩
  · rw [(Engine.shows_of_readAs hkeeps.read).payments_ok hearlier,
      (Engine.shows_of_readAs (hlater more).read).payments_ok hlater']
    exact ((List.prefix_append_right_inj ps).mpr (hgrows more).1).filter _
  · exact (hlater more).hides .discarded nofun ((hgrows more).2.subset hrow)
  · refine (hlater more).hides (.pending k) (Place.pending_ne_log k) ?_
    show row ∈ ((w.run (schedule ++ more)).callers k).transaction.inserted
    rw [run_append, callers_run_of_not_mem _ hk]
    exact hrow

end Workload

/-! ## Rows that come to nothing -/

namespace LostRows

open Sample

/-- A payment that was captured before. -/
def earlier : Payment where
  id := ⟨"earlier"⟩
  merchant := merchant
  customer := customer
  card := card.snapshot
  currency := "EUR"
  operation := .capture
  status := .successfulPayment
  amount := units 15
  recordedAt := Mint.unary.now

/-- How it is stored. -/
def row : PaymentRow where
  id := earlier.id
  merchant := merchant
  customer := customer
  card := card.snapshot
  currency := "EUR"
  operation := "Capture"
  status := "Successful payment"
  amount := 15
  recordedAt := Mint.unary.now

def engine : Engine := { Sample.engine with log := { rows := ⟨[row], List.nodup_singleton _⟩ } }

/-- Four authorizations, and a capture of the first. -/
def instruction : Fin 5 → Instruction
  | 0 => .authorize (request (units 40))
  | 1 => .authorize (request (units 30))
  | 2 => .react .capture (Mint.unary.paymentId 0) (units 40)
  | 3 => .authorize (request (units 20))
  | 4 => .authorize (request (units 10))

/-- The second call cannot put its payment on the statement of the merchant, the third cannot commit,
and the fourth commits without getting to know it. -/
def faults : Fin 5 → Interference
  | 1 => .ofFaults
      [{ site := .append, account := some merchant, instead := some (.stream (.rejected "gone")) }]
  | 2 => .ofFaults [{ site := .commit, instead := some (.log (.database .closed)) }]
  | 3 => .ofFaults [{ site := .commit, replacing := some (.log (.database .closed)) }]
  | _ => .ofFaults []

/-- The last call is dropped when it has inserted its row. -/
def schedule : List (Workload.Act (Fin 5)) :=
  ([0, 1, 2, 3] : List (Fin 5)).flatMap (fun k => List.replicate 25 (.goOn k)) ++
    List.replicate 6 (.goOn 4)

def workload : Workload (Fin 5) := .start engine instruction faults

/-- Callers see the payment from before, the first authorization and the one whose call did not get to
know that it is recorded; the other rows have come to nothing. -/
theorem log_appends_lostRows :
    ReadAs engine.log.rows.rows [earlier] ∧ Function.Injective engine.mint.paymentId ∧
      workload.AppendOnly [earlier] schedule ∧
      (workload.run schedule).engine.log.rows.rows.map PaymentRow.id =
        [earlier.id, Mint.unary.paymentId 0, Mint.unary.paymentId 3] ∧
      (workload.journal {} schedule).committed.map (fun p => (p.id, p.status, p.amount)) =
        [(Mint.unary.paymentId 0, .approved, units 40), (Mint.unary.paymentId 3, .approved, units 20)] ∧
      (workload.journal {} schedule).discarded.map PaymentRow.id =
        [Mint.unary.paymentId 1, Mint.unary.paymentId 2] ∧
      ((workload.run schedule).callers 4).transaction.inserted.map PaymentRow.id =
        [Mint.unary.paymentId 4] := by
  have readable : ReadAs engine.log.rows.rows [earlier] :=
    PaymentRow.readAs_singleton (PaymentRow.read_of_ofPayment rfl)
  have hmint : engine.mint = .unary := Engine.mint_performAll _ _
  have injective : Function.Injective engine.mint.paymentId := hmint ▸ Mint.injective_paymentId_unary
  exact ⟨readable, injective, Workload.log_appends readable injective instruction faults schedule,
    by decide +kernel, by decide +kernel, by decide +kernel, by decide +kernel⟩

end LostRows

end CardHolds
