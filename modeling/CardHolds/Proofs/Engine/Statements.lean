import CardHolds.Proofs.Engine.Entries

/-!
# Statements and payment log agree

An engine lives through a list of `Deed`s: whole lifecycle calls, each under any interference, and
operations of the ledger in between.  Where nobody but the calls touches the statements, the statement
of every account shows, in the order of the log, exactly the payments of the log that are listed for
it (`Payment.listedOn`).  An entry that belongs to no row of the log was left by a call that returned
an error (`Engine.statements_agree`).

The order is that of the log because one call ends before the next begins.  What carries the proof is
that all names of rows are different, so that no entry of one call can be taken for one of another.
-/

namespace CardHolds

open Payment (paidBy paidTo)
open PaymentRow (ReadAs)
open Program

/-- The payment is on the statement of the account: of the merchant always, and of the customer if
money moved. -/
def Payment.listedOn (x : AccountId) (p : Payment) : Bool :=
  p.paidTo x || (p.paidBy x && p.status.isSettled)

/-- Each account that a row is listed for gets one entry. -/
theorem NewPayment.payments_listedFor (row : NewPayment) (id : PaymentId) (now : Timestamp)
    (hne : row.customer ≠ row.merchant) (x : AccountId) :
    ((row.listedFor.map fun account => (⟨account, id⟩ : StatementEntry)).filter
        fun entry => decide (entry.account = x)).map StatementEntry.payment =
      if (row.recorded id now).listedOn x then [id] else [] := by
  have hlisted : (row.recorded id now).listedOn x =
      (decide (row.merchant = x) || (decide (row.customer = x) && row.status.isSettled)) := rfl
  rw [hlisted, listedFor]
  cases row.status.isSettled with
  | false => by_cases hm : row.merchant = x <;> simp [hm]
  | true =>
    by_cases hm : row.merchant = x
    · have hc : row.customer ≠ x := fun h => hne (h.trans hm.symm)
      simp [hm, hc]
    · by_cases hc : row.customer = x <;> simp [hm, hc]

/-! ## One call -/

/-- An engine in the middle of a call that started from `e`, seen by the file of the call. -/
structure File.Holds (Lawful : Option Payment → Decision → Prop) (e : Engine) (x : Execution)
    (f : File) : Prop where
  names : x.engine.mint.paymentId = e.mint.paymentId
  inserted : e.paymentsInserted ≤ x.engine.paymentsInserted
  drafted : f.Drafted e.paymentsInserted x.engine x.transaction
  inOrder : f.InOrder Lawful
  rows : (x.engine.log.rows = e.log.rows ∧ ∀ p, f.filed ≠ .certain p) ∨
    ∃ row p, f.filed.payment? = some p ∧ row.read = .ok p ∧
      x.engine.Minted e.paymentsInserted p.id ∧
      x.engine.log.rows.rows = e.log.rows.rows ++ [row]
  found : ∀ q, f.found = some q → ∃ row ∈ e.log.rows.rows, row.read = .ok q

/-- The entries are those from before the call and its own, which carry names of its rows. -/
def File.Lists (e : Engine) (x : Execution) (f : File) : Prop :=
  ∃ own, x.entries = e.ledger.store.entries ++ own ∧ f.entries.Backed x.peer.replies own ∧
    ∀ entry ∈ own, x.engine.Minted e.paymentsInserted entry.payment

namespace File
variable {Lawful : Option Payment → Decision → Prop} {e : Engine} {x : Execution} {f : File}
  {i : Interference}

theorem holds_start (e : Engine) : ({} : File).Holds Lawful e { engine := e } :=
  ⟨rfl, le_rfl, drafted_of_none rfl, inOrder_start, Or.inl ⟨rfl, fun _ h => by cases h⟩,
    fun _ h => by cases h⟩

theorem lists_start (e : Engine) : ({} : File).Lists e { engine := e } :=
  ⟨[], (List.append_nil _).symm, EntryFile.backed_start _, fun _ h => absurd h List.not_mem_nil⟩

/-- **What a file holds is kept by every call to the environment.** -/
theorem Holds.answer (h : f.Holds Lawful e x) (c : LifecycleCall)
    (hask : (filing Lawful).Asks f c) :
    ((filing Lawful).observe f c (Execution.answer i c x).1).Holds Lawful e
      (Execution.answer i c x).2 := by
  have hfollows := Execution.answer_follows (i := i) h.drafted h.inserted c hask
  have hinserted := h.inserted.trans hfollows.inserted
  refine ⟨hfollows.names.trans h.names, hinserted, hfollows.drafted,
    h.inOrder.observe c hask _, ?_, fun q hq => ?_⟩
  · rcases hfollows.rows with ⟨hlog, hfiled⟩ | ⟨row, p, hnothing, hfiled, -, hread, hminted, hlog⟩
    · rcases h.rows with ⟨hrows, hcertain⟩ | ⟨row, p, hp, hread, hminted, hrows⟩
      · refine Or.inl ⟨hlog.trans hrows, fun p hp => ?_⟩
        rcases hfiled with hsame | ⟨-, p', hdoubtful⟩
        · exact hcertain p (hsame ▸ hp)
        · rw [hdoubtful] at hp
          cases hp
      · right
        rcases hfiled with hsame | ⟨hnothing, -⟩
        · exact ⟨row, p, hsame ▸ hp, hread, hminted.mono hfollows.names hfollows.inserted,
            hlog ▸ hrows⟩
        · rw [hnothing] at hp
          cases hp
    · -- nothing was filed before, so the log was as at the start
      rcases h.rows with ⟨hrows, -⟩ | ⟨-, p', hp', -⟩
      · exact Or.inr ⟨row, p, hfiled, hread, hminted, hrows ▸ hlog⟩
      · rw [hnothing] at hp'
        cases hp'
  · rcases hfollows.found with hfound | ⟨hnothing, hfound⟩
    · exact h.found q (hfound ▸ hq)
    · obtain ⟨row, hrow, hread⟩ := hfound q hq
      rcases h.rows with ⟨hrows, -⟩ | ⟨-, p, hp, -⟩
      · exact ⟨row, hrows ▸ hrow, hread⟩
      · rw [hnothing] at hp
        cases hp

/-- **The entries of a call are kept in order by every call to the environment.** -/
theorem Lists.answer (h : f.Lists e x) (keeps : i.KeepsStatements) (hx : f.Holds Lawful e x)
    (c : LifecycleCall) (hask : (filing Lawful).Asks f c) :
    ((filing Lawful).observe f c (Execution.answer i c x).1).Lists e (Execution.answer i c x).2 := by
  obtain ⟨own, hentries, hbacked, hminted⟩ := h
  have hfollows := Execution.answer_follows (i := i) hx.drafted hx.inserted c hask
  obtain ⟨new, hnew, hbacked', hallowed⟩ := Execution.answer_entries keeps hbacked c hask
  refine ⟨own ++ new, by rw [hnew, hentries, List.append_assoc], hbacked', fun entry hentry => ?_⟩
  rcases List.mem_append.mp hentry with hold | hmem
  · exact (hminted entry hold).mono hfollows.names hfollows.inserted
  · obtain ⟨request, ⟨-, p, hdrafts, hpayment⟩, rfl⟩ := hallowed entry hmem
    have hp := (hx.drafted _ hdrafts).2 p (List.mem_singleton_self p)
    have hname : request.entry.payment = p.id := hpayment
    rw [hname]
    exact hp.mono hfollows.names hfollows.inserted

end File

/-- What the file of a whole call shows at its end. -/
theorem Engine.call_files (e : Engine) {i : Interference} (keeps : i.KeepsStatements)
    (instruction : Instruction) :
    ∃ f : File, Instruction.Closes (e.call i (instruction.program e.retries)).1 f ∧
      f.Holds (fun found => instruction.Decides found) e
        (e.call i (instruction.program e.retries)).2 ∧
      f.Lists e (e.call i (instruction.program e.retries)).2 := by
  obtain ⟨f, hcloses, hholds, hlists⟩ := (instruction.program_files e.retries).run_keeps
    (Execution.answer i) (fun x f => f.Holds (fun found => instruction.Decides found) e x ∧ f.Lists e x)
    (fun c x f ⟨hholds, hlists⟩ hask => ⟨Execution.answer_replies i x f c,
      hholds.answer c hask, hlists.answer keeps hholds c hask⟩)
    (x := { engine := e }) ⟨File.holds_start e, File.lists_start e⟩
  exact ⟨f, hcloses, hholds, hlists⟩

/-- **A lost attempt leaves no entry**, wherever it is made. -/
theorem Execution.entries_of_lost {i : Interference} (keeps : i.KeepsStatements)
    (customer merchant : AccountId) (decide : Account → Account → Except MoveError Decision)
    (x : Execution) (hlost : (Execution.run i (Flow.attempt customer merchant decide) x).1 = .lost) :
    (Execution.run i (Flow.attempt customer merchant decide) x).2.entries = x.entries := by
  obtain ⟨f, hpost, own, hentries, hbacked⟩ :=
    (Flow.attempt_files (f := {}) (fun _ _ => True) none
      (fun d (_ : Flow.Plans customer merchant decide d) => trivial) ⟨rfl, rfl, rfl⟩).run_keeps
    (Execution.answer i)
    (fun y f => ∃ own, y.entries = x.entries ++ own ∧ f.entries.Backed y.peer.replies own)
    (fun c y f ⟨own, hentries, hbacked⟩ hask => by
      obtain ⟨new, hnew, hbacked', -⟩ := Execution.answer_entries keeps hbacked c hask
      exact ⟨Execution.answer_replies i y f c, own ++ new,
        by rw [hnew, hentries, List.append_assoc], hbacked'⟩)
    (x := x) ⟨[], (List.append_nil _).symm, EntryFile.backed_start _⟩
  have hlost' : (Program.run (Execution.answer i) (Flow.attempt customer merchant decide) x).1 =
    .lost := hlost
  rw [hlost'] at hpost
  have hblank : f.entries = {} := hpost.entries
  rw [hblank] at hbacked
  have hnone : own = [] := hbacked
  exact hentries.trans (by rw [hnone, List.append_nil])

/-! ## The life of an engine -/

/-- What an engine may go through: a whole lifecycle call, or anything that others do meanwhile. -/
inductive Deed where
  | call (faults : Interference) (instruction : Instruction)
  /-- An operation of the ledger. -/
  | operate (command : Ledger.Command)
  | setClock (now : Timestamp)
  | closeLedger
  | closeLog
  | reopen

/-- Nobody but the calls touches the statements. -/
def Deed.KeepsStatements : Deed → Prop
  | call faults _ => faults.KeepsStatements
  | operate command => command.keepsStatements = true
  | _ => True

namespace Engine

/-- The engine after a deed. -/
def after (e : Engine) : Deed → Engine
  | .call faults instruction => (e.call faults (instruction.program e.retries)).2.engine
  | .operate command => (e.perform command).2
  | .setClock now => { e with mint := { e.mint with now := now } }
  | .closeLedger => e.closeLedger
  | .closeLog => e.closeLog
  | .reopen => e.reopen

/-- The engine after several deeds, one after the other. -/
def afterAll (e : Engine) (deeds : List Deed) : Engine := deeds.foldl after e

@[simp] theorem afterAll_nil (e : Engine) : e.afterAll [] = e := rfl

theorem afterAll_append (e : Engine) (deeds : List Deed) (d : Deed) :
    e.afterAll (deeds ++ [d]) = (e.afterAll deeds).after d := by
  rw [afterAll, List.foldl_append]
  rfl

/-- One of the deeds is a call that returned an error, and the name was given to a row of it. -/
def MintedInVain (e : Engine) (deeds : List Deed) (id : PaymentId) : Prop :=
  ∃ before faults instruction later error,
    deeds = before ++ .call faults instruction :: later ∧
    ((e.afterAll before).call faults (instruction.program (e.afterAll before).retries)).1 =
      .error error ∧
    (e.afterAll (before ++ [.call faults instruction])).Minted (e.afterAll before).paymentsInserted id

theorem MintedInVain.append {e : Engine} {deeds : List Deed} {id : PaymentId}
    (h : e.MintedInVain deeds id) (d : Deed) : e.MintedInVain (deeds ++ [d]) id := by
  obtain ⟨before, faults, instruction, later, error, rfl, herror, hminted⟩ := h
  exact ⟨before, faults, instruction, later ++ [d], error, by simp, herror, hminted⟩

/-- The statements of an engine that has gone through some deeds agree with the payments of its
log. -/
structure Agreed (e₀ : Engine) (deeds : List Deed) (e : Engine) (ps : List Payment) : Prop where
  names : e.mint.paymentId = e₀.mint.paymentId
  read : ReadAs e.log.rows.rows ps
  regular : ∀ p ∈ ps, p.Regular
  committed : ∀ p ∈ ps, e.Minted 0 p.id
  entered : ∀ entry ∈ e.ledger.store.entries, e.Minted 0 entry.payment
  listed : ∀ x, (e.ledger.store.statement x).filter (fun id => decide (id ∈ ps.map Payment.id)) =
    (ps.filter (·.listedOn x)).map Payment.id
  others : ∀ entry ∈ e.ledger.store.entries, entry.payment ∉ ps.map Payment.id →
    e₀.MintedInVain deeds entry.payment

namespace Agreed
variable {e₀ e e' : Engine} {deeds : List Deed} {ps : List Payment}

/-- Nothing was recorded or entered. -/
theorem same (h : e₀.Agreed deeds e ps) (d : Deed) (names : e'.mint.paymentId = e.mint.paymentId)
    (inserted : e.paymentsInserted ≤ e'.paymentsInserted) (rows : e'.log.rows = e.log.rows)
    (entries : e'.ledger.store.entries = e.ledger.store.entries) :
    e₀.Agreed (deeds ++ [d]) e' ps where
  names := names.trans h.names
  read := rows ▸ h.read
  regular := h.regular
  committed p hp := (h.committed p hp).mono names inserted
  entered entry hentry := (h.entered entry (entries ▸ hentry)).mono names inserted
  listed x := by
    have hstatement : e'.ledger.store.statement x = e.ledger.store.statement x := by
      rw [LedgerStore.statement, LedgerStore.statement, entries]
    rw [hstatement]
    exact h.listed x
  others entry hentry hid := (h.others entry (entries ▸ hentry) hid).append d

/-- A name that was given later is another one. -/
theorem ne_of_minted (names : e'.mint.paymentId = e.mint.paymentId)
    (injective : Function.Injective e.mint.paymentId) {new old : PaymentId}
    (hnew : e'.Minted e.paymentsInserted new) (hold : e.Minted 0 old) : old ≠ new := by
  obtain ⟨n, hn, -, rfl⟩ := hnew
  obtain ⟨m, -, hm, rfl⟩ := hold
  rw [names]
  intro heq
  have : m = n := injective heq
  omega

theorem exists_entry {store : LedgerStore} {x : AccountId} {id : PaymentId}
    (h : id ∈ store.statement x) : ∃ entry ∈ store.entries, entry.payment = id := by
  obtain ⟨entry, hentry, hid⟩ := List.mem_map.mp h
  exact ⟨entry, (List.mem_filter.mp hentry).1, hid⟩

/-- A row was recorded, with an entry for each account that it is listed for. -/
theorem record (h : e₀.Agreed deeds e ps) (injective : Function.Injective e₀.mint.paymentId)
    (deed : Deed) (names : e'.mint.paymentId = e.mint.paymentId)
    (inserted : e.paymentsInserted ≤ e'.paymentsInserted) {row : PaymentRow} {new : NewPayment}
    {id : PaymentId} {now : Timestamp} (hread : row.read = .ok (new.recorded id now))
    (rows : e'.log.rows.rows = e.log.rows.rows ++ [row])
    (hregular : (new.recorded id now).Regular) (hminted : e'.Minted e.paymentsInserted id)
    (entries : e'.ledger.store.entries =
      e.ledger.store.entries ++ new.listedFor.map fun account => ⟨account, id⟩) :
    e₀.Agreed (deeds ++ [deed]) e' (ps ++ [new.recorded id now]) := by
  have hnew : ∀ {old}, e.Minted 0 old → old ≠ id := fun hold =>
    ne_of_minted names (h.names.symm ▸ injective) hminted hold
  have hids : (ps ++ [new.recorded id now]).map Payment.id = ps.map Payment.id ++ [id] :=
    List.map_append
  refine ⟨names.trans h.names, ?_, fun p hp => ?_, fun p hp => ?_, fun entry hentry => ?_,
    fun x => ?_, fun entry hentry hid => ?_⟩
  · rw [rows]
    exact h.read.append (PaymentRow.readAs_singleton hread)
  · rcases List.mem_append.mp hp with hp | hp
    · exact h.regular p hp
    · rwa [List.mem_singleton.mp hp]
  · rcases List.mem_append.mp hp with hp | hp
    · exact (h.committed p hp).mono names inserted
    · rw [List.mem_singleton.mp hp]
      exact hminted.of_le (Nat.zero_le _)
  · rw [entries] at hentry
    rcases List.mem_append.mp hentry with hentry | hentry
    · exact (h.entered entry hentry).mono names inserted
    · obtain ⟨account, -, rfl⟩ := List.mem_map.mp hentry
      exact hminted.of_le (Nat.zero_le _)
  · -- no old entry carries the new name, and all new entries do
    rw [LedgerStore.statement_of_entries entries, hids, List.filter_append, List.filter_append,
      List.map_append, ← h.listed x]
    congr 1
    · refine List.filter_congr fun old hold => ?_
      obtain ⟨entry, hentry, rfl⟩ := exists_entry hold
      have hne := hnew (h.entered entry hentry)
      simp [hne]
    · rw [new.payments_listedFor id now hregular.accounts]
      by_cases hlisted : (new.recorded id now).listedOn x = true
      · rw [if_pos hlisted, List.filter_cons_of_pos hlisted, List.filter_nil,
          List.filter_cons_of_pos (by simp), List.filter_nil]
        rfl
      · rw [if_neg hlisted, List.filter_cons_of_neg hlisted, List.filter_nil, List.filter_nil]
        rfl
  · rw [hids] at hid
    rw [entries] at hentry
    rcases List.mem_append.mp hentry with hentry | hentry
    · exact (h.others entry hentry fun hmem => hid (List.mem_append_left _ hmem)).append deed
    · obtain ⟨account, -, rfl⟩ := List.mem_map.mp hentry
      exact absurd (List.mem_append_right _ (List.mem_singleton_self id)) hid

/-- Nothing was recorded, and the entries that were left carry names given in vain. -/
theorem fail (h : e₀.Agreed deeds e ps) (injective : Function.Injective e₀.mint.paymentId)
    (deed : Deed) (names : e'.mint.paymentId = e.mint.paymentId)
    (inserted : e.paymentsInserted ≤ e'.paymentsInserted) (rows : e'.log.rows = e.log.rows)
    {own : List StatementEntry} (entries : e'.ledger.store.entries = e.ledger.store.entries ++ own)
    (hminted : ∀ entry ∈ own, e'.Minted e.paymentsInserted entry.payment)
    (vain : ∀ entry ∈ own, e₀.MintedInVain (deeds ++ [deed]) entry.payment) :
    e₀.Agreed (deeds ++ [deed]) e' ps := by
  have hnew : ∀ entry ∈ own, entry.payment ∉ ps.map Payment.id := by
    intro entry hentry hmem
    obtain ⟨p, hp, hid⟩ := List.mem_map.mp hmem
    exact ne_of_minted names (h.names.symm ▸ injective) (hminted entry hentry) (h.committed p hp) hid
  refine ⟨names.trans h.names, rows ▸ h.read, h.regular, fun p hp => (h.committed p hp).mono names
    inserted, fun entry hentry => ?_, fun x => ?_, fun entry hentry hid => ?_⟩
  · rw [entries] at hentry
    rcases List.mem_append.mp hentry with hentry | hentry
    · exact (h.entered entry hentry).mono names inserted
    · exact (hminted entry hentry).of_le (Nat.zero_le _)
  · rw [LedgerStore.statement_of_entries entries, List.filter_append, ← h.listed x]
    have hnone : ((own.filter fun entry => decide (entry.account = x)).map
        StatementEntry.payment).filter (fun id => decide (id ∈ ps.map Payment.id)) = [] := by
      refine List.filter_eq_nil_iff.mpr fun id hid => ?_
      obtain ⟨entry, hentry, rfl⟩ := List.mem_map.mp hid
      simpa using hnew entry (List.mem_filter.mp hentry).1
    rw [hnone, List.append_nil]
  · rw [entries] at hentry
    rcases List.mem_append.mp hentry with hentry | hentry
    · exact (h.others entry hentry hid).append deed
    · exact vain entry hentry

/-- **A call keeps statements and log in agreement**, whatever it comes to. -/
theorem call (h : e₀.Agreed deeds (e₀.afterAll deeds) ps)
    (injective : Function.Injective e₀.mint.paymentId) {faults : Interference}
    (keeps : faults.KeepsStatements) (instruction : Instruction) :
    ∃ ps', e₀.Agreed (deeds ++ [.call faults instruction])
      ((e₀.afterAll deeds).after (.call faults instruction)) ps' := by
  obtain ⟨f, hcloses, hholds, own, hentries, hbacked, hminted⟩ :=
    (e₀.afterAll deeds).call_files keeps instruction
  rcases hholds.rows with ⟨hrows, hnot⟩ | ⟨row, p, hp, hread, hp', hrows⟩
  · refine ⟨ps, h.fail injective _ hholds.names hholds.inserted hrows hentries hminted ?_⟩
    intro entry hentry
    cases hresult : ((e₀.afterAll deeds).call faults
        (instruction.program (e₀.afterAll deeds).retries)).1 with
    | error error =>
      refine ⟨deeds, faults, instruction, [], error, rfl, hresult, ?_⟩
      rw [afterAll_append]
      exact hminted entry hentry
    | ok outcome =>
      -- the call has recorded nothing and succeeded, so it has sent nothing
      rcases hcloses outcome hresult with ⟨p, hp, -⟩ | ⟨-, hblank, -⟩
      · exact absurd hp (hnot p)
      · rw [hblank] at hbacked
        have hnone : own = [] := hbacked
        rw [hnone] at hentry
        cases hentry
  · obtain ⟨d, id, now, hd, rfl, hfile⟩ := hholds.inOrder p hp
    rw [hfile] at hbacked
    have hown : own = d.row.listedFor.map fun account => (⟨account, id⟩ : StatementEntry) := by
      have hown : own = (File.requests d id).map StatementRequest.entry := hbacked
      rw [hown, File.requests, List.map_map, hd.statements_eq]
      rfl
    have hregular : (d.row.recorded id now).Regular := by
      refine hd.regular (fun q hq => ?_) id now
      obtain ⟨row, hrow, hread⟩ := hholds.found q hq
      exact h.regular q (h.read.mem_of_read hrow hread)
    exact ⟨_, h.record injective _ hholds.names hholds.inserted hread hrows hregular hp'
      (hown ▸ hentries)⟩

theorem step (h : e₀.Agreed deeds (e₀.afterAll deeds) ps)
    (injective : Function.Injective e₀.mint.paymentId) {d : Deed} (keeps : d.KeepsStatements) :
    ∃ ps', e₀.Agreed (deeds ++ [d]) (e₀.afterAll (deeds ++ [d])) ps' := by
  rw [afterAll_append]
  cases d with
  | call faults instruction => exact h.call injective keeps instruction
  | operate command =>
    exact ⟨ps, h.same _ rfl le_rfl rfl (Ledger.entries_perform _ _ _ keeps)⟩
  | setClock now => exact ⟨ps, h.same _ rfl le_rfl rfl rfl⟩
  | closeLedger => exact ⟨ps, h.same _ rfl le_rfl rfl rfl⟩
  | closeLog => exact ⟨ps, h.same _ rfl le_rfl rfl rfl⟩
  | reopen => exact ⟨ps, h.same _ rfl le_rfl rfl rfl⟩

end Agreed

theorem agreed_start {e : Engine} (rows : e.log.rows.rows = [])
    (entries : e.ledger.store.entries = []) : e.Agreed [] e [] where
  names := rfl
  read := by
    rw [rows]
    rfl
  regular := by simp
  committed := by simp
  entered := by simp [entries]
  listed x := by simp [LedgerStore.statement, entries]
  others := by simp [entries]

theorem agreed_afterAll {e : Engine} (rows : e.log.rows.rows = [])
    (entries : e.ledger.store.entries = []) (injective : Function.Injective e.mint.paymentId)
    {deeds : List Deed} (keeps : ∀ d ∈ deeds, d.KeepsStatements) :
    ∃ ps, e.Agreed deeds (e.afterAll deeds) ps := by
  induction deeds using List.reverseRecOn with
  | nil => exact ⟨[], agreed_start rows entries⟩
  | append_singleton deeds d ih =>
    obtain ⟨ps, h⟩ := ih fun d hd => keeps d (List.mem_append_left _ hd)
    exact h.step injective (keeps d (List.mem_append_right _ (List.mem_singleton_self d)))

/-- The entries of an account that belong to rows of the log are the payments listed for it, each once
and in the order of the log; any other entry carries a name that was given by a call which returned an
error. -/
def StatementsAgree (e : Engine) (deeds : List Deed) : Prop :=
  ∃ ps, ReadAs (e.afterAll deeds).log.rows.rows ps ∧ (ps.map Payment.id).Nodup ∧
    ∀ x,
      (((e.afterAll deeds).ledger.store.statement x).filter
          fun id => decide (id ∈ ps.map Payment.id)) =
        (ps.filter fun p => p.listedOn x).map Payment.id ∧
      ∀ id ∈ (e.afterAll deeds).ledger.store.statement x, id ∉ ps.map Payment.id →
        e.MintedInVain deeds id

/-- **Statements and payment log agree** after any number of calls that start from empty stores, and
no attempt that is lost leaves an entry. -/
theorem statements_agree {e : Engine} (rows : e.log.rows.rows = [])
    (entries : e.ledger.store.entries = []) (injective : Function.Injective e.mint.paymentId)
    {deeds : List Deed} (keeps : ∀ d ∈ deeds, d.KeepsStatements) :
    e.StatementsAgree deeds ∧
      ∀ (i : Interference) (customer merchant : AccountId)
        (decide : Account → Account → Except MoveError Decision) (x : Execution),
        i.KeepsStatements →
          (Execution.run i (Flow.attempt customer merchant decide) x).1 = .lost →
            (Execution.run i (Flow.attempt customer merchant decide) x).2.entries = x.entries := by
  refine ⟨?_, fun i customer merchant decide x hkeeps hlost =>
    Execution.entries_of_lost hkeeps customer merchant decide x hlost⟩
  obtain ⟨ps, h⟩ := agreed_afterAll rows entries injective keeps
  refine ⟨ps, h.read, h.read.nodup_ids, fun x => ⟨h.listed x, fun id hid hnot => ?_⟩⟩
  obtain ⟨entry, hentry, rfl⟩ := Agreed.exists_entry hid
  exact h.others entry hentry hnot

end Engine

/-! ## An entry without a row -/

/-- Faults whose other writers keep the statements. -/
theorem Interference.keepsStatements_ofFaults {faults : List Fault}
    (h : ∀ f ∈ faults, ∀ c ∈ f.before ++ f.after, c.keepsStatements = true) :
    (Interference.ofFaults faults).KeepsStatements := by
  intro commands hcommands c hc
  have hkeeps : ∀ P : Fault → Bool, ∀ side : Fault → List Ledger.Command,
      (∀ f, ∀ c ∈ side f, c ∈ f.before ++ f.after) →
        c ∈ (faults.filter P).flatMap side → c.keepsStatements = true := by
    intro P side hside hmem
    obtain ⟨f, hf, hc⟩ := List.mem_flatMap.mp hmem
    exact h f (List.mem_filter.mp hf).1 c (hside f c hc)
  have hbefore := fun P => hkeeps P Fault.before fun _ _ => List.mem_append_left _
  have hafter := fun P => hkeeps P Fault.after fun _ _ => List.mem_append_right _
  cases hcommands with
  | beforeLedger => exact hbefore _ hc
  | afterLedger => exact hafter _ hc
  | beforeLog => exact hbefore _ hc
  | afterLog => exact hafter _ hc
  | beforeAppend => exact hbefore _ hc
  | afterAppend => exact hafter _ hc
  | beforeEnd => exact hbefore _ hc
  | afterEnd => exact hafter _ hc

namespace OrphanedEntry

open Sample

/-- The entry of the merchant is refused. -/
def refusal : Interference := .ofFaults
  [{ site := .append, account := some merchant, instead := some (.stream (.rejected "gone")) }]

/-- The merchant is written by somebody else just before the first attempt writes it. -/
def race : Interference := .ofFaults
  [{ site := .updateBalance, account := some merchant,
     before := [.deposit merchantDetails.card.number (units 5)] }]

/-- Two accounts are opened; of two authorizations the first fails and the second is retried. -/
def deeds : List Deed :=
  [.operate (.create customerDetails), .operate (.create merchantDetails),
    .operate (.deposit card.number (units 100)), .call refusal (.authorize (request (units 40))),
    .call race (.authorize (request (units 40)))]

theorem keepsStatements_race : race.KeepsStatements :=
  Interference.keepsStatements_ofFaults (by decide)

theorem keeps : ∀ d ∈ deeds, d.KeepsStatements := by
  have hrefusal : refusal.KeepsStatements := Interference.keepsStatements_ofFaults (by decide)
  simp [deeds, Deed.KeepsStatements, Ledger.Command.keepsStatements, hrefusal, keepsStatements_race]

/-- The first attempt of the second authorization. -/
def attempt : Flow.Attempt × Execution :=
  Execution.run race (Flow.attempt customer merchant (decideAuthorization (request (units 40))))
    { engine := engine }

theorem lost_attempt : attempt.1 = .lost := rfl

/-- The first authorization has left an entry on the statement of the customer; only the second is in
the log, and its lost attempt has left none. -/
theorem statements_agree_orphanedEntry :
    ((∀ d ∈ deeds, d.KeepsStatements) ∧ ({ mint := .unary } : Engine).StatementsAgree deeds ∧
      (({ mint := .unary } : Engine).afterAll deeds).ledger.store.statement customer =
        [Mint.unary.paymentId 0, Mint.unary.paymentId 1] ∧
      (({ mint := .unary } : Engine).afterAll deeds).ledger.store.statement merchant =
        [Mint.unary.paymentId 1] ∧
      (({ mint := .unary } : Engine).afterAll deeds).log.rows.rows.map PaymentRow.id =
        [Mint.unary.paymentId 1]) ∧
    race.KeepsStatements ∧ attempt.1 = .lost ∧ attempt.2.entries = engine.ledger.store.entries :=
  have agree := Engine.statements_agree (e := { mint := .unary }) rfl rfl
    Mint.injective_paymentId_unary keeps
  ⟨⟨keeps, agree.1, by decide +kernel, by decide +kernel, by decide +kernel⟩,
    keepsStatements_race, lost_attempt,
    agree.2 race customer merchant (decideAuthorization (request (units 40))) { engine := engine }
      keepsStatements_race lost_attempt⟩

end OrphanedEntry

end CardHolds
